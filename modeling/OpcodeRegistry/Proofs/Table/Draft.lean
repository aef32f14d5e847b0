import OpcodeRegistry.Proofs.Table.Acceptance

/-! # Drafts describe what was accepted

The invariant of building a table: after any number of accepted declarations the draft holds just
these, in order, and its two maps are indexes of their names and of the codes they own. With it the
checks of a draft say the same as `Fits`, so a list of declarations builds a table if and only if it
is accepted, and then the table is that of its entries.
-/

namespace OpcodeRegistry

namespace Draft

/-- The draft holds the given entries, in order, and finds them by their names and owned codes. -/
structure Describes (d : Draft) (entries : List Entry) : Prop where
  toList_entries : d.entries.toList = entries
  names : Indexes d.names (fun e => some e.mnemonic) entries
  owners : Indexes d.owners Entry.ownedCode? entries

namespace Describes

variable {d : Draft} {entries : List Entry}

theorem getElem?_entries (h : Describes d entries) (i : Nat) : d.entries[i]? = entries[i]? := by
  rw [← h.toList_entries, Array.getElem?_toList]

/-- The declaration found under a name is the one that has it. -/
theorem find?_eq_some_iff (h : Describes d entries) {name : String} {e : Entry} :
    d.find? name = some e ↔ e ∈ entries ∧ e.mnemonic = name := by
  unfold find?
  simp only [h.getElem?_entries]
  rw [h.names.bind_eq_some_iff, Option.some.injEq]

theorem find?_eq_none_iff (h : Describes d entries) {name : String} :
    d.find? name = none ↔ ∀ e ∈ entries, e.mnemonic ≠ name := by
  unfold find?
  simp only [h.getElem?_entries]
  rw [h.names.bind_eq_none_iff]
  simp only [ne_eq, Option.some.injEq]

/-- The owner found under a code is the canonical declaration of it, never an alias. -/
theorem owner?_eq_some_iff (h : Describes d entries) {c : Code} {e : Entry} :
    d.owner? c = some e ↔ e ∈ entries ∧ e.aliasOf = none ∧ e.code = c := by
  unfold owner?
  simp only [h.getElem?_entries]
  rw [h.owners.bind_eq_some_iff, Entry.ownedCode?_eq_some_iff]

theorem owner?_eq_none_iff (h : Describes d entries) {c : Code} :
    d.owner? c = none ↔ ∀ e ∈ entries, e.aliasOf = none → e.code ≠ c := by
  unfold owner?
  simp only [h.getElem?_entries]
  rw [h.owners.bind_eq_none_iff]
  simp only [ne_eq, Entry.ownedCode?_eq_some_iff, not_and]

theorem mem_names_iff (h : Describes d entries) {name : String} :
    name ∈ d.names ↔ ∃ e ∈ entries, e.mnemonic = name := by
  rw [h.names.mem_iff]
  simp only [Option.some.injEq]

/-! ## One declaration more -/

theorem empty : Describes {} [] :=
  ⟨rfl, Indexes.empty, Indexes.empty⟩

/-- Taking in a declaration that fits keeps the invariant. -/
theorem push {width : CodeWidth} (h : Describes d entries) {e : Entry}
    (hfits : Fits width entries e) : Describes (d.push e) (entries ++ [e]) := by
  have hsize : d.entries.size = entries.length := by
    rw [← h.toList_entries, Array.length_toList]
  refine ⟨?_, ?_, ?_⟩
  · simp [Draft.push, h.toList_entries]
  · -- each map gets the position behind the entries so far, if it gets anything
    simp only [Draft.push, hsize]
    apply h.names.insert rfl
    intro a ha hkey
    exact hfits.new_name a ha (Option.some.inj hkey)
  · simp only [Draft.push, hsize]
    cases halias : e.aliasOf with
    | none =>
        have hcanonical : e.isAlias = false := by simp [Entry.isAlias, halias]
        rw [hcanonical]
        apply h.owners.insert (Entry.ownedCode?_eq_some_iff.mpr ⟨halias, rfl⟩)
        intro a ha hkey
        rcases Entry.ownedCode?_eq_some_iff.mp hkey with ⟨hca, hcode⟩
        exact hfits.new_owner halias a ha hca hcode
    | some name =>
        have hisAlias : e.isAlias = true := by simp [Entry.isAlias, halias]
        -- an alias owns no code, so the owners stay as they are
        rw [hisAlias]
        exact h.owners.skip (by simp [Entry.ownedCode?, hisAlias])

/-! ## The checks of a draft -/

theorem aliasOffence?_eq_none_iff (h : Describes d entries) {e : Entry} {name : String} :
    d.aliasOffence? e name = none ↔
      ∃ t ∈ entries, t.mnemonic = name ∧ t.aliasOf = none ∧ t.code = e.code := by
  unfold aliasOffence?
  cases hfind : d.find? name with
  | none =>
      have hno := h.find?_eq_none_iff.mp hfind
      constructor
      · intro hcontra
        exact absurd hcontra (by simp)
      · rintro ⟨t, ht, hname, -⟩
        exact absurd hname (hno t ht)
  | some target =>
      rcases h.find?_eq_some_iff.mp hfind with ⟨hmem, hname⟩
      have hisAlias : target.isAlias = true ↔ target.aliasOf ≠ none := by
        simp [Entry.isAlias, Option.isSome_iff_ne_none]
      constructor
      · intro hnone
        by_cases halias : target.isAlias = true
        · simp [halias] at hnone
        · by_cases hcode : target.code = e.code
          · refine ⟨target, hmem, hname, ?_, hcode⟩
            rw [hisAlias, not_not] at halias
            exact halias
          · simp [halias, hcode] at hnone
      · rintro ⟨t, ht, htname, hcanonical, hcode⟩
        -- a name stands for one declaration only
        have heq : some t = some target :=
          (h.find?_eq_some_iff.mpr ⟨ht, htname⟩).symm.trans hfind
        rw [← Option.some.inj heq]
        simp [Entry.isAlias, hcanonical, hcode]

theorem ownerOffence?_eq_none_iff (h : Describes d entries) {e : Entry} :
    d.ownerOffence? e = none ↔ ∀ a ∈ entries, a.aliasOf = none → a.code ≠ e.code := by
  unfold ownerOffence?
  rw [Option.map_eq_none_iff, h.owner?_eq_none_iff]

/-- Where name and code are in order, only the canonical mnemonic or the owner can be wrong. -/
theorem offence?_eq_elim {width : CodeWidth} {e : Entry} (hempty : ¬ e.mnemonic.isEmpty = true)
    (hname : IsMnemonic e.mnemonic) (hcode : e.code ∈ width) (hnew : e.mnemonic ∉ d.names) :
    d.offence? width e = e.aliasOf.elim (d.ownerOffence? e) (d.aliasOffence? e) := by
  unfold offence?
  rw [if_neg hempty, if_neg (not_not.mpr hname), if_neg (not_not.mpr hcode), if_neg hnew]
  cases e.aliasOf with
  | none => rfl
  | some name => rfl

/-- Nothing is wrong with a declaration if and only if it fits those before it. -/
theorem offence?_eq_none_iff (h : Describes d entries) {width : CodeWidth} {e : Entry} :
    d.offence? width e = none ↔ Fits width entries e := by
  -- the last check is one of the code or one of the target, by whether the entry is an alias
  have hlink : e.aliasOf.elim (d.ownerOffence? e) (d.aliasOffence? e) = none ↔
      (e.aliasOf = none → ∀ a ∈ entries, a.aliasOf = none → a.code ≠ e.code) ∧
      ∀ c ∈ e.aliasOf, ∃ t ∈ entries, t.mnemonic = c ∧ t.aliasOf = none ∧ t.code = e.code := by
    cases e.aliasOf with
    | none => simp [h.ownerOffence?_eq_none_iff]
    | some name => simp [h.aliasOffence?_eq_none_iff]
  have hnames : e.mnemonic ∉ d.names ↔ ∀ a ∈ entries, a.mnemonic ≠ e.mnemonic := by
    rw [h.mem_names_iff]
    simp
  rw [fits_iff, ← hlink, ← hnames]
  by_cases hempty : e.mnemonic.isEmpty = true
  · -- an empty name is no identifier, so nothing fits on the other side either
    have hname : ¬ IsMnemonic e.mnemonic := by
      rw [String.isEmpty_iff.mp hempty]
      decide
    simp [offence?, hempty, hname]
  · by_cases hname : IsMnemonic e.mnemonic
    · by_cases hcode : e.code ∈ width
      · by_cases hnew : e.mnemonic ∈ d.names
        · simp [offence?, hempty, hname, hcode, hnew]
        · -- all checks but the last one have passed
          rw [offence?_eq_elim hempty hname hcode hnew]
          constructor
          · intro hlinked
            exact ⟨hname, hcode, hnew, hlinked⟩
          · rintro ⟨-, -, -, hlinked⟩
            exact hlinked
      · simp [offence?, hempty, hname, hcode]
    · simp [offence?, hempty, hname]

end Describes

/-! ## A whole list of declarations -/

variable {width : CodeWidth} {declarations : List Entry}

theorem accept_eq_ok_iff {d d' : Draft} {e : Entry} (h : Describes d declarations) :
    accept width d e = .ok d' ↔ Fits width declarations e ∧ d' = d.push e := by
  rw [← h.offence?_eq_none_iff]
  unfold accept
  cases d.offence? width e with
  | none => simp [eq_comm]
  | some error => simp

/-- The run of the invariant: accepted declarations are described by the draft made of them. -/
theorem describes_foldl_push (h : Accepted width declarations) :
    Describes (declarations.foldl push {}) declarations := by
  induction h with
  | nil => exact Describes.empty
  | snoc _ hfits ih =>
      rw [List.foldl_append]
      exact ih.push hfits

/-- What stands behind other declarations is held against the draft of those. -/
theorem ofDeclarations_append (width : CodeWidth) (before after : List Entry) :
    ofDeclarations width (before ++ after) =
      (ofDeclarations width before).bind (after.foldlM (accept width)) := by
  unfold ofDeclarations
  rw [List.foldlM_append]
  rfl

theorem ofDeclarations_concat_eq_ok_iff {d' : Draft} {e : Entry} :
    ofDeclarations width (declarations ++ [e]) = .ok d' ↔
      ∃ d, ofDeclarations width declarations = .ok d ∧ accept width d e = .ok d' := by
  rw [ofDeclarations_append]
  cases ofDeclarations width declarations with
  | error error => simp [Except.bind]
  | ok d => simp [Except.bind]

/-- The declarations go through if and only if they are accepted, and then the draft describes
them. -/
theorem ofDeclarations_eq_ok_iff {d : Draft} :
    ofDeclarations width declarations = .ok d ↔
      Accepted width declarations ∧ d = declarations.foldl push {} := by
  -- the draft of all but the last declaration is the one that the last is checked against
  induction declarations using List.reverseRecOn generalizing d with
  | nil =>
      constructor
      · intro h
        exact ⟨Accepted.nil, (Except.ok.inj h).symm⟩
      · rintro ⟨-, rfl⟩
        rfl
  | append_singleton declarations e ih =>
      rw [ofDeclarations_concat_eq_ok_iff, List.foldl_append, Accepted.concat_iff]
      simp only [List.foldl_cons, List.foldl_nil]
      constructor
      · intro h
        obtain ⟨before, hbefore, haccept⟩ := h
        obtain ⟨hacc, rfl⟩ := ih.mp hbefore
        obtain ⟨hfits, rfl⟩ := (accept_eq_ok_iff (describes_foldl_push hacc)).mp haccept
        exact ⟨⟨hacc, hfits⟩, rfl⟩
      · rintro ⟨⟨hacc, hfits⟩, rfl⟩
        have haccept := (accept_eq_ok_iff (describes_foldl_push hacc)).mpr ⟨hfits, rfl⟩
        exact ⟨_, ih.mpr ⟨hacc, rfl⟩, haccept⟩

end Draft

/-! ## Building a table -/

/-- Declarations build a table if and only if they are accepted, and it is the table of just these
entries. -/
theorem Table.build_eq_ok_iff {width : CodeWidth} {declarations : List Entry} {t : Table} :
    build width declarations = .ok t ↔
      Accepted width declarations ∧ t = ofEntries width declarations := by
  unfold build
  cases hdraft : Draft.ofDeclarations width declarations with
  | error error =>
      constructor
      · intro h
        exact absurd h (by simp [Except.map])
      · rintro ⟨hacc, -⟩
        -- accepted declarations go through, so there is no error
        rw [Draft.ofDeclarations_eq_ok_iff.mpr ⟨hacc, rfl⟩] at hdraft
        exact absurd hdraft (by simp)
  | ok draft =>
      rcases Draft.ofDeclarations_eq_ok_iff.mp hdraft with ⟨hacc, rfl⟩
      simp only [Except.map, Except.ok.injEq]
      rw [(Draft.describes_foldl_push hacc).toList_entries]
      constructor
      · rintro rfl
        exact ⟨hacc, rfl⟩
      · rintro ⟨-, rfl⟩
        rfl

end OpcodeRegistry
