import OpcodeRegistry.Proofs.CodeWidth
import OpcodeRegistry.Proofs.Table.Draft

/-! # The first offence

What can be wrong with a declaration is said here rule by rule, without drafts or indexes: `Breaks`
states each rule alone, and `IsOffence` picks the first broken one in the order of
`TableError.rank`. A list of declarations is refused for the first offence of the first declaration
that does not fit those before it, so nothing that stands behind that declaration changes the
answer.
-/

namespace OpcodeRegistry

/-- A rule that the declaration `e` breaks behind the declarations `before`, as the error that tells
of it. The owner of a code is canonical, so no collision is ever with an alias. -/
inductive Breaks (width : CodeWidth) (before : List Entry) (e : Entry) : TableError → Prop where
  | emptyMnemonic (h : e.mnemonic = "") : Breaks width before e (.emptyMnemonic e.code)
  | invalidMnemonic (h : ¬ IsMnemonic e.mnemonic) :
      Breaks width before e (.invalidMnemonic e.mnemonic)
  | codeOutOfRange (h : 2 ^ width.bits ≤ e.code.toNat) :
      Breaks width before e (.codeOutOfRange e.mnemonic e.code width)
  | duplicateMnemonic {d : Entry} (hd : d ∈ before) (h : d.mnemonic = e.mnemonic) :
      Breaks width before e (.duplicateMnemonic e.mnemonic)
  | unknownCanonical {name : String} (halias : e.aliasOf = some name)
      (h : ∀ d ∈ before, d.mnemonic ≠ name) :
      Breaks width before e (.unknownCanonical e.mnemonic name)
  | aliasOfAlias {name : String} {d : Entry} (halias : e.aliasOf = some name) (hd : d ∈ before)
      (hname : d.mnemonic = name) (h : d.aliasOf ≠ none) :
      Breaks width before e (.aliasOfAlias e.mnemonic name)
  | aliasCodeMismatch {name : String} {d : Entry} (halias : e.aliasOf = some name)
      (hd : d ∈ before) (hname : d.mnemonic = name) (h : d.code ≠ e.code) :
      Breaks width before e (.aliasCodeMismatch e.mnemonic name e.code d.code)
  | codeCollision {d : Entry} (hcanonical : e.aliasOf = none) (hd : d ∈ before)
      (howner : d.aliasOf = none) (h : d.code = e.code) :
      Breaks width before e (.codeCollision e.code d.mnemonic e.mnemonic)

/-- The place of a rule in the order in which the rules are asked. -/
def TableError.rank : TableError → Nat
  | emptyMnemonic .. => 0
  | invalidMnemonic .. => 1
  | codeOutOfRange .. => 2
  | duplicateMnemonic .. => 3
  | unknownCanonical .. => 4
  | aliasOfAlias .. => 5
  | aliasCodeMismatch .. => 6
  | codeCollision .. => 7

/-- What a declaration is refused for: the first rule in order that it breaks. -/
structure IsOffence (width : CodeWidth) (before : List Entry) (e : Entry) (error : TableError) :
    Prop where
  breaks : Breaks width before e error
  first : ∀ other, Breaks width before e other → error.rank ≤ other.rank

namespace Breaks

variable {width : CodeWidth} {before : List Entry} {e : Entry} {error error' : TableError}

/-- What fits breaks no rule, where no name comes twice. -/
theorem not_of_fits (hnames : DistinctKeys (fun d => some d.mnemonic) before)
    (hfits : Fits width before e) : ¬ Breaks width before e error := by
  intro h
  cases h with
  | emptyMnemonic h =>
      have hname := hfits.isMnemonic
      rw [h] at hname
      exact absurd hname (by decide)
  | invalidMnemonic h => exact h hfits.isMnemonic
  | codeOutOfRange h =>
      have hcode := CodeWidth.mem_iff.mp hfits.code_mem
      omega
  | duplicateMnemonic hd h => exact hfits.new_name _ hd h
  | unknownCanonical halias h =>
      rcases hfits.target _ halias with ⟨d, hd, hname, -⟩
      exact h d hd hname
  | aliasOfAlias halias hd hname h =>
      -- the entry that fits is the one that the rule speaks of, since both have the name
      rcases hfits.target _ halias with ⟨d', hd', hname', hcanonical, -⟩
      have heq := hnames.eq_of_mem hd' hd (congrArg some hname') (congrArg some hname)
      exact h (heq ▸ hcanonical)
  | aliasCodeMismatch halias hd hname h =>
      rcases hfits.target _ halias with ⟨d', hd', hname', -, hcode⟩
      have heq := hnames.eq_of_mem hd' hd (congrArg some hname') (congrArg some hname)
      exact h (heq ▸ hcode)
  | codeCollision hcanonical hd howner h => exact hfits.new_owner hcanonical _ hd howner h

/-- A broken rule has one error, where no name comes twice and no code has two owners. -/
theorem eq_of_rank_eq (hnames : DistinctKeys (fun d => some d.mnemonic) before)
    (howners : DistinctKeys Entry.ownedCode? before) (h : Breaks width before e error)
    (h' : Breaks width before e error') (hrank : error.rank = error'.rank) : error = error' := by
  -- the rank tells the rule, so that both errors are of one kind; what is left is to compare fields
  cases h with
  | emptyMnemonic _ =>
      cases h' with
      | emptyMnemonic _ => rfl
      | _ => simp [TableError.rank] at hrank
  | invalidMnemonic _ =>
      cases h' with
      | invalidMnemonic _ => rfl
      | _ => simp [TableError.rank] at hrank
  | codeOutOfRange _ =>
      cases h' with
      | codeOutOfRange _ => rfl
      | _ => simp [TableError.rank] at hrank
  | duplicateMnemonic _ _ =>
      cases h' with
      | duplicateMnemonic _ _ => rfl
      | _ => simp [TableError.rank] at hrank
  -- up to here the fields are those of the declaration; from here on some are what it names
  | unknownCanonical halias _ =>
      cases h' with
      | unknownCanonical halias' _ => rw [Option.some.inj (halias.symm.trans halias')]
      | _ => simp [TableError.rank] at hrank
  | aliasOfAlias halias _ _ _ =>
      cases h' with
      | aliasOfAlias halias' _ _ _ => rw [Option.some.inj (halias.symm.trans halias')]
      | _ => simp [TableError.rank] at hrank
  | aliasCodeMismatch halias hd hname _ =>
      cases h' with
      | aliasCodeMismatch halias' hd' hname' _ =>
          have hsame := Option.some.inj (halias.symm.trans halias')
          -- the code that was expected is that of the entry named, and a name has one entry
          have heq := hnames.eq_of_mem hd hd' (congrArg some hname)
            (congrArg some (hname'.trans hsame.symm))
          rw [hsame, heq]
      | _ => simp [TableError.rank] at hrank
  | codeCollision _ hd howner hcode =>
      cases h' with
      | codeCollision _ hd' howner' hcode' =>
          -- the mnemonic in the error is that of the owner, and a code has one owner
          have heq := howners.eq_of_mem hd hd' (Entry.ownedCode?_eq_some_iff.mpr ⟨howner, hcode⟩)
            (Entry.ownedCode?_eq_some_iff.mpr ⟨howner', hcode'⟩)
          rw [heq]
      | _ => simp [TableError.rank] at hrank

/-! ## The order of the rules -/

theorem one_le_rank (hne : e.mnemonic ≠ "") (h : Breaks width before e error) :
    1 ≤ error.rank := by
  cases h with
  | emptyMnemonic h => exact absurd h hne
  | _ => simp [TableError.rank]

theorem two_le_rank (hname : IsMnemonic e.mnemonic) (h : Breaks width before e error) :
    2 ≤ error.rank := by
  cases h with
  | emptyMnemonic h =>
      rw [h] at hname
      exact absurd hname (by decide)
  | invalidMnemonic h => exact absurd hname h
  | _ => simp [TableError.rank]

theorem three_le_rank (hname : IsMnemonic e.mnemonic) (hcode : e.code ∈ width)
    (h : Breaks width before e error) : 3 ≤ error.rank := by
  have hrank := two_le_rank hname h
  have hlt := CodeWidth.mem_iff.mp hcode
  cases h with
  | codeOutOfRange h => omega
  | _ => simp [TableError.rank] at hrank ⊢

theorem four_le_rank (hname : IsMnemonic e.mnemonic) (hcode : e.code ∈ width)
    (hnew : ∀ d ∈ before, d.mnemonic ≠ e.mnemonic) (h : Breaks width before e error) :
    4 ≤ error.rank := by
  have hrank := three_le_rank hname hcode h
  cases h with
  | duplicateMnemonic hd h => exact absurd h (hnew _ hd)
  | _ => simp [TableError.rank] at hrank ⊢

/-- The rules about the canonical mnemonic ask nothing of a canonical declaration. -/
theorem seven_le_rank (hcanonical : e.aliasOf = none) (hrank : 4 ≤ error.rank)
    (h : Breaks width before e error) : 7 ≤ error.rank := by
  cases h with
  | codeCollision _ _ _ _ => exact Nat.le_refl 7
  | unknownCanonical halias _ => exact absurd (hcanonical.symm.trans halias) (by simp)
  | aliasOfAlias halias _ _ _ => exact absurd (hcanonical.symm.trans halias) (by simp)
  | aliasCodeMismatch halias _ _ _ => exact absurd (hcanonical.symm.trans halias) (by simp)
  | _ => simp [TableError.rank] at hrank

end Breaks

namespace IsOffence

variable {width : CodeWidth} {before : List Entry} {e : Entry} {error : TableError}

/-- What is refused by a rule behind that of names has a good name. -/
theorem isMnemonic (h : IsOffence width before e error) (hrank : 2 ≤ error.rank) :
    IsMnemonic e.mnemonic := by
  by_contra hname
  have hle : error.rank ≤ 1 := h.first _ (.invalidMnemonic hname)
  omega

/-- What is refused by a rule behind that of codes has a good code. -/
theorem code_mem (h : IsOffence width before e error) (hrank : 3 ≤ error.rank) :
    e.code ∈ width := by
  rw [CodeWidth.mem_iff]
  by_contra hcode
  have hle : error.rank ≤ 2 := h.first _ (.codeOutOfRange (Nat.not_lt.mp hcode))
  omega

end IsOffence

/-! ## The checks of a draft -/

namespace Draft.Describes

variable {d : Draft} {entries : List Entry} {width : CodeWidth} {e : Entry} {error : TableError}

/-- Where only the canonical mnemonic can be wrong, the draft finds the first rule that is. -/
theorem isOffence_of_aliasOffence? (h : Describes d entries) {name : String}
    (halias : e.aliasOf = some name)
    (hrank : ∀ other, Breaks width entries e other → 4 ≤ other.rank)
    (hoffence : d.aliasOffence? e name = some error) : IsOffence width entries e error := by
  have hsame : ∀ {name'}, e.aliasOf = some name' → name' = name := by
    intro name' halias'
    exact Option.some.inj (halias'.symm.trans halias)
  unfold aliasOffence? at hoffence
  cases hfind : d.find? name with
  | none =>
      rw [hfind] at hoffence
      obtain rfl := Option.some.inj hoffence
      exact ⟨.unknownCanonical halias (h.find?_eq_none_iff.mp hfind), hrank⟩
  | some target =>
      rcases h.find?_eq_some_iff.mp hfind with ⟨hmem, hname⟩
      simp only [hfind] at hoffence
      have hknown : ∀ other, Breaks width entries e other → 5 ≤ other.rank := by
        intro other hother
        have hfour := hrank other hother
        cases hother with
        | unknownCanonical halias' hnone =>
            exact absurd (hname.trans (hsame halias').symm) (hnone target hmem)
        | _ => simp [TableError.rank] at hfour ⊢
      by_cases htarget : target.isAlias = true
      · simp only [htarget, if_true, Option.some.injEq] at hoffence
        subst hoffence
        have hne : target.aliasOf ≠ none := Option.isSome_iff_ne_none.mp htarget
        exact ⟨.aliasOfAlias halias hmem hname hne, hknown⟩
      · rw [if_neg htarget] at hoffence
        have hcanonical : target.aliasOf = none := by simpa [Entry.isAlias] using htarget
        by_cases hcode : target.code = e.code
        · simp [hcode] at hoffence
        · simp only [ne_eq, hcode, not_false_eq_true, if_true, Option.some.injEq] at hoffence
          subst hoffence
          refine ⟨.aliasCodeMismatch halias hmem hname hcode, ?_⟩
          intro other hother
          have hfive := hknown other hother
          cases hother with
          | @aliasOfAlias name' target' halias' hmem' hname' hne =>
              -- the draft knows one declaration of the name, and that is canonical
              have hfind' := h.find?_eq_some_iff.mpr ⟨hmem', hname'.trans (hsame halias')⟩
              obtain rfl := Option.some.inj (hfind.symm.trans hfind')
              exact absurd hcanonical hne
          | _ => simp [TableError.rank] at hfive ⊢

/-- Where only the owner of the code can be wrong, the draft finds it. -/
theorem isOffence_of_ownerOffence? (h : Describes d entries) (hcanonical : e.aliasOf = none)
    (hrank : ∀ other, Breaks width entries e other → 4 ≤ other.rank)
    (hoffence : d.ownerOffence? e = some error) : IsOffence width entries e error := by
  unfold ownerOffence? at hoffence
  rcases Option.map_eq_some_iff.mp hoffence with ⟨existing, hexisting, rfl⟩
  rcases h.owner?_eq_some_iff.mp hexisting with ⟨hmem, howner, hcode⟩
  exact ⟨.codeCollision hcanonical hmem howner hcode,
    fun other hother => hother.seven_le_rank hcanonical (hrank other hother)⟩

/-- What the draft finds wrong with a declaration is the first rule that it breaks. -/
theorem isOffence_of_offence? (h : Describes d entries) (hoffence : d.offence? width e = some error) :
    IsOffence width entries e error := by
  -- each check that passes raises the least rank that an error can have
  unfold offence? at hoffence
  split at hoffence
  · rename_i hempty
    obtain rfl := Option.some.inj hoffence
    exact ⟨.emptyMnemonic (String.isEmpty_iff.mp hempty), fun _ _ => Nat.zero_le _⟩
  · rename_i hempty
    have hne : e.mnemonic ≠ "" := fun heq => hempty (String.isEmpty_iff.mpr heq)
    split at hoffence
    · rename_i hname
      obtain rfl := Option.some.inj hoffence
      exact ⟨.invalidMnemonic hname, fun _ hother => hother.one_le_rank hne⟩
    · rename_i hname
      rw [not_not] at hname
      split at hoffence
      · rename_i hcode
        obtain rfl := Option.some.inj hoffence
        rw [CodeWidth.mem_iff, Nat.not_lt] at hcode
        exact ⟨.codeOutOfRange hcode, fun _ hother => hother.two_le_rank hname⟩
      · rename_i hcode
        rw [not_not] at hcode
        split at hoffence
        · rename_i hold
          obtain rfl := Option.some.inj hoffence
          rcases h.mem_names_iff.mp hold with ⟨a, ha, hsame⟩
          exact ⟨.duplicateMnemonic ha hsame, fun _ hother => hother.three_le_rank hname hcode⟩
        · rename_i hold
          have hnew : ∀ a ∈ entries, a.mnemonic ≠ e.mnemonic := by
            intro a ha hsame
            exact hold (h.mem_names_iff.mpr ⟨a, ha, hsame⟩)
          -- what is left is broken by the alias, or by the code of a canonical entry
          have hrank : ∀ other, Breaks width entries e other → 4 ≤ other.rank :=
            fun _ hother => hother.four_le_rank hname hcode hnew
          split at hoffence
          · rename_i name halias
            exact h.isOffence_of_aliasOffence? halias hrank hoffence
          · rename_i hcanonical
            exact h.isOffence_of_ownerOffence? hcanonical hrank hoffence

/-- The draft finds something wrong with a declaration if and only if that is its offence. -/
theorem offence?_eq_some_iff (h : Describes d entries) (haccepted : Accepted width entries) :
    d.offence? width e = some error ↔ IsOffence width entries e error := by
  constructor
  · exact h.isOffence_of_offence?
  · intro hoffence
    cases hfound : d.offence? width e with
    | none =>
        have hfits := h.offence?_eq_none_iff.mp hfound
        exact absurd hoffence.breaks (Breaks.not_of_fits haccepted.distinct_names hfits)
    | some error' =>
        have hoffence' := h.isOffence_of_offence? hfound
        -- both are the first rule broken, so they have one rank
        have hrank := Nat.le_antisymm (hoffence'.first _ hoffence.breaks)
          (hoffence.first _ hoffence'.breaks)
        rw [hoffence'.breaks.eq_of_rank_eq haccepted.distinct_names haccepted.distinct_owners
          hoffence.breaks hrank]

end Draft.Describes

/-! ## The first declaration with an offence -/

section Fold

variable {α σ ε : Type} {step : σ → α → Except ε σ} {s s' : σ} {error : ε}

/-- Where steps go through and the next one fails, the fold fails, whatever stands behind it. -/
theorem foldlM_append_cons_of_error {before : List α} {a : α} (after : List α)
    (hbefore : before.foldlM step s = .ok s') (ha : step s' a = .error error) :
    (before ++ a :: after).foldlM step s = .error error := by
  rw [List.foldlM_append, hbefore]
  change (a :: after).foldlM step s' = .error error
  rw [List.foldlM_cons, ha]
  rfl

/-- A fold fails as the step fails that comes first of those that do. -/
theorem foldlM_eq_error_iff {l : List α} :
    l.foldlM step s = .error error ↔ ∃ before a after s', l = before ++ a :: after ∧
      before.foldlM step s = .ok s' ∧ step s' a = .error error := by
  constructor
  · intro h
    induction l generalizing s with
    | nil => exact absurd h (by simp [pure, Except.pure])
    | cons b l ih =>
        rw [List.foldlM_cons] at h
        cases hb : step s b with
        | error error' =>
            rw [hb] at h
            -- the first step fails, so nothing stands before it
            exact ⟨[], b, l, s, rfl, rfl, hb.trans h⟩
        | ok next =>
            rw [hb] at h
            obtain ⟨before, a, after, s', rfl, hbefore, ha⟩ := ih h
            refine ⟨b :: before, a, after, s', rfl, ?_, ha⟩
            rw [List.foldlM_cons, hb]
            exact hbefore
  · rintro ⟨before, a, after, s', rfl, hbefore, ha⟩
    exact foldlM_append_cons_of_error after hbefore ha

end Fold

section Declarations

variable {width : CodeWidth} {declarations : List Entry} {error : TableError}

theorem Draft.accept_eq_error_iff {d : Draft} {e : Entry} :
    accept width d e = .error error ↔ d.offence? width e = some error := by
  unfold accept
  cases d.offence? width e with
  | none => simp
  | some error' => simp

/-- Declarations are refused if and only if an accepted part of them is followed by one with an
offence, and it is for that offence. -/
theorem Draft.ofDeclarations_eq_error_iff :
    ofDeclarations width declarations = .error error ↔
      ∃ before e after, declarations = before ++ e :: after ∧ Accepted width before ∧
        IsOffence width before e error := by
  unfold ofDeclarations
  -- the run stops at one declaration, and the draft there is that of the accepted part before
  rw [foldlM_eq_error_iff]
  constructor
  · rintro ⟨before, e, after, d, hsplit, hbefore, he⟩
    rcases ofDeclarations_eq_ok_iff.mp hbefore with ⟨haccepted, rfl⟩
    have hdescribes := describes_foldl_push haccepted
    have hoffence := (hdescribes.offence?_eq_some_iff haccepted).mp (accept_eq_error_iff.mp he)
    exact ⟨before, e, after, hsplit, haccepted, hoffence⟩
  · rintro ⟨before, e, after, hsplit, haccepted, hoffence⟩
    have hdescribes := describes_foldl_push haccepted
    refine ⟨before, e, after, _, hsplit, ofDeclarations_eq_ok_iff.mpr ⟨haccepted, rfl⟩, ?_⟩
    exact accept_eq_error_iff.mpr ((hdescribes.offence?_eq_some_iff haccepted).mpr hoffence)

/-- What a draft is refused for is what the table is refused for. -/
theorem Table.build_eq_error_iff :
    build width declarations = .error error ↔
      ∃ before e after, declarations = before ++ e :: after ∧ Accepted width before ∧
        IsOffence width before e error := by
  rw [← Draft.ofDeclarations_eq_error_iff]
  unfold build
  cases Draft.ofDeclarations width declarations with
  | error error' => simp [Except.map]
  | ok d => simp [Except.map]

/-- What stands behind refused declarations does not count. -/
theorem Table.build_append_of_error (h : build width declarations = .error error)
    (further : List Entry) : build width (declarations ++ further) = .error error := by
  rcases build_eq_error_iff.mp h with ⟨before, e, after, rfl, haccepted, hoffence⟩
  refine build_eq_error_iff.mpr ⟨before, e, after ++ further, ?_, haccepted, hoffence⟩
  rw [List.append_assoc, List.cons_append]

/-! ## Positions -/

theorem Accepted.take_iff {i : Fin declarations.length} :
    Accepted width (declarations.take i) ↔
      ∀ j < i, Fits width (declarations.take j) (declarations.get j) := by
  rw [iff_forall_fits]
  constructor
  · intro h j hj
    -- a position of the front part is one of the whole list, with the same entries before it
    have hlt : j.val < (declarations.take i).length := by simp; omega
    have hfits := h ⟨j, hlt⟩
    simpa [List.take_take, Nat.min_eq_left (Nat.le_of_lt hj)] using hfits
  · rintro h ⟨j, hj⟩
    have hlt : j < i := by
      rw [List.length_take] at hj
      omega
    have hfits := h ⟨j, Nat.lt_trans hlt i.isLt⟩ hlt
    simpa [List.take_take, Nat.min_eq_left (Nat.le_of_lt hlt)] using hfits

/-- The first offence stands at the first position whose declaration does not fit. -/
theorem Table.build_eq_error_iff_position :
    build width declarations = .error error ↔
      ∃ i : Fin declarations.length,
        (∀ j < i, Fits width (declarations.take j) (declarations.get j)) ∧
        ¬ Fits width (declarations.take i) (declarations.get i) ∧
        IsOffence width (declarations.take i) (declarations.get i) error := by
  rw [build_eq_error_iff]
  constructor
  · rintro ⟨before, e, after, rfl, haccepted, hoffence⟩
    have hlt : before.length < (before ++ e :: after).length := by simp
    have htake : (before ++ e :: after).take before.length = before := by simp
    have hget : (before ++ e :: after).get ⟨before.length, hlt⟩ = e := by simp
    refine ⟨⟨before.length, hlt⟩, ?_, ?_, ?_⟩
    · rw [← Accepted.take_iff]
      simpa only [htake] using haccepted
    · intro hfits
      simp only [htake, hget] at hfits
      exact Breaks.not_of_fits haccepted.distinct_names hfits hoffence.breaks
    · simpa only [htake, hget] using hoffence
  · rintro ⟨i, hbefore, -, hoffence⟩
    refine ⟨declarations.take i, declarations.get i, declarations.drop (i + 1), ?_,
      Accepted.take_iff.mpr hbefore, hoffence⟩
    simp

/-- Declarations build a table if and only if each fits those before it. Otherwise the first one that
does not fit decides, by the first rule that it breaks. So the parts in front of accepted
declarations are accepted, and nothing behind refused ones changes the error. -/
theorem Table.build_first_offence (width : CodeWidth) (declarations : List Entry) :
    (∀ c : Code, c ∈ width ↔ c.toNat < 2 ^ width.bits) ∧
    ((∃ t, build width declarations = .ok t) ↔
      ∀ i : Fin declarations.length, Fits width (declarations.take i) (declarations.get i)) ∧
    (∀ error, build width declarations = .error error ↔
      ∃ i : Fin declarations.length,
        (∀ j < i, Fits width (declarations.take j) (declarations.get j)) ∧
        ¬ Fits width (declarations.take i) (declarations.get i) ∧
        IsOffence width (declarations.take i) (declarations.get i) error) ∧
    ∀ further,
      ((∃ t, build width (declarations ++ further) = .ok t) →
        ∃ t, build width declarations = .ok t) ∧
      ∀ error, build width declarations = .error error →
        build width (declarations ++ further) = .error error := by
  refine ⟨fun c => CodeWidth.mem_iff, ?_, fun error => build_eq_error_iff_position, ?_⟩
  · have hfits : Accepted width declarations ↔ ∀ i : Fin declarations.length,
        Fits width (declarations.take i) (declarations.get i) := Accepted.iff_forall_fits
    rw [← hfits]
    constructor
    · rintro ⟨t, ht⟩
      exact (build_eq_ok_iff.mp ht).1
    · intro haccepted
      exact ⟨_, build_eq_ok_iff.mpr ⟨haccepted, rfl⟩⟩
  · intro further
    refine ⟨?_, fun error h => build_append_of_error h further⟩
    rintro ⟨t, ht⟩
    cases hbuild : build width declarations with
    | ok t' => exact ⟨t', rfl⟩
    | error error =>
        -- an error of the front part would be one of the whole
        rw [build_append_of_error hbuild further] at ht
        exact absurd ht (by simp)

/-- The collision is with the owner of the code and not with its alias, and the bad name behind it
does not count. -/
theorem Table.build_first_offence_second_owner :
    build .byte [⟨"SLICE", 5, none⟩, ⟨"SLICE_0", 5, some "SLICE"⟩, ⟨"CUT", 5, none⟩,
      ⟨"halt", 1, none⟩] = .error (.codeCollision 5 "SLICE" "CUT") := by
  refine ((build_first_offence .byte _).2.2.1 _).mpr ⟨2, by decide, by decide, ?_, ?_⟩
  · exact .codeCollision (d := ⟨"SLICE", 5, none⟩) rfl (by decide) rfl rfl
  · intro other hother
    have hrank := hother.four_le_rank (by decide) (by decide) (by decide)
    exact hother.seven_le_rank rfl hrank

end Declarations

end OpcodeRegistry
