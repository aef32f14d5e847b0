import OpcodeRegistry.Proofs.Table.Index

/-! # Acceptable declarations

Which lists of declarations describe a table is said here without drafts or indexes. A declaration
fits those before it if it brings a new name, does not claim an owned code, and names a canonical
entry of the same code if it is an alias; a list is accepted if each of its declarations fits.

In an accepted list the declarations of one code form a family: the canonical one comes first and
all others are its aliases.
-/

namespace OpcodeRegistry

/-- What a declaration has to satisfy behind the declarations `before`. -/
structure Fits (width : CodeWidth) (before : List Entry) (e : Entry) : Prop where
  isMnemonic : IsMnemonic e.mnemonic
  code_mem : e.code ∈ width
  new_name : ∀ d ∈ before, d.mnemonic ≠ e.mnemonic
  /-- A canonical entry claims a code that no canonical entry owns. -/
  new_owner : e.aliasOf = none → ∀ d ∈ before, d.aliasOf = none → d.code ≠ e.code
  /-- An alias names a canonical entry of its own code. -/
  target : ∀ c ∈ e.aliasOf, ∃ d ∈ before, d.mnemonic = c ∧ d.aliasOf = none ∧ d.code = e.code

theorem fits_iff {width : CodeWidth} {before : List Entry} {e : Entry} :
    Fits width before e ↔ IsMnemonic e.mnemonic ∧ e.code ∈ width ∧
      (∀ d ∈ before, d.mnemonic ≠ e.mnemonic) ∧
      (e.aliasOf = none → ∀ d ∈ before, d.aliasOf = none → d.code ≠ e.code) ∧
      ∀ c ∈ e.aliasOf, ∃ d ∈ before, d.mnemonic = c ∧ d.aliasOf = none ∧ d.code = e.code := by
  constructor
  · intro h
    exact ⟨h.isMnemonic, h.code_mem, h.new_name, h.new_owner, h.target⟩
  · rintro ⟨hname, hcode, hnew, howner, htarget⟩
    exact ⟨hname, hcode, hnew, howner, htarget⟩

instance (width : CodeWidth) (before : List Entry) (e : Entry) :
    Decidable (Fits width before e) :=
  decidable_of_iff _ fits_iff.symm

/-- Each declaration fits those before it. -/
inductive Accepted (width : CodeWidth) : List Entry → Prop where
  | nil : Accepted width []
  | snoc {declarations : List Entry} {e : Entry} :
      Accepted width declarations → Fits width declarations e →
      Accepted width (declarations ++ [e])

/-- A canonical entry in front, and behind it nothing but aliases of it. -/
def IsFamily : List Entry → Prop
  | [] => False
  | owner :: rest => owner.aliasOf = none ∧ ∀ e ∈ rest, e.aliasOf = some owner.mnemonic

namespace Accepted

variable {width : CodeWidth} {declarations : List Entry}

/-! ## Position by position -/

theorem concat_iff {e : Entry} :
    Accepted width (declarations ++ [e]) ↔
      Accepted width declarations ∧ Fits width declarations e := by
  constructor
  · intro h
    -- the index has to be a variable for the cases to be taken apart
    generalize hl : declarations ++ [e] = l at h
    cases h with
    | nil => exact absurd hl (by simp)
    | snoc hacc hfits =>
        rcases List.append_inj' hl rfl with ⟨rfl, hlast⟩
        cases hlast
        exact ⟨hacc, hfits⟩
  · rintro ⟨hacc, hfits⟩
    exact snoc hacc hfits

/-- A list is accepted if and only if the declaration at each position fits those before it. -/
theorem iff_forall_fits :
    Accepted width declarations ↔
      ∀ i : Fin declarations.length, Fits width (declarations.take i) declarations[i] := by
  induction declarations using List.reverseRecOn with
  | nil =>
      constructor
      · intro _ i
        exact i.elim0
      · intro _
        exact nil
  | append_singleton declarations e ih =>
      rw [concat_iff, ih]
      constructor
      · rintro ⟨hall, hfits⟩ ⟨i, hi⟩
        -- a position is in front of the last one or is the last one
        simp only [List.length_append, List.length_singleton] at hi
        rcases Nat.lt_succ_iff_lt_or_eq.mp hi with hlt | rfl
        · have hfits' := hall ⟨i, hlt⟩
          simpa [List.take_append_of_le_length (Nat.le_of_lt hlt), List.getElem_append_left hlt] using hfits'
        · simpa using hfits
      · intro hall
        constructor
        · rintro ⟨i, hi⟩
          have hfits := hall ⟨i, by simp; omega⟩
          simpa [List.take_append_of_le_length (Nat.le_of_lt hi), List.getElem_append_left hi] using hfits
        · simpa using hall ⟨declarations.length, by simp⟩

instance (width : CodeWidth) (declarations : List Entry) :
    Decidable (Accepted width declarations) :=
  decidable_of_iff _ iff_forall_fits.symm

/-! ## What holds throughout an accepted list -/

theorem isMnemonic (h : Accepted width declarations) :
    ∀ e ∈ declarations, IsMnemonic e.mnemonic := by
  induction h with
  | nil =>
      intro e he
      exact absurd he List.not_mem_nil
  | snoc _ hfits ih =>
      intro e he
      rcases List.mem_append.mp he with he | he
      · exact ih e he
      · rw [List.mem_singleton.mp he]
        exact hfits.isMnemonic

theorem code_mem (h : Accepted width declarations) : ∀ e ∈ declarations, e.code ∈ width := by
  induction h with
  | nil =>
      intro e he
      exact absurd he List.not_mem_nil
  | snoc _ hfits ih =>
      intro e he
      rcases List.mem_append.mp he with he | he
      · exact ih e he
      · rw [List.mem_singleton.mp he]
        exact hfits.code_mem

/-- No two declarations have one name. -/
theorem distinct_names (h : Accepted width declarations) :
    DistinctKeys (fun e => some e.mnemonic) declarations := by
  induction h with
  | nil => exact List.Pairwise.nil
  | snoc _ hfits ih =>
      apply List.pairwise_append.mpr
      refine ⟨ih, List.pairwise_singleton _ _, ?_⟩
      intro d hd e he k hdk hek
      rw [List.mem_singleton.mp he] at hek
      exact hfits.new_name d hd (Option.some.inj (hdk.trans hek.symm))

theorem nodup_names (h : Accepted width declarations) :
    (declarations.map Entry.mnemonic).Nodup := by
  apply List.pairwise_map.mpr
  refine h.distinct_names.imp ?_
  intro a b hab heq
  exact hab _ rfl (by rw [heq])

/-- No two declarations own one code. -/
theorem distinct_owners (h : Accepted width declarations) :
    DistinctKeys Entry.ownedCode? declarations := by
  induction h with
  | nil => exact List.Pairwise.nil
  | snoc _ hfits ih =>
      apply List.pairwise_append.mpr
      refine ⟨ih, List.pairwise_singleton _ _, ?_⟩
      intro d hd e he k hdk hek
      rw [List.mem_singleton.mp he] at hek
      rcases Entry.ownedCode?_eq_some_iff.mp hdk with ⟨hd', rfl⟩
      rcases Entry.ownedCode?_eq_some_iff.mp hek with ⟨he', hcode⟩
      exact hfits.new_owner he' d hd hd' hcode.symm

/-- What an alias names is canonical and has the code of the alias. -/
theorem target (h : Accepted width declarations) :
    ∀ e ∈ declarations, ∀ c ∈ e.aliasOf,
      ∃ d ∈ declarations, d.mnemonic = c ∧ d.aliasOf = none ∧ d.code = e.code := by
  induction h with
  | nil =>
      intro e he
      exact absurd he List.not_mem_nil
  | snoc _ hfits ih =>
      intro e he c hc
      rcases List.mem_append.mp he with he | he
      · -- what stood before the last entry still does
        rcases ih e he c hc with ⟨d, hd, hrest⟩
        exact ⟨d, List.mem_append_left _ hd, hrest⟩
      · rw [List.mem_singleton.mp he] at hc ⊢
        rcases hfits.target c hc with ⟨d, hd, hrest⟩
        exact ⟨d, List.mem_append_left _ hd, hrest⟩

/-- Two canonical entries of one code are one. -/
theorem owner_unique (h : Accepted width declarations) {d e : Entry} (hd : d ∈ declarations)
    (he : e ∈ declarations) (hcd : d.aliasOf = none) (hce : e.aliasOf = none)
    (hcode : d.code = e.code) : d = e :=
  h.distinct_owners.eq_of_mem hd he (Entry.ownedCode?_eq_some_iff.mpr ⟨hcd, hcode⟩)
    (Entry.ownedCode?_eq_some_iff.mpr ⟨hce, rfl⟩)

/-- Where some entry has a code, aliases included, a canonical one has it. -/
theorem exists_canonical (h : Accepted width declarations) {e : Entry} (he : e ∈ declarations) :
    ∃ d ∈ declarations, d.aliasOf = none ∧ d.code = e.code ∧ d.mnemonic = e.canonical := by
  cases halias : e.aliasOf with
  | none => exact ⟨e, he, halias, rfl, by simp [Entry.canonical, halias]⟩
  | some name =>
      rcases h.target e he name halias with ⟨d, hd, hname, hcanonical, hcode⟩
      exact ⟨d, hd, hcanonical, hcode, by simp [Entry.canonical, halias, hname]⟩

end Accepted

/-! ## Families -/

/-- The canonical entry of a family is its first one. -/
theorem IsFamily.eq_head {owner d : Entry} {rest : List Entry} (h : IsFamily (owner :: rest))
    (hd : d ∈ owner :: rest) (hcanonical : d.aliasOf = none) : d = owner := by
  rcases List.mem_cons.mp hd with heq | hrest
  · exact heq
  · rw [h.2 d hrest] at hcanonical
    exact absurd hcanonical (by simp)

/-- A family takes in an alias of its canonical entry. -/
theorem IsFamily.concat {family : List Entry} (h : IsFamily family) {d e : Entry}
    (hd : d ∈ family) (hcanonical : d.aliasOf = none) (he : e.aliasOf = some d.mnemonic) :
    IsFamily (family ++ [e]) := by
  cases family with
  | nil => exact absurd h id
  | cons owner rest =>
      have hdo : d = owner := h.eq_head hd hcanonical
      refine ⟨h.1, ?_⟩
      intro a ha
      rcases List.mem_append.mp ha with ha | ha
      · exact h.2 a ha
      · rw [List.mem_singleton.mp ha, he, hdo]

/-- The declarations of one code, in order, are a family. -/
theorem Accepted.isFamily_filter {width : CodeWidth} {declarations : List Entry}
    (h : Accepted width declarations) {c : Code} (hne : declarations.filter (·.code = c) ≠ []) :
    IsFamily (declarations.filter (·.code = c)) := by
  induction h with
  | nil => exact absurd rfl hne
  | @snoc declarations e hacc hfits ih =>
      rw [List.filter_append] at hne ⊢
      by_cases hcode : e.code = c
      · have hlast : [e].filter (·.code = c) = [e] := by simp [hcode]
        rw [hlast]
        cases halias : e.aliasOf with
        | none =>
            -- a canonical entry is the first of its code: the family before it would have an owner
            by_cases hbefore : declarations.filter (·.code = c) = []
            · rw [hbefore]
              exact ⟨halias, by simp⟩
            · have hfamily := ih hbefore
              rcases List.exists_cons_of_ne_nil hbefore with ⟨owner, rest, hcons⟩
              rw [hcons] at hfamily
              have howner : owner ∈ declarations.filter (·.code = c) := by simp [hcons]
              rcases List.mem_filter.mp howner with ⟨hmem, hc⟩
              have hother := hfits.new_owner halias owner hmem hfamily.1
              exact absurd ((of_decide_eq_true hc).trans hcode.symm) hother
        | some name =>
            rcases hfits.target name halias with ⟨d, hd, hname, hcanonical, hdc⟩
            have hmem : d ∈ declarations.filter (·.code = c) := by
              simp [hd, hdc, hcode]
            have hfamily := ih (List.ne_nil_of_mem hmem)
            exact hfamily.concat hmem hcanonical (by rw [halias, hname])
      · have hlast : [e].filter (·.code = c) = [] := by simp [hcode]
        rw [hlast, List.append_nil] at hne ⊢
        exact ih hne

end OpcodeRegistry
