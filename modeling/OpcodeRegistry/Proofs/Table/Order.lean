import OpcodeRegistry.Proofs.CodeOrder
import OpcodeRegistry.Proofs.Table.Draft

/-! # The order of a table

The entries of a table are the declarations by ascending code. In that order the entries of one code
stand together in a run, and a run is a family: sorting moves no alias in front of its canonical
entry. So the entries of a table are themselves an accepted list of declarations.
-/

namespace OpcodeRegistry

/-! ## Runs -/

/-- The entries `run` all have the code `c`, stand together in `entries`, and neither neighbour of
the run has that code. -/
structure IsRun (c : Code) (before run after : List Entry) : Prop where
  ne_nil : run ≠ []
  code_eq : ∀ e ∈ run, e.code = c
  left : ∀ e ∈ before.getLast?, e.code ≠ c
  right : ∀ e ∈ after.head?, e.code ≠ c

/-- In ascending order a run holds all the entries of its code. -/
theorem IsRun.eq_filter {c : Code} {before run after : List Entry}
    (h : IsRun c before run after)
    (hasc : (before ++ run ++ after).Pairwise fun a b => a.code ≤ b.code) :
    (before ++ run ++ after).filter (·.code = c) = run := by
  rcases List.pairwise_append.mp hasc with ⟨hasc', hafter, hcross⟩
  rcases List.pairwise_append.mp hasc' with ⟨hbefore, -, hcross'⟩
  rcases List.exists_mem_of_ne_nil run h.ne_nil with ⟨r, hr⟩
  have hrc : r.code = c := h.code_eq r hr
  -- the codes ascend, so an equal one outside would stand at an end of the run, where there is none
  have hno_before : before.filter (·.code = c) = [] :=
    filter_eq_nil_of_getLast? Entry.code hbefore (fun e he => hrc ▸ hcross' e he r hr) h.left
  have hno_after : after.filter (·.code = c) = [] :=
    filter_eq_nil_of_head? Entry.code hafter
      (fun e he => hrc ▸ hcross r (List.mem_append_right _ hr) e he) h.right
  have hrun : run.filter (·.code = c) = run := by
    apply List.filter_eq_self.mpr
    intro e he
    exact decide_eq_true (h.code_eq e he)
  rw [List.filter_append, List.filter_append, hno_before, hno_after, hrun]
  simp

namespace Accepted

variable {width : CodeWidth} {declarations : List Entry}

/-! ## Accepted lists by their splits -/

/-- The entry behind `before` in an accepted list fits that part. -/
theorem fits_of_split {before after : List Entry} {e : Entry}
    (h : Accepted width (before ++ e :: after)) : Fits width before e := by
  induction after using List.reverseRecOn with
  | nil => exact (concat_iff.mp h).2
  | append_singleton after a ih =>
      apply ih
      rw [← List.cons_append, ← List.append_assoc] at h
      exact (concat_iff.mp h).1

/-- A list is accepted if and only if each of its entries fits what stands in front of it. -/
theorem iff_forall_split :
    Accepted width declarations ↔
      ∀ before e after, declarations = before ++ e :: after → Fits width before e := by
  constructor
  · rintro h before e after rfl
    exact h.fits_of_split
  · intro h
    -- the last entry has all others before it
    induction declarations using List.reverseRecOn with
    | nil => exact nil
    | append_singleton declarations e ih =>
        apply snoc
        · apply ih
          intro before a after hsplit
          apply h before a (after ++ [e])
          rw [hsplit]
          simp
        · exact h declarations e [] rfl

/-- The front of an accepted list is accepted. -/
theorem front {rest : List Entry} (h : Accepted width (declarations ++ rest)) :
    Accepted width declarations := by
  apply iff_forall_split.mpr
  intro before e after hsplit
  rw [hsplit, List.append_assoc, List.cons_append] at h
  exact h.fits_of_split

/-! ## Sorting -/

/-- Sorting moves no alias in front of its canonical entry. -/
theorem target_before_of_split (h : Accepted width declarations)
    {before after : List Entry} {e : Entry}
    (hsplit : Table.sorted declarations = before ++ e :: after) {name : String}
    (halias : name ∈ e.aliasOf) :
    ∃ d ∈ before, d.mnemonic = name ∧ d.aliasOf = none ∧ d.code = e.code := by
  have hperm : (Table.sorted declarations).Perm declarations := sortByCode_perm _ _
  have he : e ∈ declarations := hperm.mem_iff.mp (by simp [hsplit])
  rcases h.target e he name halias with ⟨d, hd, hname, hcanonical, hcode⟩
  refine ⟨d, ?_, hname, hcanonical, hcode⟩
  -- the family of the code has `d` in front, and `e` is no canonical entry
  have hstable : (Table.sorted declarations).filter (·.code = e.code) =
      declarations.filter (·.code = e.code) := filter_sortByCode _ _ _
  have hmem : d ∈ declarations.filter (·.code = e.code) := by simp [hd, hcode]
  have hfamily := h.isFamily_filter (List.ne_nil_of_mem hmem)
  rw [← hstable, hsplit, List.filter_append, List.filter_cons_of_pos (by simp)] at hfamily hmem
  cases hfront : before.filter (·.code = e.code) with
  | nil =>
      rw [hfront] at hfamily
      have hnone : e.aliasOf = none := hfamily.1
      rw [hnone] at halias
      exact absurd halias (by simp)
  | cons owner rest =>
      rw [hfront] at hfamily hmem
      have heq : d = owner := hfamily.eq_head hmem hcanonical
      have howner : owner ∈ before.filter (·.code = e.code) := by simp [hfront]
      rw [heq]
      exact (List.mem_filter.mp howner).1

/-- In any order of accepted declarations each entry has a new name. -/
theorem new_name_of_perm (h : Accepted width declarations) {before after : List Entry} {e : Entry}
    (hperm : (before ++ e :: after).Perm declarations) :
    ∀ d ∈ before, d.mnemonic ≠ e.mnemonic := by
  intro d hd hname
  have hnames := h.distinct_names.perm hperm.symm
  have hcross := (List.pairwise_append.mp hnames).2.2 d hd e List.mem_cons_self
  exact hcross _ rfl (by rw [hname])

/-- In any order of accepted declarations an entry fits what stands in front of it, if what it names
as an alias stands there. -/
theorem fits_of_perm (h : Accepted width declarations) {before after : List Entry} {e : Entry}
    (hperm : (before ++ e :: after).Perm declarations)
    (htarget : ∀ name ∈ e.aliasOf, ∃ d ∈ before, d.mnemonic = name) : Fits width before e := by
  have he : e ∈ declarations := hperm.mem_iff.mp (by simp)
  refine ⟨h.isMnemonic e he, h.code_mem e he, h.new_name_of_perm hperm, ?_, ?_⟩
  · intro hcanonical d hd hd' hcode
    have howners := h.distinct_owners.perm hperm.symm
    have hcross := (List.pairwise_append.mp howners).2.2 d hd e List.mem_cons_self
    exact hcross d.code (Entry.ownedCode?_eq_some_iff.mpr ⟨hd', rfl⟩)
      (Entry.ownedCode?_eq_some_iff.mpr ⟨hcanonical, hcode.symm⟩)
  · intro name halias
    rcases htarget name halias with ⟨d, hd, hname⟩
    rcases h.target e he name halias with ⟨d', hd', hname', hcanonical, hcode⟩
    -- the name is declared once, so what stands in front is what the declarations have
    have hmem : d ∈ declarations := hperm.mem_iff.mp (List.mem_append_left _ hd)
    have heq : d = d' := h.distinct_names.eq_of_mem hmem hd' (congrArg some hname)
      (congrArg some hname')
    rw [← heq] at hcanonical hcode
    exact ⟨d, hd, hname, hcanonical, hcode⟩

/-- The entries of a table in its order are an accepted list of declarations. -/
theorem sorted (h : Accepted width declarations) : Accepted width (Table.sorted declarations) := by
  have hperm : (Table.sorted declarations).Perm declarations := sortByCode_perm _ _
  apply iff_forall_split.mpr
  intro before e after hsplit
  rw [hsplit] at hperm
  apply h.fits_of_perm hperm
  intro name halias
  rcases h.target_before_of_split hsplit halias with ⟨d, hd, hname, -⟩
  exact ⟨d, hd, hname⟩

end Accepted

/-- A table is built again from its entries. -/
theorem Table.ofEntries_sorted (width : CodeWidth) (declarations : List Entry) :
    ofEntries width (sorted declarations) = ofEntries width declarations := by
  have hsorted : sorted (sorted declarations) = sorted declarations :=
    sortByCode_eq_self _ (pairwise_sortByCode _ _)
  unfold ofEntries
  rw [hsorted]

end OpcodeRegistry
