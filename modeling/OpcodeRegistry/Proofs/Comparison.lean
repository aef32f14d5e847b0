import OpcodeRegistry.Comparison
import OpcodeRegistry.Proofs.Extraction.History
import OpcodeRegistry.Proofs.Table.Contract

/-! # What a comparison lists

The differences between a table and a source are found in two passes, one over the codes of the
source and one over the canonical entries of the table. Together they look at each code once, so the
list says of each code what `Difference.between?` says of the two mnemonics there, and nothing else.
Aliases take no part in it.
-/

namespace OpcodeRegistry

/-- How the mnemonics that a table and a source have for a code disagree, if they do. -/
def Difference.between? (c : Code) (shipped current : Option String) : Option Difference :=
  match shipped, current with
  | some s, some u => if s = u then none else some (.renamed c s u)
  | none, some u => some (.missing c u)
  | some s, none => some (.removed c s)
  | none, none => none

/-- A list of differences is a comparison of two assignments of mnemonics to codes if it is strictly
ascending and says of each code how the two disagree about it. -/
structure IsComparison (shipped current : Code → Option String) (differences : List Difference) :
    Prop where
  ascending : differences.Pairwise fun d e => d.code < e.code
  /-- Each code has the difference between its two mnemonics, or none. -/
  exact : ∀ c, differences.filter (·.code = c) =
    (Difference.between? c (shipped c) (current c)).toList

namespace Difference

theorem code_of_between? {c : Code} {shipped current : Option String} {d : Difference}
    (h : between? c shipped current = some d) : d.code = c := by
  unfold between? at h
  split at h
  · split at h
    · exact absurd h (by simp)
    · rw [← Option.some.inj h]
      rfl
  · rw [← Option.some.inj h]
    rfl
  · rw [← Option.some.inj h]
    rfl
  · exact absurd h (by simp)

/-- There is no difference between equal mnemonics only. -/
theorem between?_eq_none_iff {c : Code} {shipped current : Option String} :
    between? c shipped current = none ↔ shipped = current := by
  unfold between?
  cases shipped with
  | none =>
      cases current with
      | none => simp
      | some u => simp
  | some s =>
      cases current with
      | none => simp
      | some u => simp

end Difference

namespace Extraction

/-- The mnemonic that the entries of an extraction have for a code. -/
def mnemonicAt? (x : Extraction) (c : Code) : Option String :=
  (x.entries.find? (·.2 = c)).map Prod.fst

theorem mnemonicAt?_eq_some_iff {x : Extraction}
    (h : x.entries.Pairwise fun p q => p.2 < q.2) {c : Code} {m : String} :
    x.mnemonicAt? c = some m ↔ (m, c) ∈ x.entries := by
  unfold mnemonicAt?
  rw [Option.map_eq_some_iff]
  simp only [find?_code_eq_some_iff Prod.snd h]
  constructor
  · rintro ⟨⟨m', c'⟩, ⟨hmem, rfl⟩, rfl⟩
    exact hmem
  · intro hmem
    exact ⟨(m, c), ⟨hmem, rfl⟩, rfl⟩

/-- The map that a comparison makes of an extraction has the mnemonics of the entries. -/
theorem getElem?_mnemonics {x : Extraction} (h : x.entries.Pairwise fun p q => p.2 < q.2)
    (c : Code) : x.mnemonics[c]? = x.mnemonicAt? c := by
  unfold mnemonics mnemonicAt?
  generalize x.entries = entries at h
  induction entries using List.reverseRecOn with
  | nil => simp
  | append_singleton entries p ih =>
      rcases List.pairwise_append.mp h with ⟨hbefore, -, hcross⟩
      rw [List.foldl_append, List.find?_append]
      simp only [List.foldl_cons, List.foldl_nil, Std.TreeMap.getElem?_insert,
        Std.LawfulEqCmp.compare_eq_iff_eq, ih hbefore]
      by_cases hc : p.2 = c
      · -- the codes before are smaller, so the new one is not among them
        have hnone : entries.find? (·.2 = c) = none := by
          apply List.find?_eq_none.mpr
          intro q hq heq
          have hlt : q.2 < p.2 := hcross q hq p (List.mem_singleton_self p)
          rw [of_decide_eq_true heq, hc] at hlt
          exact UInt32.lt_irrefl c hlt
        simp [hc, hnone]
      · -- the insertion does not touch the other codes
        simp [hc]

end Extraction

namespace Table

variable {width : CodeWidth} {declarations : List Entry} {t : Table} {x : Extraction}

/-! ## Canonical entries -/

theorem mem_canonicalEntries_iff {e : Entry} :
    e ∈ t.canonicalEntries ↔ e ∈ t.toList ∧ e.aliasOf = none := by
  unfold canonicalEntries Entry.isAlias
  simp

/-- The canonical entries stand by strictly ascending code. -/
theorem pairwise_canonicalEntries (h : build width declarations = .ok t) :
    t.canonicalEntries.Pairwise fun a b => a.code < b.code := by
  have hdistinct := (accepted_toList h).distinct_owners
  have hboth := ((pairwise_of_build h).and hdistinct).filter fun e => !e.isAlias
  refine List.Pairwise.imp_of_mem ?_ hboth
  rintro a b ha hb ⟨hle, hne⟩
  have hac := (mem_canonicalEntries_iff.mp ha).2
  have hbc := (mem_canonicalEntries_iff.mp hb).2
  apply UInt32.lt_of_le_of_ne hle
  intro heq
  exact hne a.code (Entry.ownedCode?_eq_some_iff.mpr ⟨hac, rfl⟩)
    (Entry.ownedCode?_eq_some_iff.mpr ⟨hbc, heq.symm⟩)

/-! ## The two passes -/

theorem differenceAt_eq (t : Table) (c : Code) (m : String) :
    t.differenceAt c m = Difference.between? c (t.mnemonicOf? c) (some m) := by
  unfold differenceAt Difference.between?
  cases t.mnemonicOf? c with
  | none => rfl
  | some s => rfl

/-- The differences at the codes of the source. -/
def changed (t : Table) (x : Extraction) : List Difference :=
  x.mnemonics.toList.filterMap fun p => t.differenceAt p.1 p.2

/-- The differences at the codes that only the table has. -/
def removed (t : Table) (x : Extraction) : List Difference :=
  (t.canonicalEntries.filter fun e => e.code ∉ x.mnemonics).map fun e =>
    .removed e.code e.mnemonic

theorem differences_eq (t : Table) (x : Extraction) :
    t.differences x = sortByCode Difference.code (t.changed x ++ t.removed x) := rfl

/-- The first pass finds the differences at the codes that the source has. -/
theorem mem_changed_iff (hx : x.entries.Pairwise fun p q => p.2 < q.2) {d : Difference} :
    d ∈ t.changed x ↔ x.mnemonicAt? d.code ≠ none ∧
      Difference.between? d.code (t.mnemonicOf? d.code) (x.mnemonicAt? d.code) = some d := by
  unfold changed
  rw [List.mem_filterMap]
  constructor
  · rintro ⟨⟨c, m⟩, hmem, hd⟩
    -- the pass goes over the codes of the source, each with its mnemonic
    have hm : x.mnemonicAt? c = some m := by
      rw [← Extraction.getElem?_mnemonics hx c]
      exact Std.TreeMap.mem_toList_iff_getElem?_eq_some.mp hmem
    rw [differenceAt_eq] at hd
    have hcode : d.code = c := Difference.code_of_between? hd
    rw [hcode, hm]
    exact ⟨by simp, hd⟩
  · rintro ⟨hne, hd⟩
    rcases Option.ne_none_iff_exists'.mp hne with ⟨m, hm⟩
    refine ⟨(d.code, m), ?_, ?_⟩
    · rw [Std.TreeMap.mem_toList_iff_getElem?_eq_some, Extraction.getElem?_mnemonics hx]
      exact hm
    · rw [differenceAt_eq, ← hm]
      exact hd

/-- The second pass finds the differences at the codes that the source has not. -/
theorem mem_removed_iff (h : build width declarations = .ok t)
    (hx : x.entries.Pairwise fun p q => p.2 < q.2) {d : Difference} :
    d ∈ t.removed x ↔ x.mnemonicAt? d.code = none ∧
      Difference.between? d.code (t.mnemonicOf? d.code) (x.mnemonicAt? d.code) = some d := by
  -- a code is passed over if the source has it, whatever its mnemonic there
  have habsent : ∀ c, c ∉ x.mnemonics ↔ x.mnemonicAt? c = none := by
    intro c
    rw [← Extraction.getElem?_mnemonics hx c, Std.TreeMap.mem_iff_isSome_getElem?]
    simp
  unfold removed
  rw [List.mem_map]
  constructor
  · rintro ⟨e, he, rfl⟩
    rcases List.mem_filter.mp he with ⟨hmem, hcode⟩
    rcases mem_canonicalEntries_iff.mp hmem with ⟨hlist, hcanonical⟩
    have hnone : x.mnemonicAt? e.code = none := (habsent e.code).mp (of_decide_eq_true hcode)
    have hshipped : t.mnemonicOf? e.code = some e.mnemonic :=
      (mnemonicOf?_eq_some_iff h).mpr ⟨e, hlist, hcanonical, rfl, rfl⟩
    simp only [Difference.code]
    rw [hnone, hshipped]
    exact ⟨rfl, rfl⟩
  · rintro ⟨hnone, hd⟩
    rw [hnone] at hd
    cases hshipped : t.mnemonicOf? d.code with
    -- a code that neither side has is no difference
    | none =>
        rw [hshipped] at hd
        exact absurd hd (by simp [Difference.between?])
    | some s =>
        rw [hshipped] at hd
        -- the difference is found at the canonical entry that the table answers with
        rcases (mnemonicOf?_eq_some_iff h).mp hshipped with ⟨e, he, hcanonical, hcode, hname⟩
        refine ⟨e, List.mem_filter.mpr ⟨mem_canonicalEntries_iff.mpr ⟨he, hcanonical⟩, ?_⟩, ?_⟩
        · rw [hcode]
          exact decide_eq_true ((habsent d.code).mpr hnone)
        · rw [hcode, hname]
          exact Option.some.inj hd

/-- The two passes together find each difference. -/
theorem mem_differences_iff (h : build width declarations = .ok t)
    (hx : x.entries.Pairwise fun p q => p.2 < q.2) {d : Difference} :
    d ∈ t.differences x ↔
      Difference.between? d.code (t.mnemonicOf? d.code) (x.mnemonicAt? d.code) = some d := by
  rw [differences_eq, (sortByCode_perm _ _).mem_iff, List.mem_append, mem_changed_iff hx,
    mem_removed_iff h hx]
  constructor
  · rintro (⟨-, hd⟩ | ⟨-, hd⟩)
    · exact hd
    · exact hd
  · intro hd
    by_cases hnone : x.mnemonicAt? d.code = none
    · exact Or.inr ⟨hnone, hd⟩
    · exact Or.inl ⟨hnone, hd⟩

/-- The two passes never look at one code twice. -/
theorem pairwise_differences (h : build width declarations = .ok t)
    (hx : x.entries.Pairwise fun p q => p.2 < q.2) :
    (t.differences x).Pairwise fun d e => d.code < e.code := by
  rw [differences_eq]
  apply pairwise_lt_sortByCode
  refine List.pairwise_append.mpr ⟨?_, ?_, ?_⟩
  · -- the keys of a map are different
    unfold changed
    rw [List.pairwise_filterMap]
    have hkeys : x.mnemonics.toList.Pairwise fun p q => ¬ compare p.1 q.1 = .eq :=
      Std.TreeMap.distinct_keys_toList
    refine hkeys.imp ?_
    rintro ⟨c, m⟩ ⟨c', m'⟩ hne d hd d' hd' heq
    rw [differenceAt_eq] at hd hd'
    rw [Difference.code_of_between? hd, Difference.code_of_between? hd'] at heq
    exact hne (Std.LawfulEqCmp.compare_eq_iff_eq.mpr heq)
  · -- a code has one canonical entry
    unfold removed
    rw [List.pairwise_map]
    refine ((pairwise_canonicalEntries h).filter _).imp ?_
    intro a b hlt heq
    simp only [Difference.code] at heq
    rw [heq] at hlt
    exact UInt32.lt_irrefl _ hlt
  · -- the source has the codes of the first pass and not those of the second
    intro d hd e he heq
    have hsome := ((mem_changed_iff hx).mp hd).1
    have hnone := ((mem_removed_iff h hx).mp he).1
    rw [heq] at hsome
    exact hsome hnone

/-! ## The comparison -/

/-- The differences of a built table and an extraction are the comparison of their mnemonics. -/
theorem isComparison_of_pairwise (h : build width declarations = .ok t)
    (hx : x.entries.Pairwise fun p q => p.2 < q.2) :
    IsComparison t.mnemonicOf? x.mnemonicAt? (t.differences x) := by
  have hascending := pairwise_differences h hx
  refine ⟨hascending, ?_⟩
  intro c
  rw [filter_eq_toList_find? Difference.code hascending c]
  congr 1
  cases hfind : (t.differences x).find? (·.code = c) with
  | none =>
      -- a difference at the code would have been found
      symm
      rw [Option.eq_none_iff_forall_ne_some]
      intro d hd
      have hcode : d.code = c := Difference.code_of_between? hd
      have hmem : d ∈ t.differences x := by
        rw [mem_differences_iff h hx, hcode]
        exact hd
      have hnot := List.find?_eq_none.mp hfind d hmem
      exact hnot (decide_eq_true hcode)
  | some d =>
      have hcode : d.code = c := by simpa using List.find?_some hfind
      have hd := (mem_differences_iff h hx).mp (List.mem_of_find?_eq_some hfind)
      rw [hcode] at hd
      exact hd.symm

/-- Nothing differs if and only if table and source have the same mnemonic for each code. -/
theorem differences_eq_nil_iff_forall (h : build width declarations = .ok t)
    (hx : x.entries.Pairwise fun p q => p.2 < q.2) :
    t.differences x = [] ↔ ∀ c, t.mnemonicOf? c = x.mnemonicAt? c := by
  rw [List.eq_nil_iff_forall_not_mem]
  constructor
  · intro hnone c
    rw [← Difference.between?_eq_none_iff (c := c), Option.eq_none_iff_forall_ne_some]
    intro d hd
    apply hnone d
    rw [mem_differences_iff h hx, Difference.code_of_between? hd]
    exact hd
  · intro heq d hd
    rw [mem_differences_iff h hx, Difference.between?_eq_none_iff.mpr (heq d.code)] at hd
    exact absurd hd (by simp)

/-- The canonical entries are the mnemonics of the codes. -/
theorem mnemonicOf?_eq_some_iff_mem (h : build width declarations = .ok t) {c : Code}
    {m : String} : t.mnemonicOf? c = some m ↔
      (m, c) ∈ t.canonicalEntries.map fun e => (e.mnemonic, e.code) := by
  rw [mnemonicOf?_eq_some_iff h, List.mem_map]
  simp only [mem_canonicalEntries_iff, Prod.mk.injEq]
  constructor
  · rintro ⟨e, he, hcanonical, hcode, hname⟩
    exact ⟨e, ⟨he, hcanonical⟩, hname, hcode⟩
  · rintro ⟨e, ⟨he, hcanonical⟩, hname, hcode⟩
    exact ⟨e, he, hcanonical, hcode, hname⟩

/-- Nothing differs if and only if the canonical entries are the entries of the source. -/
theorem differences_eq_nil_iff (h : build width declarations = .ok t)
    (hx : x.entries.Pairwise fun p q => p.2 < q.2) :
    t.differences x = [] ↔ (t.canonicalEntries.map fun e => (e.mnemonic, e.code)) = x.entries := by
  rw [differences_eq_nil_iff_forall h hx]
  constructor
  · intro heq
    have hcanonical : (t.canonicalEntries.map fun e => (e.mnemonic, e.code)).Pairwise
        fun p q => p.2 < q.2 := by
      rw [List.pairwise_map]
      exact pairwise_canonicalEntries h
    -- both lists ascend strictly, so they are equal once they have the same members
    apply eq_of_ascending_of_mem_iff Prod.snd hcanonical hx
    rintro ⟨m, c⟩
    rw [← mnemonicOf?_eq_some_iff_mem h, ← Extraction.mnemonicAt?_eq_some_iff hx, heq c]
  · intro heq c
    apply Option.ext
    intro m
    rw [mnemonicOf?_eq_some_iff_mem h, Extraction.mnemonicAt?_eq_some_iff hx, heq]

/-- Whatever built table is held against whatever extraction, the differences are the comparison of
their mnemonics, and there are none just where the canonical entries are those of the extraction. -/
theorem differences_ofLines (h : build width declarations = .ok t) (policy : RedefinitionPolicy)
    (lines : List LineClass) :
    let x := Extraction.ofLines policy lines
    IsComparison t.mnemonicOf? x.mnemonicAt? (t.differences x) ∧
    (t.differences x = [] ↔ (t.canonicalEntries.map fun e => (e.mnemonic, e.code)) = x.entries) := by
  intro x
  have hx : x.entries.Pairwise fun p q => p.2 < q.2 :=
    Extraction.pairwise_entries_ofLines policy lines
  exact ⟨isComparison_of_pairwise h hx, differences_eq_nil_iff h hx⟩

/-- The table has an alias and a code of its own, and the source another name and another code. -/
theorem differences_ofLines_slice_family :
    let declarations : List Entry :=
      [⟨"SLICE", 5, none⟩, ⟨"HALT", 1, none⟩, ⟨"SLICE_0", 5, some "SLICE"⟩]
    let x := Extraction.ofLines .overwrite
      [.definition ⟨1, "opname(5) -> {cut,0};", 5, "CUT"⟩, .ignored,
        .definition ⟨3, "opname(9) -> {jump,1};", 9, "JUMP"⟩]
    ∃ t, build .byte declarations = .ok t ∧
      IsComparison t.mnemonicOf? x.mnemonicAt? (t.differences x) ∧
      (t.differences x = [] ↔
        (t.canonicalEntries.map fun e => (e.mnemonic, e.code)) = x.entries) := by
  intro declarations x
  have hbuild := build_eq_ok_iff.mpr ⟨(by decide : Accepted .byte declarations), rfl⟩
  exact ⟨_, hbuild, differences_ofLines hbuild .overwrite _⟩

end Table

end OpcodeRegistry
