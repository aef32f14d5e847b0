import OpcodeRegistry.Proofs.Table.Order

/-! # What a table answers

A built table is held against the list of its entries. Its two maps are indexes of that list, so
each question has its answer there: `get?` finds the one entry of a name, and `mnemonicOf?` the
canonical entry of a code, which is there whenever any entry has the code. `Represents` gathers what
holds of a table built from given declarations.
-/

namespace OpcodeRegistry

namespace Table

variable {width : CodeWidth} {declarations : List Entry} {t : Table}

/-! ## The entries and the indexes of a built table -/

theorem toList_ofEntries (width : CodeWidth) (declarations : List Entry) :
    (ofEntries width declarations).toList = sorted declarations := by
  simp [toList, ofEntries]

theorem toList_of_build (h : build width declarations = .ok t) :
    t.toList = sorted declarations := by
  rcases build_eq_ok_iff.mp h with ⟨-, rfl⟩
  exact toList_ofEntries width declarations

theorem width_of_build (h : build width declarations = .ok t) : t.width = width := by
  rw [(build_eq_ok_iff.mp h).2]
  rfl

/-- The entries are the declarations in another order. -/
theorem perm_of_build (h : build width declarations = .ok t) : t.toList.Perm declarations := by
  rw [toList_of_build h]
  exact sortByCode_perm Entry.code declarations

/-- The entries stand by ascending code. -/
theorem pairwise_of_build (h : build width declarations = .ok t) :
    t.toList.Pairwise fun a b => a.code ≤ b.code := by
  rw [toList_of_build h]
  exact pairwise_sortByCode Entry.code declarations

/-- Declarations in that order are the entries as they stand. -/
theorem toList_of_build_of_pairwise (h : build width declarations = .ok t)
    (hascending : declarations.Pairwise fun a b => a.code ≤ b.code) : t.toList = declarations := by
  rw [toList_of_build h]
  exact sortByCode_eq_self Entry.code hascending

/-- The entries of a built table are an accepted list of declarations. -/
theorem accepted_toList (h : build width declarations = .ok t) : Accepted width t.toList := by
  rw [toList_of_build h]
  exact (build_eq_ok_iff.mp h).1.sorted

theorem getElem?_entries (t : Table) (i : Nat) : t.entries[i]? = t.toList[i]? := by
  rw [toList, Array.getElem?_toList]

theorem indexes_indexNames {entries : Array Entry}
    (h : DistinctKeys (fun e => some e.mnemonic) entries.toList) :
    Indexes (indexNames entries) (fun e => some e.mnemonic) entries.toList := by
  unfold indexNames
  rw [← Array.foldl_toList, Array.toList_zipIdx]
  apply Indexes.foldl_zipIdx _ _ h
  · intro m e i hnone
    exact absurd hnone (by simp)
  · intro m e i name hname
    rw [← Option.some.inj hname]

theorem indexes_indexCodes {entries : Array Entry}
    (h : DistinctKeys Entry.ownedCode? entries.toList) :
    Indexes (indexCodes entries) Entry.ownedCode? entries.toList := by
  unfold indexCodes
  rw [← Array.foldl_toList, Array.toList_zipIdx]
  apply Indexes.foldl_zipIdx _ _ h
  · -- an alias is passed over, and owns no code
    intro m e i hnone
    cases halias : e.isAlias with
    | true => simp [halias]
    | false => exact absurd hnone (by simp [Entry.ownedCode?, halias])
  · -- a canonical entry is put under its code
    intro m e i c hc
    cases halias : e.isAlias with
    | true => exact absurd hc (by simp [Entry.ownedCode?, halias])
    | false =>
        simp only [Entry.ownedCode?, halias, Bool.false_eq_true, if_false] at hc
        simp [halias, Option.some.inj hc]

/-- The name map of a built table is an index of its entries. -/
theorem indexes_byName (h : build width declarations = .ok t) :
    Indexes t.byName (fun e => some e.mnemonic) t.toList := by
  have hdistinct := (accepted_toList h).distinct_names
  rcases build_eq_ok_iff.mp h with ⟨-, rfl⟩
  exact indexes_indexNames hdistinct

/-- The code map of a built table is an index of its canonical entries. -/
theorem indexes_byCode (h : build width declarations = .ok t) :
    Indexes t.byCode Entry.ownedCode? t.toList := by
  have hdistinct := (accepted_toList h).distinct_owners
  rcases build_eq_ok_iff.mp h with ⟨-, rfl⟩
  exact indexes_indexCodes hdistinct

/-! ## Asking for a name -/

theorem get?_eq_some_iff (h : build width declarations = .ok t) {name : String} {e : Entry} :
    t.get? name = some e ↔ e ∈ t.toList ∧ e.mnemonic = name := by
  unfold get?
  simp only [getElem?_entries]
  rw [(indexes_byName h).bind_eq_some_iff, Option.some.injEq]

theorem get?_eq_none_iff (h : build width declarations = .ok t) {name : String} :
    t.get? name = none ↔ ∀ e ∈ t.toList, e.mnemonic ≠ name := by
  unfold get?
  simp only [getElem?_entries]
  rw [(indexes_byName h).bind_eq_none_iff]
  simp only [ne_eq, Option.some.injEq]

theorem codeOf?_eq_some_iff (h : build width declarations = .ok t) {name : String} {c : Code} :
    t.codeOf? name = some c ↔ ∃ e ∈ t.toList, e.mnemonic = name ∧ e.code = c := by
  unfold codeOf?
  rw [Option.map_eq_some_iff]
  simp only [get?_eq_some_iff h, and_assoc]

theorem canonicalOf?_eq_some_iff (h : build width declarations = .ok t) {name m : String} :
    t.canonicalOf? name = some m ↔ ∃ e ∈ t.toList, e.mnemonic = name ∧ e.canonical = m := by
  unfold canonicalOf?
  rw [Option.map_eq_some_iff]
  simp only [get?_eq_some_iff h, and_assoc]

/-! ## Asking for a code -/

/-- The mnemonic of a code is that of its canonical entry. -/
theorem mnemonicOf?_eq_some_iff (h : build width declarations = .ok t) {c : Code} {m : String} :
    t.mnemonicOf? c = some m ↔
      ∃ e ∈ t.toList, e.aliasOf = none ∧ e.code = c ∧ e.mnemonic = m := by
  unfold mnemonicOf?
  simp only [getElem?_entries]
  rw [Option.map_eq_some_iff]
  simp only [(indexes_byCode h).bind_eq_some_iff, Entry.ownedCode?_eq_some_iff, and_assoc]

theorem mnemonicOf?_eq_none_iff (h : build width declarations = .ok t) {c : Code} :
    t.mnemonicOf? c = none ↔ ∀ e ∈ t.toList, e.code ≠ c := by
  constructor
  · intro hnone e he hcode
    -- with an entry of the code there is a canonical one, which an alias has to name
    rcases (accepted_toList h).exists_canonical he with ⟨d, hd, hcanonical, hdc, -⟩
    have hsome := (mnemonicOf?_eq_some_iff h).mpr ⟨d, hd, hcanonical, hdc.trans hcode, rfl⟩
    rw [hnone] at hsome
    exact absurd hsome (by simp)
  · intro hall
    cases hm : t.mnemonicOf? c with
    | none => rfl
    | some m =>
        rcases (mnemonicOf?_eq_some_iff h).mp hm with ⟨e, he, -, hcode, -⟩
        exact absurd hcode (hall e he)

theorem containsCode_eq_true_iff (h : build width declarations = .ok t) {c : Code} :
    t.containsCode c = true ↔ ∃ e ∈ t.toList, e.code = c := by
  unfold containsCode
  rw [← Std.HashMap.mem_iff_contains, (indexes_byCode h).mem_iff]
  simp only [Entry.ownedCode?_eq_some_iff]
  constructor
  · rintro ⟨e, he, -, hcode⟩
    exact ⟨e, he, hcode⟩
  · rintro ⟨e, he, hcode⟩
    rcases (accepted_toList h).exists_canonical he with ⟨d, hd, hcanonical, hdc, -⟩
    exact ⟨d, hd, hcanonical, hdc.trans hcode⟩

/-- The codes in use are those that have a mnemonic. -/
theorem containsCode_eq_isSome (h : build width declarations = .ok t) (c : Code) :
    t.containsCode c = (t.mnemonicOf? c).isSome := by
  rw [Bool.eq_iff_iff, containsCode_eq_true_iff h, Option.isSome_iff_ne_none, ne_eq,
    mnemonicOf?_eq_none_iff h]
  simp

/-- The code of a name leads to the canonical mnemonic of the name. -/
theorem mnemonicOf?_of_mem (h : build width declarations = .ok t) {e : Entry}
    (he : e ∈ t.toList) : t.mnemonicOf? e.code = some e.canonical := by
  rcases (accepted_toList h).exists_canonical he with ⟨d, hd, hcanonical, hcode, hname⟩
  exact (mnemonicOf?_eq_some_iff h).mpr ⟨d, hd, hcanonical, hcode, hname⟩

/-! ## The contract -/

/-- What a table built from declarations holds and answers. -/
structure Represents (t : Table) (declarations : List Entry) : Prop where
  perm : t.toList.Perm declarations
  ascending : t.toList.Pairwise fun a b => a.code ≤ b.code
  stable : ∀ c, t.toList.filter (·.code = c) = declarations.filter (·.code = c)
  /-- A run of one code is its canonical entry and then the aliases of that entry. -/
  family : ∀ c before run after, t.toList = before ++ run ++ after →
    IsRun c before run after → IsFamily run
  nodup : (t.toList.map Entry.mnemonic).Nodup
  get : ∀ name e, t.get? name = some e ↔ e ∈ t.toList ∧ e.mnemonic = name
  get_none : ∀ name, t.get? name = none ↔ ∀ e ∈ t.toList, e.mnemonic ≠ name
  codeOf : ∀ name c, t.codeOf? name = some c ↔ ∃ e ∈ t.toList, e.mnemonic = name ∧ e.code = c
  canonicalOf : ∀ name m,
    t.canonicalOf? name = some m ↔ ∃ e ∈ t.toList, e.mnemonic = name ∧ e.canonical = m
  owner_unique : ∀ d ∈ t.toList, ∀ e ∈ t.toList,
    d.aliasOf = none → e.aliasOf = none → d.code = e.code → d = e
  mnemonicOf : ∀ c m, t.mnemonicOf? c = some m ↔
    ∃ e ∈ t.toList, e.aliasOf = none ∧ e.code = c ∧ e.mnemonic = m
  mnemonicOf_none : ∀ c, t.mnemonicOf? c = none ↔ ∀ e ∈ t.toList, e.code ≠ c
  containsCode_false : ∀ c, t.containsCode c = false ↔ ∀ e ∈ t.toList, e.code ≠ c
  mnemonicOf_codeOf : ∀ name, (t.codeOf? name).bind t.mnemonicOf? = t.canonicalOf? name
  byName_lt : ∀ (name : String) (i : Nat), t.byName[name]? = some i → i < t.entries.size
  byCode_lt : ∀ (c : Code) (i : Nat), t.byCode[c]? = some i → i < t.entries.size

/-- Whatever declarations build a table, the table represents them. -/
theorem represents_of_build (h : build width declarations = .ok t) :
    t.Represents declarations := by
  have hlist : t.toList = sorted declarations := toList_of_build h
  have haccepted : Accepted width t.toList := accepted_toList h
  have hsize : t.entries.size = t.toList.length := by
    rw [toList, Array.length_toList]
  have hascending : t.toList.Pairwise fun a b => a.code ≤ b.code := by
    rw [hlist]
    exact pairwise_sortByCode _ _
  refine
    { perm := ?_
      ascending := hascending
      stable := ?_
      family := ?_
      nodup := haccepted.nodup_names
      get := fun _ _ => get?_eq_some_iff h
      get_none := fun _ => get?_eq_none_iff h
      codeOf := fun _ _ => codeOf?_eq_some_iff h
      canonicalOf := fun _ _ => canonicalOf?_eq_some_iff h
      owner_unique := fun _ hd _ he => haccepted.owner_unique hd he
      mnemonicOf := fun _ _ => mnemonicOf?_eq_some_iff h
      mnemonicOf_none := fun _ => mnemonicOf?_eq_none_iff h
      containsCode_false := ?_
      mnemonicOf_codeOf := ?_
      byName_lt := ?_
      byCode_lt := ?_ }
  · rw [hlist]
    exact sortByCode_perm _ _
  · intro c
    rw [hlist]
    exact filter_sortByCode _ _ _
  · intro c before run after hsplit hrun
    -- in ascending order the run is all there is of its code, and that is a family
    rw [hsplit] at hascending haccepted
    have heq := hrun.eq_filter hascending
    have hfamily := haccepted.isFamily_filter (heq ▸ hrun.ne_nil)
    rw [heq] at hfamily
    exact hfamily
  · intro c
    rw [← Bool.not_eq_true, containsCode_eq_true_iff h]
    simp
  · intro name
    cases hget : t.get? name with
    | none => simp [codeOf?, canonicalOf?, hget]
    | some e =>
        have he : e ∈ t.toList := ((get?_eq_some_iff h).mp hget).1
        simp [codeOf?, canonicalOf?, hget, mnemonicOf?_of_mem h he]
  · intro name i hi
    rw [hsize]
    exact (indexes_byName h).lt_length hi
  · intro c i hi
    rw [hsize]
    exact (indexes_byCode h).lt_length hi

/-- The alias stands behind its canonical entry, and that behind a smaller code declared later. -/
theorem represents_slice_family :
    ∃ t, build .byte [⟨"SLICE", 5, none⟩, ⟨"HALT", 1, none⟩, ⟨"SLICE_0", 5, some "SLICE"⟩] = .ok t ∧
      t.Represents [⟨"SLICE", 5, none⟩, ⟨"HALT", 1, none⟩, ⟨"SLICE_0", 5, some "SLICE"⟩] := by
  have hbuild := build_eq_ok_iff.mpr ⟨(by decide : Accepted .byte
    [⟨"SLICE", 5, none⟩, ⟨"HALT", 1, none⟩, ⟨"SLICE_0", 5, some "SLICE"⟩]), rfl⟩
  exact ⟨_, hbuild, represents_of_build hbuild⟩

end Table

end OpcodeRegistry
