import OpcodeRegistry.Proofs.Table.Contract

/-! # One declaration more

A declaration that is added at the end puts one entry into the table, behind all entries of codes up
to its own, and so moves every entry behind it. The positions in the indexes change, but no answer
does: names other than the new one and codes other than the new one lead where they led before, and
an alias changes nothing about its code either.
-/

namespace OpcodeRegistry

namespace Table

variable {width : CodeWidth} {declarations : List Entry} {d e : Entry} {t t' : Table}

/-- The table `t'` has one entry more than the table `t`, and answers as `t` does wherever that entry
is not asked for. -/
structure ExtendedBy (t : Table) (d : Entry) (t' : Table) : Prop where
  width : t'.width = t.width
  toList : t.toList = t'.toList.erase d
  /-- The entry stands behind those of codes up to its own, and nothing else has moved. -/
  place : ∃ before after, t.toList = before ++ after ∧ t'.toList = before ++ d :: after ∧
    (∀ e ∈ before, e.code ≤ d.code) ∧ ∀ e ∈ after, d.code < e.code
  get : ∀ name, name ≠ d.mnemonic → t'.get? name = t.get? name
  codeOf : ∀ name, name ≠ d.mnemonic → t'.codeOf? name = t.codeOf? name
  canonicalOf : ∀ name, name ≠ d.mnemonic → t'.canonicalOf? name = t.canonicalOf? name
  /-- Any other code has the same mnemonic, and so has the code of an alias. -/
  mnemonicOf : ∀ c, c ≠ d.code ∨ d.isAlias = true → t'.mnemonicOf? c = t.mnemonicOf? c
  containsCode : ∀ c, c ≠ d.code ∨ d.isAlias = true → t'.containsCode c = t.containsCode c

/-! ## The place of the entry -/

/-- The entry that is declared last stands behind the entries of codes up to its own. -/
theorem toList_concat (h : build width declarations = .ok t)
    (h' : build width (declarations ++ [d]) = .ok t') :
    t'.toList = t.toList.filter (·.code ≤ d.code) ++ d :: t.toList.filter (d.code < ·.code) := by
  rw [toList_of_build h, toList_of_build h']
  exact sortByCode_concat Entry.code declarations d

/-- Without the entry that is declared last there are the entries as before. -/
theorem filter_append_filter_toList (h : build width declarations = .ok t) (c : Code) :
    t.toList.filter (·.code ≤ c) ++ t.toList.filter (c < ·.code) = t.toList := by
  exact filter_le_append_filter_lt Entry.code (pairwise_of_build h) c

theorem mem_toList_concat_iff (h : build width declarations = .ok t)
    (h' : build width (declarations ++ [d]) = .ok t') :
    e ∈ t'.toList ↔ e ∈ t.toList ∨ e = d := by
  rw [(perm_of_build h).mem_iff, (perm_of_build h').mem_iff, List.mem_append, List.mem_singleton]

/-! ## The answers -/

section Answers

variable (h : build width declarations = .ok t) (h' : build width (declarations ++ [d]) = .ok t')
include h h'

theorem get?_of_ne (name : String) (hname : name ≠ d.mnemonic) : t'.get? name = t.get? name := by
  apply Option.ext
  intro e
  rw [get?_eq_some_iff h, get?_eq_some_iff h', mem_toList_concat_iff h h']
  constructor
  · intro he'
    obtain ⟨he | rfl, hmnemonic⟩ := he'
    · exact ⟨he, hmnemonic⟩
    · exact absurd hmnemonic.symm hname
  · intro he
    exact ⟨Or.inl he.1, he.2⟩

/-- The new entry is canonical for its own code at most. -/
theorem mnemonicOf?_of_ne_or_isAlias (c : Code) (hc : c ≠ d.code ∨ d.isAlias = true) :
    t'.mnemonicOf? c = t.mnemonicOf? c := by
  apply Option.ext
  intro m
  rw [mnemonicOf?_eq_some_iff h, mnemonicOf?_eq_some_iff h']
  constructor
  · intro howner
    obtain ⟨e, he, hcanonical, hcode, hname⟩ := howner
    rcases (mem_toList_concat_iff h h').mp he with he | rfl
    · exact ⟨e, he, hcanonical, hcode, hname⟩
    · -- the new entry has another code, or is an alias, so it does not answer for the code
      rcases hc with hne | halias
      · exact absurd hcode.symm hne
      · exact absurd hcanonical (Option.isSome_iff_ne_none.mp halias)
  · intro howner
    obtain ⟨e, he, hrest⟩ := howner
    exact ⟨e, (mem_toList_concat_iff h h').mpr (Or.inl he), hrest⟩

theorem extendedBy_of_build : t.ExtendedBy d t' := by
  have hget := get?_of_ne h h'
  have hmnemonicOf := mnemonicOf?_of_ne_or_isAlias h h'
  -- the name of the entry is new, so the entry is none of the old ones
  have hnew : d ∉ t.toList := by
    intro hmem
    have hfits := (Accepted.concat_iff.mp (build_eq_ok_iff.mp h').1).2
    exact hfits.new_name d ((perm_of_build h).mem_iff.mp hmem) rfl
  refine
    { width := ?_
      toList := ?_
      place := ⟨_, _, (filter_append_filter_toList h d.code).symm, toList_concat h h', ?_, ?_⟩
      get := hget
      codeOf := ?_
      canonicalOf := ?_
      mnemonicOf := hmnemonicOf
      containsCode := ?_ }
  · rw [width_of_build h, width_of_build h']
  · have hfront : d ∉ t.toList.filter (·.code ≤ d.code) := fun hmem =>
      hnew (List.mem_filter.mp hmem).1
    rw [toList_concat h h', List.erase_append_right _ hfront, List.erase_cons_head,
      filter_append_filter_toList h]
  · intro e he
    exact of_decide_eq_true (List.mem_filter.mp he).2
  · intro e he
    exact of_decide_eq_true (List.mem_filter.mp he).2
  · intro name hname
    rw [codeOf?, codeOf?, hget name hname]
  · intro name hname
    rw [canonicalOf?, canonicalOf?, hget name hname]
  · intro c hc
    rw [containsCode_eq_isSome h, containsCode_eq_isSome h', hmnemonicOf c hc]

end Answers

/-- Where declarations build a table with one more at the end, they build one without it, and the
declaration has added its own entry and changed no other answer. -/
theorem build_concat (h' : build width (declarations ++ [d]) = .ok t') :
    ∃ t, build width declarations = .ok t ∧ t.ExtendedBy d t' := by
  have haccepted := (Accepted.concat_iff.mp (build_eq_ok_iff.mp h').1).1
  have h := build_eq_ok_iff.mpr ⟨haccepted, rfl⟩
  exact ⟨_, h, extendedBy_of_build h h'⟩

/-- The alias goes in between its canonical entry and a greater code, whose answers stay. -/
theorem build_concat_slice_family : ∃ t t',
    build .byte [⟨"JUMP", 9, none⟩, ⟨"SLICE", 5, none⟩] = .ok t ∧
    build .byte ([⟨"JUMP", 9, none⟩, ⟨"SLICE", 5, none⟩] ++ [⟨"SLICE_0", 5, some "SLICE"⟩]) =
      .ok t' ∧
    t.ExtendedBy ⟨"SLICE_0", 5, some "SLICE"⟩ t' ∧ t'.get? "JUMP" = t.get? "JUMP" ∧
    t'.mnemonicOf? 5 = t.mnemonicOf? 5 := by
  have hbuild := build_eq_ok_iff.mpr ⟨(by decide : Accepted .byte
    ([⟨"JUMP", 9, none⟩, ⟨"SLICE", 5, none⟩] ++ [⟨"SLICE_0", 5, some "SLICE"⟩])), rfl⟩
  rcases build_concat hbuild with ⟨t, h, hextended⟩
  exact ⟨t, _, h, hbuild, hextended, hextended.get "JUMP" (by decide),
    hextended.mnemonicOf 5 (Or.inr rfl)⟩

end Table

end OpcodeRegistry
