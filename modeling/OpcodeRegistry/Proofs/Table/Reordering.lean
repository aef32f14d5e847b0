import OpcodeRegistry.Proofs.Comparison
import OpcodeRegistry.Proofs.Table.Offence

/-! # Declarations in another order

Of all that a declaration has to satisfy, one condition depends on the order of the declarations:
what an alias names is declared before it. So the declarations of a table, in another order, build
a table if and only if that condition holds, and are refused at the first alias that breaks it. The
two tables answer alike, and their entries differ in the order of aliases of one code at most.
-/

namespace OpcodeRegistry

/-- Whatever an alias names is declared before it. -/
def TargetsFirst (declarations : List Entry) : Prop :=
  ∀ before e after, declarations = before ++ e :: after →
    ∀ name ∈ e.aliasOf, ∃ d ∈ before, d.mnemonic = name

/-- Two entries are one, or they are aliases that share a code. -/
def Entry.Interchangeable (d e : Entry) : Prop :=
  d = e ∨ d.isAlias = true ∧ e.isAlias = true ∧ d.code = e.code

/-- The tables answer alike, and the entries of one are those of the other but for the order of
aliases that share a code. -/
structure Table.Alike (t t' : Table) : Prop where
  get : ∀ name, t'.get? name = t.get? name
  codeOf : ∀ name, t'.codeOf? name = t.codeOf? name
  mnemonicOf : ∀ c, t'.mnemonicOf? c = t.mnemonicOf? c
  canonicalOf : ∀ name, t'.canonicalOf? name = t.canonicalOf? name
  containsCode : ∀ c, t'.containsCode c = t.containsCode c
  width : t'.width = t.width
  size : t'.size = t.size
  canonicalEntries : t'.canonicalEntries = t.canonicalEntries
  perm : t'.toList.Perm t.toList
  /-- In each place both have the same entry, or aliases that share a code. -/
  interchangeable : List.Forall₂ Entry.Interchangeable t.toList t'.toList

/-! ## What an alias names -/

section TargetsFirst

variable {width : CodeWidth} {declarations declarations' front rest : List Entry} {e : Entry}

theorem targetsFirst_concat_iff :
    TargetsFirst (declarations ++ [e]) ↔
      TargetsFirst declarations ∧ ∀ name ∈ e.aliasOf, ∃ d ∈ declarations, d.mnemonic = name := by
  constructor
  · intro h
    refine ⟨?_, h declarations e [] rfl⟩
    intro before a after hsplit
    apply h before a (after ++ [e])
    rw [hsplit]
    simp
  · rintro ⟨hbefore, hlast⟩ before a after hsplit
    -- a split of the longer list is at its last entry or one of the list before
    rcases List.eq_nil_or_concat after with rfl | ⟨after, z, rfl⟩
    · obtain ⟨rfl, hcons⟩ := List.append_inj' hsplit rfl
      obtain rfl := List.head_eq_of_cons_eq hcons
      exact hlast
    · rw [List.concat_eq_append, ← List.cons_append, ← List.append_assoc] at hsplit
      exact hbefore before a after (List.append_inj' hsplit rfl).1

/-- Where some alias stands before what it names, a first one does. -/
theorem exists_first_alias (h : ¬ TargetsFirst declarations) :
    ∃ before e after name, declarations = before ++ e :: after ∧ TargetsFirst before ∧
      e.aliasOf = some name ∧ ∀ d ∈ before, d.mnemonic ≠ name := by
  induction declarations using List.reverseRecOn with
  | nil =>
      refine absurd ?_ h
      intro before e after hsplit
      exact absurd hsplit (by simp)
  | append_singleton declarations e ih =>
      by_cases hbefore : TargetsFirst declarations
      · have hlast : ¬ ∀ name ∈ e.aliasOf, ∃ d ∈ declarations, d.mnemonic = name := by
          intro hlast
          exact h (targetsFirst_concat_iff.mpr ⟨hbefore, hlast⟩)
        push Not at hlast
        rcases hlast with ⟨name, halias, hnone⟩
        exact ⟨declarations, e, [], name, rfl, hbefore, halias, hnone⟩
      · -- an alias that stands too early already is before the last entry
        rcases ih hbefore with ⟨before, a, after, name, rfl, hrest⟩
        exact ⟨before, a, after ++ [e], name, by simp, hrest⟩

/-- The front of accepted declarations in another order is accepted if its aliases stand behind what
they name. -/
theorem Accepted.front_of_perm (h : Accepted width declarations)
    (hperm : (front ++ rest).Perm declarations) (hfront : TargetsFirst front) :
    Accepted width front := by
  apply iff_forall_split.mpr
  intro before e after hsplit
  rw [hsplit, List.append_assoc, List.cons_append] at hperm
  exact h.fits_of_perm hperm (hfront before e after hsplit)

theorem Accepted.targetsFirst (h : Accepted width declarations) : TargetsFirst declarations := by
  intro before e after hsplit name halias
  rcases (iff_forall_split.mp h before e after hsplit).target name halias with ⟨d, hd, hname, -⟩
  exact ⟨d, hd, hname⟩

theorem Accepted.perm_iff (h : Accepted width declarations)
    (hperm : declarations'.Perm declarations) :
    Accepted width declarations' ↔ TargetsFirst declarations' := by
  constructor
  · exact Accepted.targetsFirst
  · rw [← List.append_nil declarations'] at hperm
    exact h.front_of_perm hperm

/-- Accepted declarations in another order are refused at the first alias that stands before what it
names. -/
theorem Accepted.build_eq_unknownCanonical (h : Accepted width declarations)
    {before after : List Entry} (hperm : (before ++ e :: after).Perm declarations)
    (hbefore : TargetsFirst before) {name : String} (halias : e.aliasOf = some name)
    (hnone : ∀ d ∈ before, d.mnemonic ≠ name) :
    Table.build width (before ++ e :: after) = .error (.unknownCanonical e.mnemonic name) := by
  have he : e ∈ declarations := hperm.mem_iff.mp (by simp)
  refine Table.build_eq_error_iff.mpr
    ⟨before, e, after, rfl, h.front_of_perm hperm hbefore, .unknownCanonical halias hnone, ?_⟩
  intro other hother
  exact hother.four_le_rank (h.isMnemonic e he) (h.code_mem e he) (h.new_name_of_perm hperm)

/-- What an alias names is behind it if it is not before it. -/
theorem Accepted.target_behind (h : Accepted width declarations) {before after : List Entry}
    (hperm : (before ++ e :: after).Perm declarations) {name : String}
    (halias : e.aliasOf = some name) (hnone : ∀ d ∈ before, d.mnemonic ≠ name) :
    ∃ d ∈ after, d.mnemonic = name ∧ d.aliasOf = none := by
  have he : e ∈ declarations := hperm.mem_iff.mp (by simp)
  rcases h.target e he name halias with ⟨d, hd, hname, hcanonical, -⟩
  have hmem : d ∈ before ++ e :: after := hperm.mem_iff.mpr hd
  rcases List.mem_append.mp hmem with hbefore | hmem
  · exact absurd hname (hnone d hbefore)
  · rcases List.mem_cons.mp hmem with rfl | hafter
    · exact absurd (hcanonical.symm.trans halias) (by simp)
    · exact ⟨d, hafter, hname, hcanonical⟩

end TargetsFirst

/-! ## Tables of the same entries -/

/-- An entry of an accepted list is canonical if and only if no entry in front has its code. -/
theorem Accepted.aliasOf_eq_none_iff {width : CodeWidth} {before after : List Entry} {e : Entry}
    (h : Accepted width (before ++ e :: after)) :
    e.aliasOf = none ↔ ∀ d ∈ before, d.code ≠ e.code := by
  have hfits := h.fits_of_split
  constructor
  · intro hcanonical d hd hcode
    -- whatever has the code in front, the canonical entry of the code is in front as well
    rcases h.front.exists_canonical hd with ⟨owner, howner, howned, hoc, -⟩
    exact hfits.new_owner hcanonical owner howner howned (hoc.trans hcode)
  · intro hnone
    cases halias : e.aliasOf with
    | none => rfl
    | some name =>
        rcases hfits.target name halias with ⟨d, hd, -, -, hcode⟩
        exact absurd hcode (hnone d hd)

namespace Table

variable {width : CodeWidth} {declarations declarations' : List Entry} {t t' : Table}

section SameEntries

variable (h : build width declarations = .ok t) (h' : build width declarations' = .ok t')
include h h'

/-- Tables of the same entries have the same codes in the same places. -/
theorem map_code_eq (hperm : t'.toList.Perm t.toList) :
    t.toList.map Entry.code = t'.toList.map Entry.code := by
  have hascending : ∀ {declarations : List Entry} {t : Table},
      build width declarations = .ok t → (t.toList.map Entry.code).Pairwise (· ≤ ·) := by
    intro declarations t h
    exact List.pairwise_map.mpr (pairwise_of_build h)
  have : Std.Antisymm fun c d : Code => c ≤ d := ⟨fun _ _ => UInt32.le_antisymm⟩
  exact (hperm.symm.map Entry.code).eq_of_pairwise' (hascending h) (hascending h')

/-- In one place, tables of the same entries have the same entry or aliases that share a code. -/
theorem interchangeable_of_split (hperm : t'.toList.Perm t.toList)
    {before after before' after' : List Entry} {e e' : Entry}
    (hsplit : t.toList = before ++ e :: after) (hsplit' : t'.toList = before' ++ e' :: after')
    (hlength : before.length = before'.length) : e.Interchangeable e' := by
  have haccepted := accepted_toList h
  have haccepted' := accepted_toList h'
  have hcodes := map_code_eq h h' hperm
  have he : e ∈ t.toList := by simp [hsplit]
  have he' : e' ∈ t.toList := hperm.mem_iff.mp (by simp [hsplit'])
  rw [hsplit, hsplit', List.map_append, List.map_append, List.map_cons, List.map_cons] at hcodes
  obtain ⟨hfront, hcons⟩ := List.append_inj hcodes (by simp [hlength])
  have hcode : e.code = e'.code := List.head_eq_of_cons_eq hcons
  -- whether an entry is canonical can be told from the codes in front of it
  have hiff : e.aliasOf = none ↔ e'.aliasOf = none := by
    have hleft := (hsplit ▸ haccepted).aliasOf_eq_none_iff
    have hright := (hsplit' ▸ haccepted').aliasOf_eq_none_iff
    have hmap : ∀ (l : List Entry) (c : Code),
        (∀ d ∈ l, d.code ≠ c) ↔ c ∉ l.map Entry.code := by
      intro l c
      simp
    rw [hleft, hright, hmap, hmap, hfront, hcode]
  by_cases hcanonical : e.aliasOf = none
  · exact Or.inl (haccepted.owner_unique he he' hcanonical (hiff.mp hcanonical) hcode)
  · refine Or.inr ⟨?_, ?_, hcode⟩
    · exact Option.isSome_iff_ne_none.mpr hcanonical
    · exact Option.isSome_iff_ne_none.mpr (mt hiff.mpr hcanonical)

theorem forall₂_interchangeable (hperm : t'.toList.Perm t.toList) :
    List.Forall₂ Entry.Interchangeable t.toList t'.toList := by
  apply List.forall₂_iff_get.mpr
  refine ⟨hperm.length_eq.symm, ?_⟩
  intro i hi hi'
  have hsplit : ∀ {l : List Entry} (hi : i < l.length),
      l = l.take i ++ l.get ⟨i, hi⟩ :: l.drop (i + 1) := by
    intro l hi
    rw [List.get_eq_getElem, ← List.drop_eq_getElem_cons hi, List.take_append_drop]
  have hlength : (t.toList.take i).length = (t'.toList.take i).length := by
    rw [List.length_take, List.length_take]
    omega
  exact interchangeable_of_split h h' hperm (hsplit hi) (hsplit hi') hlength

/-- Tables of the same entries answer alike. -/
theorem alike_of_perm (hperm : t'.toList.Perm t.toList) : t.Alike t' := by
  have hmem : ∀ e, e ∈ t'.toList ↔ e ∈ t.toList := fun _ => hperm.mem_iff
  have hget : ∀ name, t'.get? name = t.get? name := by
    intro name
    apply Option.ext
    intro e
    rw [get?_eq_some_iff h, get?_eq_some_iff h', hmem]
  refine
    { get := hget
      codeOf := ?_
      mnemonicOf := ?_
      canonicalOf := ?_
      containsCode := ?_
      width := ?_
      size := ?_
      canonicalEntries := ?_
      perm := hperm
      interchangeable := forall₂_interchangeable h h' hperm }
  · intro name
    rw [codeOf?, codeOf?, hget]
  · intro c
    apply Option.ext
    intro m
    simp only [mnemonicOf?_eq_some_iff h, mnemonicOf?_eq_some_iff h', hmem]
  · intro name
    rw [canonicalOf?, canonicalOf?, hget]
  · intro c
    rw [Bool.eq_iff_iff, containsCode_eq_true_iff h, containsCode_eq_true_iff h']
    simp only [hmem]
  · rw [width_of_build h, width_of_build h']
  · simpa [toList, size] using hperm.length_eq
  · -- the canonical entries ascend strictly, so that they stand in one order only
    apply eq_of_ascending_of_mem_iff Entry.code (pairwise_canonicalEntries h')
      (pairwise_canonicalEntries h)
    intro e
    rw [mem_canonicalEntries_iff, mem_canonicalEntries_iff, hmem]

end SameEntries

/-- The declarations of a table, in another order, build a table if and only if each alias stands
behind what it names. Otherwise they are refused at the first alias that does not, and if they build
a table the two answer alike. -/
theorem build_reordered (h : build width declarations = .ok t)
    (hperm : declarations'.Perm declarations) :
    ((∃ t', build width declarations' = .ok t') ↔ TargetsFirst declarations') ∧
    (¬ TargetsFirst declarations' → ∃ before e after name,
      declarations' = before ++ e :: after ∧ TargetsFirst before ∧ e.aliasOf = some name ∧
      (∀ d ∈ before, d.mnemonic ≠ name) ∧
      (∃ d ∈ after, d.mnemonic = name ∧ d.aliasOf = none) ∧
      build width declarations' = .error (.unknownCanonical e.mnemonic name)) ∧
    ∀ t', build width declarations' = .ok t' → t.Alike t' := by
  have haccepted : Accepted width declarations := (build_eq_ok_iff.mp h).1
  refine ⟨?_, ?_, ?_⟩
  · rw [← haccepted.perm_iff hperm]
    constructor
    · rintro ⟨t', h'⟩
      exact (build_eq_ok_iff.mp h').1
    · intro haccepted'
      exact ⟨_, build_eq_ok_iff.mpr ⟨haccepted', rfl⟩⟩
  · intro hnot
    rcases exists_first_alias hnot with ⟨before, e, after, name, rfl, hbefore, halias, hnone⟩
    exact ⟨before, e, after, name, rfl, hbefore, halias, hnone,
      haccepted.target_behind hperm halias hnone,
      haccepted.build_eq_unknownCanonical hperm hbefore halias hnone⟩
  · intro t' h'
    apply alike_of_perm h h'
    rw [toList_of_build h, toList_of_build h']
    -- a table holds its declarations, in whatever order they came
    have hsorted : (sorted declarations).Perm declarations := sortByCode_perm _ _
    have hsorted' : (sorted declarations').Perm declarations' := sortByCode_perm _ _
    exact hsorted'.trans (hperm.trans hsorted.symm)

/-- Two aliases of one code and an opcode of a smaller code change places. -/
theorem build_reordered_slice_family : ∃ t t',
    build .byte [⟨"SLICE", 5, none⟩, ⟨"SLICE_0", 5, some "SLICE"⟩, ⟨"SLICE_1", 5, some "SLICE"⟩,
      ⟨"HALT", 1, none⟩] = .ok t ∧
    build .byte [⟨"HALT", 1, none⟩, ⟨"SLICE", 5, none⟩, ⟨"SLICE_1", 5, some "SLICE"⟩,
      ⟨"SLICE_0", 5, some "SLICE"⟩] = .ok t' ∧ t.Alike t' := by
  have hbuild := build_eq_ok_iff.mpr ⟨(by decide : Accepted .byte [⟨"SLICE", 5, none⟩,
    ⟨"SLICE_0", 5, some "SLICE"⟩, ⟨"SLICE_1", 5, some "SLICE"⟩, ⟨"HALT", 1, none⟩]), rfl⟩
  have htargets := (by decide : Accepted .byte [⟨"HALT", 1, none⟩, ⟨"SLICE", 5, none⟩,
    ⟨"SLICE_1", 5, some "SLICE"⟩, ⟨"SLICE_0", 5, some "SLICE"⟩]).targetsFirst
  rcases (build_reordered hbuild (by decide)).1.mpr htargets with ⟨t', h'⟩
  exact ⟨_, t', hbuild, h', (build_reordered hbuild (by decide)).2.2 t' h'⟩

end Table

end OpcodeRegistry
