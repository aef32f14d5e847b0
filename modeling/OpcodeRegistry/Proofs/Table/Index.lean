import Mathlib.Data.List.Induction
import OpcodeRegistry.Table.Basic

/-! # Indexes of entries

A draft and a table find their entries through maps from keys to positions. `Indexes` says what such
a map holds: for each key, the position of the one entry that has it, and nothing else. An entry may
be without a key, as an alias owns no code. From this alone follow the answers that go through the
map, so neither a draft nor a table is looked into again.
-/

namespace OpcodeRegistry

/-- The code that an entry owns, if it is canonical. -/
def Entry.ownedCode? (e : Entry) : Option Code :=
  if e.isAlias then none else some e.code

theorem Entry.ownedCode?_eq_some_iff {e : Entry} {c : Code} :
    e.ownedCode? = some c ↔ e.aliasOf = none ∧ e.code = c := by
  cases h : e.aliasOf with
  | none => simp [Entry.ownedCode?, Entry.isAlias, h]
  | some b => simp [Entry.ownedCode?, Entry.isAlias, h]

section Indexes

variable {κ : Type} [BEq κ] [Hashable κ]

/-- The index holds the position of each entry that has a key, under that key, and nothing else. -/
def Indexes (index : Std.HashMap κ Nat) (key : Entry → Option κ) (entries : List Entry) : Prop :=
  ∀ k i, index[k]? = some i ↔ ∃ e, entries[i]? = some e ∧ key e = some k

/-- No two of the entries have the same key. -/
def DistinctKeys (key : Entry → Option κ) (entries : List Entry) : Prop :=
  entries.Pairwise fun a b => ∀ k, key a = some k → key b ≠ some k

/-- Distinct keys are distinct in any order. -/
theorem DistinctKeys.perm {κ : Type} {key : Entry → Option κ} {l l' : List Entry}
    (h : DistinctKeys key l) (hperm : l.Perm l') : DistinctKeys key l' := by
  refine (hperm.pairwise_iff ?_).mp h
  intro a b hab k hb ha
  exact hab k ha hb

/-- A key belongs to one entry at most. -/
theorem DistinctKeys.eq_of_mem {κ : Type} {key : Entry → Option κ} {entries : List Entry}
    (h : DistinctKeys key entries) {a b : Entry} (ha : a ∈ entries) (hb : b ∈ entries) {k : κ}
    (hak : key a = some k) (hbk : key b = some k) : a = b := by
  induction entries with
  | nil => exact absurd ha List.not_mem_nil
  | cons e entries ih =>
      rcases List.pairwise_cons.mp h with ⟨hhead, htail⟩
      rcases List.mem_cons.mp ha with rfl | ha'
      · rcases List.mem_cons.mp hb with rfl | hb'
        · rfl
        · exact absurd hbk (hhead b hb' k hak)
      · rcases List.mem_cons.mp hb with rfl | hb'
        · exact absurd hak (hhead a ha' k hbk)
        · exact ih htail ha' hb'

namespace Indexes

variable {index : Std.HashMap κ Nat} {key : Entry → Option κ} {entries : List Entry}

/-! ## Answers through an index -/

/-- No position in an index is out of bounds. -/
theorem lt_length (h : Indexes index key entries) {k : κ} {i : Nat} (hi : index[k]? = some i) :
    i < entries.length := by
  rcases (h k i).mp hi with ⟨e, he, -⟩
  exact (List.getElem?_eq_some_iff.mp he).1

/-- The entry behind a key is the one that has the key. -/
theorem bind_eq_some_iff (h : Indexes index key entries) {k : κ} {e : Entry} :
    index[k]?.bind (entries[·]?) = some e ↔ e ∈ entries ∧ key e = some k := by
  rw [Option.bind_eq_some_iff]
  constructor
  · rintro ⟨i, hi, he⟩
    rcases (h k i).mp hi with ⟨e', he', hkey⟩
    have heq : e' = e := Option.some.inj (he'.symm.trans he)
    exact ⟨List.mem_of_getElem? he, heq ▸ hkey⟩
  · rintro ⟨hmem, hkey⟩
    rcases List.mem_iff_getElem?.mp hmem with ⟨i, hi⟩
    exact ⟨i, (h k i).mpr ⟨e, hi, hkey⟩, hi⟩

/-- A key has no entry behind it if no entry has the key. -/
theorem bind_eq_none_iff (h : Indexes index key entries) {k : κ} :
    index[k]?.bind (entries[·]?) = none ↔ ∀ e ∈ entries, key e ≠ some k := by
  rw [Option.eq_none_iff_forall_ne_some]
  constructor
  · intro hnone e he hkey
    exact hnone e (h.bind_eq_some_iff.mpr ⟨he, hkey⟩)
  · intro hall e he
    rcases h.bind_eq_some_iff.mp he with ⟨hmem, hkey⟩
    exact hall e hmem hkey

/-- The keys of an index are those that entries have. -/
theorem mem_iff [EquivBEq κ] [LawfulHashable κ] (h : Indexes index key entries) {k : κ} :
    k ∈ index ↔ ∃ e ∈ entries, key e = some k := by
  rw [Std.HashMap.mem_iff_isSome_getElem?, Option.isSome_iff_exists]
  constructor
  · rintro ⟨i, hi⟩
    rcases (h k i).mp hi with ⟨e, he, hkey⟩
    exact ⟨e, List.mem_of_getElem? he, hkey⟩
  · rintro ⟨e, he, hkey⟩
    rcases List.mem_iff_getElem?.mp he with ⟨i, hi⟩
    exact ⟨i, (h k i).mpr ⟨e, hi, hkey⟩⟩

/-! ## One entry more -/

/-- Behind one more entry stand the entries as before, and that one at the end. -/
theorem getElem?_concat_eq_some_iff {e d : Entry} {i : Nat} :
    (entries ++ [e])[i]? = some d ↔ entries[i]? = some d ∨ (i = entries.length ∧ d = e) := by
  -- a position is one of the entries, that of the new one, or beyond both
  rcases Nat.lt_trichotomy i entries.length with hlt | heq | hgt
  · rw [List.getElem?_append_left hlt]
    constructor
    · intro hd
      exact Or.inl hd
    · rintro (hd | ⟨heq, -⟩)
      · exact hd
      · omega
  · subst heq
    simp [eq_comm]
  · have hnone : entries[i]? = none := List.getElem?_eq_none (by omega)
    have hnone' : (entries ++ [e])[i]? = none := List.getElem?_eq_none (by simp; omega)
    rw [hnone, hnone']
    constructor
    · intro hd
      exact absurd hd (by simp)
    · rintro (hd | ⟨heq, -⟩)
      · exact absurd hd (by simp)
      · omega

/-- There is nothing in the empty index. -/
theorem empty [EquivBEq κ] [LawfulHashable κ] :
    Indexes (∅ : Std.HashMap κ Nat) key [] := by
  intro k i
  simp

/-- An entry without a key changes nothing. -/
theorem skip (h : Indexes index key entries) {e : Entry} (he : key e = none) :
    Indexes index key (entries ++ [e]) := by
  intro k i
  rw [h k i]
  constructor
  · rintro ⟨d, hd, hkey⟩
    exact ⟨d, getElem?_concat_eq_some_iff.mpr (Or.inl hd), hkey⟩
  · rintro ⟨d, hd, hkey⟩
    rcases getElem?_concat_eq_some_iff.mp hd with hd | ⟨-, rfl⟩
    · exact ⟨d, hd, hkey⟩
    · -- the new entry has no key at all
      exact absurd (he.symm.trans hkey) (by simp)

/-- An entry with a new key is added under that key. -/
theorem insert [LawfulBEq κ] [LawfulHashable κ] (h : Indexes index key entries) {e : Entry} {k : κ}
    (he : key e = some k) (hnew : ∀ d ∈ entries, key d ≠ some k) :
    Indexes (index.insert k entries.length) key (entries ++ [e]) := by
  intro k' i
  rw [Std.HashMap.getElem?_insert]
  by_cases hk : k = k'
  · -- under the new key stands the new entry alone
    subst hk
    simp only [beq_self_eq_true, if_true, Option.some.injEq]
    constructor
    · intro hi
      exact ⟨e, getElem?_concat_eq_some_iff.mpr (Or.inr ⟨hi.symm, rfl⟩), he⟩
    · rintro ⟨d, hd, hkey⟩
      rcases getElem?_concat_eq_some_iff.mp hd with hd | ⟨hi, -⟩
      · exact absurd hkey (hnew d (List.mem_of_getElem? hd))
      · exact hi.symm
  · -- under any other key stands what stood there before
    have hbeq : ¬ (k == k') = true := by simpa using hk
    rw [if_neg hbeq, h k' i]
    constructor
    · rintro ⟨d, hd, hkey⟩
      exact ⟨d, getElem?_concat_eq_some_iff.mpr (Or.inl hd), hkey⟩
    · rintro ⟨d, hd, hkey⟩
      rcases getElem?_concat_eq_some_iff.mp hd with hd | ⟨-, rfl⟩
      · exact ⟨d, hd, hkey⟩
      · exact absurd (Option.some.inj (he.symm.trans hkey)) hk

/-! ## Building an index -/

/-- Going through entries with distinct keys and putting each under its key gives their index. -/
theorem foldl_zipIdx [LawfulBEq κ] [LawfulHashable κ] {key : Entry → Option κ}
    {step : Std.HashMap κ Nat → Entry × Nat → Std.HashMap κ Nat}
    (hnone : ∀ m e i, key e = none → step m (e, i) = m)
    (hsome : ∀ m e i k, key e = some k → step m (e, i) = m.insert k i)
    {entries : List Entry} (hdistinct : DistinctKeys key entries) :
    Indexes (entries.zipIdx.foldl step ∅) key entries := by
  -- an entry is put at the position behind those before it, hence the induction from the end
  induction entries using List.reverseRecOn with
  | nil => exact empty
  | append_singleton entries e ih =>
      rcases List.pairwise_append.mp hdistinct with ⟨hbefore, -, hcross⟩
      have hih := ih hbefore
      rw [List.zipIdx_append, List.foldl_append]
      simp only [List.zipIdx_singleton, List.foldl_cons, List.foldl_nil, Nat.zero_add]
      cases he : key e with
      | none =>
          rw [hnone _ e _ he]
          exact hih.skip he
      | some k =>
          rw [hsome _ e _ k he]
          apply hih.insert he
          intro d hd hkey
          exact hcross d hd e (List.mem_singleton_self e) k hkey he

end Indexes

end Indexes

end OpcodeRegistry
