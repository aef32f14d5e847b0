import OpcodeRegistry.Command.Query
import OpcodeRegistry.Proofs.Text.Scan
import OpcodeRegistry.Proofs.Text.Value

/-! # Codes in queries

A query spells a code in decimal or, behind `0x` or `0X`, in hexadecimal: `Spells`. Every such query
is read as its code. The reader takes one kind of query more: behind the mark of a hexadecimal code
it lets a plus sign stand in front of the digits, which it does not in front of decimal ones.
-/

namespace OpcodeRegistry.Query

open Text

/-- The query is a numeral of the code: in decimal, or behind `0x` or `0X` in hexadecimal. -/
inductive Spells (query : String) (c : Code) : Prop where
  | decimal (h : IsDecimal query.toList c.toNat)
  | hexadecimal {digits : List Char} (hmark : query.toList = "0x".toList ++ digits ∨
      query.toList = "0X".toList ++ digits) (h : IsHexadecimal digits c.toNat)

/-- The query has a plus sign between the mark of a hexadecimal code and the digits. -/
def SpellsSigned (query : String) (c : Code) : Prop :=
  ∃ digits, (query.toList = "0x+".toList ++ digits ∨ query.toList = "0X+".toList ++ digits) ∧
    IsHexadecimal digits c.toNat

variable {query : String} {s digits : List Char} {c : Code}

/-! ## The mark -/

theorem hexDigits?_eq_some_iff :
    hexDigits? s = some digits ↔ s = "0x".toList ++ digits ∨ s = "0X".toList ++ digits := by
  unfold hexDigits?
  rw [Option.orElse_eq_orElse, Option.orElse_eq_or, Option.or_eq_some_iff, word?_eq_some_iff,
    word?_eq_some_iff]
  constructor
  · rintro (h | ⟨-, h⟩)
    · exact Or.inl h
    · exact Or.inr h
  · rintro (h | h)
    · exact Or.inl h
    · -- the two marks differ in their second character
      refine Or.inr ⟨?_, h⟩
      rw [h]
      rfl

/-- A decimal numeral has no mark, since the second character of a mark is no digit. -/
theorem hexDigits?_of_isDecimal {n : Nat} (h : IsDecimal s n) : hexDigits? s = none := by
  rw [Option.eq_none_iff_forall_ne_some]
  intro digits hdigits
  rcases hexDigits?_eq_some_iff.mp hdigits with rfl | rfl
  · exact absurd (h.2.1 'x' (by simp)) (by decide)
  · exact absurd (h.2.1 'X' (by simp)) (by decide)

/-- A query without a mark spells a code in decimal or not at all. -/
theorem spells_iff_of_unmarked (h : hexDigits? query.toList = none) :
    Spells query c ↔ IsDecimal query.toList c.toNat := by
  constructor
  · rintro (hdecimal | ⟨hmark, -⟩)
    · exact hdecimal
    · rw [hexDigits?_eq_some_iff.mpr hmark] at h
      exact absurd h (by simp)
  · exact Spells.decimal

/-- A query with a mark spells a code by the digits behind it or not at all. -/
theorem spells_iff_of_marked (h : hexDigits? query.toList = some digits) :
    Spells query c ↔ IsHexadecimal digits c.toNat := by
  constructor
  · rintro (hdecimal | ⟨hmark, hdigits⟩)
    · rw [hexDigits?_of_isDecimal hdecimal] at h
      exact absurd h (by simp)
    · rw [hexDigits?_eq_some_iff.mpr hmark] at h
      rwa [← Option.some.inj h]
  · exact Spells.hexadecimal (hexDigits?_eq_some_iff.mp h)

theorem spellsSigned_iff : SpellsSigned query c ↔
    ∃ digits, hexDigits? query.toList = some ('+' :: digits) ∧ IsHexadecimal digits c.toNat := by
  simp only [SpellsSigned, hexDigits?_eq_some_iff]
  rfl

/-- A plus sign is no digit. -/
theorem not_isHexadecimal_plus {n : Nat} : ¬ IsHexadecimal ('+' :: digits) n := by
  intro h
  exact absurd (h.2.1 '+' List.mem_cons_self) (by decide)

/-- No query spells a code both without a plus sign and with one. -/
theorem Spells.not_signed (h : Spells query c) : ¬ SpellsSigned query c := by
  intro hsigned
  rcases spellsSigned_iff.mp hsigned with ⟨digits, hmarked, -⟩
  exact not_isHexadecimal_plus ((spells_iff_of_marked hmarked).mp h)

/-! ## The digits -/

/-- Behind the mark stand hexadecimal digits, or a plus sign and hexadecimal digits. -/
theorem valueOf?_skipOne_plus_eq_some_iff {n : Nat} :
    valueOf? 16 (skipOne '+' s) = some n ↔
      IsHexadecimal s n ∨ ∃ digits, s = '+' :: digits ∧ IsHexadecimal digits n := by
  rw [valueOf?_sixteen_eq_some_iff]
  by_cases hplus : s.head? = some '+'
  · -- behind a plus sign only the second way is left, since a sign is no digit
    obtain ⟨digits, rfl⟩ := List.head?_eq_some_iff.mp hplus
    rw [skipOne_cons_self]
    simp [not_isHexadecimal_plus]
  · rw [skipOne_of_head?_ne hplus]
    constructor
    · exact Or.inl
    · rintro (h | ⟨digits, rfl, -⟩)
      · exact h
      · exact absurd rfl hplus

theorem code?_of_unmarked (h : hexDigits? query.toList = none) :
    code? query = some c ↔ IsDecimal query.toList c.toNat := by
  unfold code?
  simp [h, Option.bind_eq_some_iff, Code.ofNat?_eq_some_iff, valueOf?_ten_eq_some_iff]

theorem code?_of_marked (h : hexDigits? query.toList = some digits) :
    code? query = some c ↔ IsHexadecimal digits c.toNat ∨
      ∃ rest, digits = '+' :: rest ∧ IsHexadecimal rest c.toNat := by
  unfold code?
  simp [h, Option.bind_eq_some_iff, Code.ofNat?_eq_some_iff, valueOf?_skipOne_plus_eq_some_iff]

/-- A query is read as a code if and only if it spells the code, or would but for one plus sign behind
the mark of a hexadecimal one. No query is both. -/
theorem code?_eq_some_iff_spells (query : String) (c : Code) :
    (code? query = some c ↔ Spells query c ∨ SpellsSigned query c) ∧
      ¬ (Spells query c ∧ SpellsSigned query c) := by
  refine ⟨?_, fun ⟨hspells, hsigned⟩ => hspells.not_signed hsigned⟩
  rw [spellsSigned_iff]
  cases hmark : hexDigits? query.toList with
  | none =>
      rw [code?_of_unmarked hmark, spells_iff_of_unmarked hmark]
      simp
  | some digits =>
      rw [code?_of_marked hmark, spells_iff_of_marked hmark]
      simp

/-- A plus sign in front of hexadecimal digits is read, though such a query spells no code. -/
theorem code?_signed_not_spells :
    ¬ (code? "0x+1e" = some 30 ↔ Spells "0x+1e" 30) := by
  have hread : code? "0x+1e" = some 30 := by decide
  have hmarked : hexDigits? "0x+1e".toList = some "+1e".toList := rfl
  rw [spells_iff_of_marked hmarked]
  exact fun h => not_isHexadecimal_plus (h.mp hread)

end OpcodeRegistry.Query
