import Mathlib.Algebra.Group.Nat.Defs
import OpcodeRegistry.Code

/-! # The codes of a width

Membership in a width in plain arithmetic: a code can be written in `b` bits if it is below `2 ^ b`.
-/

namespace OpcodeRegistry

namespace CodeWidth

/-- Below 32 bits the shift stays in the word. -/
theorem toNat_one_shiftLeft {b : Nat} (h : b < 32) :
    ((1 : Code) <<< UInt32.ofNat b).toNat = 2 ^ b := by
  have hamount : (UInt32.ofNat b).toNat = b :=
    UInt32.toNat_ofNat_of_lt' (Nat.lt_trans h (by decide))
  have hpow : 2 ^ b < 2 ^ 32 := Nat.pow_lt_pow_right (by decide) h
  rw [UInt32.toNat_shiftLeft, hamount, Nat.mod_eq_of_lt h, UInt32.toNat_one, Nat.one_shiftLeft,
    Nat.mod_eq_of_lt hpow]

/-- The largest code is `2 ^ bits - 1`: at 32 bits, where there is no shift, as well. -/
theorem toNat_maxCode (w : CodeWidth) : w.maxCode.toNat = 2 ^ w.bits - 1 := by
  unfold maxCode
  split
  · -- a shift by all 32 places would be one by none, so this width is taken apart
    rename_i hbits
    rw [hbits]
    rfl
  · rename_i hbits
    have hlt : w.bits < 32 := Nat.lt_of_le_of_ne w.bits_le hbits
    have hshift := toNat_one_shiftLeft hlt
    have hpow : 0 < 2 ^ w.bits := Nat.pow_pos (by decide)
    rw [UInt32.toNat_sub_of_le, hshift]
    · rfl
    · rw [UInt32.le_iff_toNat_le, hshift]
      exact hpow

theorem mem_iff {c : Code} {w : CodeWidth} : c ∈ w ↔ c.toNat < 2 ^ w.bits := by
  have hpow : 0 < 2 ^ w.bits := Nat.pow_pos (by decide)
  change c ≤ w.maxCode ↔ _
  rw [UInt32.le_iff_toNat_le, toNat_maxCode]
  omega

/-- A code of a width is one of every greater width. -/
theorem mem_of_bits_le {c : Code} {v w : CodeWidth} (hle : v.bits ≤ w.bits) (hc : c ∈ v) : c ∈ w := by
  rw [mem_iff] at hc ⊢
  exact Nat.lt_of_lt_of_le hc (Nat.pow_le_pow_right (by decide) hle)

theorem ofBits?_eq_some_iff {bits : Nat} {w : CodeWidth} :
    ofBits? bits = some w ↔ w.bits = bits := by
  obtain ⟨b, hpos, hle⟩ := w
  simp only [ofBits?]
  split
  · simp only [Option.some.injEq, mk.injEq]
    exact eq_comm
  · simp only [reduceCtorEq, false_iff]
    omega

/-- There is a width of 1 to 32 bits and no other. -/
theorem exists_ofBits?_iff {bits : Nat} : (∃ w, ofBits? bits = some w) ↔ 1 ≤ bits ∧ bits ≤ 32 := by
  simp only [ofBits?_eq_some_iff]
  constructor
  · rintro ⟨w, rfl⟩
    exact ⟨w.one_le_bits, w.bits_le⟩
  · rintro ⟨hpos, hle⟩
    exact ⟨⟨bits, hpos, hle⟩, rfl⟩

end CodeWidth

end OpcodeRegistry
