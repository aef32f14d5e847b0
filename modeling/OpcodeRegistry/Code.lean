/-! # Codes and code widths

A code is the number that stands for an opcode in the instruction stream; an instruction set fixes
how many bits it has. Membership `c ∈ w` says that the code `c` can be written in the width `w`.
-/

namespace OpcodeRegistry

/-- The number of an opcode: at most 32 bits. -/
abbrev Code := UInt32

/-- The code of value `n`, or `none` if `n` needs more than 32 bits. -/
def Code.ofNat? (n : Nat) : Option Code :=
  if n < UInt32.size then some (UInt32.ofNat n) else none

theorem Code.ofNat?_eq_some_iff {n : Nat} {c : Code} : ofNat? n = some c ↔ n = c.toNat := by
  unfold ofNat?
  constructor
  · intro h
    split at h
    · rename_i hlt
      rw [← Option.some.inj h, UInt32.toNat_ofNat_of_lt' hlt]
    · exact absurd h (by simp)
  · rintro rfl
    rw [if_pos c.toNat_lt, UInt32.ofNat_toNat]

theorem Code.ofNat?_eq_none_iff {n : Nat} : ofNat? n = none ↔ UInt32.size ≤ n := by
  simp [ofNat?]

/-- How many bits an opcode has in the instruction stream: 1 to 32. -/
structure CodeWidth where
  bits : Nat
  one_le_bits : 1 ≤ bits := by omega
  bits_le : bits ≤ 32 := by omega
deriving DecidableEq, Repr

namespace CodeWidth

/-- Opcodes of one byte. -/
def byte : CodeWidth where
  bits := 8

/-- The width of `bits` bits, or `none` if there is no such width. -/
def ofBits? (bits : Nat) : Option CodeWidth :=
  if h : 1 ≤ bits ∧ bits ≤ 32 then some ⟨bits, h.1, h.2⟩ else none

/-- The largest code of the width. At 32 bits the shift would leave the word, so that width is told
apart. -/
def maxCode (w : CodeWidth) : Code :=
  if w.bits = 32 then 0xffffffff else (1 <<< UInt32.ofNat w.bits) - 1

/-- The codes of a width are those up to the largest one. -/
instance : Membership Code CodeWidth where
  mem w c := c ≤ w.maxCode

instance (c : Code) (w : CodeWidth) : Decidable (c ∈ w) :=
  inferInstanceAs (Decidable (c ≤ w.maxCode))

end CodeWidth

end OpcodeRegistry
