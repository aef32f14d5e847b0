/-! # Mnemonics

The names of opcodes. Inside a table they are upper-case identifiers; outside, an atom of an opcode
source becomes one by raising its letters. Only the letters `A` to `Z` have case here.
-/

namespace OpcodeRegistry

/-! ## Characters -/

/-- Letters, digits and the underscore: what an atom is made of. -/
def isWordChar (c : Char) : Bool :=
  c.isAlphanum || c == '_'

/-- What may follow the first letter of a mnemonic. -/
def isMnemonicChar (c : Char) : Bool :=
  c.isUpper || c.isDigit || c == '_'

section Character

variable {c d : Char}

theorem isUpper_iff : c.isUpper = true ↔ 'A' ≤ c ∧ c ≤ 'Z' :=
  decide_eq_true_iff

theorem isLower_iff : c.isLower = true ↔ 'a' ≤ c ∧ c ≤ 'z' := by
  change (decide ('a' ≤ c) && decide (c ≤ 'z')) = true ↔ _
  rw [Bool.and_eq_true, decide_eq_true_iff, decide_eq_true_iff]

theorem isDigit_iff : c.isDigit = true ↔ '0' ≤ c ∧ c ≤ '9' :=
  Char.isDigit_iff_toNat

/-- The atom characters are `A` to `Z`, `a` to `z`, `0` to `9` and the underscore. -/
theorem isWordChar_iff : isWordChar c = true ↔
    ('A' ≤ c ∧ c ≤ 'Z') ∨ ('a' ≤ c ∧ c ≤ 'z') ∨ ('0' ≤ c ∧ c ≤ '9') ∨ c = '_' := by
  change (((c.isUpper || c.isLower) || c.isDigit) || c == '_') = true ↔ _
  simp only [Bool.or_eq_true, beq_iff_eq, isUpper_iff, isLower_iff, isDigit_iff, or_assoc]

theorem isMnemonicChar_iff : isMnemonicChar c = true ↔
    ('A' ≤ c ∧ c ≤ 'Z') ∨ ('0' ≤ c ∧ c ≤ '9') ∨ c = '_' := by
  simp only [isMnemonicChar, Bool.or_eq_true, beq_iff_eq, isUpper_iff, isDigit_iff, or_assoc]

theorem isWordChar_of_isMnemonicChar (h : isMnemonicChar c = true) : isWordChar c = true := by
  rw [isWordChar_iff]
  rcases isMnemonicChar_iff.mp h with hupper | hrest
  · exact Or.inl hupper
  · exact Or.inr (Or.inr hrest)

/-! ## Letter case

A letter and its counterpart in the other case are 32 apart, and nothing else is changed by raising
or lowering.
-/

theorem le_iff_toNat_le : c ≤ d ↔ c.toNat ≤ d.toNat := Iff.rfl

theorem toUpper_of_not_isLower (h : ¬ c.isLower = true) : c.toUpper = c :=
  dif_neg fun hlower => h (isLower_iff.mpr hlower)

theorem toLower_of_not_isUpper (h : ¬ c.isUpper = true) : c.toLower = c :=
  dif_neg fun hupper => h (isUpper_iff.mpr hupper)

theorem toNat_toUpper (h : c.isLower = true) : c.toUpper.toNat + 32 = c.toNat := by
  have hrange := isLower_iff.mp h
  have hraised : c.toUpper.val = c.val + ('A'.val - 'a'.val) := by
    unfold Char.toUpper
    split
    · rfl
    · exact absurd hrange ‹_›
  have hdistance : ('A'.val - 'a'.val).toNat = 2 ^ 32 - 32 := rfl
  simp only [le_iff_toNat_le, Char.reduceToNat] at hrange
  rw [← Char.toNat_val, hraised, UInt32.toNat_add, hdistance, Char.toNat_val]
  omega

theorem toNat_toLower (h : c.isUpper = true) : c.toLower.toNat = c.toNat + 32 := by
  have hrange := isUpper_iff.mp h
  have hlowered : c.toLower.val = c.val + ('a'.val - 'A'.val) := by
    unfold Char.toLower
    split
    · rfl
    · exact absurd hrange ‹_›
  have hdistance : ('a'.val - 'A'.val).toNat = 32 := rfl
  simp only [le_iff_toNat_le, Char.reduceToNat] at hrange
  rw [← Char.toNat_val, hlowered, UInt32.toNat_add, hdistance, Char.toNat_val]
  omega

theorem isUpper_toUpper (h : c.isLower = true) : c.toUpper.isUpper = true := by
  have hraised := toNat_toUpper h
  simp only [isLower_iff, isUpper_iff, le_iff_toNat_le, Char.reduceToNat] at h ⊢
  omega

theorem isLower_toLower (h : c.isUpper = true) : c.toLower.isLower = true := by
  have hlowered := toNat_toLower h
  simp only [isLower_iff, isUpper_iff, le_iff_toNat_le, Char.reduceToNat] at h ⊢
  omega

theorem not_isUpper_of_isLower (h : c.isLower = true) : ¬ c.isUpper = true := by
  simp only [isLower_iff, isUpper_iff, le_iff_toNat_le, Char.reduceToNat] at h ⊢
  omega

theorem not_isUpper_of_isDigit (h : c.isDigit = true) : ¬ c.isUpper = true := by
  simp only [isDigit_iff, isUpper_iff, le_iff_toNat_le, Char.reduceToNat] at h ⊢
  omega

theorem not_isLower_of_isDigit (h : c.isDigit = true) : ¬ c.isLower = true := by
  simp only [isDigit_iff, isLower_iff, le_iff_toNat_le, Char.reduceToNat] at h ⊢
  omega

theorem toUpper_toLower (h : c.isUpper = true) : c.toLower.toUpper = c := by
  rw [← Char.toNat_inj]
  have hlowered := toNat_toLower h
  have hraised := toNat_toUpper (isLower_toLower h)
  omega

end Character

/-! ## Names -/

/-- An upper-case identifier: a letter `A` to `Z`, then such letters, digits and underscores. -/
def IsMnemonic (name : String) : Prop :=
  ∃ c ∈ name.toList.head?, c.isUpper ∧ ∀ d ∈ name.toList.tail, isMnemonicChar d

instance (name : String) : Decidable (IsMnemonic name) :=
  match h : name.toList.head? with
  | none => isFalse (by simp [IsMnemonic, h])
  | some c => decidable_of_iff (c.isUpper ∧ name.toList.tail.all isMnemonicChar) (by
      simp [IsMnemonic, h])

/-- The letters raised to upper case, all else kept. -/
def upperCase (name : String) : String :=
  String.ofList (name.toList.map Char.toUpper)

theorem upperCase_eq_toUpper (name : String) : upperCase name = name.toUpper := by
  rw [← String.toList_inj]
  simp [upperCase, String.toUpper]

end OpcodeRegistry
