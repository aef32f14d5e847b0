import OpcodeRegistry.Mnemonic
import OpcodeRegistry.Proofs.Text.Numeral

/-! # What numerals are read

A text is read as a numeral if it has a digit and has nothing but digits: those of its base, and in
base sixteen the letters in either case. The number that is read is then its `value`, however many
zeros stand in front and however large it is.
-/

namespace OpcodeRegistry.Text

/-- The number that a digit stands for. The letters, in either case, go on from ten. -/
def digitValue (c : Char) : Nat :=
  if c.isDigit then c.toNat - '0'.toNat
  else if c.isLower then c.toNat - 'a'.toNat + 10
  else c.toNat - 'A'.toNat + 10

/-- The value of digits in a base, the most significant one first. -/
def value (base : Nat) (digits : List Char) : Nat :=
  digits.foldl (fun n c => n * base + digitValue c) 0

/-! ## Digits -/

section Digit

variable {c : Char}

theorem isHexDigit_iff : c.isHexDigit = true ↔
    c.isDigit = true ∨ ('a' ≤ c ∧ c ≤ 'f') ∨ ('A' ≤ c ∧ c ≤ 'F') := by
  simp [Char.isHexDigit, Char.le_def, or_assoc]

theorem digitValue?_eq (c : Char) :
    digitValue? c = if c.isHexDigit then some (digitValue c) else none := by
  unfold digitValue? digitValue
  simp only [isHexDigit_iff, Char.isDigit_iff_toNat, isLower_iff, le_iff_toNat_le, Char.reduceToNat]
  -- the ranges of the three tests do not meet, so the order of the tests makes no difference
  grind

theorem digitValue_lt_sixteen (h : c.isHexDigit = true) : digitValue c < 16 := by
  unfold digitValue
  simp only [isHexDigit_iff, Char.isDigit_iff_toNat, isLower_iff, le_iff_toNat_le,
    Char.reduceToNat] at h ⊢
  grind

/-- Of the hexadecimal digits, those below ten are the decimal ones. -/
theorem digitValue_lt_ten_iff (h : c.isHexDigit = true) : digitValue c < 10 ↔ c.isDigit = true := by
  unfold digitValue
  simp only [isHexDigit_iff, Char.isDigit_iff_toNat, isLower_iff, le_iff_toNat_le,
    Char.reduceToNat] at h ⊢
  grind

theorem digitOf?_ten (c : Char) :
    digitOf? 10 c = if c.isDigit then some (digitValue c) else none := by
  unfold digitOf?
  rw [digitValue?_eq]
  by_cases hhex : c.isHexDigit = true
  · simp [hhex, Option.filter, digitValue_lt_ten_iff]
  · have hdigit : ¬ c.isDigit = true := by
      intro hdigit
      exact hhex (isHexDigit_iff.mpr (Or.inl hdigit))
    simp [hhex, hdigit]

theorem digitOf?_sixteen (c : Char) :
    digitOf? 16 c = if c.isHexDigit then some (digitValue c) else none := by
  unfold digitOf?
  rw [digitValue?_eq]
  by_cases hhex : c.isHexDigit = true
  · simp [hhex, Option.filter, digitValue_lt_sixteen]
  · simp [hhex]

end Digit

/-! ## Numerals -/

section Class

variable {base : Nat} {isDigit : Char → Bool} {digits : List Char} {n : Nat}

/-- The digits behind a value are all read, or the reading stops at the first other character. -/
theorem foldlM_digitStep
    (hdigit : ∀ c, digitOf? base c = if isDigit c then some (digitValue c) else none)
    (digits : List Char) (start : Nat) :
    digits.foldlM (digitStep base) start =
      if digits.all isDigit then some (digits.foldl (fun n c => n * base + digitValue c) start)
      else none := by
  induction digits generalizing start with
  | nil => rfl
  | cons c digits ih =>
      rw [List.foldlM_cons, digitStep, hdigit]
      by_cases hc : isDigit c = true
      · simp only [hc, if_true, Option.map_some, Option.bind_eq_bind, Option.bind_some, ih,
          List.all_cons, Bool.true_and, List.foldl_cons]
      · -- one other character, and the whole is no numeral
        simp [hc]

theorem valueOf?_eq_some_iff
    (hdigit : ∀ c, digitOf? base c = if isDigit c then some (digitValue c) else none) :
    valueOf? base digits = some n ↔
      digits ≠ [] ∧ (∀ c ∈ digits, isDigit c = true) ∧ value base digits = n := by
  have hfold := foldlM_digitStep hdigit digits 0
  unfold valueOf?
  change (if _ then none else digits.foldlM (digitStep base) 0) = some n ↔ _
  rw [hfold]
  cases digits with
  | nil => simp
  | cons c digits => simp [value, -List.foldl_cons, -List.all_cons]

end Class

/-- The digits are a decimal numeral of the value: there is one at least, and zeros may stand in
front. -/
def IsDecimal (digits : List Char) (n : Nat) : Prop :=
  digits ≠ [] ∧ (∀ c ∈ digits, c.isDigit = true) ∧ value 10 digits = n

/-- The digits, letters in either case among them, are a hexadecimal numeral of the value. -/
def IsHexadecimal (digits : List Char) (n : Nat) : Prop :=
  digits ≠ [] ∧ (∀ c ∈ digits, c.isHexDigit = true) ∧ value 16 digits = n

theorem valueOf?_ten_eq_some_iff {digits : List Char} {n : Nat} :
    valueOf? 10 digits = some n ↔ IsDecimal digits n :=
  valueOf?_eq_some_iff digitOf?_ten

theorem valueOf?_sixteen_eq_some_iff {digits : List Char} {n : Nat} :
    valueOf? 16 digits = some n ↔ IsHexadecimal digits n :=
  valueOf?_eq_some_iff digitOf?_sixteen

end OpcodeRegistry.Text
