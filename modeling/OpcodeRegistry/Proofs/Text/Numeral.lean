import Mathlib.Data.List.Basic
import Mathlib.Tactic.Ring
import OpcodeRegistry.Text.Digits

/-! # Numerals read back

Whatever zeros a numeral is filled up with, it has the value that was written: `valueOf?_numeral`.
Each of its characters is the digit of some number below the base, which is all that a scanner has
to know about it, and zeros stand in front only where the width asks for them.
-/

namespace OpcodeRegistry.Text

/-- One digit more on the right of a value. -/
def digitStep (base value : Nat) (c : Char) : Option Nat :=
  (digitOf? base c).map (value * base + ·)

/-- The digit of a number below the base has that number as its value. -/
theorem digitOf?_digitChar {base d : Nat} (hbase : base ≤ 16) (hd : d < base) :
    digitOf? base d.digitChar = some d := by
  have hvalue : ∀ d < 16, digitValue? (Nat.digitChar d) = some d := by decide
  unfold digitOf?
  rw [hvalue d (by omega)]
  simp [hd]

/-- The characters of a numeral are digits. -/
theorem exists_digitChar_of_mem_toDigits {base n : Nat} (hbase : 1 < base) {c : Char}
    (hc : c ∈ Nat.toDigits base n) : ∃ d < base, c = d.digitChar := by
  induction n using Nat.strongRecOn with
  | ind n ih =>
      rw [Nat.toDigits_eq_if hbase] at hc
      by_cases hlt : n < base
      · rw [if_pos hlt, List.mem_singleton] at hc
        exact ⟨n, hlt, hc⟩
      · rw [if_neg hlt] at hc
        rcases List.mem_append.mp hc with hc | hc
        · exact ih (n / base) (Nat.div_lt_self (by omega) hbase) hc
        · exact ⟨n % base, Nat.mod_lt n (by omega), List.mem_singleton.mp hc⟩

theorem exists_digitChar_of_mem_numeral {base width n : Nat} (hbase : 1 < base) {c : Char}
    (hc : c ∈ numeral base width n) : ∃ d < base, c = d.digitChar := by
  unfold numeral List.leftpad at hc
  rcases List.mem_append.mp hc with hc | hc
  · exact ⟨0, by omega, (List.eq_of_mem_replicate hc)⟩
  · exact exists_digitChar_of_mem_toDigits hbase hc

/-- What is no digit of any number is in no numeral. -/
theorem not_mem_numeral {base : Nat} (hbase : 1 < base) (hle : base ≤ 16) (width n : Nat) {c : Char}
    (hc : ∀ d < 16, c ≠ d.digitChar) : c ∉ numeral base width n := by
  intro hmem
  rcases exists_digitChar_of_mem_numeral hbase hmem with ⟨d, hd, heq⟩
  exact hc d (by omega) heq

/-- A numeral is part of one line. -/
theorem lineFeed_not_mem_numeral {base : Nat} (hbase : 1 < base) (hle : base ≤ 16)
    (width n : Nat) : '\n' ∉ numeral base width n :=
  not_mem_numeral hbase hle width n (by decide)

theorem numeral_ne_nil (base width n : Nat) : numeral base width n ≠ [] := by
  unfold numeral List.leftpad
  simp [Nat.toDigits_ne_nil]

/-! ## The digits of a number -/

/-- The digits are as many as the width asks for, or they are more and do not begin with a zero. -/
def IsFilled (width : Nat) (digits : List Char) : Prop :=
  width ≤ digits.length ∧ (width < digits.length → digits.head? ≠ some '0')

theorem head?_toDigits_ne {base n : Nat} (hbase : 1 < base) (hle : base ≤ 16) (hn : 0 < n) :
    (Nat.toDigits base n).head? ≠ some '0' := by
  have hdigit : ∀ d < 16, 0 < d → Nat.digitChar d ≠ '0' := by decide
  induction n using Nat.strongRecOn with
  | ind n ih =>
      rw [Nat.toDigits_eq_if hbase]
      by_cases hlt : n < base
      · rw [if_pos hlt, List.head?_cons, ne_eq, Option.some.injEq]
        exact hdigit n (by omega) hn
      · rw [if_neg hlt, List.head?_append_of_ne_nil _ Nat.toDigits_ne_nil]
        exact ih (n / base) (Nat.div_lt_self hn hbase) (Nat.div_pos (by omega) (by omega))

/-- Zeros stand in front of a numeral only where the width asks for them. -/
theorem isFilled_numeral {base width : Nat} (hbase : 1 < base) (hle : base ≤ 16) (hwidth : 0 < width)
    (n : Nat) : IsFilled width (numeral base width n) := by
  unfold IsFilled numeral
  rw [List.length_leftpad]
  refine ⟨Nat.le_max_left _ _, ?_⟩
  intro hlt
  have hmore : width - (Nat.toDigits base n).length = 0 := by omega
  unfold List.leftpad
  rw [hmore, List.replicate_zero, List.nil_append]
  -- a zero alone is one digit, and the width has room for that
  have hpos : 0 < n := by
    rcases Nat.eq_zero_or_pos n with rfl | hpos
    · rw [Nat.toDigits_zero, List.length_singleton] at hlt
      omega
    · exact hpos
  exact head?_toDigits_ne hbase hle hpos

theorem not_isUpper_of_mem_numeral {base width n : Nat} (hbase : 1 < base) (hle : base ≤ 16) {c : Char}
    (hc : c ∈ numeral base width n) : c.isUpper = false := by
  have hdigit : ∀ d < 16, (Nat.digitChar d).isUpper = false := by decide
  rcases exists_digitChar_of_mem_numeral hbase hc with ⟨d, hd, rfl⟩
  exact hdigit d (by omega)

/-! ## Reading -/

/-- Behind any value, the digits of a number shift it and add the number. -/
theorem foldlM_digitStep_toDigits {base : Nat} (hbase : 1 < base) (hle : base ≤ 16) (n : Nat) :
    ∀ value, ∃ k, (Nat.toDigits base n).foldlM (digitStep base) value =
      some (value * base ^ k + n) := by
  induction n using Nat.strongRecOn with
  | ind n ih =>
      intro value
      rw [Nat.toDigits_eq_if hbase]
      by_cases hlt : n < base
      · -- a number below the base is one digit
        refine ⟨1, ?_⟩
        rw [if_pos hlt]
        simp [digitStep, digitOf?_digitChar hle hlt]
      · -- the digits of the quotient come first, and the last one shifts their value
        rw [if_neg hlt, List.foldlM_append]
        rcases ih (n / base) (Nat.div_lt_self (by omega) hbase) value with ⟨k, hk⟩
        refine ⟨k + 1, ?_⟩
        have hdigit : digitOf? base (n % base).digitChar = some (n % base) :=
          digitOf?_digitChar hle (Nat.mod_lt n (by omega))
        have hn : n / base * base + n % base = n := Nat.div_add_mod' n base
        rw [hk]
        simp only [Option.bind_eq_bind, Option.bind_some, List.foldlM_cons, List.foldlM_nil,
          digitStep, hdigit, Option.map_some, Option.pure_def, Option.some.injEq]
        calc (value * base ^ k + n / base) * base + n % base
            = value * base ^ (k + 1) + (n / base * base + n % base) := by ring
          _ = value * base ^ (k + 1) + n := by rw [hn]

/-- Zeros in front count for nothing. -/
theorem foldlM_digitStep_zeros {base : Nat} (hbase : 1 < base) (hle : base ≤ 16) (k : Nat) :
    (List.replicate k '0').foldlM (digitStep base) 0 = some 0 := by
  have hzero : digitStep base 0 '0' = some 0 := by
    have h := digitOf?_digitChar hle (show 0 < base by omega)
    change digitOf? base '0' = some 0 at h
    simp [digitStep, h]
  induction k with
  | zero => rfl
  | succ k ih =>
      rw [List.replicate_succ, List.foldlM_cons, hzero]
      exact ih

/-- A numeral has the value that was written. -/
theorem valueOf?_numeral {base : Nat} (hbase : 1 < base) (hle : base ≤ 16) (width n : Nat) :
    valueOf? base (numeral base width n) = some n := by
  have hempty : (numeral base width n).isEmpty = false := by
    simpa using numeral_ne_nil base width n
  have hfold : (numeral base width n).foldlM (digitStep base) 0 = some n := by
    unfold numeral List.leftpad
    rw [List.foldlM_append, foldlM_digitStep_zeros hbase hle]
    rcases foldlM_digitStep_toDigits hbase hle n 0 with ⟨k, hk⟩
    simpa using hk
  unfold valueOf?
  rw [hempty]
  exact hfold

end OpcodeRegistry.Text
