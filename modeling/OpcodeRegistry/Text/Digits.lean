/-! # Numerals

Numbers are written in a base with the digits `0` to `9` and `a` to `f`, filled up with zeros on the
left to a least width, and read in either case of the letters. Reading sets no bound on the value.
-/

namespace OpcodeRegistry.Text

/-! ## Writing -/

/-- The digits of `n` in base `base`, at least `width` of them. -/
def numeral (base width n : Nat) : List Char :=
  (Nat.toDigits base n).leftpad width '0'

/-- The decimal numeral of `n` with at least `width` digits. -/
def decimal (width n : Nat) : String :=
  String.ofList (numeral 10 width n)

/-- The hexadecimal numeral of `n` with at least `width` digits, in lower case. -/
def hex (width n : Nat) : String :=
  String.ofList (numeral 16 width n)

/-! ## Reading -/

/-- The value of a hexadecimal digit of either case. -/
def digitValue? (c : Char) : Option Nat :=
  if '0' ≤ c ∧ c ≤ '9' then some (c.toNat - '0'.toNat)
  else if 'a' ≤ c ∧ c ≤ 'f' then some (c.toNat - 'a'.toNat + 10)
  else if 'A' ≤ c ∧ c ≤ 'F' then some (c.toNat - 'A'.toNat + 10)
  else none

/-- The value of `c` as a digit of base `base`, at most 16. -/
def digitOf? (base : Nat) (c : Char) : Option Nat :=
  (digitValue? c).filter (· < base)

/-- The value of a numeral in base `base`. Something other than a digit, or no digit at all, is no
numeral. -/
def valueOf? (base : Nat) (digits : List Char) : Option Nat :=
  if digits.isEmpty then none
  else digits.foldlM (fun n c => (digitOf? base c).map (n * base + ·)) 0

end OpcodeRegistry.Text
