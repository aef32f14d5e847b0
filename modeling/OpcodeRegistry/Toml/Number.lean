import OpcodeRegistry.Text.Digits
import OpcodeRegistry.Text.Scan

/-! # Numbers

Integers are decimal, with a sign if need be, or hexadecimal, octal or binary behind `0x`, `0o` and
`0b`; floating point has a fraction, an exponent or both, or is one of `inf` and `nan`. Underscores
may stand between digits. An integer must fit 64 bits with a sign, and a number in floating point
must not be so large that it rounds to infinity, unless it is negative.
-/

namespace OpcodeRegistry.Toml

open Text

/-! ## Digits -/

/-- Takes the digits of the class `p` at the front, single underscores between digits included, and
returns the digits. A digit stands before `s`. -/
def moreDigits (p : Char → Bool) : List Char → List Char × List Char
  | '_' :: c :: s =>
    if p c then
      let (taken, rest) := moreDigits p s
      (c :: taken, rest)
    else ([], '_' :: c :: s)
  | c :: s =>
    if p c then
      let (taken, rest) := moreDigits p s
      (c :: taken, rest)
    else ([], c :: s)
  | [] => ([], [])

/-- Takes one digit of the class `p` or more. -/
def digits? (p : Char → Bool) : Scanner (List Char)
  | c :: s =>
    if p c then
      let (taken, rest) := moreDigits p s
      some (c :: taken, rest)
    else none
  | [] => none

/-- Takes a sign, if there is one, and says whether it is a minus. -/
def sign : List Char → Bool × List Char
  | '-' :: s => (true, s)
  | '+' :: s => (false, s)
  | s => (false, s)

/-- Takes the digits of an unsigned decimal integer: a lone zero, or no zero in front. -/
def wholeDigits? : Scanner (List Char)
  | '0' :: s => some (['0'], s)
  | s => digits? Char.isDigit s

/-- The value of digits of base `base`. -/
def valueOf (base : Nat) (digits : List Char) : Nat :=
  (valueOf? base digits).getD 0

/-! ## Integers -/

/-- Whether a number fits 64 bits with a sign. -/
def fitsInteger (n : Int) : Bool :=
  -0x8000000000000000 ≤ n && n < 0x8000000000000000

/-- Takes an unsigned integer of base `base`, behind its mark. -/
def basedInteger? (base : Nat) : Scanner Int := fun s => do
  let (digits, s) ← digits? (fun c => (digitOf? base c).isSome) s
  let n : Int := valueOf base digits
  if fitsInteger n then some (n, s) else none

/-- Takes an integer. -/
def integer? : Scanner Int
  | '0' :: 'x' :: s => basedInteger? 16 s
  | '0' :: 'o' :: s => basedInteger? 8 s
  | '0' :: 'b' :: s => basedInteger? 2 s
  | s => do
    let (negative, s) := sign s
    let (digits, s) ← wholeDigits? s
    let n : Int := valueOf 10 digits
    let n := if negative then -n else n
    if fitsInteger n then some (n, s) else none

/-! ## Floating point -/

/-- A decimal in floating point: the value is `mantissa * 10 ^ exponent`. -/
structure Decimal where
  mantissa : Nat
  exponent : Int

/-- The least number that rounds to infinity in floating point of 64 bits: halfway between the
largest finite one and the power of two above it. -/
def infinityBound : Nat :=
  ((1 <<< 54) - 1) <<< 970

/-- Whether a decimal rounds to infinity. Where the count of digits decides, no power is formed. -/
def Decimal.isInfinite (d : Decimal) : Bool :=
  let magnitude : Int := (Nat.toDigits 10 d.mantissa).length + d.exponent
  if d.mantissa = 0 ∨ magnitude < 300 then false
  else if 320 < magnitude then true
  else
    infinityBound * Nat.pow 10 (-d.exponent).toNat ≤ d.mantissa * Nat.pow 10 d.exponent.toNat

/-- Takes an exponent. -/
def exponent? : Scanner Int
  | c :: s =>
    if c = 'e' ∨ c = 'E' then do
      let (negative, s) := sign s
      let (digits, s) ← digits? Char.isDigit s
      let n : Int := valueOf 10 digits
      some (if negative then -n else n, s)
    else none
  | [] => none

/-- Takes a fraction, without what may follow it. -/
def fraction? : Scanner (List Char)
  | '.' :: s => digits? Char.isDigit s
  | _ => none

/-- Takes what makes a number one in floating point, behind its whole digits. -/
def floatTail? (whole : List Char) : Scanner Decimal := fun s =>
  match fraction? s with
  | some (fraction, s) =>
    let (exponent, s) := (exponent? s).getD (0, s)
    some (⟨valueOf 10 (whole ++ fraction), exponent - fraction.length⟩, s)
  | none => (exponent? s).map fun (exponent, s) => (⟨valueOf 10 whole, exponent⟩, s)

/-- The rest after a number in floating point. -/
def float? (s : List Char) : Option (List Char) :=
  let (negative, unsigned) := sign s
  match word? "inf" unsigned, word? "nan" unsigned with
  | some rest, _ => some rest
  | none, some rest => some rest
  | none, none => do
    let (whole, s) ← wholeDigits? unsigned
    let (decimal, s) ← floatTail? whole s
    if decimal.isInfinite ∧ !negative then none else some s

end OpcodeRegistry.Toml
