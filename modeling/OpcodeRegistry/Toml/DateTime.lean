import OpcodeRegistry.Text.Digits
import OpcodeRegistry.Text.Scan

/-! # Dates and times

A date, `1979-05-27`, may be followed by a time, `T07:32:00.5`, and that by an offset, `Z` or
`-07:00`; a time may also stand alone. Months have their real lengths, and a minute may have a
second more.
-/

namespace OpcodeRegistry.Toml

open Text

/-- Takes exactly `count` decimal digits, the value of which lies between `least` and `most`. -/
def field? (count least most : Nat) : Scanner Nat := fun s => do
  let digits := s.take count
  let n ← valueOf? 10 digits
  if digits.length = count ∧ least ≤ n ∧ n ≤ most then some (n, s.drop count) else none

/-- Whether a year has a leap day. -/
def isLeapYear (year : Nat) : Bool :=
  year % 4 == 0 && (year % 100 != 0 || year % 400 == 0)

/-- The number of days of a month. -/
def daysInMonth (year month : Nat) : Nat :=
  if month = 2 then if isLeapYear year then 29 else 28
  else if month ∈ [4, 6, 9, 11] then 30
  else 31

/-- The rest after a date. -/
def date? (s : List Char) : Option (List Char) := do
  let (year, s) ← field? 4 0 9999 s
  let s ← word? "-" s
  let (month, s) ← field? 2 1 12 s
  let s ← word? "-" s
  let (_, s) ← field? 2 1 (daysInMonth year month) s
  some s

/-- The rest after a time. -/
def time? (s : List Char) : Option (List Char) := do
  let (_, s) ← field? 2 0 23 s
  let s ← word? ":" s
  let (_, s) ← field? 2 0 59 s
  let s ← word? ":" s
  let (_, s) ← field? 2 0 60 s
  match (word? "." s).bind (run? Char.isDigit) with
  | some (_, s) => some s
  | none => some s

/-- The rest after an offset from universal time. -/
def offset? : List Char → Option (List Char)
  | c :: s =>
    if c = 'Z' ∨ c = 'z' then some s
    else if c = '+' ∨ c = '-' then do
      let (_, s) ← field? 2 0 23 s
      let s ← word? ":" s
      let (_, s) ← field? 2 0 59 s
      some s
    else none
  | [] => none

/-- The rest after a time that follows a date, with its offset, if it has one. -/
def timeOfDate? : List Char → Option (List Char)
  | c :: s =>
    if c = 'T' ∨ c = 't' ∨ c = ' ' then do
      let s ← time? s
      some ((offset? s).getD s)
    else none
  | [] => none

/-- The rest after a date, a time or both. -/
def dateTime? (s : List Char) : Option (List Char) :=
  match date? s with
  | some s => some ((timeOfDate? s).getD s)
  | none => time? s

/-- Whether a text is a date, a time or both, from its first character to its last. -/
def isDateTime (s : List Char) : Bool :=
  dateTime? s == some []

end OpcodeRegistry.Toml
