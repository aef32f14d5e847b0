import OpcodeRegistry.Code
import OpcodeRegistry.Mnemonic
import OpcodeRegistry.Text.Digits
import OpcodeRegistry.Text.Scan

/-! # Opcode sources

A source is a sequence of bytes in which each line ends with a line feed; a last line may go
without. A line is decoded only when it is reached, and the carriage returns at its end do not
belong to it.

An opcode source defines its codes one clause a line, `opname(124) -> {gc_bif1,5};`: the number of
the opcode, its atom, bare or between apostrophes, and the count of its operands. Nothing may stand
before, between or after these parts, so a line is a clause exactly or not at all.
-/

namespace OpcodeRegistry

/-! ## Lines -/

namespace Source

/-- The line feed. -/
def lineFeed : UInt8 := 10

/-- The lines of a source, without their line feeds. What follows the last line feed is a line only
if it is not empty. -/
def lines (source : ByteArray) : List (List UInt8) :=
  let pieces := source.data.toList.splitOn lineFeed
  if pieces.getLast? = some [] then pieces.dropLast else pieces

/-- The text of a line without the carriage returns at its end. -/
def trimReturns (line : String) : String :=
  String.ofList (line.toList.reverse.dropWhile (· == '\r')).reverse

/-- The text of a line, or `none` if its bytes are no UTF-8. -/
def decodeLine? (line : List UInt8) : Option String :=
  (String.fromUTF8? line.toByteArray).map trimReturns

end Source

/-! ## Clauses -/

/-- What a clause says about an opcode, as written. -/
structure Clause where
  /-- The decimal digits of the number, leading zeros included. -/
  number : String
  /-- The atom, without apostrophes. -/
  atom : String
deriving DecidableEq, Repr

namespace Clause

open Text

/-- The clause that the text is, if it is one. -/
def ofChars? (s : List Char) : Option Clause := do
  let s ← word? "opname(" s
  let (number, s) ← run? Char.isDigit s
  let s ← word? ") -> \x7b" s
  let (atom, s) ← run? isWordChar (skipOne '\x27' s)
  let s ← word? "," (skipOne '\x27' s)
  let (_, s) ← run? Char.isDigit s
  if s = "\x7d;".toList then
    some { number := String.ofList number, atom := String.ofList atom }
  else none

/-- The clause that the line is, if it is one. -/
def ofLine? (line : String) : Option Clause :=
  ofChars? line.toList

/-- The code of the opcode, unless its number needs more than 32 bits. -/
def code? (c : Clause) : Option Code :=
  (valueOf? 10 c.number.toList).bind Code.ofNat?

/-- The mnemonic of the opcode: its atom in upper case. -/
def mnemonic (c : Clause) : String :=
  upperCase c.atom

end Clause

end OpcodeRegistry
