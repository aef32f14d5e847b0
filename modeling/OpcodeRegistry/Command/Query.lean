import OpcodeRegistry.Architecture.Basic
import OpcodeRegistry.Listing.Render
import OpcodeRegistry.Text.Digits
import OpcodeRegistry.Text.Scan

/-! # Queries

A query asks an architecture for one opcode, by its code or by its name. A code is written in
decimal or behind `0x` in hexadecimal; what is no code is taken as a name. A query by code answers
with the canonical opcode, a query by name with the opcode of that name.
-/

namespace OpcodeRegistry.Query

open Text

/-- The hexadecimal digits of a query, if it starts as a hexadecimal code does. -/
def hexDigits? (query : List Char) : Option (List Char) :=
  word? "0x" query <|> word? "0X" query

/-- The code that a query spells. Between `0x` and the hexadecimal digits one plus sign is passed
over, which the grammar of queries does not have: `0x+1e` is read as code 30, while a decimal code
with a sign is a name. -/
def code? (query : String) : Option Code :=
  match hexDigits? query.toList with
  | some digits => (valueOf? 16 (skipOne '+' digits)).bind Code.ofNat?
  | none => (valueOf? 10 query.toList).bind Code.ofNat?

/-- The line of an opcode as a query by name answers with it: an alias says what it is an alias of.
-/
def entryLine (e : Entry) : String :=
  let line := Listing.plainLine e.mnemonic e.code 0
  match e.aliasOf with
  | some canonical => s!"{line} (alias of {canonical})"
  | none => line

/-- The line that answers a query, if the table has the opcode. -/
def answer? (t : Table) (query : String) : Option String :=
  match code? query with
  | some code => (t.mnemonicOf? code).map fun mnemonic => Listing.plainLine mnemonic code 0
  | none => (t.get? query).map entryLine

end OpcodeRegistry.Query
