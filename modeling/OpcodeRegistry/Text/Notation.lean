import OpcodeRegistry.Text.CharClass
import OpcodeRegistry.Text.Digits

/-! # Values written out

Three ways of writing a value down: text as a quotation, a value with its name and all that it
holds, and an array of flat objects in JSON.
-/

namespace OpcodeRegistry.Text

/-! ## Quotations

Text in double quotes, on one line and without invisible characters: marks that would end or distort
the quotation get a backslash, four control characters have short names, and what has no printed
form is given by its number.
-/

/-- One character of a quotation. -/
def escaped (c : Char) : List Char :=
  if c = '\t' then ['\\', 't']
  else if c = '\r' then ['\\', 'r']
  else if c = '\n' then ['\\', 'n']
  else if c = '\x00' then ['\\', '0']
  else if c = '"' ∨ c = '\\' then ['\\', c]
  else if isPrintable c then [c]
  else ['\\', 'u', '\x7b'] ++ numeral 16 1 c.toNat ++ ['\x7d']

/-- The text as a quotation. -/
def quoted (text : String) : String :=
  String.ofList (['"'] ++ text.toList.flatMap escaped ++ ['"'])

/-! ## Values with names

Fields stand by name in braces, parts in brackets.
-/

/-- A value with fields, `Name { field: value, … }`. -/
def record (name : String) (fields : List (String × String)) : String :=
  let written := fields.map fun (field, value) => field ++ ": " ++ value
  name ++ " \x7b " ++ ", ".intercalate written ++ " \x7d"

/-- A value with parts, `Name(part, …)`. -/
def tagged (name : String) (parts : List String) : String :=
  name ++ "(" ++ ", ".intercalate parts ++ ")"

/-! ## JSON

An array is laid out with two spaces a level and one field a line.
-/

/-- One character of a JSON string. -/
def jsonChar (c : Char) : List Char :=
  if c = '"' ∨ c = '\\' then ['\\', c]
  else if c = '\x08' then ['\\', 'b']
  else if c = '\x0c' then ['\\', 'f']
  else if c = '\n' then ['\\', 'n']
  else if c = '\r' then ['\\', 'r']
  else if c = '\t' then ['\\', 't']
  else if c < ' ' then ['\\', 'u'] ++ numeral 16 4 c.toNat
  else [c]

/-- A JSON string. -/
def jsonString (text : String) : String :=
  String.ofList (['"'] ++ text.toList.flatMap jsonChar ++ ['"'])

/-- An object, one level deep: names with values that are JSON already. -/
def jsonObject (fields : List (String × String)) : String :=
  let written := fields.map fun (field, value) => "    " ++ jsonString field ++ ": " ++ value
  "  \x7b\n" ++ ",\n".intercalate written ++ "\n  \x7d"

/-- An array of objects. -/
def jsonArray (objects : List String) : String :=
  if objects.isEmpty then "[]" else "[\n" ++ ",\n".intercalate objects ++ "\n]"

end OpcodeRegistry.Text
