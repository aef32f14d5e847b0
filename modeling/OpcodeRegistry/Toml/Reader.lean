import OpcodeRegistry.Toml.Blank
import OpcodeRegistry.Toml.DateTime
import OpcodeRegistry.Toml.Number
import OpcodeRegistry.Toml.Quoted
import OpcodeRegistry.Toml.Tree

/-! # Keys and values

Scanners for the two sides of an assignment. A key is one name or several with dots between them.
Arrays and tables in braces hold further values, and a bound on their depth keeps the reading
finite.
-/

namespace OpcodeRegistry.Toml

open Text

/-! ## Keys -/

/-- The characters of a bare key. -/
def isBareKeyChar (c : Char) : Bool :=
  c.isAlphanum || c == '_' || c == '-'

/-- A bound: keys of this many names or more, and values nested this deep, are refused. -/
def nestingLimit : Nat := 80

/-- Takes one name of a key. -/
def name? : Scanner String
  | '"' :: s => (basicLine none s).map fun (taken, rest) => (String.ofList taken, rest)
  | '\x27' :: s => (literalLine s).map fun (taken, rest) => (String.ofList taken, rest)
  | s => (run? isBareKeyChar s).map fun (taken, rest) => (String.ofList taken, rest)

/-- A key: the names before the last one, and the last one. -/
structure Key where
  /-- The names of the tables on the way. -/
  path : List String
  name : String

/-- Takes the next name of a key, with the blanks around it. `path` holds those before it. -/
def nameRound (path : List String) : Scanner (Round (List String)) := fun s => do
  let (name, s) ← name? (skipBlanks s)
  match skipBlanks s with
  | '.' :: s => some (.again (path ++ [name]), s)
  | s => some (.done (path ++ [name]), s)

/-- Takes a key, with the blanks around it. -/
def key? : Scanner Key := fun s => do
  let (names, s) ← rounds nameRound [] s
  let name ← names.getLast?
  if names.length < nestingLimit then some ({ path := names.dropLast, name }, s) else none

/-! ## Values -/

/-- Takes a number or a date: whichever reads further than a plain integer comes first. -/
def numeric? : Scanner Value := fun s =>
  match dateTime? s, float? s with
  | some rest, _ => some (.dateTime (takenOf s rest), rest)
  | none, some rest => some (.float (takenOf s rest), rest)
  | none, none => (integer? s).map fun (n, rest) => (.integer n, rest)

/-- Takes a truth value. -/
def boolean? : Scanner Value := fun s =>
  match word? "true" s, word? "false" s with
  | some rest, _ => some (.boolean true, rest)
  | none, some rest => some (.boolean false, rest)
  | none, none => none

/-- Takes a value that holds no other values. -/
def scalarValue? : Scanner Value
  | [] => none
  | c :: s =>
    if c = '"' ∨ c = '\x27' then (string? (c :: s)).map fun (text, rest) => (.string text, rest)
    else if c = 't' ∨ c = 'f' then boolean? (c :: s)
    else numeric? (c :: s)

/-- Takes the next value of an array, and the comma or the bracket behind it. A comma may stand
before the bracket. -/
def elementRound (element : Scanner Value) (values : List Value) :
    Scanner (Round (List Value)) := fun s =>
  match skipLines false s with
  | ']' :: s => some (.done values, s)
  | s => do
    let (v, s) ← element s
    match skipLines false s with
    | ',' :: s => some (.again (values ++ [v]), s)
    | ']' :: s => some (.done (values ++ [v]), s)
    | _ => none

/-- Takes a key, the equals sign and a value. -/
def assignment? (value : Scanner Value) : Scanner (Key × Value) := fun s => do
  let (key, s) ← key? s
  let s ← word? "=" s
  let (v, s) ← value (skipBlanks s)
  some ((key, v), s)

/-- Takes the next assignment of a table in braces, and the comma or the brace behind it. -/
def fieldRound (value : Scanner Value) (entries : Entries) : Scanner (Round Entries) := fun s => do
  let ((key, v), s) ← assignment? value s
  let entries ← entries.assign? key.path key.name v
  match skipBlanks s with
  | ',' :: s => some (.again entries, s)
  | '\x7d' :: s => some (.done entries, s)
  | _ => none

/-- Takes a table in braces, behind the opening one. -/
def braces? (value : Scanner Value) : Scanner Value := fun s =>
  match skipBlanks s with
  | '\x7d' :: s => some (.table [], s)
  | s =>
    (rounds (fieldRound value) [] s).map fun (entries, s) => (.table (Node.toFields entries), s)

/-- Takes a value, with `depth` levels of arrays and tables in braces at most. -/
def value? : Nat → Scanner Value
  | 0 => scalarValue?
  | depth + 1 => fun s =>
    match s with
    | '[' :: s =>
      (rounds (elementRound (value? depth)) [] s).map fun (values, s) => (.array values, s)
    | '\x7b' :: s => braces? (value? depth) s
    | s => scalarValue? s

end OpcodeRegistry.Toml
