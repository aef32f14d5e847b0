import Std.Data.HashMap
import OpcodeRegistry.Table.Entry

/-! # Drafts

A draft is a table in the making: the declarations accepted so far, in order, with the positions of
their names and of the canonical owners of their codes. Each declaration is held against the draft
of those before it. The first thing that is wrong with it decides the error, in the order in which
`Draft.offence?` asks.
-/

namespace OpcodeRegistry

/-- The declarations accepted so far. -/
structure Draft where
  entries : Array Entry := #[]
  names : Std.HashMap String Nat := ∅
  /-- The position of the canonical owner of each code that has one. -/
  owners : Std.HashMap Code Nat := ∅

namespace Draft

/-- The accepted declaration of a name. -/
def find? (d : Draft) (mnemonic : String) : Option Entry :=
  d.names[mnemonic]?.bind (d.entries[·]?)

/-- The accepted canonical declaration of a code. -/
def owner? (d : Draft) (code : Code) : Option Entry :=
  d.owners[code]?.bind (d.entries[·]?)

/-- What is wrong with declaring `e` as an alias of `canonical`. -/
def aliasOffence? (d : Draft) (e : Entry) (canonical : String) : Option TableError :=
  match d.find? canonical with
  | none => some (.unknownCanonical e.mnemonic canonical)
  | some target =>
    if target.isAlias then some (.aliasOfAlias e.mnemonic canonical)
    else if target.code ≠ e.code then
      some (.aliasCodeMismatch e.mnemonic canonical e.code target.code)
    else none

/-- What is wrong with declaring `e` as canonical, its name apart. -/
def ownerOffence? (d : Draft) (e : Entry) : Option TableError :=
  (d.owner? e.code).map fun existing => .codeCollision e.code existing.mnemonic e.mnemonic

/-- What is wrong with the declaration `e` after those of the draft, if anything is. -/
def offence? (width : CodeWidth) (d : Draft) (e : Entry) : Option TableError :=
  if e.mnemonic.isEmpty then some (.emptyMnemonic e.code)
  else if ¬ IsMnemonic e.mnemonic then some (.invalidMnemonic e.mnemonic)
  else if e.code ∉ width then some (.codeOutOfRange e.mnemonic e.code width)
  else if e.mnemonic ∈ d.names then some (.duplicateMnemonic e.mnemonic)
  else
    match e.aliasOf with
    | some canonical => d.aliasOffence? e canonical
    | none => d.ownerOffence? e

/-- The draft with one more declaration at the end. An alias owns no code. -/
def push (d : Draft) (e : Entry) : Draft where
  entries := d.entries.push e
  names := d.names.insert e.mnemonic d.entries.size
  owners := if e.isAlias then d.owners else d.owners.insert e.code d.entries.size

/-- Accepts one more declaration, or says what is wrong with it. -/
def accept (width : CodeWidth) (d : Draft) (e : Entry) : Except TableError Draft :=
  match d.offence? width e with
  | some error => .error error
  | none => .ok (d.push e)

/-- Accepts a list of declarations in order, or says what is wrong with the first bad one. -/
def ofDeclarations (width : CodeWidth) (declarations : List Entry) : Except TableError Draft :=
  declarations.foldlM (accept width) {}

end Draft

end OpcodeRegistry
