import OpcodeRegistry.Listing.Render
import OpcodeRegistry.Table.Basic
import OpcodeRegistry.Toml.Document

/-! # Reading listings back

A plain listing is a TOML document: each line gives a mnemonic its code, and the decimal number is a
comment. The text does not say which names are aliases. A name that adds `_0` to an earlier name of
the same code is taken as its alias, and every other one as canonical, so another way of sharing a
code is a collision.
-/

namespace OpcodeRegistry

/-- Why a text is no listing of a table. -/
inductive ListingError where
  | malformed
  | notAnInteger (key : String)
  | invalidCode (key : String) (n : Int)
  | table (e : TableError)
deriving DecidableEq, Repr

/-- The error in words. -/
def ListingError.message : ListingError → String
  | malformed => "listing is not valid"
  | notAnInteger key => s!"value of {key} is not an integer"
  | invalidCode key n => s!"code {n} of {key} is not a valid opcode"
  | table e => e.message

namespace Listing

/-- What the first member of a family of opcodes adds to the name of the family. -/
def familySuffix : String := "_0"

/-- The family of a mnemonic, if it ends like the first member of one. -/
def family? (mnemonic : String) : Option String :=
  (familySuffix.toList.isSuffixOf? mnemonic.toList).map String.ofList

/-- The code that a key is given. -/
def code? (key : String) : Toml.Value → Except ListingError Code
  | .integer n =>
    if n < 0 then .error (.invalidCode key n)
    else
      match Code.ofNat? n.toNat with
      | some code => .ok code
      | none => .error (.invalidCode key n)
  | _ => .error (.notAnInteger key)

/-- The declarations of a listing, in its order. `seen` holds the codes of the names before. -/
def declarations? (seen : Std.HashMap String Code) :
    List (String × Toml.Value) → Except ListingError (List Entry)
  | [] => .ok []
  | (mnemonic, value) :: rest => do
    let code ← code? mnemonic value
    let aliasOf := (family? mnemonic).filter fun base => seen[base]? == some code
    let further ← declarations? (seen.insert mnemonic code) rest
    return { mnemonic, code, aliasOf } :: further

end Listing

namespace Table

/-- The table that the entries of a document declare. -/
def ofDocument (document : List (String × Toml.Value)) (width : CodeWidth) :
    Except ListingError Table := do
  let declarations ← Listing.declarations? ∅ document
  (build width declarations).mapError .table

/-- The table that a plain listing declares. -/
def ofListing (text : String) (width : CodeWidth) : Except ListingError Table :=
  match Toml.Document.ofText? text with
  | none => .error .malformed
  | some document => ofDocument document width

/-- The plain listing of the table, aliases included. -/
def toListing (t : Table) (align : Bool) : String :=
  Listing.render (t.toList.map fun e => (e.mnemonic, e.code)) .plain align

end Table

end OpcodeRegistry
