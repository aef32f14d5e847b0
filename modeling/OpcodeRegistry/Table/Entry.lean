import OpcodeRegistry.Code
import OpcodeRegistry.Mnemonic
import OpcodeRegistry.Text.Digits
import OpcodeRegistry.Text.Notation

/-! # Entries

An entry gives a mnemonic its code. Several mnemonics may share a code if all but one of them are
declared aliases of that one, the canonical mnemonic of the code. A list of entries is a declaration
of a table; `TableError` lists what can be wrong with it.
-/

namespace OpcodeRegistry

/-- A mnemonic and its code, and the mnemonic that it is an alias of if it is one. -/
structure Entry where
  mnemonic : String
  code : Code
  aliasOf : Option String := none
deriving DecidableEq, Repr

namespace Entry

/-- Whether the mnemonic is an alias of another one. -/
def isAlias (e : Entry) : Bool :=
  e.aliasOf.isSome

/-- The mnemonic that stands for the code of this entry. -/
def canonical (e : Entry) : String :=
  e.aliasOf.getD e.mnemonic

end Entry

/-- What is wrong with a declaration. -/
inductive TableError where
  | emptyMnemonic (code : Code)
  | invalidMnemonic (mnemonic : String)
  | duplicateMnemonic (mnemonic : String)
  | codeOutOfRange (mnemonic : String) (code : Code) (width : CodeWidth)
  | codeCollision (code : Code) (existing mnemonic : String)
  | unknownCanonical (mnemonic canonical : String)
  | aliasCodeMismatch (mnemonic canonical : String) (code expected : Code)
  | aliasOfAlias (mnemonic canonical : String)
deriving DecidableEq, Repr

/-- A code as messages show it: at least two hexadecimal digits after `0x`. -/
def Code.shown (code : Code) : String :=
  "0x" ++ Text.hex 2 code.toNat

/-- The error in words. -/
def TableError.message : TableError → String
  | emptyMnemonic code => s!"empty mnemonic for code {Code.shown code}"
  | invalidMnemonic mnemonic => s!"mnemonic {Text.quoted mnemonic} is not an uppercase identifier"
  | duplicateMnemonic mnemonic => s!"mnemonic {mnemonic} is registered more than once"
  | codeOutOfRange mnemonic code width =>
    s!"code 0x{Text.hex 1 code.toNat} of {mnemonic} does not fit in {width.bits} bits"
  | codeCollision code existing mnemonic =>
    s!"code {Code.shown code} is claimed by both {existing} and {mnemonic}"
  | unknownCanonical mnemonic canonical =>
    s!"alias {mnemonic} refers to unknown mnemonic {canonical}"
  | aliasCodeMismatch mnemonic canonical code expected =>
    s!"alias {mnemonic} has code {Code.shown code} but {canonical} has {Code.shown expected}"
  | aliasOfAlias mnemonic canonical =>
    s!"alias {mnemonic} refers to {canonical}, which is itself an alias"

end OpcodeRegistry
