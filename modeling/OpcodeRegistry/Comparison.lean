import Std.Data.TreeMap
import OpcodeRegistry.Extraction.Basic
import OpcodeRegistry.Table.Basic

/-! # Comparing a table with a source

The two are compared code by code: the canonical mnemonic of the table, if it has one, against the
mnemonic that the source defines, if it defines one. Aliases do not take part, since a source knows
none.
-/

namespace OpcodeRegistry

/-- How a table and a source disagree about a code. -/
inductive Difference where
  | renamed (code : Code) (shipped current : String)
  /-- Only the source has the code. -/
  | missing (code : Code) (current : String)
  /-- Only the table has the code. -/
  | removed (code : Code) (shipped : String)
deriving DecidableEq, Repr

namespace Difference

/-- The code that the two disagree about. -/
def code : Difference → Code
  | renamed code .. | missing code .. | removed code .. => code

/-- The difference in words. -/
def message : Difference → String
  | renamed code shipped current => s!"{Code.shown code}: {shipped} is {current} upstream"
  | missing code current => s!"{Code.shown code}: {current} is missing"
  | removed code shipped => s!"{Code.shown code}: {shipped} is no longer defined upstream"

end Difference

namespace Extraction

/-- The mnemonic that a source gives to each code it defines. -/
def mnemonics (x : Extraction) : Std.TreeMap Code String :=
  x.entries.foldl (fun m (mnemonic, code) => m.insert code mnemonic) ∅

end Extraction

namespace Table

/-- What the table says otherwise about a code that the source calls `current`. -/
def differenceAt (t : Table) (code : Code) (current : String) : Option Difference :=
  match t.mnemonicOf? code with
  | some shipped => if shipped = current then none else some (.renamed code shipped current)
  | none => some (.missing code current)

/-- The disagreements between the table and a source, by ascending code. -/
def differences (t : Table) (x : Extraction) : List Difference :=
  let current := x.mnemonics
  let changed := current.toList.filterMap fun (code, mnemonic) => t.differenceAt code mnemonic
  let removed := (t.canonicalEntries.filter fun e => e.code ∉ current).map fun e =>
    .removed e.code e.mnemonic
  (changed ++ removed).mergeSort fun a b => a.code ≤ b.code

end Table

end OpcodeRegistry
