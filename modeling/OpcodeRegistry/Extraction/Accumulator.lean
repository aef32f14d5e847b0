import Std.Data.TreeMap
import OpcodeRegistry.Extraction.Definition

/-! # Collecting definitions

The accumulator takes the lines of a source one by one. It keeps one definition per code, ordered by
code, and counts every line it is given. What happens when a code is defined again is a policy: the
later definition replaces the earlier one and the replacement is recorded, or the earlier one stays
and the later one is refused. A refused line has been counted, and further lines may follow it.
-/

namespace OpcodeRegistry

/-- What to do with a second definition of a code. -/
inductive RedefinitionPolicy where
  | overwrite
  | reject
deriving DecidableEq, Repr

/-- The definitions in force so far by their codes, and the account of the lines. -/
structure Accumulator where
  policy : RedefinitionPolicy
  byCode : Std.TreeMap Code Definition := ∅
  /-- The number of lines that were definitions, refused ones included. -/
  matched : Nat := 0
  ignored : Nat := 0
  redefinitions : Array Redefinition := #[]

/-- What became of a line. -/
inductive Effect where
  | ignored
  | added
  | replaced (r : Redefinition)
  | refused (r : Redefinition)
deriving DecidableEq, Repr

namespace Accumulator

/-- Takes one line. -/
def push (a : Accumulator) : LineClass → Accumulator × Effect
  | .ignored => ({ a with ignored := a.ignored + 1 }, .ignored)
  | .definition d =>
    let counted := { a with matched := a.matched + 1 }
    match a.byCode[d.code]? with
    | none => ({ counted with byCode := a.byCode.insert d.code d }, .added)
    | some previous =>
      let r : Redefinition := { previous, replacement := d }
      match a.policy with
      | .reject => (counted, .refused r)
      | .overwrite =>
        ({ counted with
            byCode := a.byCode.insert d.code d
            redefinitions := a.redefinitions.push r },
          .replaced r)

/-- The definitions in force, by ascending code. -/
def definitions (a : Accumulator) : List Definition :=
  a.byCode.toList.map Prod.snd

end Accumulator

end OpcodeRegistry
