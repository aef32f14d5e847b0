import OpcodeRegistry.Architecture.Beam
import OpcodeRegistry.Architecture.PyVm

/-! # Architectures

An architecture is an instruction set with a label and a table. Those that come with the library are
found by their label.
-/

namespace OpcodeRegistry

/-- An instruction set by name. -/
structure Architecture where
  label : String
  description : String
  table : Table

/-- Why a label gives no architecture. -/
inductive ArchitectureError where
  | unknown (label : String)
  | invalidTable (label : String) (e : TableError)
deriving DecidableEq, Repr

/-- The error in words. -/
def ArchitectureError.message : ArchitectureError → String
  | unknown label => s!"unknown architecture: {label}"
  | invalidTable label e => s!"invalid opcode table for {label}: {e.message}"

namespace Architecture

/-- The architecture of a table, unless the opcodes made none. -/
def ofTable (label description : String) (table : Except TableError Table) :
    Except ArchitectureError Architecture :=
  match table with
  | .ok table => .ok { label, description, table }
  | .error e => .error (.invalidTable label e)

/-- The Erlang virtual machine. -/
def beam : Except ArchitectureError Architecture :=
  ofTable "beam" "Erlang virtual machine (BEAM)" (OpcodeSet.table BeamOpcode)

/-- The Python 2.6 virtual machine. -/
def pyVm : Except ArchitectureError Architecture :=
  ofTable "pyvm" "Python 2.6 virtual machine" (OpcodeSet.table PyOpcode)

/-- The labels of all architectures. -/
def labels : List String := ["beam", "pyvm"]

/-- The architecture of a label. -/
def ofLabel (label : String) : Except ArchitectureError Architecture :=
  match label with
  | "beam" => beam
  | "pyvm" => pyVm
  | _ => .error (.unknown label)

end Architecture

end OpcodeRegistry
