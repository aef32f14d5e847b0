import OpcodeRegistry.Source

/-! # Definitions and lines

A definition is a clause with a code, remembered with the line it stands on. Every line of a source
either is a definition or is ignored; a clause whose number is no code is ignored like any other
line.
-/

namespace OpcodeRegistry

/-- An opcode as one line of a source defines it. -/
structure Definition where
  /-- The number of the line, counted from 1. -/
  lineNumber : Nat
  line : String
  code : Code
  mnemonic : String
deriving DecidableEq, Repr

/-- Two definitions of one code, the later one against the earlier one. -/
structure Redefinition where
  previous : Definition
  replacement : Definition
deriving DecidableEq, Repr

/-- The code that is defined again. -/
def Redefinition.code (r : Redefinition) : Code :=
  r.replacement.code

/-- What a line of a source is. -/
inductive LineClass where
  | definition (d : Definition)
  | ignored
deriving DecidableEq, Repr

namespace LineClass

/-- What the line `line`, at position `lineNumber`, is. -/
def ofLine (lineNumber : Nat) (line : String) : LineClass :=
  match Clause.ofLine? line with
  | none => .ignored
  | some clause =>
    match clause.code? with
    | none => .ignored
    | some code => .definition { lineNumber, line, code, mnemonic := clause.mnemonic }

/-- The digits of a clause whose number is no code; such a line is ignored, but worth a note. -/
def oversized? (line : String) : Option String :=
  match Clause.ofLine? line with
  | none => none
  | some clause => if clause.code?.isNone then some clause.number else none

end LineClass

end OpcodeRegistry
