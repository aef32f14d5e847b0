import OpcodeRegistry.Table.Basic

/-! # Opcode sets

An opcode set is a type whose values are the opcodes of an instruction set of one byte. It lists
them in the order of their declaration and says what each is called, which code it has and which
opcode stands for that code. Names and codes are found by going through the list, and the list also
declares a table.
-/

namespace OpcodeRegistry

/-- A type of opcodes. -/
class OpcodeSet (α : Type) where
  /-- The opcodes, in the order of their declaration. -/
  all : List α
  mnemonic : α → String
  code : α → UInt8
  /-- The opcode that stands for the code of this one: another one for an alias, itself otherwise.
  -/
  canonical : α → α

/-- An opcode set that lists every opcode, and lists it once. -/
class LawfulOpcodeSet (α : Type) [OpcodeSet α] : Prop where
  mem_all (op : α) : op ∈ (OpcodeSet.all : List α)
  nodup_all : (OpcodeSet.all : List α).Nodup

namespace OpcodeSet

variable {α : Type} [DecidableEq α] [OpcodeSet α]

/-- Whether another opcode stands for the code of this one. -/
def isAlias (op : α) : Bool :=
  canonical op ≠ op

/-- The first opcode of a name. Case matters. -/
def ofMnemonic? (name : String) : Option α :=
  all.find? fun op => mnemonic op == name

/-- The first opcode of a code that is no alias. -/
def ofCode? (c : UInt8) : Option α :=
  all.find? fun op => code op == c && !isAlias op

/-- The opcode as a declaration of a table. -/
def declaration (op : α) : Entry where
  mnemonic := mnemonic op
  code := (code op).toUInt32
  aliasOf := if isAlias op then some (mnemonic (canonical op)) else none

/-- The table of all opcodes. -/
def table (α : Type) [DecidableEq α] [OpcodeSet α] : Except TableError Table :=
  Table.build .byte ((all : List α).map declaration)

/-- The order of declaration. -/
def order (a b : α) : Ordering :=
  compare (all.idxOf a) (all.idxOf b)

end OpcodeSet

end OpcodeRegistry
