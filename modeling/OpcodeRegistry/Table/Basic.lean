import OpcodeRegistry.Table.Draft

/-! # Opcode tables

A table answers for names and for codes. Its entries are ordered by code, and entries of one code
stand as they were declared, so that the canonical one comes first. Both indexes hold positions in
that order.
-/

namespace OpcodeRegistry

/-- The opcodes of an instruction set. Names and codes lead to positions of the entries. -/
structure Table where
  width : CodeWidth
  /-- The entries, aliases included, by ascending code. -/
  entries : Array Entry
  byName : Std.HashMap String Nat
  /-- The position of the canonical entry of each code in use. -/
  byCode : Std.HashMap Code Nat

namespace Table

/-! ## Building -/

/-- The declarations by ascending code. The order of those with one code is kept. -/
def sorted (declarations : List Entry) : List Entry :=
  declarations.mergeSort fun a b => a.code ≤ b.code

/-- The index that gives each name its position. -/
def indexNames (entries : Array Entry) : Std.HashMap String Nat :=
  entries.zipIdx.foldl (fun index (e, i) => index.insert e.mnemonic i) ∅

/-- The index that gives each code the position of its canonical entry. -/
def indexCodes (entries : Array Entry) : Std.HashMap Code Nat :=
  entries.zipIdx.foldl (fun index (e, i) => if e.isAlias then index else index.insert e.code i) ∅

/-- The table of the given entries, in the order of their codes. -/
def ofEntries (width : CodeWidth) (declarations : List Entry) : Table :=
  let entries := (sorted declarations).toArray
  { width, entries, byName := indexNames entries, byCode := indexCodes entries }

/-- The table that the declarations describe, or what is wrong with the first bad one. -/
def build (width : CodeWidth) (declarations : List Entry) : Except TableError Table :=
  (Draft.ofDeclarations width declarations).map fun draft => ofEntries width draft.entries.toList

/-! ## Asking -/

/-- The entry of a name, canonical or alias. Case matters. -/
def get? (t : Table) (mnemonic : String) : Option Entry :=
  t.byName[mnemonic]?.bind (t.entries[·]?)

/-- The code of a name, canonical or alias. -/
def codeOf? (t : Table) (mnemonic : String) : Option Code :=
  (t.get? mnemonic).map Entry.code

/-- The canonical mnemonic behind a name. A canonical mnemonic stands for itself. -/
def canonicalOf? (t : Table) (mnemonic : String) : Option String :=
  (t.get? mnemonic).map Entry.canonical

/-- The canonical mnemonic of a code, if the code is in use. -/
def mnemonicOf? (t : Table) (code : Code) : Option String :=
  (t.byCode[code]?.bind (t.entries[·]?)).map Entry.mnemonic

/-- Whether a code is in use. -/
def containsCode (t : Table) (code : Code) : Bool :=
  t.byCode.contains code

/-- All entries, aliases included, by ascending code. -/
def toList (t : Table) : List Entry :=
  t.entries.toList

/-- The entries that are no aliases, by ascending code. -/
def canonicalEntries (t : Table) : List Entry :=
  t.toList.filter fun e => !e.isAlias

/-- The number of names, aliases included. -/
def size (t : Table) : Nat :=
  t.entries.size

end Table

end OpcodeRegistry
