import OpcodeRegistry.Toml.Value

/-! # Trees of tables

While a document is read, its tables remember how they came about, because that decides what may be
added to them: a table that a header or braces declared is closed to dotted keys, one that was only
passed on the way to a header may still be declared, and one that a dotted key made may be added to
by dotted keys alone. No key is ever given a second value.
-/

namespace OpcodeRegistry.Toml

/-- How a table came about. -/
inductive Origin where
  /-- By a header or by braces. -/
  | declared
  /-- On the way to the table of a header. -/
  | implied
  /-- On the way of a dotted key. -/
  | dotted
deriving DecidableEq, Repr

/-- What a key stands for while the document is read. -/
inductive Node where
  /-- A value, tables in braces included. -/
  | value (v : Value)
  /-- A table that lines may still add to. -/
  | table (origin : Origin) (entries : List (String × Node))
  /-- An array of tables, the last of which lines may still add to. -/
  | tables (elements : List (List (String × Node)))

/-- The keys of a table with what they stand for, in the order of the text. -/
abbrev Entries := List (String × Node)

namespace Entries

/-- The same entries with another node for `key`, at its place. -/
def set (entries : Entries) (key : String) (node : Node) : Entries :=
  entries.map fun entry => if entry.1 = key then (key, node) else entry

/-- The entries without `key`. -/
def erase (entries : Entries) (key : String) : Entries :=
  entries.filter fun entry => entry.1 ≠ key

/-- Gives a new key its node, at the end. -/
def insertNew? (entries : Entries) (key : String) (node : Node) : Option Entries :=
  match entries.lookup key with
  | some _ => none
  | none => some (entries ++ [(key, node)])

/-- Goes down from a table of origin `here` along a path of keys and changes the table that it ends
at. Missing tables on the way are made with the origin `made`; of an array of tables, the last one
is entered. Dotted keys do not go through declared tables. -/
def descend {α : Type} (made : Origin) (change : Origin → Entries → Option (α × Entries)) :
    Origin → List String → Entries → Option (α × Entries)
  | here, [], entries => change here entries
  | _, key :: path, entries =>
    match entries.lookup key with
    | none => do
      let (a, inner) ← descend made change made path []
      some (a, entries ++ [(key, .table made inner)])
    | some (.value _) => none
    | some (.table origin inner) =>
      if made = .dotted ∧ origin = .declared then none
      else do
        let (a, inner) ← descend made change origin path inner
        some (a, set entries key (.table origin inner))
    | some (.tables elements) =>
      match elements.getLast? with
      | none => none
      | some inner => do
        let (a, inner) ← descend made change .declared path inner
        some (a, set entries key (.tables (elements.dropLast ++ [inner])))

/-- Gives the key at the end of a dotted path its value, in a declared table. A dotted path must end
in a table that dotted keys made. -/
def assign? (entries : Entries) (path : List String) (key : String) (v : Value) :
    Option Entries :=
  (descend .dotted (fun origin inner =>
    if (origin = .dotted) = (path = []) then none
    else (insertNew? inner key (.value v)).map fun inner => ((), inner))
    .declared path entries).map Prod.snd

end Entries

mutual

/-- The value of a node, now that nothing is added to it any more. -/
def Node.toValue : Node → Value
  | .value v => v
  | .table _ entries => .table (Node.toFields entries)
  | .tables elements => .array (Node.toTables elements)

/-- The keys and values of a table. -/
def Node.toFields : List (String × Node) → List (String × Value)
  | [] => []
  | (key, node) :: rest => (key, node.toValue) :: Node.toFields rest

/-- The tables of an array. -/
def Node.toTables : List (List (String × Node)) → List Value
  | [] => []
  | entries :: rest => .table (Node.toFields entries) :: Node.toTables rest

end

end OpcodeRegistry.Toml
