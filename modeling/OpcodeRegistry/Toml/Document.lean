import OpcodeRegistry.Toml.Reader
import OpcodeRegistry.Toml.Value

/-! # Documents

A document is a sequence of lines: assignments, which go to the table that is open, and headers,
which open another one. `Document.ofText?` reads the whole text or refuses it; its answer lists the
keys of the outermost table with their values, in the order in which they came to be there.
-/

namespace OpcodeRegistry.Toml

open Text

/-- Where the open table belongs. -/
inductive Place where
  | outermost
  | tableAt (key : Key)
  | elementAt (key : Key)

/-- What has been read of a document. -/
structure Document where
  /-- The outermost table without the open one. -/
  closed : Entries := []
  /-- The open table. -/
  current : Entries := []
  place : Place := .outermost

namespace Document

/-- The outermost table with the open one put where it belongs, at the end. -/
def close? (d : Document) : Option Entries :=
  match d.place with
  | .outermost => some d.current
  | .tableAt key =>
    (Entries.descend .implied (fun _ entries =>
      (entries.insertNew? key.name (.table .declared d.current)).map fun entries => ((), entries))
      .declared key.path d.closed).map Prod.snd
  | .elementAt key =>
    (Entries.descend .implied (fun _ entries =>
      match entries.lookup key.name with
      | some (.tables elements) =>
        some ((), entries.set key.name (.tables (elements ++ [d.current])))
      | _ => none)
      .declared key.path d.closed).map Prod.snd

/-- Opens the table of a key. One that was passed on the way to another header is taken up again;
any other one is declared already. -/
def openTable? (d : Document) (key : Key) : Option Document := do
  let outermost ← d.close?
  let (current, closed) ← Entries.descend .implied (fun _ entries =>
    match entries.lookup key.name with
    | none => some ([], entries)
    | some (.table .implied inner) => some (inner, entries.erase key.name)
    | some _ => none) .declared key.path outermost
  some { closed, current, place := .tableAt key }

/-- Opens a further table in the array of a key. -/
def openElement? (d : Document) (key : Key) : Option Document := do
  let outermost ← d.close?
  let (_, closed) ← Entries.descend .implied (fun _ entries =>
    match entries.lookup key.name with
    | none => some ((), entries ++ [(key.name, .tables [])])
    | some (.tables _) => some ((), entries)
    | some _ => none) .declared key.path outermost
  some { closed, current := [], place := .elementAt key }

/-- Gives a key of the open table its value. -/
def assign? (d : Document) (key : Key) (v : Value) : Option Document :=
  (d.current.assign? key.path key.name v).map fun current => { d with current }

/-- Reads a header, behind the brackets that open it. -/
def header? (d : Document) (opened : Document → Key → Option Document) (closing : String) :
    Scanner Document := fun s => do
  let (key, s) ← key? s
  let s ← word? closing s
  let d ← opened d key
  some (d, s)

/-- Reads what a line holds, without what may follow it on the line. -/
def statement? (d : Document) : Scanner Document
  | '[' :: '[' :: s => d.header? openElement? "]]" s
  | '[' :: s => d.header? openTable? "]" s
  | s => do
    let ((key, v), s) ← assignment? (value? (nestingLimit - 1)) s
    let d ← d.assign? key v
    some (d, s)

/-- Reads one line. -/
def lineRound (d : Document) : Scanner (Round Document) := fun s =>
  match skipBlanks s with
  | [] => some (.done d, [])
  | c :: s =>
    if c = '#' ∨ c = '\n' ∨ c = '\r' then (finishLine? (c :: s)).map fun s => (.again d, s)
    else do
      let (d, s) ← d.statement? (c :: s)
      let s ← finishLine? s
      some (.again d, s)

/-- The keys and values of the document that the text is, in order. A byte order mark may stand
before it. The outermost table never stands for a date. -/
def ofText? (text : String) : Option (List (String × Value)) := do
  let (d, _) ← rounds lineRound {} (skipOne '\uFEFF' text.toList)
  let entries ← d.close?
  Value.fieldsWithDates? (Node.toFields entries)

end Document

end OpcodeRegistry.Toml
