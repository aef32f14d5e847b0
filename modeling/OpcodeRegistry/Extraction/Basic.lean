import OpcodeRegistry.Extraction.Accumulator
import OpcodeRegistry.Files
import OpcodeRegistry.Log.Event
import OpcodeRegistry.Source

/-! # Extractions

An extraction is what a source defines: its definitions by ascending code, and the account of its
lines. Reading goes line by line and stops at the first line that is no text or, where redefinitions
are refused, at the first one that defines a code again; nothing after that line is looked at.
-/

namespace OpcodeRegistry

/-- What a source defines. -/
structure Extraction where
  /-- The definitions in force at the end, by ascending code. -/
  definitions : List Definition
  /-- The number of lines that were definitions, replaced ones included. -/
  matched : Nat
  ignored : Nat
  redefinitions : List Redefinition
deriving DecidableEq, Repr

/-- Why a source has no extraction. -/
inductive ExtractionError where
  | source (fault : FileFault)
  | file (path : String) (fault : FileFault)
  | redefined (r : Redefinition)
deriving DecidableEq, Repr

/-- The reason in words. -/
def ExtractionError.message : ExtractionError → String
  | source fault => s!"failed to read source: {fault.message}"
  | file path fault => s!"failed to read {path}: {fault.message}"
  | redefined r =>
    s!"line {r.replacement.lineNumber}: code {r.code} redefined as {r.replacement.mnemonic} " ++
      s!"(previously {r.previous.mnemonic} on line {r.previous.lineNumber})"

namespace Effect

/-- What the log says of a line with this effect: only replacements are worth a word. -/
def events : Effect → List Event
  | replaced r => [.redefined r]
  | _ => []

end Effect

/-- What the log says of a line before it is taken: a number that is no code. -/
def LineClass.notes (lineNumber : Nat) (line : String) : List Event :=
  (LineClass.oversized? line).toList.map (.oversized lineNumber)

namespace Accumulator

/-- The extraction that the definitions so far amount to. -/
def finish (a : Accumulator) : Extraction where
  definitions := a.definitions
  matched := a.matched
  ignored := a.ignored
  redefinitions := a.redefinitions.toList

/-- Takes the line `line`, at position `lineNumber`, with all that the log says of it. -/
def pushLine (a : Accumulator) (lineNumber : Nat) (line : String) :
    Logged (Accumulator × Effect) :=
  let pushed := a.push (.ofLine lineNumber line)
  { events := LineClass.notes lineNumber line ++ pushed.2.events, value := pushed }

/-- Takes the lines of a source, the first of which is at position `lineNumber`, up to the first one
that cannot be taken. -/
def pushLines (a : Accumulator) (lineNumber : Nat) :
    List (List UInt8) → Logged (Except ExtractionError Accumulator)
  | [] => .silent (.ok a)
  | bytes :: rest =>
    match Source.decodeLine? bytes with
    | none => .silent (.error (.source .notUtf8))
    | some line =>
      let pushed := a.pushLine lineNumber line
      match pushed.value.2 with
      | .refused r => { events := pushed.events, value := .error (.redefined r) }
      | _ => (pushed.value.1.pushLines (lineNumber + 1) rest).after pushed.events

end Accumulator

namespace Extraction

/-- What the source defines under a policy, with the log of reading it. -/
def ofSource (policy : RedefinitionPolicy) (source : ByteArray) :
    Logged (Except ExtractionError Extraction) :=
  let read := ({ policy } : Accumulator).pushLines 1 (Source.lines source)
  match read.value with
  | .error e => { events := read.events, value := .error e }
  | .ok a =>
    { events := read.events ++ [.sourceRead a.matched a.ignored], value := .ok a.finish }

/-- What the file at a path defines under a policy, with the log of reading it. -/
def ofFile (reader : FileReader) (policy : RedefinitionPolicy) (path : String) :
    Logged (Except ExtractionError Extraction) :=
  match reader path with
  | .error fault => .silent (.error (.file path fault))
  | .ok contents =>
    let read := ofSource policy contents
    match read.value with
    | .error (.source fault) => { events := read.events, value := .error (.file path fault) }
    | .error e => { events := read.events, value := .error e }
    | .ok x =>
      { events := read.events ++
          [.fileRead path x.definitions.length x.ignored x.redefinitions.length]
        value := .ok x }

/-- The mnemonics and codes that are defined, by ascending code. -/
def entries (x : Extraction) : List (String × Code) :=
  x.definitions.map fun d => (d.mnemonic, d.code)

end Extraction

end OpcodeRegistry
