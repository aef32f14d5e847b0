import OpcodeRegistry.Command.Arguments
import OpcodeRegistry.Command.Failure
import OpcodeRegistry.Command.Query
import OpcodeRegistry.Comparison
import OpcodeRegistry.Extraction.Table
import OpcodeRegistry.Listing.Load
import OpcodeRegistry.Log.Event
import OpcodeRegistry.Log.Filter
import OpcodeRegistry.Text.Notation

/-! # Running commands

A command is a function from the files it may read to an outcome: what it prints, what it says
beside that, and whether it succeeded. `Program.run` goes from a whole command line to a report of
texts and an exit status, so nothing but reading files and writing texts is left to do outside.
-/

namespace OpcodeRegistry

/-- What a command says beside its output. -/
inductive Remark where
  /-- An event, which a log filter may hold back. -/
  | event (e : Event)
  | line (text : String)
deriving DecidableEq, Repr

/-- What a command comes to. -/
structure Outcome where
  output : String := ""
  remarks : List Remark := []
  success : Bool := true
deriving DecidableEq, Repr

namespace Outcome

/-- An outcome with events in front of what the command says. -/
def after (events : List Event) (o : Outcome) : Outcome :=
  { o with remarks := events.map .event ++ o.remarks }

/-- The outcome of a command that an error ends. -/
def failed (shown : String) : Outcome where
  remarks := [.line ("Error: " ++ shown)]
  success := false

end Outcome

namespace Command

/-- Prints what a source defines. -/
def runExtract (reader : FileReader) (file : String) (style : Listing.Style) (align strict : Bool) :
    Outcome :=
  let read := Extraction.ofFile reader (if strict then .reject else .overwrite) file
  match read.value with
  | .error e => (Outcome.failed e.shown).after read.events
  | .ok x =>
    let empty := if x.definitions.isEmpty then [.noDefinitions file] else []
    Outcome.after (read.events ++ empty) { output := x.render style align }

/-- Goes on with the architecture of a label, the table of which is built for the first time. -/
def withArchitecture (label : String) (go : Architecture → Outcome) : Outcome :=
  match Architecture.ofLabel label with
  | .error e => .failed e.shown
  | .ok arch => (go arch).after [.tableBuilt arch.label arch.table.size]

/-- Prints the line that answers a query. -/
def runLookup (arch : Architecture) (query : String) : Outcome :=
  match Query.answer? arch.table query with
  | some line => { output := line ++ "\n" }
  | none => { remarks := [.line s!"{arch.label}: {query} not found"], success := false }

/-- The fields of an entry; one that is no alias names none. -/
def entryFields (e : Entry) : List (String × String) :=
  [("mnemonic", Text.jsonString e.mnemonic), ("code", toString e.code.toNat)] ++
    e.aliasOf.toList.map fun canonical => ("alias_of", Text.jsonString canonical)

/-- Prints a table, as an aligned listing or as JSON. -/
def runList (arch : Architecture) (json : Bool) : Outcome :=
  if json then
    { output := Text.jsonArray (arch.table.toList.map (Text.jsonObject ∘ entryFields)) ++ "\n" }
  else { output := arch.table.toListing true }

/-- Prints how a table differs from a source. Agreement is success. -/
def runVerify (reader : FileReader) (arch : Architecture) (file : String) : Outcome :=
  let read := Extraction.ofFile reader .overwrite file
  match read.value with
  | .error e => (Outcome.failed e.shown).after read.events
  | .ok x =>
    let differences := arch.table.differences x
    let verdict : Event :=
      if differences.isEmpty then .agrees arch.label file
      else .differs arch.label file differences.length
    Outcome.after (read.events ++ [verdict])
      { output := String.join (differences.map fun d => d.message ++ "\n")
        success := differences.isEmpty }

/-- Runs a command. -/
def run (reader : FileReader) : Command → Outcome
  | extract file style align strict => runExtract reader file style align strict
  | lookup label query => withArchitecture label fun arch => runLookup arch query
  | list label json => withArchitecture label fun arch => runList arch json
  | verify label file => withArchitecture label fun arch => runVerify reader arch file

/-- The file that a command reads, if it reads one. -/
def source? : Command → Option String
  | extract file .. | verify _ file => some file
  | lookup .. | list .. => none

end Command

/-- What the program leaves behind. -/
structure Report where
  status : UInt32
  output : String := ""
  /-- The error output: texts, each of which a line end follows. -/
  errors : List String := []
deriving DecidableEq, Repr

namespace Report

/-- What is written of a remark, if the filter lets it. -/
def text? (filter : LogFilter) : Remark → Option String
  | .event e => if filter.allows e then some e.logLine else none
  | .line text => some text

/-- What a command says, as far as the filter lets it. -/
def written (filter : LogFilter) (remarks : List Remark) : List String :=
  remarks.filterMap (text? filter)

/-- The report of an outcome: a command that did not succeed has the status 1. -/
def ofOutcome (filter : LogFilter) (o : Outcome) : Report where
  status := if o.success then 0 else 1
  output := o.output
  errors := written filter o.remarks

end Report

namespace Program

/-- How the program is used. -/
def usage : String :=
  "Usage: machinery <COMMAND>\n\n" ++
  "Commands:\n" ++
  "  extract [FILE] [-f|--format listing|rust] [--align] [--strict]\n" ++
  "  lookup <ARCH> <QUERY>\n" ++
  "  list <ARCH> [--json]\n" ++
  "  verify <ARCH> [FILE]\n"

/-- Runs the program on a command line. `directives` are those of the log filter, if any are given;
a filter that cannot be read ends the program before its arguments are looked at. -/
def run (directives : Option String) (reader : FileReader) (words : List String) : Report :=
  match LogFilter.ofText? (directives.getD "") with
  | none => { status := 1, errors := ["Error: ParseError"] }
  | some filter =>
    match Command.ofWords words with
    | .error .help => { status := 0, output := usage }
    | .error .refused => { status := 2, errors := [usage] }
    | .ok command => .ofOutcome filter (command.run reader)

end Program

end OpcodeRegistry
