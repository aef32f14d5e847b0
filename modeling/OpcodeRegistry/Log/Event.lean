import OpcodeRegistry.Extraction.Definition
import OpcodeRegistry.Text.Digits

/-! # Events

What the library has to say beside its results. An event is a value; its level, its target and its
wording are functions of it, so a result can be stated about the events and not about their text.

An event is written as one text: its level, its target and its wording. The wording may hold names
that come from outside, so characters that could steer the terminal it is shown on are given by
number. Tabs, line ends and the remaining control characters stay as they are.
-/

namespace OpcodeRegistry

/-- How much an event matters, the gravest first. -/
inductive Level where
  | error
  | warn
  | info
  | debug
  | trace
deriving DecidableEq, Repr

/-- The name of the level in a log line. -/
def Level.name : Level → String
  | .error => "ERROR"
  | .warn => "WARN"
  | .info => "INFO"
  | .debug => "DEBUG"
  | .trace => "TRACE"

/-- What a log can report. -/
inductive Event where
  /-- A clause has a number that is no code. -/
  | oversized (lineNumber : Nat) (digits : String)
  | redefined (r : Redefinition)
  | sourceRead (matched ignored : Nat)
  | fileRead (path : String) (opcodes ignored redefinitions : Nat)
  | tableBuilt (label : String) (entries : Nat)
  | noDefinitions (path : String)
  | differs (label path : String) (codes : Nat)
  | agrees (label path : String)
deriving DecidableEq, Repr

namespace Text

/-- One character of the wording of an event, as the log shows it. -/
def inert (c : Char) : List Char :=
  if c ∈ ['\x07', '\x08', '\x0c', '\x1b', '\x7f'] then ['\\', 'x'] ++ numeral 16 2 c.toNat
  else if 0x80 ≤ c.toNat ∧ c.toNat ≤ 0x9f then
    ['\\', 'u', '\x7b'] ++ numeral 16 1 c.toNat ++ ['\x7d']
  else [c]

end Text

namespace Event

/-- How much the event matters. -/
def level : Event → Level
  | oversized .. | sourceRead .. | tableBuilt .. => .debug
  | fileRead .. | agrees .. => .info
  | redefined .. | noDefinitions .. | differs .. => .warn

/-- The part of the program that an event comes from, as log filters name it. -/
def target : Event → String
  | oversized .. | redefined .. | sourceRead .. | fileRead .. => "rhizome_machinery_isa::extract"
  | tableBuilt .. => "rhizome_machinery_isa::arch"
  | noDefinitions .. | differs .. | agrees .. => "machinery"

/-- The wording of the event. -/
def message : Event → String
  | oversized lineNumber digits =>
    s!"line {lineNumber}: opname({digits}) does not fit a u32 code, ignored"
  | redefined r =>
    s!"line {r.replacement.lineNumber}: code {r.code} redefined as {r.replacement.mnemonic} " ++
      s!"(previously {r.previous.mnemonic} on line {r.previous.lineNumber})"
  | sourceRead matched ignored => s!"matched {matched} lines, ignored {ignored}"
  | fileRead path opcodes ignored redefinitions =>
    s!"extracted {opcodes} opcodes from {path} " ++
      s!"({ignored} lines skipped, {redefinitions} redefinitions)"
  | tableBuilt label entries => s!"built {label} opcode table with {entries} entries"
  | noDefinitions path => s!"no opcode definitions found in {path}"
  | differs label path codes => s!"{label} differs from {path} in {codes} codes"
  | agrees label path => s!"{label} matches {path}"

/-- The wording of the event, as the log shows it. -/
def text (e : Event) : String :=
  String.ofList (e.message.toList.flatMap Text.inert)

/-- The line of an event in a log, the time apart. -/
def logLine (e : Event) : String :=
  s!"{e.level.name} {e.target}: {e.text}"

end Event

/-- A result together with the events of reaching it, in order. -/
structure Logged (α : Type) where
  events : List Event
  value : α

namespace Logged

/-- A result that came about in silence. -/
def silent {α : Type} (value : α) : Logged α where
  events := []
  value := value

/-- The same result, with `events` in front. -/
def after {α : Type} (events : List Event) (l : Logged α) : Logged α :=
  { l with events := events ++ l.events }

end Logged

end OpcodeRegistry
