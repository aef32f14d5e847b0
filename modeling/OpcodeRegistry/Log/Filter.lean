import OpcodeRegistry.Log.Event
import OpcodeRegistry.Text.CharClass
import OpcodeRegistry.Text.Digits
import OpcodeRegistry.Text.Scan

/-! # Log filters

A filter says which events are written. It is a list of directives. Where several of them speak of a
target, the narrowest one decides, and of two equally narrow ones the later. A target that none
speaks of is silent.

A directive is a level, `debug`, for all targets; a target, `machinery`, for all of its levels; or
both, `machinery=debug`. Behind the target, brackets may hold the name of a span, braces within them
the name of a field that an event must have, as in `machinery[{message}]=debug`. Blanks are part of
what they stand at, so a target with a blank is none of the program's, and a level with a blank is
none at all.
-/

namespace OpcodeRegistry

/-- The rank of a level: the graver, the lower. -/
def Level.rank : Level → Nat
  | .error => 1
  | .warn => 2
  | .info => 3
  | .debug => 4
  | .trace => 5

/-- What a directive lets through: the levels up to one of them, or nothing. -/
inductive Threshold where
  | off
  /-- Events of this level and of the graver ones are written. -/
  | upTo (level : Level)
deriving DecidableEq, Repr

namespace Threshold

/-- Whether events of a level are written. -/
def allows : Threshold → Level → Bool
  | off, _ => false
  | upTo most, level => level.rank ≤ most.rank

/-- The threshold that lets so many levels through. -/
def ofNumber? : Nat → Option Threshold
  | 0 => some off
  | 1 => some (upTo .error)
  | 2 => some (upTo .warn)
  | 3 => some (upTo .info)
  | 4 => some (upTo .debug)
  | 5 => some (upTo .trace)
  | _ => none

/-- The threshold of a name. Case does not matter. -/
def ofName? (name : String) : Option Threshold :=
  match String.ofList (name.toList.map Char.toLower) with
  | "off" => some off
  | "error" => some (upTo .error)
  | "warn" => some (upTo .warn)
  | "info" => some (upTo .info)
  | "debug" => some (upTo .debug)
  | "trace" => some (upTo .trace)
  | _ => none

/-- The threshold that a word gives, by name or by number. A number may have a plus sign. -/
def ofWord? (word : String) : Option Threshold :=
  match Text.valueOf? 10 (Text.skipOne '+' word.toList) with
  | some n => ofNumber? n
  | none => ofName? word

/-- The threshold behind an equals sign. Nothing stands for all levels. -/
def ofSuffix? (word : List Char) : Option Threshold :=
  if word.isEmpty then some (upTo .trace) else ofWord? (String.ofList word)

end Threshold

/-- What counts for the targets that start with `scope`. -/
structure Directive where
  /-- What the targets start with. -/
  scope : String
  span : Option String := none
  field : Option String := none
  threshold : Threshold
deriving DecidableEq, Repr

namespace Directive

open Text

/-! ## Reading -/

/-- The characters that count as blank: the white space of all scripts. -/
def isBlankChar (c : Char) : Bool :=
  c.isWhitespace || c == '\x0b' || c == '\x0c' || c == '\u0085' || c == '\u00a0' ||
    c == '\u1680' || ('\u2000' ≤ c && c ≤ '\u200a') || c == '\u2028' || c == '\u2029' ||
    c == '\u202f' || c == '\u205f' || c == '\u3000'

/-- The characters that a directive may start with, blanks apart. -/
def isInitial (c : Char) : Bool :=
  c == '[' || c == '-' || c == ':' || c == '_' || isAlphanumeric c

/-- What stands behind the target of a directive. -/
structure Ending where
  span : Option String := none
  field : Option String := none
  /-- What follows the equals sign, if there is one. -/
  level : Option (List Char) := none

/-- Takes what brackets hold, behind the opening one, and the closing one. There is a span unless
braces take its place, and the braces must not be empty. -/
def brackets? : Scanner Ending := fun s =>
  let (span, s) := s.span fun c => c != ']' && c != '\x7b'
  match s with
  | ']' :: s => some ({ span := some (String.ofList span) }, s)
  | '\x7b' :: s => do
    let (field, s) ← run? (· != '\x7d') s
    let s ← word? "\x7d]" s
    let span := if span.isEmpty then none else some (String.ofList span)
    some ({ span, field := some (String.ofList field) }, s)
  | _ => none

/-- Reads what stands behind the target of a directive: brackets, an equals sign with a level, or
both. Blanks behind brackets do no harm. -/
def ending? : List Char → Option Ending
  | '=' :: level => some { level := some level }
  | '[' :: s => do
    let (e, s) ← brackets? s
    match s with
    | '=' :: level => some { e with level := some level }
    | s => if s.all isBlankChar then some e else none
  | _ => none

/-- Reads a directive that is a level for all targets, or else a target for all of its levels. -/
def ofWord (word : String) : Directive :=
  match Threshold.ofWord? word with
  | some threshold => { scope := "", threshold }
  | none => { scope := word, threshold := .upTo .trace }

/-- Reads a directive. One behind blanks cannot end with a level. -/
def ofText? (text : String) : Option Directive := do
  let (blanks, s) := text.toList.span isBlankChar
  let first ← s.head?
  if !isInitial first then none
  else
    let (target, s) := s.span fun c => c != '=' && c != '['
    if s.isEmpty then some (ofWord text)
    else
      let e ← ending? s
      let scope := String.ofList (blanks ++ target)
      match e.level with
      | none => some { scope, span := e.span, field := e.field, threshold := .upTo .trace }
      | some level =>
        if blanks.isEmpty then
          (Threshold.ofSuffix? level).map fun threshold =>
            { scope, span := e.span, field := e.field, threshold }
        else none

/-! ## Use -/

/-- The one field that the events of the program have. -/
def messageField : String := "message"

/-- Whether the directive speaks of the events of a target. None of them lies in a span. -/
def covers (d : Directive) (target : String) : Bool :=
  d.span.isNone && d.field.all (· == messageField) && d.scope.toList.isPrefixOf target.toList

/-- How narrow the directive is: by the length of its scope, then by whether it asks for a field. -/
def specificity (d : Directive) : Nat :=
  2 * d.scope.length + d.field.toList.length

end Directive

/-! ## Filters -/

/-- The directives in force, in the order in which they were given. -/
structure LogFilter where
  directives : List Directive

namespace LogFilter

/-- The directives that count if none are given. -/
def standard : String := "machinery=info,rhizome_machinery_isa=info"

/-- Reads directives with commas between them. Blank text stands for the standard ones. -/
def ofText? (text : String) : Option LogFilter :=
  let text := if text.toList.all Directive.isBlankChar then standard else text
  let pieces := (text.splitOn ",").filter (· ≠ "")
  (pieces.mapM Directive.ofText?).map fun directives => { directives }

/-- The directives that speak of a target. -/
def applicable (f : LogFilter) (target : String) : List Directive :=
  f.directives.filter (·.covers target)

/-- The narrower of two directives, the second one if they are equally narrow. -/
def narrower (a b : Directive) : Directive :=
  if a.specificity ≤ b.specificity then b else a

/-- The directive that decides on a target, if one speaks of it. -/
def deciding? (f : LogFilter) (target : String) : Option Directive :=
  match f.applicable target with
  | [] => none
  | d :: ds => some (ds.foldl narrower d)

/-- Whether an event is written. -/
def allows (f : LogFilter) (e : Event) : Bool :=
  (f.deciding? e.target).any (·.threshold.allows e.level)

end LogFilter

end OpcodeRegistry
