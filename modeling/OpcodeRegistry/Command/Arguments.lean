import OpcodeRegistry.Listing.Render

/-! # Commands and their arguments

The four commands, and how they are read from the words of a command line. An option may stand
before, between or after the operands; behind a double dash every word is an operand. Words are read
in order, and the first one that does not fit ends the reading.
-/

namespace OpcodeRegistry

/-- The source that is read if none is named. -/
def defaultSource : String := "beam_opcodes.erl"

/-- What the program can be asked to do. -/
inductive Command where
  | extract (file : String) (style : Listing.Style) (align strict : Bool)
  | lookup (architecture query : String)
  | list (architecture : String) (json : Bool)
  | verify (architecture file : String)
deriving DecidableEq, Repr

/-- Why a command line gives no command. -/
inductive Usage where
  | help
  | refused
deriving DecidableEq, Repr

namespace Command

/-! ## Words -/

/-- What a word of the command line is, by the way it starts. -/
inductive Word where
  /-- The double dash behind which there are operands only. -/
  | separator
  /-- A long option, with what an equals sign gives it. -/
  | long (name : String) (value : Option String)
  /-- One letter or more behind a dash. -/
  | short (letter : Char) (more : String)
  /-- Anything else, a lone dash included. -/
  | operand
deriving DecidableEq, Repr

/-- What a word is. -/
def Word.ofString (word : String) : Word :=
  match word.toList with
  | ['-', '-'] => .separator
  | '-' :: '-' :: cs =>
    match cs.span (· != '=') with
    | (name, []) => .long (String.ofList name) none
    | (name, _ :: value) => .long (String.ofList name) (some (String.ofList value))
  | '-' :: c :: cs => .short c (String.ofList cs)
  | _ => .operand

/-! ## Reading -/

/-- What a command accepts: which options, and how many operands at least and at most. -/
structure Form where
  /-- The long options that stand for themselves. -/
  switches : List String := []
  takesStyle : Bool := false
  least : Nat
  most : Nat

/-- What has been read of the arguments of a command. -/
structure Arguments where
  operands : List String := []
  switches : List String := []
  style : Option Listing.Style := none

namespace Arguments

/-- Takes an operand, if there is room for another one. -/
def addOperand (form : Form) (a : Arguments) (operand : String) : Except Usage Arguments :=
  if a.operands.length < form.most then .ok { a with operands := a.operands ++ [operand] }
  else .error .refused

/-- Takes an option that stands for itself, which may be given once. -/
def addSwitch (form : Form) (a : Arguments) (name : String) : Except Usage Arguments :=
  if name ∈ form.switches ∧ name ∉ a.switches then .ok { a with switches := name :: a.switches }
  else .error .refused

/-- Takes the style, which may be chosen once. -/
def addStyle (form : Form) (a : Arguments) (word : String) : Except Usage Arguments :=
  if form.takesStyle ∧ a.style.isNone then
    match word with
    | "listing" => .ok { a with style := some .plain }
    | "rust" => .ok { a with style := some .variants }
    | _ => .error .refused
  else .error .refused

/-- Reads the words of a command line after the command. -/
def read (form : Form) (a : Arguments) : List String → Except Usage Arguments
  | [] => .ok a
  | word :: rest =>
    match Word.ofString word with
    | .separator => rest.foldlM (addOperand form) a
    | .operand => do read form (← a.addOperand form word) rest
    | .long "help" none | .short 'h' _ => .error .help
    | .long "format" (some value) => do read form (← a.addStyle form value) rest
    | .long "format" none | .short 'f' "" =>
      match rest with
      | value :: rest => do read form (← a.addStyle form value) rest
      | [] => .error .refused
    | .short 'f' value =>
      let value := if value.startsWith "=" then (value.drop 1).copy else value
      do read form (← a.addStyle form value) rest
    | .long name none => do read form (← a.addSwitch form name) rest
    | .long .. | .short .. => .error .refused

end Arguments

/-- Reads the words after a command that accepts `form` and makes the command of them. -/
def read (form : Form) (make : Arguments → Command) (words : List String) :
    Except Usage Command := do
  let a ← ({} : Arguments).read form words
  if form.least ≤ a.operands.length then return make a else throw .refused

/-- The command that the words of a command line ask for. -/
def ofWords : List String → Except Usage Command
  | "extract" :: words =>
    read { switches := ["align", "strict"], takesStyle := true, least := 0, most := 1 }
      (fun a => .extract (a.operands.headD defaultSource) (a.style.getD .plain)
        ("align" ∈ a.switches) ("strict" ∈ a.switches)) words
  | "lookup" :: words =>
    read { least := 2, most := 2 }
      (fun a => .lookup (a.operands.getD 0 "") (a.operands.getD 1 "")) words
  | "list" :: words =>
    read { switches := ["json"], least := 1, most := 1 }
      (fun a => .list (a.operands.headD "") ("json" ∈ a.switches)) words
  | "verify" :: words =>
    read { least := 1, most := 2 }
      (fun a => .verify (a.operands.headD "") (a.operands.getD 1 defaultSource)) words
  | ["help"] => .error .help
  | ["help", name] =>
    if name ∈ ["extract", "lookup", "list", "verify", "help"] then .error .help else .error .refused
  | word :: _ =>
    match Word.ofString word with
    | .long "help" none | .short 'h' _ => .error .help
    | _ => .error .refused
  | [] => .error .refused

end Command

end OpcodeRegistry
