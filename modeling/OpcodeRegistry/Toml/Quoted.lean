import OpcodeRegistry.Text.Digits
import OpcodeRegistry.Text.Scan
import OpcodeRegistry.Toml.Blank

/-! # Strings

TOML writes strings in quotation marks, where a backslash begins an escape, or in apostrophes, where
it is a character like any other, and either on one line or, between threefold marks, on several.
Each scanner here begins after the opening mark and takes the closing one.
-/

namespace OpcodeRegistry.Toml

open Text

/-! ## Characters -/

/-- The characters that a string may hold as they are, its marks apart: no control character but the
tab. -/
def isStringChar (c : Char) : Bool :=
  isCommentChar c

/-- The character of an escape of one letter. -/
def letterEscape? : Char → Option Char
  | 'b' => some '\x08'
  | 'f' => some '\x0c'
  | 'n' => some '\n'
  | 'r' => some '\r'
  | 't' => some '\t'
  | '"' => some '"'
  | '\\' => some '\\'
  | _ => none

/-- The number of digits of an escape by number. -/
def codeEscape? : Char → Option Nat
  | 'u' => some 4
  | 'U' => some 8
  | _ => none

/-- The character of scalar value `n`, if it is one. -/
def scalar? (n : Nat) : Option Char :=
  if n.isValidChar then some (Char.ofNat n) else none

/-- Puts characters in front of what a scanner took. -/
def including (front : List Char) (scanned : Option (List Char × List Char)) :
    Option (List Char × List Char) :=
  scanned.map fun (taken, rest) => (front ++ taken, rest)

/-! ## One line -/

/-- Where a scanner is in an escape. -/
inductive Escape where
  | begun
  /-- In an escape by number, with so many digits to come and this value so far. -/
  | code (due value : Nat)

/-- The rest of a string in quotation marks on one line. -/
def basicLine : Option Escape → Scanner (List Char)
  | _, [] => none
  | none, c :: s =>
    if c = '"' then some ([], s)
    else if c = '\\' then basicLine (some .begun) s
    else if isStringChar c then including [c] (basicLine none s)
    else none
  | some .begun, c :: s =>
    match letterEscape? c, codeEscape? c with
    | some d, _ => including [d] (basicLine none s)
    | none, some due => basicLine (some (.code due 0)) s
    | none, none => none
  | some (.code due value), c :: s =>
    match digitOf? 16 c with
    | none => none
    | some d =>
      let value := value * 16 + d
      if 1 < due then basicLine (some (.code (due - 1) value)) s
      else
        match scalar? value with
        | none => none
        | some c => including [c] (basicLine none s)

/-- The rest of a string in apostrophes on one line. -/
def literalLine (s : List Char) : Option (List Char × List Char) :=
  match s.span fun c => isStringChar c && c != '\x27' with
  | (taken, '\x27' :: rest) => some (taken, rest)
  | _ => none

/-! ## Several lines -/

/-- Where a scanner is in a string of several lines. -/
inductive Multiline where
  | text
  /-- Behind so many marks in a row. -/
  | marks (count : Nat)
  | escape (e : Escape)
  /-- Behind a backslash that joins lines; `ended` says whether the line has ended yet. -/
  | joining (ended : Bool)

/-- What a character that is no mark does among characters that stand for themselves: the state
after it, and what it adds to the string. -/
def plainStep (escapes : Bool) (c : Char) : Option (Multiline × List Char) :=
  if escapes ∧ c = '\\' then some (.escape .begun, [])
  else if c = '\n' ∨ isStringChar c then some (.text, [c])
  else none

/-- What a character does right behind a backslash. -/
def escapeStep (c : Char) : Option (Multiline × List Char) :=
  if c = '\n' then some (.joining true, [])
  else if isBlank c then some (.joining false, [])
  else
    match letterEscape? c, codeEscape? c with
    | some d, _ => some (.text, [d])
    | none, some due => some (.escape (.code due 0), [])
    | none, none => none

/-- What a digit does in an escape by number. -/
def codeStep (due value : Nat) (c : Char) : Option (Multiline × List Char) := do
  let d ← digitOf? 16 c
  let value := value * 16 + d
  if 1 < due then
    some (.escape (.code (due - 1) value), [])
  else
    let c ← scalar? value
    some (.text, [c])

/-- The rest of a string of several lines between threefold marks `mark`. Marks at the end of the
string may stand before the closing ones, two at most; line ends count as line feeds. -/
def multiline (mark : Char) (escapes : Bool) : Multiline → Scanner (List Char)
  | .marks n, [] => if 3 ≤ n then some (List.replicate (n - 3) mark, []) else none
  | _, [] => none
  | state, '\r' :: '\n' :: s =>
    match state with
    | .text => including ['\n'] (multiline mark escapes .text s)
    | .marks n =>
      if 3 ≤ n then some (List.replicate (n - 3) mark, '\r' :: '\n' :: s)
      else including (List.replicate n mark ++ ['\n']) (multiline mark escapes .text s)
    | .escape .begun | .joining _ => multiline mark escapes (.joining true) s
    | .escape (.code ..) => none
  | .text, c :: s =>
    if c = mark then multiline mark escapes (.marks 1) s
    else
      match plainStep escapes c with
      | none => none
      | some (next, added) => including added (multiline mark escapes next s)
  | .marks n, c :: s =>
    if c = mark then
      if n = 4 then some ([mark, mark], s) else multiline mark escapes (.marks (n + 1)) s
    else if 3 ≤ n then some (List.replicate (n - 3) mark, c :: s)
    else
      match plainStep escapes c with
      | none => none
      | some (next, added) =>
        including (List.replicate n mark ++ added) (multiline mark escapes next s)
  | .escape (.code due value), c :: s =>
    match codeStep due value c with
    | none => none
    | some (next, added) => including added (multiline mark escapes next s)
  | .escape .begun, c :: s =>
    match escapeStep c with
    | none => none
    | some (next, added) => including added (multiline mark escapes next s)
  | .joining ended, c :: s =>
    if c = '\n' then multiline mark escapes (.joining true) s
    else if isBlank c then multiline mark escapes (.joining ended) s
    else if !ended then none
    else if c = mark then multiline mark escapes (.marks 1) s
    else
      match plainStep escapes c with
      | none => none
      | some (next, added) => including added (multiline mark escapes next s)

/-- The text without one line end at its front, which does not belong to a string of several lines.
-/
def skipLineEnd (s : List Char) : List Char :=
  (lineEnd? s).getD s

/-- A string of any kind, its opening mark included. -/
def string? : Scanner String := fun s =>
  let scanned :=
    match s with
    | '"' :: '"' :: '"' :: s => multiline '"' true .text (skipLineEnd s)
    | '"' :: s => basicLine none s
    | '\x27' :: '\x27' :: '\x27' :: s => multiline '\x27' false .text (skipLineEnd s)
    | '\x27' :: s => literalLine s
    | _ => none
  scanned.map fun (taken, rest) => (String.ofList taken, rest)

end OpcodeRegistry.Toml
