/-! # Blanks, line ends and comments -/

namespace OpcodeRegistry.Toml

/-- Spaces and tabs. -/
def isBlank (c : Char) : Bool :=
  c == ' ' || c == '\t'

/-- The characters of a comment: all but the control characters, of which the tab is let in. -/
def isCommentChar (c : Char) : Bool :=
  c == '\t' || (' ' ≤ c && c != '\x7f')

/-- The text without the blanks at its front. -/
def skipBlanks (s : List Char) : List Char :=
  s.dropWhile isBlank

/-- The rest after one line end: a line feed, or a carriage return and a line feed. -/
def lineEnd? : List Char → Option (List Char)
  | '\n' :: s => some s
  | '\r' :: '\n' :: s => some s
  | _ => none

/-- The text without the comment at its front, if there is one. -/
def skipComment : List Char → List Char
  | '#' :: s => s.dropWhile isCommentChar
  | s => s

/-- The rest after blanks, a comment and the end of the line. The text may end there, too. -/
def finishLine? (s : List Char) : Option (List Char) :=
  match skipComment (skipBlanks s) with
  | [] => some []
  | s => lineEnd? s

/-- The text without the blanks, line ends and comments at its front, as between the values of an
array. `inComment` says that a comment has begun. -/
def skipLines (inComment : Bool) : List Char → List Char
  | [] => []
  | '\n' :: s => skipLines false s
  | '\r' :: '\n' :: s => skipLines false s
  | c :: s =>
    if inComment then if isCommentChar c then skipLines true s else c :: s
    else if isBlank c then skipLines false s
    else if c = '#' then skipLines true s
    else c :: s

end OpcodeRegistry.Toml
