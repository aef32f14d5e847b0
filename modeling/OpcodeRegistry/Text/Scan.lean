/-! # Scanning

Reading a text from the front: a scanner takes a piece off and returns it with the rest, or refuses.
-/

namespace OpcodeRegistry.Text

/-- Takes a value off the front of a text and returns it with the rest, or refuses. -/
abbrev Scanner (α : Type) := List Char → Option (α × List Char)

/-- Takes the longest run of characters of the class `p`, which must not be empty. -/
def run? (p : Char → Bool) : Scanner (List Char) := fun s =>
  let taken := s.takeWhile p
  if taken.isEmpty then none else some (taken, s.dropWhile p)

/-- The rest of `s` after the word `word`, which must stand at its front. -/
def word? (word : String) (s : List Char) : Option (List Char) :=
  word.toList.isPrefixOf? s

/-- The rest of `s` after the character `c`, or all of it if it starts otherwise. -/
def skipOne (c : Char) (s : List Char) : List Char :=
  ([c].isPrefixOf? s).getD s

/-- What came before the rest `rest` of a text `s`. -/
def takenOf (s rest : List Char) : String :=
  String.ofList (s.take (s.length - rest.length))

/-! ## Repetition -/

/-- How a round of a repetition ends. -/
inductive Round (σ : Type) where
  | again (state : σ)
  | done (state : σ)

/-- Repeats a round until it says that it was the last one. A round that takes nothing off the text
cannot be repeated, so each further round has a shorter text before it. -/
def rounds {σ : Type} (round : σ → Scanner (Round σ)) (state : σ) (s : List Char) :
    Option (σ × List Char) :=
  match round state s with
  | none => none
  | some (.done state, rest) => some (state, rest)
  | some (.again state, rest) =>
    if rest.length < s.length then rounds round state rest else none
termination_by s.length

end OpcodeRegistry.Text
