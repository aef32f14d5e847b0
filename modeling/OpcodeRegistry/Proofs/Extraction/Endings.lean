import Mathlib.Logic.Relation
import OpcodeRegistry.Proofs.Extraction.Text

/-! # How lines end

Any number of carriage returns may stand in front of the line feed that ends a line, and the last
line may go without the line feed. To put one such character in is an edit that does not change what
the lines are read as, and neither do any number of edits. So a text has the same extraction however
its lines end, or is refused for the same redefinition.
-/

namespace OpcodeRegistry

open Text

namespace Source

/-- The text has a last line without a line feed. -/
def Unterminated (s : List Char) : Prop :=
  ∃ c ∈ s.getLast?, c ≠ '\n'

/-- One character is put in at the end of a line. -/
inductive EndingEdit : List Char → List Char → Prop where
  | returnBeforeFeed (front rest : List Char) :
      EndingEdit (front ++ '\n' :: rest) (front ++ '\r' :: '\n' :: rest)
  | returnAtEnd {s : List Char} (h : Unterminated s) : EndingEdit s (s ++ ['\r'])
  | feedAtEnd {s : List Char} (h : Unterminated s) : EndingEdit s (s ++ ['\n'])

/-- What the lines of characters are read as. -/
def trimmedLines (s : List Char) : List String :=
  (endedBy '\n' s).map fun cs => trimReturns (String.ofList cs)

theorem textLines_eq_trimmedLines (text : String) : textLines text = trimmedLines text.toList := by
  unfold textLines trimmedLines linesOf
  rw [List.map_map]
  rfl

theorem trimReturns_return (cs : List Char) :
    trimReturns (String.ofList (cs ++ ['\r'])) = trimReturns (String.ofList cs) := by
  simp [trimReturns]

variable {s s' front rest : List Char}

theorem trimmedLines_feed (h : '\n' ∉ front) (rest : List Char) :
    trimmedLines (front ++ '\n' :: rest) =
      trimReturns (String.ofList front) :: trimmedLines rest := by
  unfold trimmedLines
  rw [endedBy_append_cons_of_not_mem h, List.map_cons]

theorem trimmedLines_last (hne : s ≠ []) (h : '\n' ∉ s) :
    trimmedLines s = [trimReturns (String.ofList s)] := by
  unfold trimmedLines
  rw [endedBy_of_not_mem hne h, List.map_cons, List.map_nil]

/-- Behind a line, a text is unterminated if it is together with the line. -/
theorem Unterminated.of_feed (h : Unterminated (front ++ '\n' :: rest)) : Unterminated rest := by
  rcases h with ⟨c, hc, hne⟩
  cases rest with
  | nil =>
      rw [List.getLast?_concat, Option.mem_some_iff] at hc
      exact absurd hc.symm hne
  | cons d rest => exact ⟨c, by simpa using hc, hne⟩

theorem not_unterminated_nil : ¬ Unterminated [] := by
  rintro ⟨c, hc, -⟩
  simp at hc

/-! ## One edit -/

theorem trimmedLines_returnBeforeFeed (front rest : List Char) :
    trimmedLines (front ++ '\r' :: '\n' :: rest) = trimmedLines (front ++ '\n' :: rest) := by
  have hline : ∀ {line : List Char}, '\n' ∉ line →
      trimmedLines (line ++ '\r' :: '\n' :: rest) = trimmedLines (line ++ '\n' :: rest) := by
    intro line hmem
    have hreturn : '\n' ∉ line ++ ['\r'] := by simp [hmem]
    rw [List.append_cons, trimmedLines_feed hreturn, trimmedLines_feed hmem, trimReturns_return]
  induction front using endedBy_induction '\n' with
  | nil => exact hline List.not_mem_nil
  | last front hne hmem => exact hline hmem
  | cons line front hmem ih =>
      rw [List.append_assoc, List.append_assoc, List.cons_append, List.cons_append,
        trimmedLines_feed hmem, trimmedLines_feed hmem, ih]

/-- What changes nothing about a last line changes nothing about a text. -/
theorem trimmedLines_append_of_unterminated {more : List Char} (h : Unterminated s)
    (hlast : ∀ line, line ≠ [] → '\n' ∉ line → trimmedLines (line ++ more) = trimmedLines line) :
    trimmedLines (s ++ more) = trimmedLines s := by
  induction s using endedBy_induction '\n' with
  | nil => exact absurd h not_unterminated_nil
  | last s hne hmem => exact hlast s hne hmem
  | cons front rest hfront ih =>
      rw [List.append_assoc, List.cons_append, trimmedLines_feed hfront, trimmedLines_feed hfront,
        ih h.of_feed]

theorem trimmedLines_returnAtEnd (h : Unterminated s) :
    trimmedLines (s ++ ['\r']) = trimmedLines s := by
  apply trimmedLines_append_of_unterminated h
  intro line hne hmem
  have hreturn : '\n' ∉ line ++ ['\r'] := by simp [hmem]
  rw [trimmedLines_last (by simp) hreturn, trimmedLines_last hne hmem, trimReturns_return]

theorem trimmedLines_feedAtEnd (h : Unterminated s) :
    trimmedLines (s ++ ['\n']) = trimmedLines s := by
  apply trimmedLines_append_of_unterminated h
  intro line hne hmem
  rw [trimmedLines_feed hmem, trimmedLines_last hne hmem]
  rfl

/-- An edit at the end of a line does not change what the lines are read as. -/
theorem EndingEdit.trimmedLines_eq (h : EndingEdit s s') : trimmedLines s' = trimmedLines s := by
  cases h with
  | returnBeforeFeed front rest => exact trimmedLines_returnBeforeFeed front rest
  | returnAtEnd h => exact trimmedLines_returnAtEnd h
  | feedAtEnd h => exact trimmedLines_feedAtEnd h

/-! ## All edits -/

/-- Nor do any number of them. -/
theorem trimmedLines_eq_of_edits (h : Relation.ReflTransGen EndingEdit s s') :
    trimmedLines s' = trimmedLines s := by
  induction h with
  | refl => rfl
  | tail _ hedit ih => rw [hedit.trimmedLines_eq, ih]

/-- A text is read as the same lines after any edits at the ends of its lines. -/
theorem readings_eq_of_edits {text text' : String}
    (h : Relation.ReflTransGen EndingEdit text.toList text'.toList) :
    readings text'.toUTF8 = readings text.toUTF8 := by
  rw [readings_toUTF8, readings_toUTF8, textLines_eq_trimmedLines, textLines_eq_trimmedLines,
    trimmedLines_eq_of_edits h]

end Source

namespace Extraction

/-- After any edits at the ends of its lines, a text has the same extraction, or is refused for the
same redefinition, and the log of reading it is the same. -/
theorem ofSource_eq_of_edits {text text' : String}
    (h : Relation.ReflTransGen Source.EndingEdit text.toList text'.toList)
    (policy : RedefinitionPolicy) :
    ofSource policy text'.toUTF8 = ofSource policy text.toUTF8 ∧
      ((∃ x, (ofSource policy text.toUTF8).value = .ok x) ∨
        ∃ r, (ofSource policy text.toUTF8).value = .error (.redefined r)) :=
  ⟨ofSource_congr (Source.readings_eq_of_edits h) policy, value_ofSource_toUTF8_cases policy text⟩

/-- Two carriage returns and a line feed end one line, and a carriage return and a line feed are put
behind the last: the second name of the code is refused as on its bare line. -/
theorem ofSource_eq_of_edits_second_name :
    (ofSource .reject "opname(1) -> {label,1};\r\r\nopname(1) -> {lbl,1};\r\n".toUTF8).value =
      .error (.redefined
        ⟨⟨1, "opname(1) -> {label,1};", 1, "LABEL"⟩, ⟨2, "opname(1) -> {lbl,1};", 1, "LBL"⟩⟩) := by
  let first := "opname(1) -> {label,1};".toList
  let second := "opname(1) -> {lbl,1};".toList
  have hreturn : Source.EndingEdit (first ++ '\n' :: second) (first ++ '\r' :: '\n' :: second) :=
    .returnBeforeFeed first second
  have hreturn' : Source.EndingEdit (first ++ '\r' :: '\n' :: second)
      (first ++ '\r' :: '\r' :: '\n' :: second) := by
    have hedit := Source.EndingEdit.returnBeforeFeed (first ++ ['\r']) second
    rwa [List.append_assoc, List.append_assoc] at hedit
  -- the two edits at the end of the text: first the carriage return, then the line feed behind it
  have hlast : Source.EndingEdit (first ++ '\r' :: '\r' :: '\n' :: second)
      (first ++ '\r' :: '\r' :: '\n' :: second ++ ['\r']) :=
    .returnAtEnd ⟨';', by decide, by decide⟩
  have hfeed : Source.EndingEdit (first ++ '\r' :: '\r' :: '\n' :: second ++ ['\r'])
      (first ++ '\r' :: '\r' :: '\n' :: second ++ ['\r'] ++ ['\n']) :=
    .feedAtEnd ⟨'\r', by decide, by decide⟩
  have hedits := (((Relation.ReflTransGen.single hreturn).tail hreturn').tail hlast).tail hfeed
  have hsame := @ofSource_eq_of_edits "opname(1) -> {label,1};\nopname(1) -> {lbl,1};"
    "opname(1) -> {label,1};\r\r\nopname(1) -> {lbl,1};\r\n" hedits .reject
  rw [hsame.1]
  rfl

end Extraction

end OpcodeRegistry
