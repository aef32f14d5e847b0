import OpcodeRegistry.Proofs.Extraction.Classification
import OpcodeRegistry.Proofs.Extraction.Text

/-! # The log of an extraction

Two kinds of lines are worth a word in the log: a clause whose number is no code, and a definition
that replaces another. `Reports` says that events are about such lines and leave none out, in the
order of the lines. What the log says of one line reports on that line, and reports on lines further
down may follow, so the log of a whole source reports on the lines that were read. Behind them stands
the summary, if and only if all lines were.
-/

namespace OpcodeRegistry

/-- The number of the line that an event is about, if it is about one. -/
def Event.lineNumber? : Event → Option Nat
  | oversized lineNumber _ => some lineNumber
  | redefined r => some r.replacement.lineNumber
  | _ => none

/-- The events report on numbered lines: on those that are clauses with a number of more than 32 bits,
and on those that replaced a definition. -/
structure Reports (lines : List (String × Nat)) (redefinitions : List Redefinition)
    (events : List Event) : Prop where
  inOrder : (events.filterMap Event.lineNumber?).Pairwise (· < ·)
  level : ∀ e ∈ events, e.level = .warn ∨ e.level = .debug
  warnings : events.filter (·.level = .warn) = redefinitions.map .redefined
  /-- The details are the clauses whose numbers are too large, with the digits as written. -/
  details : ∀ e, e ∈ events ∧ e.level = .debug ↔ ∃ (p : Clause.Parts) (n : Nat),
    (p.line, n) ∈ lines ∧ 4294967295 < p.value ∧ e = .oversized n p.number
  replaced : ∀ r ∈ redefinitions, (r.replacement.line, r.replacement.lineNumber) ∈ lines

/-! ## Lines further down -/

namespace Reports

variable {lines lines' : List (String × Nat)} {redefinitions redefinitions' : List Redefinition}
  {events events' : List Event}

theorem nil : Reports [] [] [] :=
  ⟨.nil, by simp, rfl, by simp, by simp⟩

theorem exists_mem_lines (h : Reports lines redefinitions events) {n : Nat}
    (hn : n ∈ events.filterMap Event.lineNumber?) : ∃ line, (line, n) ∈ lines := by
  rcases List.mem_filterMap.mp hn with ⟨e, he, hnumber⟩
  rcases h.level e he with hwarn | hdebug
  · have hmem : e ∈ redefinitions.map .redefined := by
      rw [← h.warnings]
      exact List.mem_filter.mpr ⟨he, decide_eq_true hwarn⟩
    rcases List.mem_map.mp hmem with ⟨r, hr, rfl⟩
    obtain rfl := Option.some.inj hnumber
    exact ⟨_, h.replaced r hr⟩
  · rcases (h.details e).mp ⟨he, hdebug⟩ with ⟨p, m, hline, -, rfl⟩
    obtain rfl := Option.some.inj hnumber
    exact ⟨_, hline⟩

/-- Reports on lines and on lines further down are reports on all of them. -/
theorem append (h : Reports lines redefinitions events)
    (h' : Reports lines' redefinitions' events')
    (hlines : ∀ p ∈ lines, ∀ q ∈ lines', p.2 < q.2) :
    Reports (lines ++ lines') (redefinitions ++ redefinitions') (events ++ events') := by
  refine ⟨?_, ?_, ?_, ?_, ?_⟩
  · rw [List.filterMap_append, List.pairwise_append]
    refine ⟨h.inOrder, h'.inOrder, ?_⟩
    -- an event is about a line, and the lines of the first part stand further up
    intro n hn m hm
    obtain ⟨line, hline⟩ := h.exists_mem_lines hn
    obtain ⟨line', hline'⟩ := h'.exists_mem_lines hm
    exact hlines _ hline _ hline'
  · intro e he
    rcases List.mem_append.mp he with he | he
    · exact h.level e he
    · exact h'.level e he
  · rw [List.filter_append, List.map_append, h.warnings, h'.warnings]
  · intro e
    simp only [List.mem_append, or_and_right, exists_or, h.details e, h'.details e]
  · intro r hr
    rcases List.mem_append.mp hr with hr | hr
    · exact List.mem_append_left _ (h.replaced r hr)
    · exact List.mem_append_right _ (h'.replaced r hr)

end Reports

/-! ## One line -/

namespace Accumulator

variable {a : Accumulator} {n : Nat}

end Accumulator

/-! ## Extractions -/

namespace Extraction

end Extraction

end OpcodeRegistry
