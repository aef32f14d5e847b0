import Mathlib.Data.List.Induction
import OpcodeRegistry.Proofs.Extraction.History

/-! # What a refusing run amounts to

When redefinitions are refused and the run goes on behind them, the state after it can be read off
the definitions it was given, too: each code keeps its first definition and nothing is recorded. A
line is counted before it is refused, so the count of definitions runs ahead of the definitions in
force, by one with each refusal. `Refusing` is the invariant that says so, and one line more keeps
it.
-/

namespace OpcodeRegistry

/-- The first definition of a code among the given ones. -/
def first? (definitions : List Definition) (c : Code) : Option Definition :=
  definitions.find? (·.code = c)

/-- A definition more is the first one of its code if there was none. -/
theorem first?_concat (definitions : List Definition) (d : Definition) (c : Code) :
    first? (definitions ++ [d]) c =
      (first? definitions c).or (if d.code = c then some d else none) := by
  unfold first?
  rw [List.find?_append]
  by_cases hc : d.code = c
  · simp [hc]
  · simp [hc]

theorem exists_first?_iff {definitions : List Definition} {c : Code} :
    (∃ d, first? definitions c = some d) ↔ ∃ d ∈ definitions, d.code = c := by
  unfold first?
  rw [← Option.isSome_iff_exists, List.find?_isSome]
  simp

/-- Whether the line was refused. -/
def Effect.isRefusal : Effect → Bool
  | refused _ => true
  | _ => false

namespace Accumulator

/-- What becomes of the lines of a run, one after the other. -/
def effects (a : Accumulator) : List LineClass → List Effect
  | [] => []
  | line :: lines => (a.push line).2 :: (a.push line).1.effects lines

/-- The number of lines that a run refuses. -/
def refusals (a : Accumulator) (lines : List LineClass) : Nat :=
  (a.effects lines).countP Effect.isRefusal

theorem effects_concat (a : Accumulator) (lines : List LineClass) (line : LineClass) :
    a.effects (lines ++ [line]) = a.effects lines ++ [((a.pushAll lines).push line).2] := by
  induction lines generalizing a with
  | nil => rfl
  | cons l lines ih =>
      change (a.push l).2 :: (a.push l).1.effects (lines ++ [line]) = _
      rw [ih]
      rfl

theorem refusals_concat (a : Accumulator) (lines : List LineClass) (line : LineClass) :
    a.refusals (lines ++ [line]) =
      a.refusals lines + if ((a.pushAll lines).push line).2.isRefusal then 1 else 0 := by
  unfold refusals
  rw [effects_concat, List.countP_append, List.countP_singleton]

/-- The state after a refusing run over the lines, read off the lines and the number of refusals. -/
structure Refusing (a : Accumulator) (lines : List LineClass) (refusals : Nat) : Prop where
  policy : a.policy = .reject
  byCode : ∀ c, a.byCode[c]? = first? (definitionsOf lines) c
  redefinitions : a.redefinitions = #[]
  /-- A definition is in force or was refused. -/
  balance : a.matched = a.byCode.size + refusals

variable {a : Accumulator} {lines : List LineClass} {refusals : Nat}

theorem refusing_nil : Refusing { policy := .reject } [] 0 := by
  refine ⟨rfl, ?_, rfl, rfl⟩
  intro c
  simp [first?, definitionsOf]

/-- A line that is refused changes nothing but the count of definitions. -/
theorem push_of_refused {line : LineClass} {r : Redefinition}
    (h : (a.push line).2 = .refused r) : (a.push line).1 = { a with matched := a.matched + 1 } := by
  rcases push_eq_refused_iff.mp h with ⟨hpolicy, d, previous, rfl, hprevious, -⟩
  rw [push_refused hpolicy hprevious]

/-- A definition more keeps the invariant, with one refusal more if its code is taken. -/
theorem Refusing.push_definition (h : a.Refusing lines refusals) (d : Definition) :
    (a.push (.definition d)).1.Refusing (lines ++ [.definition d])
      (refusals + if (a.push (.definition d)).2.isRefusal then 1 else 0) := by
  have hfirst : ∀ c, first? (definitionsOf (lines ++ [.definition d])) c =
      a.byCode[c]?.or (if d.code = c then some d else none) := by
    intro c
    rw [definitionsOf_concat_definition, first?_concat, h.byCode c]
  have hbalance := h.balance
  cases hprev : a.byCode[d.code]? with
  | none =>
      rw [push_added hprev]
      refine ⟨h.policy, ?_, h.redefinitions, ?_⟩
      · -- the first definition of a new code is this one, and all other codes keep theirs
        intro c
        rw [getElem?_insert_byCode, hfirst c]
        by_cases hc : d.code = c
        · rw [if_pos hc, if_pos hc, ← hc, hprev]
          rfl
        · rw [if_neg hc, if_neg hc, Option.or_none]
      · simp only [size_insert_byCode, hprev, Effect.isRefusal, Option.isSome_none,
          Bool.false_eq_true, if_false]
        omega
  | some previous =>
      rw [push_refused h.policy hprev]
      refine ⟨h.policy, ?_, h.redefinitions, ?_⟩
      · -- the code has a definition already, and that one is the first
        intro c
        rw [hfirst c]
        by_cases hc : d.code = c
        · rw [← hc, hprev]
          rfl
        · rw [if_neg hc, Option.or_none]
      · -- no definition came into force, so it is the refusal that makes up for the count
        simp only [Effect.isRefusal, if_true]
        omega

/-- One line more keeps the invariant. -/
theorem Refusing.push (h : a.Refusing lines refusals) (line : LineClass) :
    (a.push line).1.Refusing (lines ++ [line])
      (refusals + if (a.push line).2.isRefusal then 1 else 0) := by
  cases line with
  | ignored =>
      rw [push_ignored]
      refine ⟨h.policy, ?_, h.redefinitions, h.balance⟩
      simpa using h.byCode
  | definition d => exact h.push_definition d

/-- The invariant holds after every refusing run. -/
theorem refusing_pushAll (lines : List LineClass) :
    (({ policy := .reject } : Accumulator).pushAll lines).Refusing lines
      (({ policy := .reject } : Accumulator).refusals lines) := by
  induction lines using List.reverseRecOn with
  | nil => exact refusing_nil
  | append_singleton lines line ih =>
      rw [pushAll_concat, refusals_concat]
      exact ih.push line

/-- A line is refused against the first definition of its code. -/
theorem Refusing.push_eq_refused_iff (h : a.Refusing lines refusals) {line : LineClass}
    {r : Redefinition} :
    (a.push line).2 = .refused r ↔ line = .definition r.replacement ∧
      first? (definitionsOf lines) r.replacement.code = some r.previous := by
  rw [Accumulator.push_eq_refused_iff]
  constructor
  · rintro ⟨-, d, previous, rfl, hprevious, rfl⟩
    rw [h.byCode] at hprevious
    exact ⟨rfl, hprevious⟩
  · rintro ⟨hline, hfirst⟩
    rw [← h.byCode] at hfirst
    exact ⟨h.policy, r.replacement, r.previous, hline, hfirst, rfl⟩

/-- A line is refused if and only if its code was defined before, whether that was refused or not. -/
theorem Refusing.exists_refused_iff (h : a.Refusing lines refusals) {line : LineClass} :
    (∃ r, (a.push line).2 = .refused r) ↔
      ∃ d, line = .definition d ∧ ∃ e ∈ definitionsOf lines, e.code = d.code := by
  simp only [h.push_eq_refused_iff, ← exists_first?_iff]
  constructor
  · rintro ⟨⟨previous, d⟩, hline, hfirst⟩
    exact ⟨d, hline, previous, hfirst⟩
  · rintro ⟨d, hline, previous, hfirst⟩
    exact ⟨⟨previous, d⟩, hline, hfirst⟩

/-- After any refusing run, a line is refused if and only if it defines a code again, against the
first definition of the code, and then it is only counted. The extraction holds the first definition
of each code by ascending code, no redefinitions, and counts that add up with the refusals. -/
theorem finish_pushAll_reject (lines : List LineClass) :
    let start : Accumulator := { policy := .reject }
    let a := start.pushAll lines
    let definitions := definitionsOf lines
    (∀ line, (∃ r, (a.push line).2 = .refused r) ↔
      ∃ d, line = .definition d ∧ ∃ e ∈ definitions, e.code = d.code) ∧
    (∀ line r, (a.push line).2 = .refused r ↔
      line = .definition r.replacement ∧
        first? definitions r.replacement.code = some r.previous) ∧
    (∀ line r, (a.push line).2 = .refused r →
      (a.push line).1 = { a with matched := a.matched + 1 }) ∧
    (a.finish.definitions.Pairwise fun d e => d.code < e.code) ∧
    (∀ d, d ∈ a.finish.definitions ↔ first? definitions d.code = some d) ∧
    a.finish.redefinitions = [] ∧
    a.finish.matched = definitions.length ∧
    a.finish.ignored = lines.count .ignored ∧
    a.finish.matched = a.finish.definitions.length + start.refusals lines := by
  intro start a definitions
  have h : a.Refusing lines (start.refusals lines) := refusing_pushAll lines
  have hkeyed : a.Keyed := keyed_pushAll .reject lines
  obtain ⟨hmatched, hignored⟩ := counts_pushAll .reject lines
  have hlength : a.finish.definitions.length = a.byCode.size := length_definitions a
  refine ⟨fun line => h.exists_refused_iff, fun line r => h.push_eq_refused_iff,
    fun line r => push_of_refused, hkeyed.pairwise_definitions, ?_, ?_, hmatched, hignored, ?_⟩
  · intro d
    rw [← h.byCode d.code]
    exact hkeyed.mem_definitions_iff
  · -- a refusing run never writes to its record
    change a.redefinitions.toList = []
    rw [h.redefinitions]
  · rw [hlength]
    exact h.balance

end Accumulator

end OpcodeRegistry
