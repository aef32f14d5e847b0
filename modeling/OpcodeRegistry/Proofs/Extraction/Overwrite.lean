import Mathlib.Data.List.Basic
import OpcodeRegistry.Proofs.Extraction.History

/-! # What an overwriting run amounts to

When later definitions replace earlier ones, the state after a run can be read off the list of
definitions it was given: each code has its latest definition, and each definition of a code that
was defined before has been recorded against the latest one before it. `Overwritten` is the
invariant that says so, and one line more keeps it.
-/

namespace OpcodeRegistry

/-- The last definition of a code among the given ones. -/
def latest? (definitions : List Definition) (c : Code) : Option Definition :=
  definitions.reverse.find? (·.code = c)

/-- Each definition of a code that was defined before, against the latest one before it. -/
def redefinitionsOf (definitions : List Definition) : List Redefinition :=
  definitions.zipIdx.filterMap fun (d, i) =>
    (latest? (definitions.take i) d.code).map fun previous => { previous, replacement := d }

theorem latest?_concat (definitions : List Definition) (d : Definition) (c : Code) :
    latest? (definitions ++ [d]) c = if d.code = c then some d else latest? definitions c := by
  unfold latest?
  rw [List.reverse_append, List.reverse_singleton, List.singleton_append, List.find?_cons]
  by_cases hc : d.code = c
  · simp [hc]
  · simp [hc]

theorem code_of_latest? {definitions : List Definition} {c : Code} {d : Definition}
    (h : latest? definitions c = some d) : d.code = c := by
  simpa using List.find?_some h

theorem redefinitionsOf_concat (definitions : List Definition) (d : Definition) :
    redefinitionsOf (definitions ++ [d]) = redefinitionsOf definitions ++
      ((latest? definitions d.code).map fun previous =>
        ({ previous, replacement := d } : Redefinition)).toList := by
  unfold redefinitionsOf
  rw [List.zipIdx_append, List.filterMap_append]
  congr 1
  · -- the definitions before a position are the same with one more at the end
    apply List.filterMap_congr
    rintro ⟨e, i⟩ he
    have hlt : i < definitions.length := by
      have h := (List.mem_zipIdx he).2.1
      omega
    simp only [List.take_append_of_le_length (Nat.le_of_lt hlt)]
  · -- the new definition is taken against the latest one before it, if there is one
    cases hlatest : latest? definitions d.code with
    | none => simp [hlatest]
    | some previous => simp [hlatest]

namespace Accumulator

/-- The state after an overwriting run over the lines, read off the lines. -/
structure Overwritten (a : Accumulator) (lines : List LineClass) : Prop where
  policy : a.policy = .overwrite
  byCode : ∀ c, a.byCode[c]? = latest? (definitionsOf lines) c
  matched : a.matched = (definitionsOf lines).length
  ignored : a.ignored = lines.count .ignored
  redefinitions : a.redefinitions.toList = redefinitionsOf (definitionsOf lines)
  /-- A definition is in force or was replaced, so none is lost. -/
  balance : a.matched = a.byCode.size + a.redefinitions.size

theorem overwritten_nil : Overwritten { policy := .overwrite } [] := by
  refine ⟨rfl, ?_, rfl, rfl, rfl, rfl⟩
  intro c
  simp [latest?, definitionsOf]

/-- What one definition more adds to the redefinitions. -/
theorem Overwritten.redefinitionsOf_concat {a : Accumulator} {lines : List LineClass}
    (h : a.Overwritten lines) (d : Definition) :
    redefinitionsOf (definitionsOf (lines ++ [.definition d])) = a.redefinitions.toList ++
      (a.byCode[d.code]?.map fun previous =>
        ({ previous, replacement := d } : Redefinition)).toList := by
  rw [definitionsOf_concat_definition, OpcodeRegistry.redefinitionsOf_concat, h.redefinitions,
    h.byCode d.code]

/-- A definition more keeps the invariant, and is not refused. -/
theorem Overwritten.push_definition {a : Accumulator} {lines : List LineClass}
    (h : a.Overwritten lines) (d : Definition) :
    (a.push (.definition d)).1.Overwritten (lines ++ [.definition d]) ∧
      ∀ r, (a.push (.definition d)).2 ≠ .refused r := by
  have hbyCode : ∀ c, (a.byCode.insert d.code d)[c]? =
      latest? (definitionsOf (lines ++ [.definition d])) c := by
    intro c
    rw [getElem?_insert_byCode, definitionsOf_concat_definition, latest?_concat, h.byCode c]
  have hmatched : a.matched + 1 = (definitionsOf (lines ++ [.definition d])).length := by
    simp [h.matched]
  have hignored : a.ignored = (lines ++ [LineClass.definition d]).count LineClass.ignored := by
    simp [h.ignored, List.count_append]
  have hbalance := h.balance
  -- whether the code is taken settles the record and the size of the map, and nothing else
  cases hprev : a.byCode[d.code]? with
  | none =>
      rw [push_added hprev]
      refine ⟨⟨h.policy, hbyCode, hmatched, hignored, ?_, ?_⟩, ?_⟩
      · -- nothing was replaced
        rw [h.redefinitionsOf_concat, hprev]
        simp
      · simp only [size_insert_byCode, hprev, Option.isSome_none, Bool.false_eq_true, if_false]
        omega
      · intro r
        simp
  | some previous =>
      rw [push_replaced h.policy hprev]
      refine ⟨⟨h.policy, hbyCode, hmatched, hignored, ?_, ?_⟩, ?_⟩
      · rw [h.redefinitionsOf_concat, hprev]
        simp
      · -- the map keeps its size, and the replaced definition is on record
        simp only [size_insert_byCode, hprev, Option.isSome_some, if_true, Array.size_push]
        omega
      · intro r
        simp

/-- One line more keeps the invariant, and is not refused. -/
theorem Overwritten.push {a : Accumulator} {lines : List LineClass} (h : a.Overwritten lines)
    (line : LineClass) :
    (a.push line).1.Overwritten (lines ++ [line]) ∧ ∀ r, (a.push line).2 ≠ .refused r := by
  cases line with
  | ignored =>
      rw [push_ignored]
      refine ⟨⟨h.policy, ?_, ?_, ?_, ?_, h.balance⟩, ?_⟩
      · simpa using h.byCode
      · simpa using h.matched
      · simp [h.ignored]
      · simpa using h.redefinitions
      · intro r
        simp
  | definition d => exact h.push_definition d

/-- The invariant holds after every overwriting run. -/
theorem overwritten_pushAll (lines : List LineClass) :
    (({ policy := .overwrite } : Accumulator).pushAll lines).Overwritten lines := by
  induction lines using List.reverseRecOn with
  | nil => exact overwritten_nil
  | append_singleton lines line ih =>
      rw [pushAll_concat]
      exact (ih.push line).1

/-- After any overwriting run no line is refused, and the extraction holds the latest definition of
each code by ascending code, each redefinition in the order of the lines, and counts that add up. -/
theorem finish_pushAll_overwrite (lines : List LineClass) :
    let a := ({ policy := .overwrite } : Accumulator).pushAll lines
    let definitions := definitionsOf lines
    (∀ line r, (a.push line).2 ≠ .refused r) ∧
    (a.finish.definitions.Pairwise fun d e => d.code < e.code) ∧
    (∀ d, d ∈ a.finish.definitions ↔ latest? definitions d.code = some d) ∧
    a.finish.redefinitions = redefinitionsOf definitions ∧
    (∀ r ∈ a.finish.redefinitions, r.previous.code = r.code ∧ r.replacement.code = r.code) ∧
    a.finish.matched = definitions.length ∧
    a.finish.ignored = lines.count .ignored ∧
    a.finish.matched = a.finish.definitions.length + a.finish.redefinitions.length := by
  intro a definitions
  have h : a.Overwritten lines := overwritten_pushAll lines
  have hkeyed : a.Keyed := keyed_pushAll .overwrite lines
  have hlength : a.finish.definitions.length = a.byCode.size := length_definitions a
  refine ⟨fun line => (h.push line).2, hkeyed.pairwise_definitions, ?_, h.redefinitions, ?_,
    h.matched, h.ignored, ?_⟩
  · intro d
    rw [← h.byCode d.code]
    exact hkeyed.mem_definitions_iff
  · intro r hr
    refine ⟨?_, rfl⟩
    have hr' : r ∈ redefinitionsOf definitions := h.redefinitions ▸ hr
    -- a redefinition was made of the latest definition of its code
    rcases List.mem_filterMap.mp hr' with ⟨⟨d, i⟩, -, hd⟩
    rcases Option.map_eq_some_iff.mp hd with ⟨previous, hprevious, rfl⟩
    exact code_of_latest? hprevious
  · rw [hlength]
    simpa [finish] using h.balance

end Accumulator

end OpcodeRegistry
