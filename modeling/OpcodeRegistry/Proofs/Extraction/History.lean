import Mathlib.Data.List.Induction
import OpcodeRegistry.Extraction.Basic

/-! # Runs of an accumulator

An accumulator is filled line by line; `pushAll` is such a run, and every extraction is what some
run ends with. Under either policy each code leads to a definition of that very code, so the
definitions of an extraction are strictly ascending by code and can be asked for by code.
-/

namespace OpcodeRegistry

/-- The definition that a line is, if it is one. -/
def LineClass.definition? : LineClass → Option Definition
  | .definition d => some d
  | .ignored => none

theorem LineClass.definition?_eq_some_iff {l : LineClass} {d : Definition} :
    l.definition? = some d ↔ l = .definition d := by
  cases l with
  | definition e => simp [definition?]
  | ignored => simp [definition?]

/-- What a line defines is what its clause says, if the number of the clause is a code. -/
theorem LineClass.definition?_ofLine (n : Nat) (line : String) :
    (ofLine n line).definition? = (Clause.ofLine? line).bind fun clause =>
      clause.code?.map fun code => { lineNumber := n, line, code, mnemonic := clause.mnemonic } := by
  unfold ofLine
  cases Clause.ofLine? line with
  | none => rfl
  | some clause =>
      cases hcode : clause.code? with
      | none => simp [hcode, definition?]
      | some code => simp [hcode, definition?]

/-- A line that is a definition is a clause for a code. -/
theorem LineClass.exists_clause_of_ofLine {n : Nat} {line : String} {d : Definition}
    (h : ofLine n line = .definition d) :
    ∃ clause code, Clause.ofLine? line = some clause ∧ clause.code? = some code ∧
      d = { lineNumber := n, line, code, mnemonic := clause.mnemonic } := by
  have hdefinition := definition?_eq_some_iff.mpr h
  rw [definition?_ofLine] at hdefinition
  rcases Option.bind_eq_some_iff.mp hdefinition with ⟨clause, hclause, hd⟩
  rcases Option.map_eq_some_iff.mp hd with ⟨code, hcode, rfl⟩
  exact ⟨clause, code, hclause, hcode, rfl⟩

/-- The definitions among the lines of a source, in order. -/
def definitionsOf (lines : List LineClass) : List Definition :=
  lines.filterMap LineClass.definition?

theorem definitionsOf_append (lines lines' : List LineClass) :
    definitionsOf (lines ++ lines') = definitionsOf lines ++ definitionsOf lines' :=
  List.filterMap_append

@[simp] theorem definitionsOf_concat_definition (lines : List LineClass) (d : Definition) :
    definitionsOf (lines ++ [.definition d]) = definitionsOf lines ++ [d] := by
  simp [definitionsOf, LineClass.definition?]

@[simp] theorem definitionsOf_concat_ignored (lines : List LineClass) :
    definitionsOf (lines ++ [.ignored]) = definitionsOf lines := by
  simp [definitionsOf, LineClass.definition?]

namespace Accumulator

/-- Takes lines one after the other, those that are refused included. -/
def pushAll (a : Accumulator) (lines : List LineClass) : Accumulator :=
  lines.foldl (fun a line => (a.push line).1) a

@[simp] theorem pushAll_nil (a : Accumulator) : a.pushAll [] = a := rfl

@[simp] theorem pushAll_concat (a : Accumulator) (lines : List LineClass) (line : LineClass) :
    a.pushAll (lines ++ [line]) = ((a.pushAll lines).push line).1 := by
  simp [pushAll]

/-! ## What a line does -/

section Push

variable {a : Accumulator} {d previous : Definition}

theorem push_ignored (a : Accumulator) :
    a.push .ignored = ({ a with ignored := a.ignored + 1 }, .ignored) := rfl

/-- A definition of a new code is added. -/
theorem push_added (h : a.byCode[d.code]? = none) :
    a.push (.definition d) =
      ({ a with matched := a.matched + 1, byCode := a.byCode.insert d.code d }, .added) := by
  simp only [push, h]

/-- A second definition of a code replaces the first, and the two are recorded. -/
theorem push_replaced (hpolicy : a.policy = .overwrite) (h : a.byCode[d.code]? = some previous) :
    a.push (.definition d) =
      ({ a with
          matched := a.matched + 1
          byCode := a.byCode.insert d.code d
          redefinitions := a.redefinitions.push ⟨previous, d⟩ },
        .replaced ⟨previous, d⟩) := by
  simp only [push, h, hpolicy]

/-- A second definition of a code is refused, but counted. -/
theorem push_refused (hpolicy : a.policy = .reject) (h : a.byCode[d.code]? = some previous) :
    a.push (.definition d) =
      ({ a with matched := a.matched + 1 }, .refused ⟨previous, d⟩) := by
  simp only [push, h, hpolicy]

/-- A definition is added, or it is refused, or it replaces another; nothing else becomes of it. -/
theorem push_definition_cases (a : Accumulator) (d : Definition) :
    (a.byCode[d.code]? = none ∧ a.push (.definition d) =
      ({ a with matched := a.matched + 1, byCode := a.byCode.insert d.code d }, .added)) ∨
    (∃ previous, a.byCode[d.code]? = some previous ∧ a.policy = .reject ∧
      a.push (.definition d) =
        ({ a with matched := a.matched + 1 }, .refused ⟨previous, d⟩)) ∨
    ∃ previous, a.byCode[d.code]? = some previous ∧ a.policy = .overwrite ∧
      a.push (.definition d) =
        ({ a with
            matched := a.matched + 1
            byCode := a.byCode.insert d.code d
            redefinitions := a.redefinitions.push ⟨previous, d⟩ },
          .replaced ⟨previous, d⟩) := by
  have hpolicy : a.policy = .reject ∨ a.policy = .overwrite := by
    cases a.policy with
    | reject => exact Or.inl rfl
    | overwrite => exact Or.inr rfl
  cases hprev : a.byCode[d.code]? with
  | none => exact Or.inl ⟨rfl, push_added hprev⟩
  | some previous =>
      right
      rcases hpolicy with hreject | hoverwrite
      · exact Or.inl ⟨previous, rfl, hreject, push_refused hreject hprev⟩
      · exact Or.inr ⟨previous, rfl, hoverwrite, push_replaced hoverwrite hprev⟩

/-- A line is refused if and only if it defines a code again where that is not allowed. -/
theorem push_eq_refused_iff {l : LineClass} {r : Redefinition} :
    (a.push l).2 = .refused r ↔ a.policy = .reject ∧ ∃ d previous, l = .definition d ∧
      a.byCode[d.code]? = some previous ∧ r = ⟨previous, d⟩ := by
  cases l with
  | ignored => simp [push_ignored]
  | definition d =>
      rcases push_definition_cases a d with
        ⟨hprev, hpush⟩ | ⟨previous, hprev, hpolicy, hpush⟩ | ⟨previous, -, hpolicy, hpush⟩
      · simp [hpush, hprev]
      · simp [hpush, hprev, hpolicy, eq_comm]
      · simp [hpush, hpolicy]

/-- No line changes the policy. -/
theorem policy_push (a : Accumulator) (line : LineClass) : (a.push line).1.policy = a.policy := by
  cases line with
  | ignored => rfl
  | definition d =>
      rcases push_definition_cases a d with
        ⟨-, hpush⟩ | ⟨previous, -, -, hpush⟩ | ⟨previous, -, -, hpush⟩
      all_goals rw [hpush]

end Push

/-! ## Counting -/

/-- A line adds one to one of the two counts, whatever becomes of it. -/
theorem counts_push (a : Accumulator) (line : LineClass) :
    (a.push line).1.matched = a.matched + (definitionsOf [line]).length ∧
      (a.push line).1.ignored = a.ignored + [line].count .ignored := by
  cases line with
  | ignored => exact ⟨rfl, rfl⟩
  | definition d =>
      rcases push_definition_cases a d with
        ⟨-, hpush⟩ | ⟨previous, -, -, hpush⟩ | ⟨previous, -, -, hpush⟩
      all_goals
        rw [hpush]
        exact ⟨rfl, rfl⟩

/-- A run counts its lines, those that are refused included. -/
theorem counts_pushAll (policy : RedefinitionPolicy) (lines : List LineClass) :
    (({ policy } : Accumulator).pushAll lines).matched = (definitionsOf lines).length ∧
      (({ policy } : Accumulator).pushAll lines).ignored = lines.count .ignored := by
  induction lines using List.reverseRecOn with
  | nil => exact ⟨rfl, rfl⟩
  | append_singleton lines line ih =>
      rcases counts_push (({ policy } : Accumulator).pushAll lines) line with ⟨hmatched, hignored⟩
      rw [pushAll_concat, hmatched, hignored, ih.1, ih.2, definitionsOf_append, List.length_append,
        List.count_append]
      exact ⟨rfl, rfl⟩

/-! ## Definitions under their codes -/

/-- Each definition is kept under its own code. -/
def Keyed (a : Accumulator) : Prop :=
  ∀ (c : Code) (d : Definition), a.byCode[c]? = some d → d.code = c

theorem getElem?_insert_byCode (m : Std.TreeMap Code Definition) (d : Definition) (c : Code) :
    (m.insert d.code d)[c]? = if d.code = c then some d else m[c]? := by
  rw [Std.TreeMap.getElem?_insert]
  simp only [Std.LawfulEqCmp.compare_eq_iff_eq]

theorem size_insert_byCode (m : Std.TreeMap Code Definition) (d : Definition) :
    (m.insert d.code d).size = if m[d.code]?.isSome then m.size else m.size + 1 := by
  rw [Std.TreeMap.size_insert, Std.TreeMap.contains_eq_isSome_getElem?]

/-- A line leaves the definitions in force as they are, or it is a definition and comes into force. -/
theorem byCode_push_cases (a : Accumulator) (line : LineClass) :
    (a.push line).1.byCode = a.byCode ∨
      ∃ d, line = .definition d ∧ (a.push line).1.byCode = a.byCode.insert d.code d := by
  cases line with
  | ignored => exact Or.inl rfl
  | definition d =>
      rcases push_definition_cases a d with
        ⟨-, hpush⟩ | ⟨previous, -, -, hpush⟩ | ⟨previous, -, -, hpush⟩
      · rw [hpush]
        exact Or.inr ⟨d, rfl, rfl⟩
      · rw [hpush]
        exact Or.inl rfl
      · rw [hpush]
        exact Or.inr ⟨d, rfl, rfl⟩

/-- What is in force behind a line was in force before it, or it is what the line defines. -/
theorem getElem?_byCode_push {a : Accumulator} {line : LineClass} {c : Code} {d : Definition}
    (h : (a.push line).1.byCode[c]? = some d) :
    a.byCode[c]? = some d ∨ line = .definition d ∧ d.code = c := by
  rcases byCode_push_cases a line with hsame | ⟨e, rfl, hinsert⟩
  · rw [hsame] at h
    exact Or.inl h
  · rw [hinsert, getElem?_insert_byCode] at h
    by_cases hc : e.code = c
    · rw [if_pos hc] at h
      rcases Option.some.inj h with rfl
      exact Or.inr ⟨rfl, hc⟩
    · rw [if_neg hc] at h
      exact Or.inl h

/-- A line keeps the definitions under their codes, whatever the policy. -/
theorem Keyed.push {a : Accumulator} (h : a.Keyed) (line : LineClass) : (a.push line).1.Keyed := by
  intro c d hd
  rcases getElem?_byCode_push hd with hbefore | ⟨-, hc⟩
  · exact h c d hbefore
  · exact hc

/-- So does a run. -/
theorem keyed_pushAll (policy : RedefinitionPolicy) (lines : List LineClass) :
    (({ policy } : Accumulator).pushAll lines).Keyed := by
  induction lines using List.reverseRecOn with
  | nil =>
      intro c d hd
      simp at hd
  | append_singleton lines line ih =>
      rw [pushAll_concat]
      exact ih.push line

/-- After a run, what is in force is the definition of one of its lines. -/
theorem mem_of_getElem?_pushAll {policy : RedefinitionPolicy} {lines : List LineClass} {c : Code}
    {d : Definition} (h : (({ policy } : Accumulator).pushAll lines).byCode[c]? = some d) :
    .definition d ∈ lines := by
  induction lines using List.reverseRecOn with
  | nil => simp at h
  | append_singleton lines line ih =>
      rw [pushAll_concat] at h
      rcases getElem?_byCode_push h with hbefore | ⟨rfl, -⟩
      · exact List.mem_append_left _ (ih hbefore)
      · exact List.mem_append_right _ (List.mem_singleton_self _)

/-! ## The definitions in force -/

variable {a : Accumulator}

/-- The definitions in force are those that stand under their codes. -/
theorem Keyed.mem_definitions_iff (h : a.Keyed) {d : Definition} :
    d ∈ a.definitions ↔ a.byCode[d.code]? = some d := by
  unfold definitions
  rw [List.mem_map]
  constructor
  · rintro ⟨⟨c, e⟩, hmem, rfl⟩
    have hget := Std.TreeMap.mem_toList_iff_getElem?_eq_some.mp hmem
    have hcode : e.code = c := h c e hget
    rw [hcode]
    exact hget
  · intro hget
    exact ⟨(d.code, d), Std.TreeMap.mem_toList_iff_getElem?_eq_some.mpr hget, rfl⟩

/-- The definitions in force stand by strictly ascending code. -/
theorem Keyed.pairwise_definitions (h : a.Keyed) :
    a.definitions.Pairwise fun d e => d.code < e.code := by
  unfold definitions
  rw [List.pairwise_map]
  have hordered : a.byCode.toList.Pairwise fun x y => compare x.1 y.1 = .lt :=
    Std.TreeMap.ordered_keys_toList
  refine hordered.imp_of_mem ?_
  intro x y hx hy hlt
  have hxc : x.2.code = x.1 := h x.1 x.2 (Std.TreeMap.mem_toList_iff_getElem?_eq_some.mp hx)
  have hyc : y.2.code = y.1 := h y.1 y.2 (Std.TreeMap.mem_toList_iff_getElem?_eq_some.mp hy)
  rw [hxc, hyc]
  exact Std.compare_eq_lt.mp hlt

theorem length_definitions (a : Accumulator) : a.definitions.length = a.byCode.size := by
  unfold definitions
  rw [List.length_map, Std.TreeMap.length_toList]

end Accumulator

/-! ## The lines of a source -/

namespace Accumulator

variable {a b : Accumulator} {lineNumber : Nat} {bytes : List UInt8} {rest source : List (List UInt8)}
  {line : String}

theorem pushLines_of_undecodable (h : Source.decodeLine? bytes = none) :
    a.pushLines lineNumber (bytes :: rest) = .silent (.error (.source .notUtf8)) := by
  simp only [pushLines, h]

/-- A line that is refused ends the reading, but what the log says of it stays. -/
theorem pushLines_of_refused (h : Source.decodeLine? bytes = some line) {r : Redefinition}
    (hr : (a.push (.ofLine lineNumber line)).2 = .refused r) :
    a.pushLines lineNumber (bytes :: rest) =
      { events := (a.pushLine lineNumber line).events, value := .error (.redefined r) } := by
  simp only [pushLines, h, pushLine, hr]

/-- A line that is not refused is taken, and the reading goes on behind it. -/
theorem pushLines_of_taken (h : Source.decodeLine? bytes = some line)
    (htaken : ∀ r, (a.push (.ofLine lineNumber line)).2 ≠ .refused r) :
    a.pushLines lineNumber (bytes :: rest) =
      ((a.push (.ofLine lineNumber line)).1.pushLines (lineNumber + 1) rest).after
        (a.pushLine lineNumber line).events := by
  simp only [pushLines, h, pushLine]

theorem value_pushLines_of_undecodable (h : Source.decodeLine? bytes = none) :
    (a.pushLines lineNumber (bytes :: rest)).value = .error (.source .notUtf8) := by
  rw [pushLines_of_undecodable h, Logged.silent]

theorem value_pushLines_of_refused (h : Source.decodeLine? bytes = some line) {r : Redefinition}
    (hr : (a.push (.ofLine lineNumber line)).2 = .refused r) :
    (a.pushLines lineNumber (bytes :: rest)).value = .error (.redefined r) := by
  rw [pushLines_of_refused h hr]

theorem value_pushLines_of_taken (h : Source.decodeLine? bytes = some line)
    (htaken : ∀ r, (a.push (.ofLine lineNumber line)).2 ≠ .refused r) :
    (a.pushLines lineNumber (bytes :: rest)).value =
      ((a.push (.ofLine lineNumber line)).1.pushLines (lineNumber + 1) rest).value := by
  rw [pushLines_of_taken h htaken, Logged.after]

/-- A line is taken and the reading goes on behind it, or it ends the reading, whatever follows. -/
theorem pushLines_cons_cases (a : Accumulator) (lineNumber : Nat) (bytes : List UInt8) :
    (∃ line events, Source.decodeLine? bytes = some line ∧
      (∀ r, (a.push (.ofLine lineNumber line)).2 ≠ .refused r) ∧
      ∀ rest, a.pushLines lineNumber (bytes :: rest) =
        ((a.push (.ofLine lineNumber line)).1.pushLines (lineNumber + 1) rest).after events) ∨
    ∃ stop error, stop.value = .error error ∧
      ∀ rest, a.pushLines lineNumber (bytes :: rest) = stop := by
  cases hline : Source.decodeLine? bytes with
  | none => exact Or.inr ⟨_, _, rfl, fun _ => pushLines_of_undecodable hline⟩
  | some line =>
      -- a decoded line still ends the reading where it is refused
      by_cases hrefused : ∃ r, (a.push (.ofLine lineNumber line)).2 = .refused r
      · rcases hrefused with ⟨r, hr⟩
        exact Or.inr ⟨_, _, rfl, fun _ => pushLines_of_refused hline hr⟩
      · have htaken := not_exists.mp hrefused
        exact Or.inl ⟨line, _, rfl, htaken, fun _ => pushLines_of_taken hline htaken⟩

/-- Reading a source to its end is a run over what its lines are. -/
theorem exists_pushAll_of_pushLines (h : (a.pushLines lineNumber source).value = .ok b) :
    ∃ lines, b = a.pushAll lines ∧ ∀ l ∈ lines, ∃ n text, l = LineClass.ofLine n text := by
  induction source generalizing a lineNumber with
  | nil => exact ⟨[], (Except.ok.inj h).symm, by simp⟩
  | cons bytes rest ih =>
      rcases pushLines_cons_cases a lineNumber bytes with
        ⟨line, events, -, -, hgo⟩ | ⟨stop, error, herror, hstop⟩
      · rw [hgo] at h
        rcases ih h with ⟨lines, hb, hlines⟩
        refine ⟨.ofLine lineNumber line :: lines, hb, ?_⟩
        intro l hl
        rcases List.mem_cons.mp hl with rfl | hl
        · exact ⟨lineNumber, line, rfl⟩
        · exact hlines l hl
      · -- the reading came to its end, so no line ended it before
        rw [hstop, herror] at h
        exact absurd h (by simp)

end Accumulator

/-! ## Extractions -/

namespace Extraction

variable {policy : RedefinitionPolicy} {source : ByteArray} {x : Extraction}

theorem ofSource_eq_ok_iff :
    (ofSource policy source).value = .ok x ↔
      ∃ a, (({ policy } : Accumulator).pushLines 1 (Source.lines source)).value = .ok a ∧
        a.finish = x := by
  unfold ofSource
  cases hread : (({ policy } : Accumulator).pushLines 1 (Source.lines source)).value with
  | error e => simp [hread]
  | ok a => simp [hread]

theorem ofSource_eq_error_iff {error : ExtractionError} :
    (ofSource policy source).value = .error error ↔
      (({ policy } : Accumulator).pushLines 1 (Source.lines source)).value = .error error := by
  unfold ofSource
  cases hread : (({ policy } : Accumulator).pushLines 1 (Source.lines source)).value with
  | error e => simp [hread]
  | ok a => simp [hread]

/-- What the lines of a source amount to under a policy. -/
def ofLines (policy : RedefinitionPolicy) (lines : List LineClass) : Extraction :=
  (({ policy } : Accumulator).pushAll lines).finish

/-- Every extraction of a source is what some lines amount to. -/
theorem exists_ofLines_of_ofSource (h : (ofSource policy source).value = .ok x) :
    ∃ lines, x = ofLines policy lines ∧ ∀ l ∈ lines, ∃ n text, l = LineClass.ofLine n text := by
  rcases ofSource_eq_ok_iff.mp h with ⟨a, ha, rfl⟩
  rcases Accumulator.exists_pushAll_of_pushLines ha with ⟨lines, rfl, hlines⟩
  exact ⟨lines, rfl, hlines⟩

/-- What is in force is what its line says. -/
theorem exists_ofLine_of_mem_definitions (h : (ofSource policy source).value = .ok x)
    {d : Definition} (hd : d ∈ x.definitions) :
    ∃ n, LineClass.ofLine n d.line = .definition d := by
  rcases exists_ofLines_of_ofSource h with ⟨lines, rfl, hlines⟩
  have hget := (Accumulator.keyed_pushAll policy lines).mem_definitions_iff.mp hd
  rcases hlines _ (Accumulator.mem_of_getElem?_pushAll hget) with ⟨n, line, hline⟩
  rcases LineClass.exists_clause_of_ofLine hline.symm with ⟨clause, code, -, -, rfl⟩
  exact ⟨n, hline.symm⟩

/-- The entries of an extraction stand by strictly ascending code. -/
theorem pairwise_entries_ofLines (policy : RedefinitionPolicy) (lines : List LineClass) :
    (ofLines policy lines).entries.Pairwise fun p q => p.2 < q.2 := by
  unfold entries
  rw [List.pairwise_map]
  exact (Accumulator.keyed_pushAll policy lines).pairwise_definitions

theorem pairwise_entries (h : (ofSource policy source).value = .ok x) :
    x.entries.Pairwise fun p q => p.2 < q.2 := by
  rcases exists_ofLines_of_ofSource h with ⟨lines, rfl, -⟩
  exact pairwise_entries_ofLines policy lines

end Extraction

end OpcodeRegistry
