import OpcodeRegistry.Proofs.Extraction.Strictness
import OpcodeRegistry.Proofs.Source.Lines

/-! # Extractions of texts

Every line of a text can be decoded, and an overwriting run refuses none. So a text always has an
extraction where redefinitions are allowed, and it is what the lines of the text amount to, each
under its number. In the end a code has the mnemonic of the last clause for it.
-/

namespace OpcodeRegistry

/-- The lines of a text under their numbers, which count from 1. -/
def Source.numberedLines (text : String) : List (String × Nat) :=
  (textLines text).zipIdx 1

/-- What the lines of a text are. -/
def LineClass.ofText (text : String) : List LineClass :=
  (Source.numberedLines text).map fun (line, n) => ofLine n line

namespace Accumulator

variable {a : Accumulator} {lineNumber : Nat} {source : List (List UInt8)} {texts : List String}

/-- Lines that can be decoded are all taken by an overwriting run. -/
theorem value_pushLines_of_decoded (hpolicy : a.policy = .overwrite)
    (h : source.map Source.decodeLine? = texts.map some) :
    (a.pushLines lineNumber source).value =
      .ok (a.pushAll ((texts.zipIdx lineNumber).map fun (line, n) => LineClass.ofLine n line)) := by
  induction source generalizing a lineNumber texts with
  | nil =>
      obtain rfl : texts = [] := by simpa using h
      rfl
  | cons bytes rest ih =>
      cases texts with
      | nil => exact absurd h (by simp)
      | cons line texts =>
          rw [List.map_cons, List.map_cons, List.cons.injEq] at h
          -- an overwriting run refuses nothing
          rw [value_pushLines_of_taken h.1 (taken_of_overwrite hpolicy _)]
          exact ih ((policy_push a _).trans hpolicy) h.2

/-- Of its lines, reading takes in what they are decoded to and nothing else. -/
theorem pushLines_congr {source' : List (List UInt8)}
    (h : source.map Source.decodeLine? = source'.map Source.decodeLine?) :
    a.pushLines lineNumber source = a.pushLines lineNumber source' := by
  induction source generalizing a lineNumber source' with
  | nil =>
      obtain rfl : source' = [] := by simpa using h.symm
      rfl
  | cons bytes rest ih =>
      cases source' with
      | nil => exact absurd h (by simp)
      | cons bytes' rest' =>
          rw [List.map_cons, List.map_cons, List.cons.injEq] at h
          cases hline : Source.decodeLine? bytes with
          | none =>
              have hline' := h.1.symm.trans hline
              simp only [pushLines, hline, hline']
          | some line =>
              have hline' := h.1.symm.trans hline
              simp only [pushLines, hline, hline']
              split
              · rfl
              · rw [ih h.2]

end Accumulator

/-- Sources that are read as the same have the same extraction, and the same is said of them. -/
theorem Extraction.ofSource_congr {source source' : ByteArray}
    (h : Source.readings source = Source.readings source') (policy : RedefinitionPolicy) :
    ofSource policy source = ofSource policy source' := by
  unfold ofSource
  rw [Accumulator.pushLines_congr h]

/-- Where redefinitions are allowed, a text has an extraction: what its lines amount to. -/
theorem Extraction.value_ofSource_toUTF8 (text : String) :
    (ofSource .overwrite text.toUTF8).value = .ok (ofLines .overwrite (LineClass.ofText text)) := by
  have hdecoded := Source.map_decodeLine?_toUTF8 text
  exact ofSource_eq_ok_iff.mpr ⟨_, Accumulator.value_pushLines_of_decoded rfl hdecoded, rfl⟩

/-- A text has an extraction under either policy, or a code is defined again. -/
theorem Extraction.value_ofSource_toUTF8_cases (policy : RedefinitionPolicy) (text : String) :
    (∃ x, (ofSource policy text.toUTF8).value = .ok x) ∨
      ∃ r, (ofSource policy text.toUTF8).value = .error (.redefined r) := by
  have hoverwrite := value_ofSource_toUTF8 text
  cases policy with
  | overwrite => exact Or.inl ⟨_, hoverwrite⟩
  | reject =>
      rw [value_ofSource_reject hoverwrite]
      cases (ofLines .overwrite (LineClass.ofText text)).redefinitions.head? with
      | none => exact Or.inl ⟨_, rfl⟩
      | some r => exact Or.inr ⟨r, rfl⟩

/-! ## The definitions of a text -/

variable {text : String}

/-- A definition remembers the line it was made of, and its number. -/
theorem LineClass.of_ofLine_eq_definition {n : Nat} {line : String} {d : Definition}
    (h : ofLine n line = .definition d) : d.lineNumber = n ∧ d.line = line := by
  rcases exists_clause_of_ofLine h with ⟨clause, code, -, -, rfl⟩
  exact ⟨rfl, rfl⟩

/-- The definitions of a text are what its lines are, each under its own number. -/
theorem mem_definitionsOf_ofText_iff {d : Definition} :
    d ∈ definitionsOf (LineClass.ofText text) ↔
      (d.line, d.lineNumber) ∈ Source.numberedLines text ∧
        LineClass.ofLine d.lineNumber d.line = .definition d := by
  unfold definitionsOf LineClass.ofText
  simp only [List.mem_filterMap, List.mem_map, LineClass.definition?_eq_some_iff]
  constructor
  · rintro ⟨l, ⟨⟨line, n⟩, hmem, rfl⟩, hline⟩
    rcases LineClass.of_ofLine_eq_definition hline with ⟨rfl, rfl⟩
    exact ⟨hmem, hline⟩
  · rintro ⟨hmem, hline⟩
    exact ⟨_, ⟨_, hmem, rfl⟩, hline⟩

/-- Further down a text, the numbers of the lines are greater. -/
theorem Source.pairwise_numberedLines (text : String) :
    (numberedLines text).Pairwise fun p q => p.2 < q.2 := by
  have hnumbers : ((numberedLines text).map Prod.snd).Pairwise (· < ·) := by
    unfold numberedLines
    rw [List.zipIdx_map_snd]
    exact List.pairwise_lt_range'
  exact List.pairwise_map.mp hnumbers

theorem pairwise_definitionsOf_ofText (text : String) :
    (definitionsOf (LineClass.ofText text)).Pairwise fun d e => d.lineNumber < e.lineNumber := by
  unfold definitionsOf LineClass.ofText
  rw [List.pairwise_filterMap, List.pairwise_map]
  refine (Source.pairwise_numberedLines text).imp ?_
  intro p q hlt d hd e he
  rw [LineClass.definition?_eq_some_iff] at hd he
  rw [(LineClass.of_ofLine_eq_definition hd).1, (LineClass.of_ofLine_eq_definition he).1]
  exact hlt

/-! ## The last clause for a code -/

/-- The mnemonic that the last clause for a code gives to the code. -/
def Clause.lastMnemonic? (clauses : List Clause) (c : Code) : Option String :=
  (clauses.filter (·.code? = some c)).getLast?.map mnemonic

/-- The mnemonic that a text gives to a code: that of the last line that is a clause for the code. -/
def Source.mnemonicAt? (text : String) (c : Code) : Option String :=
  Clause.lastMnemonic? ((textLines text).filterMap Clause.ofLine?) c

theorem Clause.lastMnemonic?_concat (clauses : List Clause) (clause : Clause) (c : Code) :
    lastMnemonic? (clauses ++ [clause]) c =
      if clause.code? = some c then some clause.mnemonic else lastMnemonic? clauses c := by
  unfold lastMnemonic?
  rw [List.filter_append]
  by_cases hc : clause.code? = some c
  · simp [hc]
  · simp [hc]

/-- The latest definition of a code has the mnemonic of the last clause for it, whatever numbers the
lines have. -/
theorem latest?_definitionsOf_lines (lines : List String) (n : Nat) (c : Code) :
    (latest? (definitionsOf ((lines.zipIdx n).map fun (line, n) => LineClass.ofLine n line)) c).map
        Definition.mnemonic =
      Clause.lastMnemonic? (lines.filterMap Clause.ofLine?) c := by
  -- what a code has in the end is decided by the last line, so it is taken off first
  induction lines using List.reverseRecOn with
  | nil => rfl
  | append_singleton lines line ih =>
      unfold definitionsOf at ih ⊢
      rw [List.zipIdx_append, List.map_append, List.filterMap_append, List.filterMap_append]
      simp only [List.zipIdx_singleton, List.map_cons, List.map_nil, List.filterMap_cons,
        List.filterMap_nil, LineClass.definition?_ofLine]
      cases hclause : Clause.ofLine? line with
      | none => simpa using ih
      | some clause =>
          simp only [Option.bind_some, Clause.lastMnemonic?_concat]
          -- a clause whose number is no code defines nothing
          cases hcode : clause.code? with
          | none => simpa using ih
          | some code =>
              simp only [Option.map_some, latest?_concat, Option.some.injEq]
              split
              · rfl
              · exact ih

/-- The entries of the extraction of a text are the mnemonics that the text gives. -/
theorem Extraction.mem_entries_ofText_iff {m : String} {c : Code} :
    (m, c) ∈ (ofLines .overwrite (LineClass.ofText text)).entries ↔
      Source.mnemonicAt? text c = some m := by
  have hkeyed := Accumulator.keyed_pushAll .overwrite (LineClass.ofText text)
  have hbyCode := (Accumulator.overwritten_pushAll (LineClass.ofText text)).byCode
  unfold Source.mnemonicAt?
  rw [← latest?_definitionsOf_lines _ 1, Option.map_eq_some_iff]
  simp only [entries, ofLines, Accumulator.finish, List.mem_map, Prod.mk.injEq,
    hkeyed.mem_definitions_iff, hbyCode]
  constructor
  · rintro ⟨d, hd, rfl, rfl⟩
    exact ⟨d, hd, rfl⟩
  · rintro ⟨d, hd, rfl⟩
    -- the latest definition of a code has that code
    obtain rfl := code_of_latest? hd
    exact ⟨d, hd, rfl, rfl⟩

end OpcodeRegistry
