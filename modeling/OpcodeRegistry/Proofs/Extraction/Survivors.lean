import OpcodeRegistry.Proofs.Extraction.Account
import OpcodeRegistry.Proofs.Extraction.Classification
import OpcodeRegistry.Proofs.Extraction.Objection

/-! # Reading the lines in force again

The lines of the definitions in force make up a source of their own. Each of them is a definition
under any number, their codes differ, and they stand in the order that an extraction puts them in.
So nothing is ignored or replaced in that source, and its extraction differs from the first one only
in the numbers of the lines and in the counts. To do it once more changes nothing at all.
-/

namespace OpcodeRegistry

namespace Extraction

/-- The lines of the definitions in force, by ascending code. -/
def lines (x : Extraction) : List String :=
  x.definitions.map Definition.line

/-- The source of these lines. -/
def survivors (x : Extraction) : String :=
  String.join (x.lines.map (· ++ "\n"))

/-- What is left of an extraction: the definitions in force, numbered in their order. -/
def distilled (x : Extraction) : Extraction where
  definitions := (x.definitions.zipIdx 1).map fun (d, n) => { d with lineNumber := n }
  matched := x.definitions.length
  ignored := 0
  redefinitions := []

/-- The second extraction has the definitions in force in the first one, and nothing else. -/
structure DistillsTo (x y : Extraction) : Prop where
  entries : y.entries = x.entries
  lines : y.lines = x.lines
  ignored : y.ignored = 0
  redefinitions : y.redefinitions = []
  matched : y.matched = y.definitions.length
  render : ∀ style align, y.render style align = x.render style align
  toTable : ∀ width, y.toTable width = x.toTable width
  differences : ∀ t : Table, t.differences y = t.differences x

/-! ## What is left -/

theorem map_distilled {β : Type} (f : Definition → β)
    (hf : ∀ d n, f { d with lineNumber := n } = f d) (x : Extraction) :
    x.distilled.definitions.map f = x.definitions.map f := by
  unfold distilled
  rw [List.map_map]
  conv_rhs => rw [← List.zipIdx_map_fst 1 x.definitions, List.map_map]
  apply List.map_congr_left
  rintro ⟨d, n⟩ -
  exact hf d n

theorem distillsTo_distilled (x : Extraction) : x.DistillsTo x.distilled := by
  have hentries : x.distilled.entries = x.entries :=
    map_distilled (fun d => (d.mnemonic, d.code)) (fun _ _ => rfl) x
  exact
    { entries := hentries
      lines := map_distilled Definition.line (fun _ _ => rfl) x
      ignored := rfl
      redefinitions := rfl
      matched := by simp [distilled]
      render := render_eq_of_entries_eq hentries
      toTable := toTable_eq_of_entries_eq hentries
      differences := differences_eq_of_entries_eq hentries }

end Extraction

/-! ## Definitions of different codes -/

/-- Definitions of different codes replace none of each other. -/
theorem redefinitionsOf_eq_nil {definitions : List Definition}
    (h : definitions.Pairwise fun d e => d.code ≠ e.code) : redefinitionsOf definitions = [] := by
  rw [List.eq_nil_iff_forall_not_mem]
  intro r hr
  rcases exists_append_of_mem_redefinitionsOf hr with ⟨front, rest, rfl, hlatest⟩
  have hne : r.previous.code ≠ r.replacement.code :=
    (List.pairwise_append.mp h).2.2 _ (mem_of_latest? hlatest) _ List.mem_cons_self
  exact hne (code_of_latest? hlatest)

theorem definitionsOf_map_definition (definitions : List Definition) :
    definitionsOf (definitions.map .definition) = definitions := by
  unfold definitionsOf
  rw [List.filterMap_map]
  exact List.filterMap_some

namespace Extraction

/-- Definitions by strictly ascending code are what a run over them amounts to. -/
theorem ofLines_map_definition {definitions : List Definition}
    (h : definitions.Pairwise fun d e => d.code < e.code) :
    ofLines .overwrite (definitions.map .definition) =
      { definitions, matched := definitions.length, ignored := 0, redefinitions := [] } := by
  let lines := definitions.map LineClass.definition
  let x := ofLines .overwrite lines
  have hlines : definitionsOf lines = definitions := definitionsOf_map_definition definitions
  have hredefinitions : x.redefinitions = [] := by
    unfold x
    rw [redefinitions_ofLines, hlines]
    exact redefinitionsOf_eq_nil (h.imp UInt32.ne_of_lt)
  have hdefinitions : x.definitions = definitions := by
    -- nothing was replaced, so what the run has kept is in force
    have hkept : x.kept.Perm (definitionsOf lines) := kept_ofLines_perm lines
    rw [kept, hredefinitions, List.map_nil, List.append_nil, hlines] at hkept
    exact eq_of_ascending_of_mem_iff Definition.code
      (Accumulator.keyed_pushAll .overwrite lines).pairwise_definitions h fun _ => hkept.mem_iff
  obtain ⟨hcounted, huncounted⟩ := Accumulator.counts_pushAll .overwrite lines
  have hmatched : x.matched = definitions.length := by
    rw [← hlines]
    exact hcounted
  have hignored : x.ignored = 0 := by
    have hnot : LineClass.ignored ∉ lines := by simp [lines]
    rw [← List.count_eq_zero.mpr hnot]
    exact huncounted
  change Extraction.mk x.definitions x.matched x.ignored x.redefinitions = _
  rw [hdefinitions, hmatched, hignored, hredefinitions]

end Extraction

/-! ## The lines in force -/

/-- A line that is a definition under one number is that definition under any other. -/
theorem LineClass.ofLine_renumbered {n : Nat} {line : String} {d : Definition}
    (h : ofLine n line = .definition d) (m : Nat) :
    ofLine m line = .definition { d with lineNumber := m } := by
  rcases exists_clause_of_ofLine h with ⟨clause, code, hclause, hcode, rfl⟩
  simp only [ofLine, hclause, hcode]

namespace Extraction

variable {policy : RedefinitionPolicy} {source : ByteArray} {x : Extraction}

/-- The lines in force are read as they are. -/
theorem textLines_survivors (h : (ofSource policy source).value = .ok x) :
    Source.textLines x.survivors = x.lines := by
  -- a line in force is a clause, so it has no line feed and does not end in a carriage return
  have hparts : ∀ line ∈ x.lines, ∃ p : Clause.Parts, p.line = line := by
    intro line hline
    rcases List.mem_map.mp hline with ⟨d, hd, rfl⟩
    rcases exists_ofLine_of_mem_definitions h hd with ⟨n, hn⟩
    rcases LineClass.exists_writtenAs_of_ofLine hn with ⟨p, hp⟩
    exact ⟨p, hp.line_eq⟩
  apply Source.textLines_join
  · intro line hline
    rcases hparts line hline with ⟨p, rfl⟩
    exact p.feed_not_mem_line
  · intro line hline
    rcases hparts line hline with ⟨p, rfl⟩
    rw [p.getLast?_line]
    decide

/-- Each of them is the definition that it was, under the number that it has now. -/
theorem ofText_survivors (h : (ofSource policy source).value = .ok x) :
    LineClass.ofText x.survivors = x.distilled.definitions.map .definition := by
  unfold LineClass.ofText Source.numberedLines
  rw [textLines_survivors h]
  unfold lines distilled
  rw [List.zipIdx_map, List.map_map, List.map_map]
  apply List.map_congr_left
  rintro ⟨d, n⟩ hmem
  rcases exists_ofLine_of_mem_definitions h (List.fst_mem_of_mem_zipIdx hmem) with ⟨m, hd⟩
  exact LineClass.ofLine_renumbered hd n

theorem value_ofSource_survivors (h : (ofSource policy source).value = .ok x)
    (policy' : RedefinitionPolicy) :
    (ofSource policy' x.survivors.toUTF8).value = .ok x.distilled := by
  have hascending : x.distilled.definitions.Pairwise fun d e => d.code < e.code := by
    have hcodes := pairwise_definitions h
    rw [← List.pairwise_map] at hcodes ⊢
    rwa [map_distilled Definition.code (fun _ _ => rfl)]
  have hoverwrite : (ofSource .overwrite x.survivors.toUTF8).value = .ok x.distilled := by
    rw [value_ofSource_toUTF8, ofText_survivors h, ofLines_map_definition hascending,
      ← (distillsTo_distilled x).matched]
    rfl
  -- with nothing defined twice, the policies come to the same
  cases policy' with
  | overwrite => exact hoverwrite
  | reject => exact ofSource_reject_eq_ok_iff.mpr ⟨hoverwrite, rfl⟩

/-- The lines in force have an extraction under either policy, the same under both, with the
definitions of the first one and nothing else; and the lines in force of that one have it again. -/
theorem ofSource_survivors (h : (ofSource policy source).value = .ok x) :
    ∃ y, (∀ policy', (ofSource policy' x.survivors.toUTF8).value = .ok y) ∧ x.DistillsTo y ∧
      y.survivors = x.survivors ∧
      ∀ policy', (ofSource policy' y.survivors.toUTF8).value = .ok y := by
  have hdistills := distillsTo_distilled x
  have hsame : x.distilled.survivors = x.survivors := by
    unfold survivors
    rw [hdistills.lines]
  refine ⟨x.distilled, value_ofSource_survivors h, hdistills, hsame, ?_⟩
  rw [hsame]
  exact value_ofSource_survivors h

/-- Of two names for one code, a blank line, and a code with zeros in front and carriage returns
behind, two lines are left, by ascending code. -/
theorem ofSource_survivors_second_name :
    let source :=
      "opname(007) -> {allocate,2};\r\r\nopname(1) -> {label,1};\n\nopname(1) -> {lbl,1};"
    ∃ x y, (ofSource .overwrite source.toUTF8).value = .ok x ∧ x.ignored = 1 ∧
      x.redefinitions.length = 1 ∧
      x.survivors = "opname(1) -> {lbl,1};\nopname(007) -> {allocate,2};\n" ∧
      (∀ policy, (ofSource policy x.survivors.toUTF8).value = .ok y) ∧
      y.entries = [("LBL", 1), ("ALLOCATE", 7)] ∧ y.ignored = 0 ∧ y.redefinitions = [] := by
  intro source
  have hx : (ofSource .overwrite source.toUTF8).value = .ok
      ⟨[⟨4, "opname(1) -> {lbl,1};", 1, "LBL"⟩,
        ⟨1, "opname(007) -> {allocate,2};", 7, "ALLOCATE"⟩], 3, 1,
        [⟨⟨2, "opname(1) -> {label,1};", 1, "LABEL"⟩, ⟨4, "opname(1) -> {lbl,1};", 1, "LBL"⟩⟩]⟩ :=
    rfl
  rcases ofSource_survivors hx with ⟨y, hy, hdistills, -, -⟩
  exact ⟨_, y, hx, rfl, rfl, rfl, hy, hdistills.entries, hdistills.ignored, hdistills.redefinitions⟩

end Extraction

end OpcodeRegistry
