import Mathlib.Data.List.Nodup
import OpcodeRegistry.Proofs.Extraction.Text

/-! # The account of a text

No definition of a text is lost and none is kept twice: each of them is in force at the end, or it
is recorded as what some later one replaced. The step lemma says this of one line as a permutation,
so nothing depends on the order in which the codes of a text come, or on how often one is defined
again. Each definition carries the line that it was made of, so the extraction of a text accounts
for all its lines.
-/

namespace OpcodeRegistry

/-! ## Nothing is lost -/

/-- The definitions that an extraction has kept: those in force, and those that were replaced. -/
def Extraction.kept (x : Extraction) : List Definition :=
  x.definitions ++ x.redefinitions.map Redefinition.previous

namespace Accumulator

variable {a : Accumulator} {d previous : Definition} {c : Code}

/-- The definitions in force, without the one for a code. -/
def definitionsBut (a : Accumulator) (c : Code) : List Definition :=
  (a.byCode.toList.filter fun p => ¬ (c == p.1) = true).map Prod.snd

/-- A definition that comes into force stands in for the one of its code. -/
theorem definitions_perm_of_insert {b : Accumulator} (h : b.byCode = a.byCode.insert d.code d) :
    b.definitions.Perm (d :: a.definitionsBut d.code) := by
  unfold definitions definitionsBut
  rw [h]
  exact Std.TreeMap.toList_insert_perm.map Prod.snd

theorem definitionsBut_of_none (h : a.byCode[c]? = none) : a.definitionsBut c = a.definitions := by
  unfold definitionsBut definitions
  rw [List.filter_eq_self.mpr]
  rintro ⟨c', d⟩ hmem
  have hget := Std.TreeMap.mem_toList_iff_getElem?_eq_some.mp hmem
  have hne : c ≠ c' := by
    rintro rfl
    rw [h] at hget
    exact absurd hget (by simp)
  simpa using hne

theorem nodup_toList (m : Std.TreeMap Code Definition) : m.toList.Nodup := by
  refine List.Nodup.of_map Prod.fst ?_
  rw [Std.TreeMap.map_fst_toList_eq_keys]
  exact Std.TreeMap.nodup_keys

/-- The definitions in force are the one for a code and those for the others. -/
theorem definitions_perm_of_some (h : a.byCode[c]? = some d) :
    a.definitions.Perm (d :: a.definitionsBut c) := by
  -- to put the definition where it is already changes nothing
  have hsame : a.byCode.toList.Perm (a.byCode.insert c d).toList := by
    rw [List.perm_ext_iff_of_nodup (nodup_toList _) (nodup_toList _)]
    rintro ⟨c', e⟩
    rw [Std.TreeMap.mem_toList_iff_getElem?_eq_some, Std.TreeMap.mem_toList_iff_getElem?_eq_some,
      Std.TreeMap.getElem?_insert]
    split
    · rename_i hc
      rw [← Std.LawfulEqCmp.compare_eq_iff_eq.mp hc, h]
    · rfl
  exact (hsame.trans Std.TreeMap.toList_insert_perm).map Prod.snd

theorem kept_finish (a : Accumulator) :
    a.finish.kept = a.definitions ++ a.redefinitions.toList.map Redefinition.previous := rfl

/-- One definition more is kept, and those kept so far still are: what it replaces goes from force
to the record. -/
theorem kept_push_perm (hpolicy : a.policy = .overwrite) (d : Definition) :
    (a.push (.definition d)).1.finish.kept.Perm (d :: a.finish.kept) := by
  cases hprev : a.byCode[d.code]? with
  | none =>
      rw [push_added hprev, kept_finish, kept_finish, ← definitionsBut_of_none hprev]
      exact (definitions_perm_of_insert rfl).append_right _
  | some previous =>
      rw [push_replaced hpolicy hprev, kept_finish, kept_finish]
      simp only [Array.toList_push, List.map_append, List.map_cons, List.map_nil]
      -- the replaced definition leaves the map and joins the record, so of the two lists together
      -- only the new one is more
      let others := a.definitionsBut d.code
      let replaced := a.redefinitions.toList.map Redefinition.previous
      have hbefore : (a.definitions ++ replaced).Perm (others ++ replaced ++ [previous]) :=
        ((definitions_perm_of_some hprev).append_right replaced).trans
          (List.perm_append_singleton previous (others ++ replaced)).symm
      refine ((definitions_perm_of_insert rfl).append_right (replaced ++ [previous])).trans ?_
      rw [List.cons_append, ← List.append_assoc]
      exact hbefore.symm.cons d

theorem kept_push_ignored (a : Accumulator) : (a.push .ignored).1.finish.kept = a.finish.kept := rfl

end Accumulator

/-- An overwriting run keeps the definitions of its lines, each of them once. -/
theorem Extraction.kept_ofLines_perm (lines : List LineClass) :
    (ofLines .overwrite lines).kept.Perm (definitionsOf lines) := by
  unfold ofLines
  -- a run goes on at the end of its lines, hence the induction from there
  induction lines using List.reverseRecOn with
  | nil => rfl
  | append_singleton lines line ih =>
      rw [Accumulator.pushAll_concat]
      cases line with
      | ignored =>
          rw [Accumulator.kept_push_ignored, definitionsOf_concat_ignored]
          exact ih
      | definition d =>
          rw [definitionsOf_concat_definition]
          have hpolicy := (Accumulator.overwritten_pushAll lines).policy
          exact (Accumulator.kept_push_perm hpolicy d).trans
            ((ih.cons d).trans (List.perm_append_singleton d _).symm)

/-! ## Replaced in order -/

/-- A redefinition sets a definition against the latest one of its code in front of it. -/
theorem exists_append_of_mem_redefinitionsOf {definitions : List Definition} {r : Redefinition}
    (h : r ∈ redefinitionsOf definitions) :
    ∃ front rest, definitions = front ++ r.replacement :: rest ∧
      latest? front r.code = some r.previous := by
  rcases List.mem_filterMap.mp h with ⟨⟨d, i⟩, hmem, hd⟩
  rcases Option.map_eq_some_iff.mp hd with ⟨previous, hprevious, rfl⟩
  have hget : definitions[i]? = some d := List.mem_zipIdx_iff_getElem?.mp hmem
  rcases List.getElem?_eq_some_iff.mp hget with ⟨hi, rfl⟩
  refine ⟨definitions.take i, definitions.drop (i + 1), ?_, hprevious⟩
  rw [← List.drop_eq_getElem_cons hi, List.take_append_drop]

theorem mem_of_latest? {definitions : List Definition} {c : Code} {d : Definition}
    (h : latest? definitions c = some d) : d ∈ definitions :=
  List.mem_reverse.mp (List.mem_of_find?_eq_some h)

/-- Where definitions stand by ascending line number, the replaced one has the smaller number. -/
theorem lineNumber_lt_of_mem_redefinitionsOf {definitions : List Definition} {r : Redefinition}
    (hpairwise : definitions.Pairwise fun d e => d.lineNumber < e.lineNumber)
    (h : r ∈ redefinitionsOf definitions) : r.previous.lineNumber < r.replacement.lineNumber := by
  rcases exists_append_of_mem_redefinitionsOf h with ⟨front, rest, rfl, hlatest⟩
  exact (List.pairwise_append.mp hpairwise).2.2 _ (mem_of_latest? hlatest) _ List.mem_cons_self

/-! ## The account -/

namespace Extraction

/-- The definitions that an extraction mentions: those in force, and both sides of each
redefinition. -/
def Mentions (x : Extraction) (d : Definition) : Prop :=
  d ∈ x.definitions ∨ ∃ r ∈ x.redefinitions, d = r.previous ∨ d = r.replacement

/-- The extraction accounts for every line of the text exactly once. -/
structure Accounts (x : Extraction) (text : String) : Prop where
  counted : x.matched + x.ignored = (Source.textLines text).length
  /-- Every definition that is mentioned is what the line says that stands under its number. -/
  provenance : ∀ d, x.Mentions d → (d.line, d.lineNumber) ∈ Source.numberedLines text ∧
    LineClass.ofLine d.lineNumber d.line = .definition d
  distinct : (x.kept.map Definition.lineNumber).Nodup
  /-- The lines that are kept are those that are definitions. -/
  complete : ∀ n, n ∈ x.kept.map Definition.lineNumber ↔
    ∃ line d, (line, n) ∈ Source.numberedLines text ∧ LineClass.ofLine n line = .definition d
  later : ∀ r ∈ x.redefinitions, r.previous.lineNumber < r.replacement.lineNumber
  sameCode : ∀ r ∈ x.redefinitions, r.previous.code = r.code ∧ r.replacement.code = r.code

variable {lines : List LineClass}

theorem length_definitionsOf_add_count (lines : List LineClass) :
    (definitionsOf lines).length + lines.count .ignored = lines.length := by
  induction lines using List.reverseRecOn with
  | nil => rfl
  | append_singleton lines line ih =>
      rw [List.count_append, List.length_append, ← ih]
      cases line with
      | ignored =>
          rw [definitionsOf_concat_ignored]
          simp
          omega
      | definition d =>
          rw [definitionsOf_concat_definition]
          simp
          omega

theorem redefinitions_ofLines (lines : List LineClass) :
    (ofLines .overwrite lines).redefinitions = redefinitionsOf (definitionsOf lines) :=
  (Accumulator.overwritten_pushAll lines).redefinitions

/-- Under either policy, every line is counted. -/
theorem matched_add_ignored_ofLines (policy : RedefinitionPolicy) (lines : List LineClass) :
    (ofLines policy lines).matched + (ofLines policy lines).ignored = lines.length := by
  obtain ⟨hmatched, hignored⟩ := Accumulator.counts_pushAll policy lines
  rw [← length_definitionsOf_add_count lines, ← hmatched, ← hignored]
  rfl

/-- Whatever is mentioned is one of the definitions among the lines. -/
theorem mem_definitionsOf_of_mentions {d : Definition}
    (h : (ofLines .overwrite lines).Mentions d) : d ∈ definitionsOf lines := by
  have hkept : ∀ e ∈ (ofLines .overwrite lines).kept, e ∈ definitionsOf lines :=
    fun e he => (kept_ofLines_perm lines).mem_iff.mp he
  rcases h with hd | ⟨r, hr, rfl | rfl⟩
  · exact hkept d (List.mem_append_left _ hd)
  · exact hkept r.previous (List.mem_append_right _ (List.mem_map_of_mem hr))
  · rw [redefinitions_ofLines] at hr
    rcases exists_append_of_mem_redefinitionsOf hr with ⟨front, rest, hsplit, -⟩
    rw [hsplit]
    exact List.mem_append_right _ List.mem_cons_self

/-- Every text has an extraction where redefinitions are allowed, and this extraction accounts for
every line of the text exactly once. -/
theorem ofSource_accounts (text : String) :
    ∃ x, (ofSource .overwrite text.toUTF8).value = .ok x ∧ x.Accounts text := by
  let lines := LineClass.ofText text
  have hpairwise := pairwise_definitionsOf_ofText text
  have hnumbers := (kept_ofLines_perm lines).map Definition.lineNumber
  refine ⟨ofLines .overwrite lines, value_ofSource_toUTF8 text, ?_, ?_, ?_, ?_, ?_, ?_⟩
  · rw [matched_add_ignored_ofLines]
    simp [lines, LineClass.ofText, Source.numberedLines]
  · intro d hd
    exact mem_definitionsOf_ofText_iff.mp (mem_definitionsOf_of_mentions hd)
  · -- the numbers of the lines ascend
    rw [hnumbers.nodup_iff]
    exact (List.pairwise_map.mpr hpairwise).imp Nat.ne_of_lt
  · intro n
    -- what is kept are the definitions of the lines, each of which has its number
    rw [hnumbers.mem_iff, List.mem_map]
    constructor
    · rintro ⟨d, hd, rfl⟩
      exact ⟨d.line, d, mem_definitionsOf_ofText_iff.mp hd⟩
    · rintro ⟨line, d, hline, hd⟩
      rcases LineClass.of_ofLine_eq_definition hd with ⟨rfl, rfl⟩
      exact ⟨d, mem_definitionsOf_ofText_iff.mpr ⟨hline, hd⟩, rfl⟩
  · intro r hr
    rw [redefinitions_ofLines] at hr
    -- a redefinition is recorded against a line further up, since it was in force before
    exact lineNumber_lt_of_mem_redefinitionsOf hpairwise hr
  · intro r hr
    rw [redefinitions_ofLines] at hr
    rcases exists_append_of_mem_redefinitionsOf hr with ⟨front, rest, -, hlatest⟩
    exact ⟨code_of_latest? hlatest, rfl⟩

end Extraction

end OpcodeRegistry
