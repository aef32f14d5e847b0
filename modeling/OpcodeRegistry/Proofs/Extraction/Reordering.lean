import Mathlib.Data.List.Perm.Basic
import OpcodeRegistry.Proofs.CodeOrder
import OpcodeRegistry.Proofs.Extraction.Account
import OpcodeRegistry.Proofs.Extraction.Stopping
import OpcodeRegistry.Proofs.Extraction.Table

/-! # Lines in another order

What a source defines depends on the order of the clauses for one code and on no other order: each
code has the last clause for it, and the counts do not see any order at all. So sources with the
same lines, where the clauses for each code stand in one order, have the same entries, and with them
the same listings and tables; and where redefinitions are refused, both are refused or neither is.
-/

namespace OpcodeRegistry

/-- The code that a line is a clause for, if it is one. -/
def Clause.codeOfLine? (line : String) : Option Code :=
  (ofLine? line).bind code?

/-- The sources have the same lines, and in both the clauses for each code stand in the same order.
-/
structure Source.Reordered (source source' : ByteArray) : Prop where
  perm : (readings source).Perm (readings source')
  same_order : ∀ c : Code,
    (readings source).filter (fun reading => reading.bind Clause.codeOfLine? = some c) =
      (readings source').filter (fun reading => reading.bind Clause.codeOfLine? = some c)

/-- The extractions differ in the numbers and in the order of their lines at most. -/
structure Extraction.Alike (x x' : Extraction) : Prop where
  entries : x'.entries = x.entries
  matched : x'.matched = x.matched
  ignored : x'.ignored = x.ignored
  redefinitions : x'.redefinitions.length = x.redefinitions.length
  render : ∀ style align, x'.render style align = x.render style align
  toTable : ∀ width, x'.toTable width = x.toTable width

namespace Source

variable {source source' : ByteArray} {text text' : String}

theorem Reordered.symm (h : Reordered source source') : Reordered source' source :=
  ⟨h.perm.symm, fun c => (h.same_order c).symm⟩

theorem Reordered.isValidUTF8_iff (h : Reordered source source') :
    source.IsValidUTF8 ↔ source'.IsValidUTF8 := by
  rw [isValidUTF8_iff_readings, isValidUTF8_iff_readings, h.perm.mem_iff]

/-! ## The clauses of a text -/

theorem Reordered.perm_textLines (h : Reordered text.toUTF8 text'.toUTF8) :
    (textLines text).Perm (textLines text') := by
  have hperm := h.perm
  rw [readings_toUTF8, readings_toUTF8] at hperm
  exact (List.map_perm_map_iff (Option.some_injective _)).mp hperm

theorem Reordered.filter_textLines (h : Reordered text.toUTF8 text'.toUTF8) (c : Code) :
    (textLines text).filter (fun line => Clause.codeOfLine? line = some c) =
      (textLines text').filter (fun line => Clause.codeOfLine? line = some c) := by
  have hsame := h.same_order c
  rw [readings_toUTF8, readings_toUTF8, List.filter_map, List.filter_map] at hsame
  exact List.map_injective_iff.mpr (Option.some_injective _) hsame

/-- The mnemonic of a code can be read off the lines that are clauses for the code. -/
theorem mnemonicAt?_eq (text : String) (c : Code) :
    mnemonicAt? text c = (((textLines text).filter
      fun line => Clause.codeOfLine? line = some c).filterMap Clause.ofLine?).getLast?.map
        Clause.mnemonic := by
  unfold mnemonicAt? Clause.lastMnemonic?
  rw [List.filter_filterMap, List.filterMap_filter]
  congr 3
  funext line
  unfold Clause.codeOfLine?
  cases Clause.ofLine? line with
  | none => simp
  | some clause => simp [Option.filter]

theorem Reordered.mnemonicAt?_eq (h : Reordered text.toUTF8 text'.toUTF8) (c : Code) :
    mnemonicAt? text' c = mnemonicAt? text c := by
  rw [Source.mnemonicAt?_eq, Source.mnemonicAt?_eq, h.filter_textLines c]

end Source

/-! ## The lines of a text as definitions -/

/-- The definitions of a text have the codes that its lines are clauses for, in order. -/
theorem map_code_definitionsOf_ofText (text : String) :
    (definitionsOf (LineClass.ofText text)).map Definition.code =
      (Source.textLines text).filterMap Clause.codeOfLine? := by
  have hline : ∀ p : String × Nat,
      (LineClass.ofLine p.2 p.1).definition?.map Definition.code = Clause.codeOfLine? p.1 := by
    intro p
    unfold Clause.codeOfLine?
    rw [LineClass.definition?_ofLine]
    cases Clause.ofLine? p.1 with
    | none => rfl
    | some clause =>
        rw [Option.bind_some, Option.bind_some, Option.map_map]
        exact congrFun Option.map_id clause.code?
  unfold definitionsOf LineClass.ofText
  rw [List.filterMap_map, List.map_filterMap]
  change (Source.numberedLines text).filterMap (fun p =>
    (LineClass.ofLine p.2 p.1).definition?.map Definition.code) = _
  simp only [hline]
  unfold Source.numberedLines
  -- a code does not depend on the number of its line, so the numbers can be dropped
  conv_rhs => rw [← List.zipIdx_map_fst 1 (Source.textLines text), List.filterMap_map]
  rfl

namespace Extraction

variable {source source' : ByteArray} {text text' : String}

theorem matched_ofText (text : String) : (ofLines .overwrite (LineClass.ofText text)).matched =
    ((Source.textLines text).filterMap Clause.codeOfLine?).length := by
  rw [← map_code_definitionsOf_ofText, List.length_map]
  exact (Accumulator.counts_pushAll .overwrite (LineClass.ofText text)).1

theorem matched_add_ignored_ofText (text : String) :
    (ofLines .overwrite (LineClass.ofText text)).matched +
      (ofLines .overwrite (LineClass.ofText text)).ignored = (Source.textLines text).length := by
  rw [matched_add_ignored_ofLines]
  simp [LineClass.ofText, Source.numberedLines]

/-- Each definition is in force at the end, or it was replaced. -/
theorem length_entries_add_redefinitions (lines : List LineClass) :
    (ofLines .overwrite lines).entries.length + (ofLines .overwrite lines).redefinitions.length =
      (ofLines .overwrite lines).matched := by
  have hbalance := (Accumulator.overwritten_pushAll lines).balance
  rw [← Accumulator.length_definitions] at hbalance
  simpa [entries, ofLines, Accumulator.finish] using hbalance.symm

/-! ## Two texts -/

theorem entries_of_reordered (h : Source.Reordered text.toUTF8 text'.toUTF8) :
    (ofLines .overwrite (LineClass.ofText text')).entries =
      (ofLines .overwrite (LineClass.ofText text)).entries := by
  apply eq_of_ascending_of_mem_iff Prod.snd (pairwise_entries_ofLines _ _)
    (pairwise_entries_ofLines _ _)
  rintro ⟨m, c⟩
  rw [mem_entries_ofText_iff, mem_entries_ofText_iff, h.mnemonicAt?_eq]

theorem alike_of_reordered (h : Source.Reordered text.toUTF8 text'.toUTF8) :
    (ofLines .overwrite (LineClass.ofText text)).Alike
      (ofLines .overwrite (LineClass.ofText text')) := by
  have hentries := entries_of_reordered h
  have hmatched : (ofLines .overwrite (LineClass.ofText text')).matched =
      (ofLines .overwrite (LineClass.ofText text)).matched := by
    rw [matched_ofText, matched_ofText]
    exact (h.perm_textLines.filterMap _).length_eq.symm
  -- the other counts follow, since lines and definitions are as many
  have hlength := h.perm_textLines.length_eq
  have hcounted := matched_add_ignored_ofText text
  have hcounted' := matched_add_ignored_ofText text'
  have hkept := length_entries_add_redefinitions (LineClass.ofText text)
  have hkept' := length_entries_add_redefinitions (LineClass.ofText text')
  rw [hentries] at hkept'
  exact
    { entries := hentries
      matched := hmatched
      ignored := by omega
      redefinitions := by omega
      render := render_eq_of_entries_eq hentries
      toTable := toTable_eq_of_entries_eq hentries }

/-! ## Two sources -/

/-- Where redefinitions are allowed, only bytes that are no text can be wrong with a source. -/
theorem value_ofSource_of_not_isValidUTF8 (h : ¬ source.IsValidUTF8) :
    (ofSource .overwrite source).value = .error (.source .notUtf8) := by
  cases hvalue : (ofSource .overwrite source).value with
  | ok x => exact absurd (exists_ofSource_eq_ok_iff.mp ⟨x, hvalue⟩).1 h
  | error error =>
      rcases ofSource_eq_error_iff_firstOffence.mp hvalue with ⟨i, hfirst⟩
      cases hfirst.offends with
      | undecodable _ _ => rfl
      | redefined hpolicy _ _ _ _ => exact absurd hpolicy (by decide)

theorem exists_alike_of_reordered (h : Source.Reordered source source')
    (hvalid : source.IsValidUTF8) :
    ∃ x x', (ofSource .overwrite source).value = .ok x ∧
      (ofSource .overwrite source').value = .ok x' ∧ x.Alike x' := by
  rcases Source.exists_toUTF8_eq hvalid with ⟨text, rfl⟩
  rcases Source.exists_toUTF8_eq (h.isValidUTF8_iff.mp hvalid) with ⟨text', rfl⟩
  exact ⟨_, _, value_ofSource_toUTF8 text, value_ofSource_toUTF8 text', alike_of_reordered h⟩

/-- Where redefinitions are refused, a source is taken if one with the same lines is. -/
theorem exists_reject_of_reordered (h : Source.Reordered source source')
    (hok : ∃ x, (ofSource .reject source).value = .ok x) :
    ∃ x', (ofSource .reject source').value = .ok x' := by
  rcases hok with ⟨x, hx⟩
  have hvalid := (exists_ofSource_eq_ok_iff.mp ⟨x, hx⟩).1
  rcases ofSource_reject_eq_ok_iff.mp hx with ⟨hoverwrite, hnone⟩
  rcases exists_alike_of_reordered h hvalid with ⟨y, x', hy, hx', halike⟩
  obtain rfl : x = y := Except.ok.inj (hoverwrite.symm.trans hy)
  have hnone' : x'.redefinitions = [] := by
    rw [← List.length_eq_zero_iff, halike.redefinitions, hnone]
    rfl
  exact ⟨x', ofSource_reject_eq_ok_iff.mpr ⟨hx', hnone'⟩⟩

/-- Lines in another order, in which the clauses for each code keep theirs, amount to the same
entries, counts, listings and tables where redefinitions are allowed, and are refused together where
they are not. -/
theorem ofSource_reordered (h : Source.Reordered source source') :
    (source.IsValidUTF8 → ∃ x x', (ofSource .overwrite source).value = .ok x ∧
      (ofSource .overwrite source').value = .ok x' ∧ x.Alike x') ∧
    (¬ source.IsValidUTF8 → (ofSource .overwrite source).value = .error (.source .notUtf8) ∧
      (ofSource .overwrite source').value = .error (.source .notUtf8)) ∧
    ((∃ x, (ofSource .reject source).value = .ok x) ↔
      ∃ x', (ofSource .reject source').value = .ok x') := by
  refine ⟨exists_alike_of_reordered h, ?_, ?_⟩
  · intro hinvalid
    have hinvalid' : ¬ source'.IsValidUTF8 := mt h.isValidUTF8_iff.mpr hinvalid
    exact ⟨value_ofSource_of_not_isValidUTF8 hinvalid, value_ofSource_of_not_isValidUTF8 hinvalid'⟩
  · exact ⟨exists_reject_of_reordered h, exists_reject_of_reordered h.symm⟩

/-- The clause for another code goes in between two names of one code. -/
theorem ofSource_reordered_second_name : ∃ x x',
    (ofSource .overwrite
      "opname(2) -> {line,1};\nopname(1) -> {label,1};\nopname(1) -> {lbl,1};\n".toUTF8).value =
        .ok x ∧
    (ofSource .overwrite
      "opname(1) -> {label,1};\nopname(2) -> {line,1};\nopname(1) -> {lbl,1};\n".toUTF8).value =
        .ok x' ∧ x.Alike x' := by
  have hother : Clause.codeOfLine? "opname(2) -> {line,1};" = some 2 := by decide +kernel
  have hfirst : Clause.codeOfLine? "opname(1) -> {label,1};" = some 1 := by decide +kernel
  have hsecond : Clause.codeOfLine? "opname(1) -> {lbl,1};" = some 1 := by decide +kernel
  have hreadings : Source.readings
      "opname(2) -> {line,1};\nopname(1) -> {label,1};\nopname(1) -> {lbl,1};\n".toUTF8 =
        [some "opname(2) -> {line,1};", some "opname(1) -> {label,1};",
          some "opname(1) -> {lbl,1};"] := by
    rw [Source.readings_toUTF8]
    decide +kernel
  have hreadings' : Source.readings
      "opname(1) -> {label,1};\nopname(2) -> {line,1};\nopname(1) -> {lbl,1};\n".toUTF8 =
        [some "opname(1) -> {label,1};", some "opname(2) -> {line,1};",
          some "opname(1) -> {lbl,1};"] := by
    rw [Source.readings_toUTF8]
    decide +kernel
  refine (ofSource_reordered ⟨?_, ?_⟩).1 (String.isValidUTF8 _)
  · rw [hreadings, hreadings']
    exact List.Perm.swap _ _ _
  · intro c
    rw [hreadings, hreadings']
    by_cases hone : (1 : Code) = c
    · -- the two lines of this code keep their order
      subst hone
      simp only [List.filter_cons, Option.bind_some, hother, hfirst, hsecond]
      rfl
    · simp [List.filter_cons, hother, hfirst, hsecond, hone]

end Extraction

end OpcodeRegistry
