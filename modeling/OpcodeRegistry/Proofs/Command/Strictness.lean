import OpcodeRegistry.Command.Run
import OpcodeRegistry.Proofs.Command.Arguments
import OpcodeRegistry.Proofs.Extraction.Strictness

/-! # Strict extractions on the command line

An extraction prints its listing only when all of the source was read, so refusing redefinitions
changes what is printed to nothing or not at all. `Extraction.reject_agrees` states it for sources
and for command lines.
-/

namespace OpcodeRegistry

/-! ## Files -/

theorem Extraction.value_ofFile_eq_ok_iff {reader : FileReader} {policy : RedefinitionPolicy}
    {path : String} {x : Extraction} :
    (ofFile reader policy path).value = .ok x ↔
      ∃ contents, reader path = .ok contents ∧ (ofSource policy contents).value = .ok x := by
  unfold ofFile
  cases reader path with
  | error fault => simp [Logged.silent]
  | ok contents =>
      cases hread : (ofSource policy contents).value with
      -- the path is put into some errors, but an error it stays
      | error error =>
          cases error with
          | source fault => simp [hread]
          | file path fault => simp [hread]
          | redefined r => simp [hread]
      | ok y => simp [hread]

/-- Where redefinitions are refused, a file has an extraction if and only if it has the same one
where they are not, and that has none on record. -/
theorem Extraction.value_ofFile_reject_eq_ok_iff {reader : FileReader} {path : String}
    {x : Extraction} :
    (ofFile reader .reject path).value = .ok x ↔
      (ofFile reader .overwrite path).value = .ok x ∧ x.redefinitions = [] := by
  simp only [value_ofFile_eq_ok_iff, ofSource_reject_eq_ok_iff, ← and_assoc, exists_and_right]

/-! ## Outcomes and reports -/

section Run

variable {reader : FileReader} {file : String} {style : Listing.Style} {align strict : Bool}
  {x : Extraction}

/-- What an extraction does with redefinitions. -/
def Command.policy (strict : Bool) : RedefinitionPolicy :=
  if strict then .reject else .overwrite

/-- The listing is printed once all of the source was read. -/
theorem Command.runExtract_of_ok
    (h : (Extraction.ofFile reader (policy strict) file).value = .ok x) (style : Listing.Style)
    (align : Bool) :
    (runExtract reader file style align strict).output = x.render style align ∧
      (runExtract reader file style align strict).success = true := by
  unfold policy at h
  unfold runExtract
  simp only [h]
  exact ⟨rfl, rfl⟩

/-- Otherwise nothing is printed. -/
theorem Command.runExtract_of_error {error : ExtractionError}
    (h : (Extraction.ofFile reader (policy strict) file).value = .error error)
    (style : Listing.Style) (align : Bool) :
    (runExtract reader file style align strict).output = "" ∧
      (runExtract reader file style align strict).success = false := by
  unfold policy at h
  unfold runExtract
  simp only [h]
  exact ⟨rfl, rfl⟩

variable {directives : Option String} {words : List String}

/-- A program that cannot read its log filter does nothing. -/
theorem Program.run_of_unreadable (h : LogFilter.ofText? (directives.getD "") = none)
    (reader : FileReader) (words : List String) :
    (run directives reader words).status = 1 ∧ (run directives reader words).output = "" := by
  unfold run
  simp [h]

/-- A command that the words ask for is run, and reported through the filter. -/
theorem Program.run_of_ofWords {filter : LogFilter} {command : Command}
    (hfilter : LogFilter.ofText? (directives.getD "") = some filter)
    (hwords : Command.ofWords words = .ok command) (reader : FileReader) :
    run directives reader words = .ofOutcome filter (command.run reader) := by
  unfold run
  simp only [hfilter, hwords]

theorem Program.run_extract_of_ok {filter : LogFilter}
    (hfilter : LogFilter.ofText? (directives.getD "") = some filter)
    (hwords : Command.ofWords words = .ok (.extract file style align strict))
    (h : (Extraction.ofFile reader (Command.policy strict) file).value = .ok x) :
    (run directives reader words).status = 0 ∧
      (run directives reader words).output = x.render style align := by
  rcases Command.runExtract_of_ok h style align with ⟨houtput, hsuccess⟩
  rw [run_of_ofWords hfilter hwords]
  simp [Report.ofOutcome, Command.run, houtput, hsuccess]

theorem Program.run_extract_of_error {filter : LogFilter}
    (hfilter : LogFilter.ofText? (directives.getD "") = some filter)
    (hwords : Command.ofWords words = .ok (.extract file style align strict))
    {error : ExtractionError}
    (h : (Extraction.ofFile reader (Command.policy strict) file).value = .error error) :
    (run directives reader words).status = 1 ∧ (run directives reader words).output = "" := by
  rcases Command.runExtract_of_error h style align with ⟨houtput, hsuccess⟩
  rw [run_of_ofWords hfilter hwords]
  simp [Report.ofOutcome, Command.run, houtput, hsuccess]

/-- A strict run prints the listing of the plain one, where that has no redefinitions on record, and
otherwise nothing. -/
theorem Program.run_strict_cases {strictWords : List String}
    (hplain : Command.ofWords words = .ok (.extract file style align false))
    (hstrict : Command.ofWords strictWords = .ok (.extract file style align true)) :
    let plain := run directives reader words
    let strict := run directives reader strictWords
    (strict.status = 0 ∧ plain.status = 0 ∧ strict.output = plain.output ∧
      ∃ x, (Extraction.ofFile reader .overwrite file).value = .ok x ∧ x.redefinitions = []) ∨
    (strict.status = 1 ∧ strict.output = "" ∧ (plain.status = 0 →
      ∀ x, (Extraction.ofFile reader .overwrite file).value = .ok x → x.redefinitions ≠ [])) := by
  intro plain strict
  cases hfilter : LogFilter.ofText? (directives.getD "") with
  | none =>
      right
      rcases run_of_unreadable hfilter reader strictWords with ⟨hstatus, houtput⟩
      have hstatus' := (run_of_unreadable hfilter reader words).1
      refine ⟨hstatus, houtput, ?_⟩
      intro hzero
      exact absurd (hstatus'.symm.trans hzero) (by decide)
  | some filter =>
      cases hread : (Extraction.ofFile reader .reject file).value with
      | ok x =>
          -- the plain run reads the file to the same extraction
          left
          rcases Extraction.value_ofFile_reject_eq_ok_iff.mp hread with ⟨hread', hnone⟩
          rcases run_extract_of_ok hfilter hstrict hread with ⟨hstatus, houtput⟩
          rcases run_extract_of_ok hfilter hplain hread' with ⟨hstatus', houtput'⟩
          exact ⟨hstatus, hstatus', houtput.trans houtput'.symm, x, hread', hnone⟩
      | error error =>
          right
          rcases run_extract_of_error hfilter hstrict hread with ⟨hstatus, houtput⟩
          refine ⟨hstatus, houtput, ?_⟩
          intro _ x hx hnone
          rw [Extraction.value_ofFile_reject_eq_ok_iff.mpr ⟨hx, hnone⟩] at hread
          exact absurd hread (by simp)

end Run

/-- Refusing redefinitions gives the same extraction as recording them where none is on record, and
the refusal of the first one on record elsewhere. So a strict extraction prints what it prints
without the switch and succeeds, or prints nothing and fails. -/
theorem Extraction.reject_agrees :
    (∀ (source : ByteArray) (x : Extraction), (ofSource .overwrite source).value = .ok x →
      ((∃ y, (ofSource .reject source).value = .ok y) ↔ x.redefinitions = []) ∧
      (x.redefinitions = [] → (ofSource .reject source).value = .ok x) ∧
      ∀ r further, x.redefinitions = r :: further →
        (ofSource .reject source).value = .error (.redefined r)) ∧
    ∀ (words : List String) (file : String) (style : Listing.Style) (align : Bool),
      Command.ofWords ("extract" :: words) = .ok (.extract file style align false) →
      Command.ofWords ("extract" :: "--strict" :: words) = .ok (.extract file style align true) ∧
      ∀ strictWords, Command.ofWords strictWords = .ok (.extract file style align true) →
        ∀ (directives : Option String) (reader : FileReader),
          let plain := Program.run directives reader ("extract" :: words)
          let strict := Program.run directives reader strictWords
          (strict.status = 0 ∧ plain.status = 0 ∧ strict.output = plain.output ∧
            ∃ x, (ofFile reader .overwrite file).value = .ok x ∧ x.redefinitions = []) ∨
          (strict.status = 1 ∧ strict.output = "" ∧ (plain.status = 0 →
            ∀ x, (ofFile reader .overwrite file).value = .ok x → x.redefinitions ≠ [])) := by
  constructor
  · intro source x h
    have hnone : x.redefinitions = [] → (ofSource .reject source).value = .ok x :=
      fun hnone => ofSource_reject_eq_ok_iff.mpr ⟨h, hnone⟩
    refine ⟨⟨?_, fun hx => ⟨x, hnone hx⟩⟩, hnone, ?_⟩
    · rintro ⟨y, hy⟩
      -- what the strict reading gives is what the other one gives, so it is `x`
      rcases ofSource_reject_eq_ok_iff.mp hy with ⟨hy', hredefinitions⟩
      obtain rfl := Except.ok.inj (h.symm.trans hy')
      exact hredefinitions
    · intro r further hx
      rw [value_ofSource_reject h, hx]
      rfl
  · intro words file style align hplain
    refine ⟨Command.ofWords_extract_strict hplain, ?_⟩
    intro strictWords hstrict directives reader
    exact Program.run_strict_cases hplain hstrict

/-- A source that names a code twice: read strictly it is refused for the second name, and a strict
extraction of it prints nothing. -/
theorem Extraction.reject_agrees_second_name :
    let source := "opname(1) -> {label,1};\nopname(1) -> {lbl,1};\n".toUTF8
    let strict := Program.run none (fun _ => .ok source) ["extract", "--strict", "genop.tab"]
    (ofSource .reject source).value = .error (.redefined
      ⟨⟨1, "opname(1) -> {label,1};", 1, "LABEL"⟩, ⟨2, "opname(1) -> {lbl,1};", 1, "LBL"⟩⟩) ∧
    strict.status = 1 ∧ strict.output = "" := by
  intro source strict
  have hx : (ofSource .overwrite source).value = .ok
      ⟨[⟨2, "opname(1) -> {lbl,1};", 1, "LBL"⟩], 2, 0,
        [⟨⟨1, "opname(1) -> {label,1};", 1, "LABEL"⟩, ⟨2, "opname(1) -> {lbl,1};", 1, "LBL"⟩⟩]⟩ :=
    rfl
  have hwords : Command.ofWords ("extract" :: ["genop.tab"]) =
      .ok (.extract "genop.tab" .plain false false) := rfl
  rcases reject_agrees with ⟨hsource, hrun⟩
  rcases hrun _ _ _ _ hwords with ⟨hstrict, hcases⟩
  refine ⟨(hsource source _ hx).2.2 _ _ rfl, ?_⟩
  rcases hcases _ hstrict none (fun _ => .ok source) with
    ⟨-, -, -, x, hfile, hnone⟩ | ⟨hstatus, houtput, -⟩
  · -- the file has a redefinition on record
    rcases value_ofFile_eq_ok_iff.mp hfile with ⟨contents, hcontents, hx'⟩
    cases hcontents
    cases hx.symm.trans hx'
    exact absurd hnone (by simp)
  · exact ⟨hstatus, houtput⟩

end OpcodeRegistry
