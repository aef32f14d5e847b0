import OpcodeRegistry.Proofs.Extraction.Overwrite

/-! # Refusing redefinitions

The two policies read a source in step up to its first redefinition: there one records it and goes
on, and the other refuses the line and stops. What is recorded stays recorded, and the first record
stays the first, so an overwriting run tells what the refusing one comes to: the same extraction, or
the refusal of the first redefinition on record.
-/

namespace OpcodeRegistry

namespace Accumulator

variable {a b : Accumulator} {lineNumber : Nat} {bytes : List UInt8} {rest source : List (List UInt8)}
  {line : String}

/-- The same state where redefinitions are refused. -/
def strict (a : Accumulator) : Accumulator :=
  { a with policy := .reject }

@[simp] theorem finish_strict (a : Accumulator) : a.strict.finish = a.finish := rfl

/-! ## One line -/

/-- The two policies do the same with a line unless it defines a code again. -/
theorem push_strict (hpolicy : a.policy = .overwrite) (l : LineClass) :
    ((a.push l).1.redefinitions = a.redefinitions ∧ (∀ r, (a.push l).2 ≠ .refused r) ∧
      a.strict.push l = ((a.push l).1.strict, (a.push l).2)) ∨
    ∃ r, (a.push l).1.redefinitions = a.redefinitions.push r ∧ (a.push l).2 = .replaced r ∧
      (a.strict.push l).2 = .refused r := by
  cases l with
  | ignored =>
      left
      refine ⟨rfl, ?_, rfl⟩
      intro r
      simp [push_ignored]
  | definition d =>
      cases hprev : a.byCode[d.code]? with
      | none =>
          left
          have hprev' : a.strict.byCode[d.code]? = none := hprev
          rw [push_added hprev, push_added hprev']
          refine ⟨rfl, ?_, rfl⟩
          intro r
          simp
      | some previous =>
          right
          -- the one policy records what the other one refuses
          have hprev' : a.strict.byCode[d.code]? = some previous := hprev
          rw [push_replaced hpolicy hprev, push_refused rfl hprev']
          exact ⟨⟨previous, d⟩, rfl, rfl, rfl⟩

/-! ## The lines of a source -/

/-- An overwriting run refuses no line. -/
theorem taken_of_overwrite (hpolicy : a.policy = .overwrite) (l : LineClass) (r : Redefinition) :
    (a.push l).2 ≠ .refused r := by
  rcases push_strict hpolicy l with ⟨-, htaken, -⟩ | ⟨r', -, hreplaced, -⟩
  · exact htaken r
  · rw [hreplaced]
    simp

/-- What an overwriting run has recorded stays at the front of its record. -/
theorem redefinitions_prefix_of_pushLines (hpolicy : a.policy = .overwrite)
    (h : (a.pushLines lineNumber source).value = .ok b) :
    a.redefinitions.toList <+: b.redefinitions.toList := by
  induction source generalizing a lineNumber with
  | nil =>
      obtain rfl := Except.ok.inj h
      exact List.prefix_rfl
  | cons bytes rest ih =>
      rcases pushLines_cons_cases a lineNumber bytes with
        ⟨line, events, -, -, hgo⟩ | ⟨stop, error, herror, hstop⟩
      · rw [hgo] at h
        -- the record of the rest begins with the record behind this line
        have hrest := ih ((policy_push a _).trans hpolicy) h
        rcases push_strict hpolicy (.ofLine lineNumber line) with ⟨hsame, -⟩ | ⟨r, hmore, -⟩
        · rwa [hsame] at hrest
        · rw [hmore, Array.toList_push] at hrest
          exact (List.prefix_append _ _).trans hrest
      · rw [hstop, herror] at h
        exact absurd h (by simp)

/-- An overwriting run that has recorded nothing so far tells what the refusing one comes to: the
first redefinition that it will record is the one that is refused. -/
theorem value_pushLines_strict (hpolicy : a.policy = .overwrite) (hnone : a.redefinitions = #[])
    (h : (a.pushLines lineNumber source).value = .ok b) :
    (a.strict.pushLines lineNumber source).value =
      match b.redefinitions.toList.head? with
      | none => .ok b.strict
      | some r => .error (.redefined r) := by
  induction source generalizing a lineNumber with
  | nil =>
      obtain rfl := Except.ok.inj h
      rw [hnone]
      rfl
  | cons bytes rest ih =>
      rcases pushLines_cons_cases a lineNumber bytes with
        ⟨line, events, hline, htaken, hgo⟩ | ⟨stop, error, herror, hstop⟩
      · rw [hgo] at h
        have hpolicy' := (policy_push a (.ofLine lineNumber line)).trans hpolicy
        rcases push_strict hpolicy (.ofLine lineNumber line) with
          ⟨hsame, -, hstep⟩ | ⟨r, hmore, -, hrefused⟩
        · -- both take the line, and nothing is on record yet
          have htaken' : ∀ r, (a.strict.push (.ofLine lineNumber line)).2 ≠ .refused r := by
            rw [hstep]
            exact htaken
          rw [value_pushLines_of_taken hline htaken', hstep]
          exact ih hpolicy' (hsame.trans hnone) h
        · -- the line is the first redefinition, and the rest only adds to the record
          rw [value_pushLines_of_refused hline hrefused]
          have hprefix := redefinitions_prefix_of_pushLines hpolicy' h
          rw [hmore, hnone] at hprefix
          rcases hprefix with ⟨further, hfurther⟩
          rw [← hfurther]
          rfl
      · rw [hstop, herror] at h
        exact absurd h (by simp)

/-- Where the refusing run comes to an end, the overwriting one comes to the same end. -/
theorem value_pushLines_of_strict (hpolicy : a.policy = .overwrite)
    (h : (a.strict.pushLines lineNumber source).value = .ok b) :
    ∃ b', (a.pushLines lineNumber source).value = .ok b' ∧ b'.strict = b ∧
      b'.redefinitions = a.redefinitions := by
  induction source generalizing a lineNumber with
  | nil => exact ⟨a, rfl, Except.ok.inj h, rfl⟩
  | cons bytes rest ih =>
      rcases pushLines_cons_cases a.strict lineNumber bytes with
        ⟨line, events, hline, hallowed, hgo⟩ | ⟨stop, error, herror, hstop⟩
      · rcases push_strict hpolicy (.ofLine lineNumber line) with
          ⟨hsame, htaken, hstep⟩ | ⟨r, -, -, hrefused⟩
        · rw [hgo, hstep] at h
          obtain ⟨b', hb', hstrict, hredefinitions⟩ :=
            ih ((policy_push a (.ofLine lineNumber line)).trans hpolicy) h
          rw [value_pushLines_of_taken hline htaken]
          exact ⟨b', hb', hstrict, hredefinitions.trans hsame⟩
        · -- the strict run took the line, so it is no redefinition
          exact absurd hrefused (hallowed r)
      · rw [hstop, herror] at h
        exact absurd h (by simp)

end Accumulator

/-! ## Extractions -/

namespace Extraction

variable {source : ByteArray} {x : Extraction}

/-- The extraction of an overwriting run tells what comes of the source where redefinitions are
refused. -/
theorem value_ofSource_reject (h : (ofSource .overwrite source).value = .ok x) :
    (ofSource .reject source).value =
      match x.redefinitions.head? with
      | none => .ok x
      | some r => .error (.redefined r) := by
  rcases ofSource_eq_ok_iff.mp h with ⟨a, ha, rfl⟩
  have hstrict := Accumulator.value_pushLines_strict rfl rfl ha
  have hredefinitions : a.finish.redefinitions = a.redefinitions.toList := rfl
  rw [hredefinitions]
  -- the record of the overwriting run decides
  cases hhead : a.redefinitions.toList.head? with
  | none =>
      rw [hhead] at hstrict
      exact ofSource_eq_ok_iff.mpr ⟨a.strict, hstrict, a.finish_strict⟩
  | some r =>
      rw [hhead] at hstrict
      exact ofSource_eq_error_iff.mpr hstrict

/-- Where redefinitions are refused, a source has an extraction if and only if it has the same one
where they are not, and that has none on record. -/
theorem ofSource_reject_eq_ok_iff :
    (ofSource .reject source).value = .ok x ↔
      (ofSource .overwrite source).value = .ok x ∧ x.redefinitions = [] := by
  constructor
  · intro h
    rcases ofSource_eq_ok_iff.mp h with ⟨a, ha, rfl⟩
    obtain ⟨b, hb, rfl, hredefinitions⟩ :=
      Accumulator.value_pushLines_of_strict (a := { policy := .overwrite }) rfl ha
    refine ⟨ofSource_eq_ok_iff.mpr ⟨b, hb, rfl⟩, ?_⟩
    change b.redefinitions.toList = []
    rw [hredefinitions]
  · rintro ⟨h, hnone⟩
    rw [value_ofSource_reject h, hnone]
    rfl

end Extraction

end OpcodeRegistry
