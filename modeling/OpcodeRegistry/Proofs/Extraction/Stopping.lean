import OpcodeRegistry.Proofs.Extraction.History
import OpcodeRegistry.Proofs.Source.Lines

/-! # Where reading stops

A source is read line by line, and each line is held against those in front of it: `Offends` says
why a line cannot be taken. Reading stops at the first line that offends, for the reason that this
line gives and whatever stands behind it, and only a source without such a line has an extraction.
Since a line feed is part of no other character, no line offends by its bytes where the source as a
whole is UTF-8.
-/

namespace OpcodeRegistry

namespace Source

variable {policy : RedefinitionPolicy} {front rest lines : List (List UInt8)} {bytes : List UInt8}
  {i : Nat} {d : Definition} {error error' : ExtractionError}

/-- The definition that the line at an index is, if it is text and a definition. -/
def definitionAt? (lines : List (List UInt8)) (i : Nat) : Option Definition :=
  (lines[i]?.bind decodeLine?).bind fun line => (LineClass.ofLine (i + 1) line).definition?

/-- Why the line at an index cannot be taken after the lines in front of it. -/
inductive Offends (policy : RedefinitionPolicy) (lines : List (List UInt8)) (i : Nat) :
    ExtractionError → Prop where
  | undecodable {bytes : List UInt8} (hline : lines[i]? = some bytes)
      (h : ¬ bytes.toByteArray.IsValidUTF8) : Offends policy lines i (.source .notUtf8)
  | redefined {j : Nat} {previous d : Definition} (hpolicy : policy = .reject) (hj : j < i)
      (hprevious : definitionAt? lines j = some previous) (hd : definitionAt? lines i = some d)
      (hcode : previous.code = d.code) : Offends policy lines i (.redefined ⟨previous, d⟩)

/-- The line at an index offends, and none in front of it does. -/
structure FirstOffence (policy : RedefinitionPolicy) (lines : List (List UInt8)) (i : Nat)
    (error : ExtractionError) : Prop where
  offends : Offends policy lines i error
  first : ∀ j < i, ∀ other, ¬ Offends policy lines j other

/-- No code is defined by two lines. -/
def DefinesOnce (lines : List (List UInt8)) : Prop :=
  ∀ i j d e, definitionAt? lines i = some d → definitionAt? lines j = some e → d.code = e.code →
    i = j

/-! ## Definitions by position -/

theorem exists_decodeLine?_of_definitionAt? (h : definitionAt? lines i = some d) :
    ∃ bytes line, lines[i]? = some bytes ∧ decodeLine? bytes = some line := by
  rcases Option.bind_eq_some_iff.mp h with ⟨line, hline, -⟩
  rcases Option.bind_eq_some_iff.mp hline with ⟨bytes, hbytes, hdecode⟩
  exact ⟨bytes, line, hbytes, hdecode⟩

theorem lt_length_of_definitionAt? (h : definitionAt? lines i = some d) : i < lines.length := by
  rcases exists_decodeLine?_of_definitionAt? h with ⟨bytes, -, hbytes, -⟩
  exact (List.getElem?_eq_some_iff.mp hbytes).1

theorem definitionAt?_append (h : i < front.length) :
    definitionAt? (front ++ rest) i = definitionAt? front i := by
  unfold definitionAt?
  rw [List.getElem?_append_left h]

theorem definitionAt?_concat_length (lines : List (List UInt8)) (bytes : List UInt8) :
    definitionAt? (lines ++ [bytes]) lines.length =
      (decodeLine? bytes).bind fun line =>
        (LineClass.ofLine (lines.length + 1) line).definition? := by
  unfold definitionAt?
  rw [List.getElem?_concat_length]
  rfl

/-- What a list of lines defines with one more is what it defines without, or what the new line
defines. -/
theorem exists_definitionAt?_concat_iff :
    (∃ j, definitionAt? (lines ++ [bytes]) j = some d) ↔
      (∃ j, definitionAt? lines j = some d) ∨
        definitionAt? (lines ++ [bytes]) lines.length = some d := by
  constructor
  · rintro ⟨j, hj⟩
    have hlt := lt_length_of_definitionAt? hj
    rw [List.length_append, List.length_singleton] at hlt
    rcases Nat.lt_succ_iff_lt_or_eq.mp hlt with hfront | rfl
    · rw [definitionAt?_append hfront] at hj
      exact Or.inl ⟨j, hj⟩
    · exact Or.inr hj
  · rintro (⟨j, hj⟩ | hlast)
    · refine ⟨j, ?_⟩
      rw [definitionAt?_append (lt_length_of_definitionAt? hj)]
      exact hj
    · exact ⟨lines.length, hlast⟩

/-! ## Offences -/

theorem Offends.lt_length (h : Offends policy lines i error) : i < lines.length := by
  cases h with
  | undecodable hline _ => exact (List.getElem?_eq_some_iff.mp hline).1
  | redefined _ _ _ hd _ => exact lt_length_of_definitionAt? hd

/-- Whether a line offends does not depend on what stands behind it. -/
theorem offends_append_iff (h : i < front.length) :
    Offends policy (front ++ rest) i error ↔ Offends policy front i error := by
  constructor
  · intro hoffends
    cases hoffends with
    | undecodable hline hbytes =>
        rw [List.getElem?_append_left h] at hline
        exact .undecodable hline hbytes
    | redefined hpolicy hj hprevious hd hcode =>
        rw [definitionAt?_append h] at hd
        rw [definitionAt?_append (Nat.lt_trans hj h)] at hprevious
        exact .redefined hpolicy hj hprevious hd hcode
  · intro hoffends
    cases hoffends with
    | undecodable hline hbytes =>
        exact .undecodable ((List.getElem?_append_left h).trans hline) hbytes
    | redefined hpolicy hj hprevious hd hcode =>
        exact .redefined hpolicy hj ((definitionAt?_append (Nat.lt_trans hj h)).trans hprevious)
          ((definitionAt?_append h).trans hd) hcode

theorem firstOffence_append_iff (h : i < front.length) :
    FirstOffence policy (front ++ rest) i error ↔ FirstOffence policy front i error := by
  constructor
  · rintro ⟨hoffends, hfirst⟩
    refine ⟨(offends_append_iff h).mp hoffends, ?_⟩
    intro j hj other hother
    exact hfirst j hj other ((offends_append_iff (Nat.lt_trans hj h)).mpr hother)
  · rintro ⟨hoffends, hfirst⟩
    refine ⟨(offends_append_iff h).mpr hoffends, ?_⟩
    intro j hj other hother
    exact hfirst j hj other ((offends_append_iff (Nat.lt_trans hj h)).mp hother)

/-- A line offends for one reason, if it is the first: two lines in front of it that define its code
would offend among themselves. -/
theorem FirstOffence.eq_of_offends (h : FirstOffence policy lines i error)
    (h' : Offends policy lines i error') : error = error' := by
  -- the two kinds of offence exclude each other: a definition has been decoded
  have hundecodable : ∀ {bytes : List UInt8} {d : Definition}, lines[i]? = some bytes →
      ¬ bytes.toByteArray.IsValidUTF8 → definitionAt? lines i ≠ some d := by
    intro bytes d hline hbytes hd
    rcases exists_decodeLine?_of_definitionAt? hd with ⟨bytes', line, hline', hdecode⟩
    obtain rfl := Option.some.inj (hline.symm.trans hline')
    exact hbytes (decodeLine?_isSome_iff.mp (Option.isSome_of_eq_some hdecode))
  cases h.offends with
  | undecodable hline hbytes =>
      cases h' with
      | undecodable _ _ => rfl
      | redefined _ _ _ hd _ => exact absurd hd (hundecodable hline hbytes)
  | redefined hpolicy hj hprevious hd hcode =>
      rename_i j previous d
      cases h' with
      | undecodable hline hbytes => exact absurd hd (hundecodable hline hbytes)
      | redefined hpolicy' hj' hprevious' hd' hcode' =>
          rename_i j' previous' d'
          obtain rfl : d = d' := Option.some.inj (hd.symm.trans hd')
          -- of two lines in front that define the code the later one would have offended first
          rcases Nat.lt_trichotomy j j' with hlt | rfl | hgt
          · exact absurd (.redefined hpolicy hlt hprevious hprevious' (hcode.trans hcode'.symm))
              (h.first j' hj' _)
          · rw [Option.some.inj (hprevious.symm.trans hprevious')]
          · exact absurd (.redefined hpolicy hgt hprevious' hprevious (hcode'.trans hcode.symm))
              (h.first j hj _)

theorem FirstOffence.index_eq {i' : Nat} (h : FirstOffence policy lines i error)
    (h' : FirstOffence policy lines i' error') : i = i' := by
  rcases Nat.lt_trichotomy i i' with hlt | heq | hgt
  · exact absurd h.offends (h'.first i hlt error)
  · exact heq
  · exact absurd h'.offends (h.first i' hgt error')

/-- No line offends if and only if all of them are text and, where redefinitions are refused, no code
is defined by two. -/
theorem forall_not_offends_iff :
    (∀ i error, ¬ Offends policy lines i error) ↔
      (∀ line ∈ lines, (decodeLine? line).isSome) ∧ (policy = .reject → DefinesOnce lines) := by
  constructor
  · intro h
    refine ⟨?_, ?_⟩
    · intro line hline
      rcases List.mem_iff_getElem?.mp hline with ⟨i, hi⟩
      rw [decodeLine?_isSome_iff]
      by_contra hbytes
      exact h i _ (.undecodable hi hbytes)
    · intro hpolicy i j d e hd he hcode
      -- the later of two lines would offend, whichever it is
      rcases Nat.lt_trichotomy i j with hlt | heq | hgt
      · exact absurd (.redefined hpolicy hlt hd he hcode) (h j _)
      · exact heq
      · exact absurd (.redefined hpolicy hgt he hd hcode.symm) (h i _)
  · rintro ⟨hdecode, honce⟩ i error hoffends
    cases hoffends with
    | undecodable hline hbytes =>
        exact hbytes (decodeLine?_isSome_iff.mp (hdecode _ (List.mem_of_getElem? hline)))
    | redefined hpolicy hj hprevious hd hcode =>
        exact absurd (honce hpolicy _ _ _ _ hprevious hd hcode) (Nat.ne_of_lt hj)

end Source

/-! ## One line -/

namespace Accumulator

open Source

variable {policy : RedefinitionPolicy} {a : Accumulator} {lineNumber : Nat} {bytes : List UInt8}
  {front rest lines : List (List UInt8)} {line : String}

/-- The state after lines that were all taken. Where redefinitions are refused, it holds just what
the lines define. -/
structure Took (policy : RedefinitionPolicy) (lines : List (List UInt8)) (a : Accumulator) :
    Prop where
  policy_eq : a.policy = policy
  /-- A code leads to what a line defines for it. -/
  byCode : policy = .reject → ∀ c d,
    a.byCode[c]? = some d ↔ d.code = c ∧ ∃ j, definitionAt? lines j = some d

theorem took_nil (policy : RedefinitionPolicy) : Took policy [] { policy } := by
  refine ⟨rfl, ?_⟩
  intro _ c d
  simp [definitionAt?]

theorem Took.concat (h : Took policy lines a) (hline : decodeLine? bytes = some line)
    (htaken : ∀ r, (a.push (.ofLine (lines.length + 1) line)).2 ≠ .refused r) :
    Took policy (lines ++ [bytes]) (a.push (.ofLine (lines.length + 1) line)).1 := by
  refine ⟨(policy_push a _).trans h.policy_eq, ?_⟩
  intro hpolicy c e
  have hlast : definitionAt? (lines ++ [bytes]) lines.length =
      (LineClass.ofLine (lines.length + 1) line).definition? := by
    rw [definitionAt?_concat_length, hline]
    rfl
  rw [exists_definitionAt?_concat_iff, hlast]
  cases hclass : LineClass.ofLine (lines.length + 1) line with
  | ignored =>
      rw [push_ignored]
      simp only [LineClass.definition?, reduceCtorEq, or_false]
      exact h.byCode hpolicy c e
  | definition d =>
      -- what is not refused is new
      have hnew : a.byCode[d.code]? = none := by
        rw [Option.eq_none_iff_forall_ne_some]
        intro previous hprevious
        exact htaken _ (push_eq_refused_iff.mpr
          ⟨h.policy_eq.trans hpolicy, d, previous, hclass, hprevious, rfl⟩)
      rw [push_added hnew]
      simp only [LineClass.definition?, Option.some.injEq, getElem?_insert_byCode]
      by_cases hc : d.code = c
      · rw [if_pos hc, Option.some.injEq]
        constructor
        · rintro rfl
          exact ⟨hc, Or.inr rfl⟩
        · rintro ⟨hcode, hbefore | hsame⟩
          · have hcontra := (h.byCode hpolicy c e).mpr ⟨hcode, hbefore⟩
            rw [← hc, hnew] at hcontra
            exact absurd hcontra (by simp)
          · exact hsame
      · rw [if_neg hc, h.byCode hpolicy c e]
        constructor
        · rintro ⟨hcode, hbefore⟩
          exact ⟨hcode, Or.inl hbefore⟩
        · rintro ⟨hcode, hbefore | rfl⟩
          · exact ⟨hcode, hbefore⟩
          · exact absurd hcode hc

/-- One line more offends and ends the reading, or it is taken. -/
theorem Took.pushLine_cases (h : Took policy lines a) (bytes : List UInt8) :
    (∃ error, (a.pushLines (lines.length + 1) [bytes]).value = .error error ∧
      Offends policy (lines ++ [bytes]) lines.length error) ∨
    ∃ b, (a.pushLines (lines.length + 1) [bytes]).value = .ok b ∧
      Took policy (lines ++ [bytes]) b ∧
      ∀ error, ¬ Offends policy (lines ++ [bytes]) lines.length error := by
  have hget : (lines ++ [bytes])[lines.length]? = some bytes := List.getElem?_concat_length
  cases hline : decodeLine? bytes with
  | none =>
      left
      have hbytes : ¬ bytes.toByteArray.IsValidUTF8 := by
        rw [← decodeLine?_isSome_iff, hline]
        simp
      exact ⟨_, value_pushLines_of_undecodable hline, .undecodable hget hbytes⟩
  | some line =>
      have hlast : definitionAt? (lines ++ [bytes]) lines.length =
          (LineClass.ofLine (lines.length + 1) line).definition? := by
        rw [definitionAt?_concat_length, hline]
        rfl
      by_cases hrefused : ∃ r, (a.push (.ofLine (lines.length + 1) line)).2 = .refused r
      · left
        rcases hrefused with ⟨r, hr⟩
        refine ⟨_, value_pushLines_of_refused hline hr, ?_⟩
        rcases push_eq_refused_iff.mp hr with ⟨hpolicy, d, previous, hclass, hprevious, rfl⟩
        have hreject : policy = .reject := h.policy_eq.symm.trans hpolicy
        rcases (h.byCode hreject _ _).mp hprevious with ⟨hcode, j, hj⟩
        have hlt := lt_length_of_definitionAt? hj
        rw [hclass] at hlast
        exact .redefined hreject hlt ((definitionAt?_append hlt).trans hj) hlast hcode
      · right
        have htaken := not_exists.mp hrefused
        refine ⟨_, value_pushLines_of_taken hline htaken, h.concat hline htaken, ?_⟩
        intro error hoffends
        cases hoffends with
        | undecodable hline' hbytes =>
            obtain rfl := Option.some.inj (hget.symm.trans hline')
            exact hbytes (decodeLine?_isSome_iff.mp (Option.isSome_of_eq_some hline))
        | redefined hpolicy hj hprevious hd hcode =>
            rename_i j previous d
            -- the state has a definition of the code, so the line would be refused
            rw [definitionAt?_append hj] at hprevious
            rw [hlast] at hd
            have hheld := (h.byCode hpolicy _ _).mpr ⟨hcode, j, hprevious⟩
            have hclass := LineClass.definition?_eq_some_iff.mp hd
            exact htaken _ (push_eq_refused_iff.mpr
              ⟨h.policy_eq.trans hpolicy, d, previous, hclass, hheld, rfl⟩)

/-! ## All lines -/

/-- Reading goes on behind a part that was read to its end. -/
theorem value_pushLines_append (a : Accumulator) (lineNumber : Nat)
    (front rest : List (List UInt8)) :
    (a.pushLines lineNumber (front ++ rest)).value =
      match (a.pushLines lineNumber front).value with
      | .error error => .error error
      | .ok b => (b.pushLines (lineNumber + front.length) rest).value := by
  induction front generalizing a lineNumber with
  | nil => rfl
  | cons bytes front ih =>
      rw [List.cons_append]
      rcases pushLines_cons_cases a lineNumber bytes with
        ⟨line, events, -, -, hgo⟩ | ⟨stop, error, herror, hstop⟩
      · rw [hgo, hgo, List.length_cons, Nat.add_comm front.length, ← Nat.add_assoc]
        exact ih _ _
      · rw [hstop, hstop, herror]

/-- What stands behind the line at which reading stops is not looked at. -/
theorem pushLines_append_of_error {error : ExtractionError}
    (h : (a.pushLines lineNumber front).value = .error error) (rest : List (List UInt8)) :
    a.pushLines lineNumber (front ++ rest) = a.pushLines lineNumber front := by
  induction front generalizing a lineNumber with
  | nil => exact absurd h (by simp [pushLines, Logged.silent])
  | cons bytes front ih =>
      rw [List.cons_append]
      rcases pushLines_cons_cases a lineNumber bytes with
        ⟨line, events, -, -, hgo⟩ | ⟨stop, error, -, hstop⟩
      · rw [hgo] at h
        rw [hgo, hgo, ih h]
      · rw [hstop, hstop]

/-- Reading comes to the end of all lines if none of them offends, and stops at the first one that
does. -/
theorem pushLines_cases (policy : RedefinitionPolicy) (lines : List (List UInt8)) :
    (∃ a, (({ policy } : Accumulator).pushLines 1 lines).value = .ok a ∧ Took policy lines a ∧
      ∀ i error, ¬ Offends policy lines i error) ∨
    ∃ i error, (({ policy } : Accumulator).pushLines 1 lines).value = .error error ∧
      FirstOffence policy lines i error := by
  -- whether a line offends depends on those in front of it, so the induction is from the end
  induction lines using List.reverseRecOn with
  | nil =>
      left
      refine ⟨_, rfl, took_nil policy, ?_⟩
      intro i error hoffends
      exact absurd hoffends.lt_length (Nat.not_lt_zero i)
  | append_singleton lines bytes ih =>
      rw [value_pushLines_append]
      rcases ih with ⟨a, ha, htook, hnone⟩ | ⟨i, error, herror, hfirst⟩
      · have hbefore : ∀ i < lines.length, ∀ error, ¬ Offends policy (lines ++ [bytes]) i error :=
          fun i hi error => mt (offends_append_iff hi).mp (hnone i error)
        rw [ha, Nat.add_comm 1]
        -- all lines in front were taken, so it depends on the last one
        rcases htook.pushLine_cases bytes with ⟨error, herror, hoffends⟩ | ⟨b, hb, htook', hlast⟩
        · exact Or.inr ⟨lines.length, error, herror, hoffends, hbefore⟩
        · left
          refine ⟨b, hb, htook', ?_⟩
          intro i error hoffends
          have hlt := hoffends.lt_length
          rw [List.length_append, List.length_singleton] at hlt
          rcases Nat.lt_succ_iff_lt_or_eq.mp hlt with hfront | rfl
          · exact hbefore i hfront error hoffends
          · exact hlast error hoffends
      · right
        -- the reading stopped before it came to the last line
        rw [herror]
        exact ⟨i, error, rfl, (firstOffence_append_iff hfirst.offends.lt_length).mpr hfirst⟩

/-- Reading stops with an error if and only if that is the reason of the first line that offends. -/
theorem value_pushLines_eq_error_iff {error : ExtractionError} :
    (({ policy } : Accumulator).pushLines 1 lines).value = .error error ↔
      ∃ i, FirstOffence policy lines i error := by
  rcases pushLines_cases policy lines with ⟨a, ha, -, hnone⟩ | ⟨i, error', herror, hfirst⟩
  · rw [ha]
    constructor
    · intro h
      exact absurd h (by simp)
    · rintro ⟨i, hfirst⟩
      exact absurd hfirst.offends (hnone i error)
  · rw [herror, Except.error.injEq]
    constructor
    · rintro rfl
      exact ⟨i, hfirst⟩
    · rintro ⟨i', hfirst'⟩
      -- there is one first line, and it offends for one reason
      obtain rfl := hfirst.index_eq hfirst'
      exact hfirst.eq_of_offends hfirst'.offends

theorem exists_value_pushLines_eq_ok_iff :
    (∃ a, (({ policy } : Accumulator).pushLines 1 lines).value = .ok a) ↔
      ∀ i error, ¬ Offends policy lines i error := by
  rcases pushLines_cases policy lines with ⟨a, ha, -, hnone⟩ | ⟨i, error, herror, hfirst⟩
  · exact ⟨fun _ => hnone, fun _ => ⟨a, ha⟩⟩
  · constructor
    · rintro ⟨a, ha⟩
      rw [herror] at ha
      exact absurd ha (by simp)
    · intro hnone
      exact absurd hfirst.offends (hnone i error)

end Accumulator

/-! ## Sources and files -/

/-- The error as it is reported of the file at a path: what is wrong with the bytes is a fault of the
file. -/
def ExtractionError.inFile (path : String) : ExtractionError → ExtractionError
  | .source fault => .file path fault
  | error => error

namespace Extraction

variable {policy : RedefinitionPolicy} {source : ByteArray}

theorem ofSource_eq_error_iff_firstOffence {error : ExtractionError} :
    (ofSource policy source).value = .error error ↔
      ∃ i, Source.FirstOffence policy (Source.lines source) i error := by
  rw [ofSource_eq_error_iff, Accumulator.value_pushLines_eq_error_iff]

theorem exists_ofSource_eq_ok_iff :
    (∃ x, (ofSource policy source).value = .ok x) ↔
      source.IsValidUTF8 ∧ (policy = .reject → Source.DefinesOnce (Source.lines source)) := by
  rw [Source.isValidUTF8_iff, ← Source.forall_not_offends_iff,
    ← Accumulator.exists_value_pushLines_eq_ok_iff]
  simp only [ofSource_eq_ok_iff]
  constructor
  · rintro ⟨x, a, ha, -⟩
    exact ⟨a, ha⟩
  · rintro ⟨a, ha⟩
    exact ⟨a.finish, a, ha, rfl⟩

/-- The bytes behind the line feed of the first line that offends do not count, neither for the
result nor for the log. -/
theorem ofSource_eq_of_firstOffence {i : Nat} {error : ExtractionError}
    {front after : List UInt8}
    (h : Source.FirstOffence policy
      (Source.lines (front ++ Source.lineFeed :: after).toByteArray) i error)
    (hi : front.count Source.lineFeed = i) (further : List UInt8) :
    ofSource policy (front ++ Source.lineFeed :: further).toByteArray =
      ofSource policy (front ++ Source.lineFeed :: after).toByteArray := by
  -- a line feed divides the lines in front of it from those behind
  have hlines : ∀ rest : List UInt8,
      Source.lines (front ++ Source.lineFeed :: rest).toByteArray =
        front.splitOn Source.lineFeed ++ Text.endedBy Source.lineFeed rest := by
    intro rest
    rw [Source.lines_eq_endedBy, List.toList_data_toByteArray, Text.endedBy_append_cons]
  have hlt : i < (front.splitOn Source.lineFeed).length := by
    rw [Text.length_splitOn]
    omega
  rw [hlines, Source.firstOffence_append_iff hlt] at h
  have hfront := Accumulator.value_pushLines_eq_error_iff.mpr ⟨i, h⟩
  -- the reading stops in the front part, which is the same in both
  unfold ofSource
  rw [hlines, hlines, Accumulator.pushLines_append_of_error hfront,
    Accumulator.pushLines_append_of_error hfront]

theorem value_ofFile {reader : FileReader} {path : String} (h : reader path = .ok source)
    (policy : RedefinitionPolicy) :
    (ofFile reader policy path).value = (ofSource policy source).value.mapError (.inFile path) := by
  unfold ofFile
  rw [h]
  cases hread : (ofSource policy source).value with
  | ok x => simp [hread, Except.mapError]
  | error error =>
      cases error with
      | source fault => simp [hread, Except.mapError, ExtractionError.inFile]
      | file path' fault => simp [hread, Except.mapError, ExtractionError.inFile]
      | redefined r => simp [hread, Except.mapError, ExtractionError.inFile]

/-- A source has an extraction if and only if it is UTF-8 and, where redefinitions are refused, no
code is defined by two of its lines. Otherwise the first line that offends gives the error, and no
byte behind its line feed changes anything. A file is read with the same result, where a fault of the
source becomes one of the file. -/
theorem ofSource_stops_at_firstOffence (source : ByteArray) :
    ((∃ x, (ofSource .overwrite source).value = .ok x) ↔ source.IsValidUTF8) ∧
    ((∃ x, (ofSource .reject source).value = .ok x) ↔
      source.IsValidUTF8 ∧ Source.DefinesOnce (Source.lines source)) ∧
    (∀ policy error, (ofSource policy source).value = .error error ↔
      ∃ i, Source.FirstOffence policy (Source.lines source) i error) ∧
    (∀ policy i error front after further,
      Source.FirstOffence policy (Source.lines source) i error →
      source = (front ++ Source.lineFeed :: after).toByteArray →
      front.count Source.lineFeed = i →
      ofSource policy (front ++ Source.lineFeed :: further).toByteArray = ofSource policy source) ∧
    ∀ reader policy path, reader path = .ok source →
      (ofFile reader policy path).value =
        (ofSource policy source).value.mapError (.inFile path) := by
  refine ⟨?_, ?_, fun _ _ => ofSource_eq_error_iff_firstOffence, ?_, ?_⟩
  · rw [exists_ofSource_eq_ok_iff]
    simp
  · rw [exists_ofSource_eq_ok_iff]
    simp
  · intro policy i error front after further h hsource hi
    subst hsource
    exact ofSource_eq_of_firstOffence h hi further
  · intro reader policy path h
    exact value_ofFile h policy

/-- A code is named again in front of a line that is no text. Read strictly, the source is refused
for the second name, whatever follows it; otherwise it is refused for the bytes. -/
theorem ofSource_stops_at_firstOffence_second_name :
    let clauses := "opname(1) -> {label,1};\nopname(1) -> {lbl,1};".toUTF8.data.toList
    let source := (clauses ++ Source.lineFeed :: [0xff, Source.lineFeed]).toByteArray
    (∀ further, (ofSource .reject (clauses ++ Source.lineFeed :: further).toByteArray).value =
      .error (.redefined
        ⟨⟨1, "opname(1) -> {label,1};", 1, "LABEL"⟩, ⟨2, "opname(1) -> {lbl,1};", 1, "LBL"⟩⟩)) ∧
    (∃ i, Source.FirstOffence .overwrite (Source.lines source) i (.source .notUtf8)) ∧
    (ofFile (fun _ => .ok source) .overwrite "genop.tab").value =
      .error (.file "genop.tab" .notUtf8) := by
  intro clauses source
  rcases ofSource_stops_at_firstOffence source with ⟨-, -, herror, hbehind, hfile⟩
  have hdecode : ((Source.lines source)[0]?.bind Source.decodeLine?).isSome := rfl
  have hfirst : Source.FirstOffence .reject (Source.lines source) 1 (.redefined
      ⟨⟨1, "opname(1) -> {label,1};", 1, "LABEL"⟩, ⟨2, "opname(1) -> {lbl,1};", 1, "LBL"⟩⟩) := by
    refine ⟨.redefined (j := 0) rfl (by decide) rfl rfl rfl, ?_⟩
    -- the line in front of it is text and has no line in front of itself to repeat
    intro j hj other hoffends
    obtain rfl : j = 0 := by omega
    cases hoffends with
    | undecodable hbytes hinvalid =>
        rw [hbytes] at hdecode
        exact hinvalid (Source.decodeLine?_isSome_iff.mp hdecode)
    | redefined _ hj' => exact absurd hj' (Nat.not_lt_zero _)
  have hreject := (herror .reject _).mpr ⟨1, hfirst⟩
  have hoverwrite : (ofSource .overwrite source).value = .error (.source .notUtf8) := rfl
  refine ⟨?_, (herror .overwrite _).mp hoverwrite, ?_⟩
  · intro further
    rw [hbehind .reject 1 _ clauses _ further hfirst rfl (by decide)]
    exact hreject
  · rw [hfile _ .overwrite _ rfl, hoverwrite]
    rfl

end Extraction

end OpcodeRegistry
