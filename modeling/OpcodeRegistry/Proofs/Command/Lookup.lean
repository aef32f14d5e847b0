import OpcodeRegistry.Command.Run
import OpcodeRegistry.Proofs.Architecture.Agreement
import OpcodeRegistry.Proofs.Command.Query
import OpcodeRegistry.Proofs.Listing.Fields
import OpcodeRegistry.Proofs.Listing.Lines

/-! # Lookups

A query that is read as a code begins with a digit, and no name does, so each query is answered in
one of two ways: by the canonical entry of a code, or by the entry of a name. Every line that a
lookup or a listing prints leads back to its code, since either of its numbers spells it.
-/

namespace OpcodeRegistry

open Text

namespace Query

variable {query : String} {c : Code} {t : Table}

/-! ## Codes and names -/

/-- The query begins with a decimal digit. -/
def BeginsWithDigit (query : String) : Prop :=
  ∃ d ∈ query.toList.head?, d.isDigit = true

theorem code?_of_spells (h : Spells query c) : code? query = some c := by
  cases hmark : hexDigits? query.toList with
  | none => exact (code?_of_unmarked hmark).mpr ((spells_iff_of_unmarked hmark).mp h)
  | some digits =>
      exact (code?_of_marked hmark).mpr (Or.inl ((spells_iff_of_marked hmark).mp h))

theorem code?_of_spellsSigned (h : SpellsSigned query c) : code? query = some c := by
  rcases spellsSigned_iff.mp h with ⟨digits, hmark, hdigits⟩
  exact (code?_of_marked hmark).mpr (Or.inr ⟨digits, rfl, hdigits⟩)

theorem code?_of_either (h : Spells query c ∨ SpellsSigned query c) : code? query = some c := by
  rcases h with hspells | hsigned
  · exact code?_of_spells hspells
  · exact code?_of_spellsSigned hsigned

theorem code?_eq_none (h : ∀ c, ¬ Spells query c ∧ ¬ SpellsSigned query c) :
    code? query = none := by
  rw [Option.eq_none_iff_forall_ne_some]
  intro c hc
  cases hmark : hexDigits? query.toList with
  | none => exact (h c).1 (Spells.decimal ((code?_of_unmarked hmark).mp hc))
  | some digits =>
      have hmarked := hexDigits?_eq_some_iff.mp hmark
      rcases (code?_of_marked hmark).mp hc with hdigits | ⟨rest, hplus, hrest⟩
      · exact (h c).1 (Spells.hexadecimal hmarked hdigits)
      · rw [hplus] at hmark
        exact (h c).2 (spellsSigned_iff.mpr ⟨rest, hmark, hrest⟩)

/-- What is read as a code begins with a digit, be it the zero of a mark. -/
theorem beginsWithDigit_of_code? (h : code? query = some c) : BeginsWithDigit query := by
  unfold BeginsWithDigit
  cases hmark : hexDigits? query.toList with
  | none =>
      have hdecimal := (code?_of_unmarked hmark).mp h
      obtain ⟨d, rest, hquery⟩ := List.exists_cons_of_ne_nil hdecimal.1
      have hdigit := hdecimal.2.1 d (by simp [hquery])
      exact ⟨d, by simp [hquery], hdigit⟩
  | some digits =>
      rcases hexDigits?_eq_some_iff.mp hmark with hquery | hquery
      · exact ⟨'0', by simp [hquery], by decide⟩
      · exact ⟨'0', by simp [hquery], by decide⟩

/-- No mnemonic begins with a digit. -/
theorem not_beginsWithDigit_of_isMnemonic {name : String} (h : IsMnemonic name) :
    ¬ BeginsWithDigit name := by
  rcases h with ⟨a, hhead, hupper, -⟩
  rintro ⟨d, hd, hdigit⟩
  have had : a = d := Option.some.inj (hhead.symm.trans hd)
  rw [had] at hupper
  exact not_isUpper_of_isDigit hdigit hupper

theorem code?_of_isMnemonic {name : String} (h : IsMnemonic name) : code? name = none := by
  rw [Option.eq_none_iff_forall_ne_some]
  intro c hc
  exact not_beginsWithDigit_of_isMnemonic h (beginsWithDigit_of_code? hc)

/-- The hexadecimal number of a line spells its code. -/
theorem spells_hex (c : Code) : Spells ("0x" ++ hex 2 c.toNat) c := by
  have hvalue := valueOf?_numeral (by decide : 1 < 16) (by decide) 2 c.toNat
  refine Spells.hexadecimal (Or.inl ?_) (valueOf?_sixteen_eq_some_iff.mp hvalue)
  simp [hex]

/-- The decimal number of a line spells its code. -/
theorem spells_decimal (c : Code) : Spells (decimal 3 c.toNat) c := by
  have hvalue := valueOf?_numeral (by decide : 1 < 10) (by decide) 3 c.toNat
  apply Spells.decimal
  rw [decimal, String.toList_ofList]
  exact valueOf?_ten_eq_some_iff.mp hvalue

/-! ## Answers -/

theorem answer?_of_code? (h : code? query = some c) :
    answer? t query = (t.mnemonicOf? c).map fun mnemonic => Listing.plainLine mnemonic c 0 := by
  unfold answer?
  rw [h]

theorem answer?_of_name (h : code? query = none) :
    answer? t query = (t.get? query).map entryLine := by
  unfold answer?
  rw [h]

/-- The line of an entry is a plain line, with a note behind it or without. -/
theorem exists_entryLine_eq (e : Entry) :
    ∃ note : String, (∀ d ∈ note.toList.head?, d = ' ') ∧
      entryLine e = Listing.plainLine e.mnemonic e.code 0 ++ note := by
  unfold entryLine
  cases e.aliasOf with
  | none => exact ⟨"", by simp, by simp⟩
  | some canonical =>
      refine ⟨" (alias of " ++ canonical ++ ")", by simp, ?_⟩
      simp [toString, String.append_assoc]

end Query

/-! ## Printing -/

/-- The outcome is a success that prints one line. -/
structure Outcome.Prints (o : Outcome) (line : String) : Prop where
  output : o.output = line ++ "\n"
  success : o.success = true

namespace Command

variable {architecture : Architecture} {query line : String}

theorem runLookup_of_none (h : Query.answer? architecture.table query = none) :
    (runLookup architecture query).output = "" ∧
      (runLookup architecture query).success = false := by
  unfold runLookup
  rw [h]
  exact ⟨rfl, rfl⟩

/-- A lookup that succeeds has an answer. -/
theorem exists_answer_of_success (h : (runLookup architecture query).success = true) :
    ∃ line, Query.answer? architecture.table query = some line := by
  cases hanswer : Query.answer? architecture.table query with
  | none =>
      rw [(runLookup_of_none hanswer).2] at h
      exact absurd h (by decide)
  | some line => exact ⟨line, rfl⟩

/-- A lookup prints the line that answers the query. -/
theorem runLookup_prints_iff : (runLookup architecture query).Prints line ↔
    Query.answer? architecture.table query = some line := by
  constructor
  · intro h
    rcases exists_answer_of_success h.success with ⟨answer, hanswer⟩
    have houtput := h.output
    unfold runLookup at houtput
    rw [hanswer] at houtput
    rw [hanswer, (String.append_left_inj "\n").mp houtput]
  · intro h
    unfold runLookup
    rw [h]
    exact ⟨rfl, rfl⟩

/-- On the command line a lookup goes to the architecture of the label. -/
theorem run_lookup_of_ofLabel {label : String} (h : Architecture.ofLabel label = .ok architecture)
    (reader : FileReader) (query : String) :
    ((lookup label query).run reader).output = (runLookup architecture query).output ∧
      ((lookup label query).run reader).success = (runLookup architecture query).success := by
  unfold run withArchitecture
  simp only [h]
  exact ⟨rfl, rfl⟩

end Command

/-! ## Lookups in an architecture -/

namespace Architecture

open Command Listing

/-- The query is answered with the line of the canonical entry of the code, without a note. -/
def PrintsCanonical (a : Architecture) (query : String) (c : Code) : Prop :=
  ∃ e ∈ a.table.toList, e.aliasOf = none ∧ e.code = c ∧
    (runLookup a query).Prints (plainLine e.mnemonic c 0)

/-- The numbers of the line are those of a code, and either of them, asked for, is answered with the
canonical entry of that code. -/
def LeadsBack (a : Architecture) (line : String) : Prop :=
  ∃ e ∈ a.table.toList, numberFields line = ["0x" ++ hex 2 e.code.toNat, decimal 3 e.code.toNat] ∧
    ∀ field ∈ numberFields line, a.PrintsCanonical field e.code

/-- What asking an architecture for its opcodes comes to. -/
structure AnswersLookups (a : Architecture) : Prop where
  code_success_iff : ∀ query c, Query.Spells query c ∨ Query.SpellsSigned query c →
    ((runLookup a query).success = true ↔ ∃ e ∈ a.table.toList, e.code = c)
  /-- It is answered with the canonical entry, in whatever way it spells the code. -/
  code_prints : ∀ query c, Query.Spells query c ∨ Query.SpellsSigned query c →
    (runLookup a query).success = true → a.PrintsCanonical query c
  canonical_prints : ∀ e ∈ a.table.toList, e.aliasOf = none →
    (runLookup a e.mnemonic).Prints (plainLine e.mnemonic e.code 0)
  /-- A query by an alias is answered with its own entry, and a note says what it is an alias of. -/
  alias_prints : ∀ e ∈ a.table.toList, ∀ canonical, e.aliasOf = some canonical →
    (runLookup a e.mnemonic).Prints
      (plainLine e.mnemonic e.code 0 ++ " (alias of " ++ canonical ++ ")")
  /-- What begins with a digit and is no code prints nothing and fails. -/
  digit_fails : ∀ query, Query.BeginsWithDigit query →
    (∀ c, ¬ Query.Spells query c ∧ ¬ Query.SpellsSigned query c) →
    (runLookup a query).output = "" ∧ (runLookup a query).success = false
  answer_leads_back : ∀ query line, (runLookup a query).Prints line → a.LeadsBack line
  listing_leads_back : ∀ line ∈ linesOf (runList a false).output, a.LeadsBack line

variable {a : Architecture} {width : CodeWidth} {declarations : List Entry} {query : String}
  {c : Code}

/-- A query for the code of an entry is answered with the canonical entry of the code. -/
theorem printsCanonical_of_code? (hbuild : Table.build width declarations = .ok a.table)
    (h : Query.code? query = some c) (hc : ∃ e ∈ a.table.toList, e.code = c) :
    a.PrintsCanonical query c := by
  rcases hc with ⟨e, he, rfl⟩
  rcases (Table.accepted_toList hbuild).exists_canonical he with ⟨d, hd, hcanonical, hcode, -⟩
  have hmnemonic := (Table.mnemonicOf?_eq_some_iff hbuild).mpr ⟨d, hd, hcanonical, hcode, rfl⟩
  refine ⟨d, hd, hcanonical, hcode, runLookup_prints_iff.mpr ?_⟩
  rw [Query.answer?_of_code? h, hmnemonic]
  rfl

/-- A query for a code succeeds if and only if some entry has the code. -/
theorem success_iff_of_code? (hbuild : Table.build width declarations = .ok a.table)
    (h : Query.code? query = some c) :
    (runLookup a query).success = true ↔ ∃ e ∈ a.table.toList, e.code = c := by
  constructor
  · intro hsuccess
    rcases exists_answer_of_success hsuccess with ⟨line, hline⟩
    rw [Query.answer?_of_code? h, Option.map_eq_some_iff] at hline
    rcases hline with ⟨m, hm, -⟩
    rcases (Table.mnemonicOf?_eq_some_iff hbuild).mp hm with ⟨e, he, -, hcode, -⟩
    exact ⟨e, he, hcode⟩
  · intro hc
    rcases printsCanonical_of_code? hbuild h hc with ⟨_, _, _, _, hprints⟩
    exact hprints.success

/-- A query by the name of an entry is answered with the line of the entry. -/
theorem answer?_mnemonic (hbuild : Table.build width declarations = .ok a.table) {e : Entry}
    (he : e ∈ a.table.toList) : Query.answer? a.table e.mnemonic = some (Query.entryLine e) := by
  have hname := (Table.accepted_toList hbuild).isMnemonic e he
  have hget := (Table.get?_eq_some_iff hbuild).mpr ⟨he, rfl⟩
  rw [Query.answer?_of_name (Query.code?_of_isMnemonic hname), hget]
  rfl

/-- A line of an entry leads back, however it is filled up and whatever note it has. -/
theorem leadsBack_noted (hbuild : Table.build width declarations = .ok a.table) {e : Entry}
    (he : e ∈ a.table.toList) {note : String} (hnote : ∀ d ∈ note.toList.head?, d = ' ')
    (pad : Nat) : a.LeadsBack (plainLine e.mnemonic e.code pad ++ note) := by
  have hname := (Table.accepted_toList hbuild).isMnemonic e he
  have hfields := numberFields_plainLine (isUpperWord_of_isMnemonic hname) hnote e.code pad
  refine ⟨e, he, hfields, ?_⟩
  intro field hfield
  -- both numbers of the line are queries that spell its code
  have hspells : Query.Spells field e.code := by
    rw [hfields] at hfield
    simp only [List.mem_cons, List.not_mem_nil, or_false] at hfield
    rcases hfield with rfl | rfl
    · exact Query.spells_hex e.code
    · exact Query.spells_decimal e.code
  exact printsCanonical_of_code? hbuild (Query.code?_of_spells hspells) ⟨e, he, rfl⟩

theorem leadsBack_plainLine (hbuild : Table.build width declarations = .ok a.table) {e : Entry}
    (he : e ∈ a.table.toList) (pad : Nat) : a.LeadsBack (plainLine e.mnemonic e.code pad) := by
  have hempty : ∀ d ∈ "".toList.head?, d = ' ' := by simp
  have hback := leadsBack_noted hbuild he hempty pad
  rwa [String.append_empty] at hback

/-- Whatever answers a query is the line of an entry. -/
theorem leadsBack_of_prints (hbuild : Table.build width declarations = .ok a.table) {line : String}
    (h : (runLookup a query).Prints line) : a.LeadsBack line := by
  have hanswer := runLookup_prints_iff.mp h
  cases hcode : Query.code? query with
  -- a query by code is answered with the canonical entry and without a note
  | some c =>
      rw [Query.answer?_of_code? hcode, Option.map_eq_some_iff] at hanswer
      rcases hanswer with ⟨m, hm, rfl⟩
      rcases (Table.mnemonicOf?_eq_some_iff hbuild).mp hm with ⟨e, he, -, rfl, rfl⟩
      exact leadsBack_plainLine hbuild he 0
  -- a query by name is answered with the entry of the name, the note of an alias included
  | none =>
      rw [Query.answer?_of_name hcode, Option.map_eq_some_iff] at hanswer
      rcases hanswer with ⟨e, hget, rfl⟩
      rcases Query.exists_entryLine_eq e with ⟨note, hnote, hline⟩
      rw [hline]
      exact leadsBack_noted hbuild ((Table.get?_eq_some_iff hbuild).mp hget).1 hnote 0

/-- Each line of the listing is the line of an entry. -/
theorem leadsBack_of_mem_listing (hbuild : Table.build width declarations = .ok a.table)
    {line : String} (h : line ∈ linesOf (runList a false).output) : a.LeadsBack line := by
  have hnames : ∀ p ∈ a.table.toList.map fun e => (e.mnemonic, e.code), IsUpperWord p.1 := by
    intro p hp
    rcases List.mem_map.mp hp with ⟨e, he, rfl⟩
    exact isUpperWord_of_isMnemonic ((Table.accepted_toList hbuild).isMnemonic e he)
  have houtput : (runList a false).output =
      render (a.table.toList.map fun e => (e.mnemonic, e.code)) .plain true := rfl
  rw [houtput, linesOf_render hnames, List.map_map] at h
  rcases List.mem_map.mp h with ⟨e, he, rfl⟩
  exact leadsBack_plainLine hbuild he _

/-- Whatever declarations its table is built from, an architecture answers each query that spells a
code with the canonical entry of the code, each name with the entry of the name, and nothing else
that begins with a digit; what it prints leads back. The program answers for the architecture of a
label. -/
theorem answersLookups (hbuild : Table.build width declarations = .ok a.table) :
    a.AnswersLookups ∧ ∀ label, ofLabel label = .ok a → ∀ (reader : FileReader) (query : String),
      ((lookup label query).run reader).output = (runLookup a query).output ∧
        ((lookup label query).run reader).success = (runLookup a query).success := by
  refine ⟨?_, fun label hlabel reader query => run_lookup_of_ofLabel hlabel reader query⟩
  refine
    { code_success_iff := ?_
      code_prints := ?_
      canonical_prints := ?_
      alias_prints := ?_
      digit_fails := ?_
      answer_leads_back := fun _ _ h => leadsBack_of_prints hbuild h
      listing_leads_back := fun _ h => leadsBack_of_mem_listing hbuild h }
  · intro query c h
    exact success_iff_of_code? hbuild (Query.code?_of_either h)
  · intro query c h hsuccess
    have hcode := Query.code?_of_either h
    exact printsCanonical_of_code? hbuild hcode ((success_iff_of_code? hbuild hcode).mp hsuccess)
  · intro e he hcanonical
    rw [runLookup_prints_iff, answer?_mnemonic hbuild he]
    simp [Query.entryLine, hcanonical]
  · intro e he canonical halias
    rw [runLookup_prints_iff, answer?_mnemonic hbuild he]
    simp [Query.entryLine, halias, toString, String.append_assoc]
  · -- what is no code is taken as a name, and no name begins with a digit
    intro query hdigit hno
    apply runLookup_of_none
    rw [Query.answer?_of_name (Query.code?_eq_none hno), Option.map_eq_none_iff,
      Table.get?_eq_none_iff hbuild]
    rintro e he rfl
    exact Query.not_beginsWithDigit_of_isMnemonic ((Table.accepted_toList hbuild).isMnemonic e he)
      hdigit

/-- The slice family of the Python machine: a canonical mnemonic and its first alias. -/
theorem exists_pyVm_slice : ∃ a declarations, ofLabel "pyvm" = .ok a ∧
    Table.build .byte declarations = .ok a.table ∧ ⟨"SLICE", 30, none⟩ ∈ a.table.toList ∧
    ⟨"SLICE_0", 30, some "SLICE"⟩ ∈ a.table.toList := by
  rcases exists_ofLabel (show "pyvm" ∈ labels by decide) with ⟨a, ha⟩
  have htable : OpcodeSet.table PyOpcode = .ok a.table := table_of_ofTable ha
  exact ⟨a, _, ha, htable, (OpcodeSet.mem_toList_iff_of_table htable).mpr ⟨.slice, rfl⟩,
    (OpcodeSet.mem_toList_iff_of_table htable).mpr ⟨.slice0, rfl⟩⟩

/-- The code of the family is answered with its canonical mnemonic, the alias with a note, and a mark
without digits not at all. -/
theorem answersLookups_slice_family : ∃ a, ofLabel "pyvm" = .ok a ∧
    (runLookup a "0X001E").output = "SLICE = 0x1e # 030\n" ∧
    (runLookup a "SLICE_0").output = "SLICE_0 = 0x1e # 030 (alias of SLICE)\n" ∧
    (runLookup a "0x").success = false := by
  rcases exists_pyVm_slice with ⟨a, declarations, ha, hbuild, hslice, hslice0⟩
  have hanswers := (answersLookups hbuild).1
  refine ⟨a, ha, ?_, ?_, ?_⟩
  · have hdigits : IsHexadecimal ['0', '0', '1', 'E'] 30 :=
      ⟨by simp, by simp [Char.isHexDigit], by decide⟩
    have hspells : Query.Spells "0X001E" 30 := Query.Spells.hexadecimal (Or.inr rfl) hdigits
    have hsuccess := (hanswers.code_success_iff _ _ (Or.inl hspells)).mpr ⟨_, hslice, rfl⟩
    rcases hanswers.code_prints _ _ (Or.inl hspells) hsuccess with ⟨e, he, hcanonical, hcode, hprints⟩
    obtain rfl := (Table.accepted_toList hbuild).owner_unique he hslice hcanonical rfl hcode
    exact hprints.output
  · exact (hanswers.alias_prints _ hslice0 _ rfl).output
  · refine (hanswers.digit_fails "0x" ⟨'0', rfl, by decide⟩ ?_).2
    -- a mark and nothing else is no numeral, with a sign or without
    have hmark : Query.hexDigits? "0x".toList = some [] := rfl
    intro c
    constructor
    · intro hspells
      exact ((Query.spells_iff_of_marked hmark).mp hspells).1 rfl
    · intro hsigned
      rcases Query.spellsSigned_iff.mp hsigned with ⟨digits, hdigits, -⟩
      rw [hmark] at hdigits
      exact absurd hdigits (by simp)

/-- A query with a plus sign begins with a digit and spells no code, and yet it is answered. -/
theorem prints_signed : ∃ a, ofLabel "pyvm" = .ok a ∧ Query.BeginsWithDigit "0x+1e" ∧
    (∀ c, ¬ Query.Spells "0x+1e" c) ∧ (runLookup a "0x+1e").Prints "SLICE = 0x1e # 030" := by
  rcases exists_pyVm_slice with ⟨a, declarations, ha, hbuild, hslice, -⟩
  have hmark : Query.hexDigits? "0x+1e".toList = some "+1e".toList := rfl
  refine ⟨a, ha, ⟨'0', rfl, by decide⟩, ?_, ?_⟩
  · intro c hspells
    exact Query.not_isHexadecimal_plus ((Query.spells_iff_of_marked hmark).mp hspells)
  · have hread : Query.code? "0x+1e" = some 30 := by decide
    have hmnemonic := (Table.mnemonicOf?_eq_some_iff hbuild).mpr ⟨_, hslice, rfl, rfl, rfl⟩
    rw [runLookup_prints_iff, Query.answer?_of_code? hread, hmnemonic]
    decide

end Architecture

end OpcodeRegistry
