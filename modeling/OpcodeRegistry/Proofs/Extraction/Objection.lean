import OpcodeRegistry.Proofs.Extraction.Table
import OpcodeRegistry.Proofs.Table.Offence
import OpcodeRegistry.Proofs.Table.Order

/-! # What is wrong with an extraction

Only three things can keep an extraction from being a table: a mnemonic that begins with a digit or
an underscore, a code that is too large, and a mnemonic of two codes. `Objection` says so in terms
of the definitions and their codes. All else is ruled out where the definitions come from: an atom
has a character, no two definitions in force have one code, and none declares an alias.

The definitions are declared by ascending code, so the declarations in front of one are those of
smaller code, and the first that does not fit them is the one of smallest code with an objection.
-/

namespace OpcodeRegistry

/-- What a definition declares: a canonical mnemonic. -/
def Definition.declaration (d : Definition) : Entry :=
  { mnemonic := d.mnemonic, code := d.code }

/-- The errors that are never about an extraction: no mnemonic is empty, no code has two owners, and
there are no aliases. -/
def TableError.IsForeign : TableError → Prop
  | emptyMnemonic .. | codeCollision .. => True
  | unknownCanonical .. | aliasOfAlias .. | aliasCodeMismatch .. => True
  | invalidMnemonic .. | codeOutOfRange .. | duplicateMnemonic .. => False

namespace Extraction

/-- What is wrong with the definition `d`, given the definitions of smaller code. -/
inductive Objection (x : Extraction) (width : CodeWidth) (d : Definition) : TableError → Prop where
  | invalidMnemonic (h : BeginsWith isDigitOrUnderscore d.mnemonic) :
      Objection x width d (.invalidMnemonic d.mnemonic)
  | codeOutOfRange (hname : ¬ BeginsWith isDigitOrUnderscore d.mnemonic)
      (h : 2 ^ width.bits ≤ d.code.toNat) :
      Objection x width d (.codeOutOfRange d.mnemonic d.code width)
  | duplicateMnemonic (hname : ¬ BeginsWith isDigitOrUnderscore d.mnemonic)
      (hcode : d.code.toNat < 2 ^ width.bits) {e : Definition} (he : e ∈ x.definitions)
      (hlt : e.code < d.code) (h : e.mnemonic = d.mnemonic) :
      Objection x width d (.duplicateMnemonic d.mnemonic)

variable {policy : RedefinitionPolicy} {source : ByteArray} {x : Extraction} {width : CodeWidth}
  {before after : List Definition} {d e : Definition} {error : TableError}

/-! ## The definitions in order -/

theorem pairwise_definitions (h : (ofSource policy source).value = .ok x) :
    x.definitions.Pairwise fun d e => d.code < e.code := by
  have hx := pairwise_entries h
  unfold entries at hx
  rwa [List.pairwise_map] at hx

/-- In front of a definition stand those of smaller code. -/
theorem mem_before_iff (h : (ofSource policy source).value = .ok x)
    (hsplit : x.definitions = before ++ d :: after) :
    e ∈ before ↔ e ∈ x.definitions ∧ e.code < d.code := by
  have hx := pairwise_definitions h
  rw [hsplit] at hx ⊢
  exact mem_front_iff Definition.code hx

/-- What does not begin with a digit or an underscore is a mnemonic. -/
theorem isMnemonic_iff_of_mem (h : (ofSource policy source).value = .ok x)
    (hd : d ∈ x.definitions) :
    IsMnemonic d.mnemonic ↔ ¬ BeginsWith isDigitOrUnderscore d.mnemonic := by
  rw [← (isUpperWord_of_mem_definitions h d hd).not_isMnemonic_iff, not_not]

/-! ## One definition -/

/-- There is no objection to a definition with a mnemonic of its own and a code of the width. -/
theorem forall_not_objection_iff :
    (∀ error, ¬ Objection x width d error) ↔
      ¬ BeginsWith isDigitOrUnderscore d.mnemonic ∧ d.code.toNat < 2 ^ width.bits ∧
        ∀ e ∈ x.definitions, e.code < d.code → e.mnemonic ≠ d.mnemonic := by
  constructor
  · intro hnone
    -- an objection presupposes that there is none before it, so they are ruled out in their order
    have hname : ¬ BeginsWith isDigitOrUnderscore d.mnemonic := fun hname =>
      hnone _ (.invalidMnemonic hname)
    have hcode : d.code.toNat < 2 ^ width.bits := by
      by_contra hcode
      exact hnone _ (.codeOutOfRange hname (Nat.not_lt.mp hcode))
    refine ⟨hname, hcode, ?_⟩
    intro e he hlt hsame
    exact hnone _ (.duplicateMnemonic hname hcode he hlt hsame)
  · intro hgood error hobjection
    obtain ⟨hname, hcode, hnew⟩ := hgood
    cases hobjection with
    | invalidMnemonic h => exact hname h
    | codeOutOfRange _ h => exact Nat.not_lt.mpr h hcode
    | duplicateMnemonic _ _ he hlt h => exact hnew _ he hlt h

/-- A definition is declared behind those of smaller code, and fits them if there is no objection to
it. -/
theorem fits_iff_forall_not_objection (h : (ofSource policy source).value = .ok x)
    (hsplit : x.definitions = before ++ d :: after) :
    Fits width (before.map Definition.declaration) d.declaration ↔
      ∀ error, ¬ Objection x width d error := by
  have hd : d ∈ x.definitions := by simp [hsplit]
  rw [forall_not_objection_iff, ← isMnemonic_iff_of_mem h hd, ← CodeWidth.mem_iff]
  constructor
  · intro hfits
    refine ⟨hfits.isMnemonic, hfits.code_mem, ?_⟩
    intro e he hlt
    have hbefore := (mem_before_iff h hsplit).mpr ⟨he, hlt⟩
    exact hfits.new_name e.declaration (List.mem_map_of_mem hbefore)
  · intro hgood
    obtain ⟨hname, hcode, hnew⟩ := hgood
    refine ⟨hname, hcode, ?_, ?_, ?_⟩
    · -- of a smaller code are just the definitions in front
      intro a ha
      obtain ⟨e, he, rfl⟩ := List.mem_map.mp ha
      obtain ⟨hmem, hlt⟩ := (mem_before_iff h hsplit).mp he
      exact hnew e hmem hlt
    · -- a smaller code is another one
      intro _ a ha _
      obtain ⟨e, he, rfl⟩ := List.mem_map.mp ha
      exact UInt32.ne_of_lt ((mem_before_iff h hsplit).mp he).2
    · intro name halias
      exact absurd halias (by simp [Definition.declaration])

/-- Behind the definitions of smaller code, what a definition is refused for is the objection to
it. -/
theorem isOffence_iff_objection (h : (ofSource policy source).value = .ok x)
    (hsplit : x.definitions = before ++ d :: after) :
    IsOffence width (before.map Definition.declaration) d.declaration error ↔
      Objection x width d error := by
  have hd : d ∈ x.definitions := by simp [hsplit]
  have hmnemonic := isMnemonic_iff_of_mem h hd
  have hword := isUpperWord_of_mem_definitions h d hd
  constructor
  · intro hoffence
    -- an offence of some rank leaves all rules of smaller rank unbroken
    have hname : 2 ≤ error.rank → ¬ BeginsWith isDigitOrUnderscore d.mnemonic := fun hrank =>
      hmnemonic.mp (hoffence.isMnemonic hrank)
    cases hoffence.breaks with
    | emptyMnemonic hempty => exact absurd (congrArg String.toList hempty) hword.1
    | invalidMnemonic hnot => exact .invalidMnemonic (hword.not_isMnemonic_iff.mp hnot)
    | codeOutOfRange hcode => exact .codeOutOfRange (hname (Nat.le_refl 2)) hcode
    | duplicateMnemonic ha hsame =>
        obtain ⟨e, he, rfl⟩ := List.mem_map.mp ha
        obtain ⟨hmem, hlt⟩ := (mem_before_iff h hsplit).mp he
        have hcode := CodeWidth.mem_iff.mp (hoffence.code_mem (Nat.le_refl 3))
        exact .duplicateMnemonic (hname (Nat.le_succ 2)) hcode hmem hlt hsame
    -- no definition declares an alias
    | unknownCanonical halias _ => exact absurd halias (by simp [Definition.declaration])
    | aliasOfAlias halias _ _ _ => exact absurd halias (by simp [Definition.declaration])
    | aliasCodeMismatch halias _ _ _ => exact absurd halias (by simp [Definition.declaration])
    -- no code is defined twice, and those in front are smaller
    | codeCollision _ ha _ hcode =>
        obtain ⟨e, he, rfl⟩ := List.mem_map.mp ha
        exact absurd hcode (UInt32.ne_of_lt ((mem_before_iff h hsplit).mp he).2)
  · -- each objection says that the rules before its own are kept
    intro hobjection
    cases hobjection with
    | invalidMnemonic hbegins =>
        have hne : d.mnemonic ≠ "" := fun hempty => hword.1 (congrArg String.toList hempty)
        exact ⟨.invalidMnemonic (hword.not_isMnemonic_iff.mpr hbegins),
          fun _ hother => hother.one_le_rank hne⟩
    | codeOutOfRange hname hcode =>
        have hgood : IsMnemonic d.declaration.mnemonic := hmnemonic.mpr hname
        exact ⟨.codeOutOfRange hcode, fun _ hother => hother.two_le_rank hgood⟩
    | duplicateMnemonic hname hcode he hlt hsame =>
        have hgood : IsMnemonic d.declaration.mnemonic := hmnemonic.mpr hname
        have hmem : d.declaration.code ∈ width := CodeWidth.mem_iff.mpr hcode
        have hbefore := (mem_before_iff h hsplit).mpr ⟨he, hlt⟩
        exact ⟨.duplicateMnemonic (List.mem_map_of_mem hbefore) hsame,
          fun _ hother => hother.three_le_rank hgood hmem⟩

/-! ## All definitions -/

/-- The definitions at the front are accepted if there is no objection to any of them. -/
theorem accepted_iff_forall_not_objection (h : (ofSource policy source).value = .ok x)
    (hsplit : x.definitions = before ++ after) :
    Accepted width (before.map Definition.declaration) ↔
      ∀ d ∈ before, ∀ error, ¬ Objection x width d error := by
  rw [Accepted.iff_forall_split]
  constructor
  · intro hall d hd
    -- each definition has its own split of the list, at which it has to fit
    obtain ⟨front, back, rfl⟩ := List.append_of_mem hd
    rw [List.append_assoc, List.cons_append] at hsplit
    rw [← fits_iff_forall_not_objection h hsplit]
    exact hall _ _ (back.map Definition.declaration) (by simp)
  · intro hnone front' a back' hmap
    -- a split of the declarations is one of the definitions
    obtain ⟨front, rest, rfl, rfl, hrest⟩ := List.map_eq_append_iff.mp hmap
    obtain ⟨d, back, rfl, rfl, -⟩ := List.map_eq_cons_iff.mp hrest
    rw [List.append_assoc, List.cons_append] at hsplit
    rw [fits_iff_forall_not_objection h hsplit]
    exact hnone d (by simp)

/-- An extraction is a table if there is no objection to any of its definitions. -/
theorem exists_toTable_iff_forall_not_objection (h : (ofSource policy source).value = .ok x) :
    (∃ t, x.toTable width = .ok t) ↔ ∀ d ∈ x.definitions, ∀ error, ¬ Objection x width d error := by
  rw [← accepted_iff_forall_not_objection h (List.append_nil _).symm]
  unfold toTable
  simp only [Table.build_eq_ok_iff, exists_and_left, exists_eq, and_true]
  rfl

/-- Mnemonics are distinct if no definition has that of a smaller code. -/
theorem nodup_mnemonics_iff (h : (ofSource policy source).value = .ok x) :
    (x.definitions.map Definition.mnemonic).Nodup ↔ ∀ d ∈ x.definitions, ∀ e ∈ x.definitions,
      e.code < d.code → e.mnemonic ≠ d.mnemonic := by
  constructor
  · intro hnodup d hd e he hlt hsame
    have heq := List.inj_on_of_nodup_map hnodup he hd hsame
    rw [heq] at hlt
    exact UInt32.lt_irrefl _ hlt
  · intro hnew
    apply List.pairwise_map.mpr
    refine (pairwise_definitions h).imp_of_mem ?_
    intro e d he hd hlt
    exact hnew d hd e he hlt

theorem exists_toTable_iff (h : (ofSource policy source).value = .ok x) :
    (∃ t, x.toTable width = .ok t) ↔
      (∀ d ∈ x.definitions, BeginsWith Char.isAlpha d.mnemonic) ∧
      (∀ d ∈ x.definitions, d.code.toNat < 2 ^ width.bits) ∧
      (x.definitions.map Definition.mnemonic).Nodup := by
  have hletter : ∀ d ∈ x.definitions,
      BeginsWith Char.isAlpha d.mnemonic ↔ ¬ BeginsWith isDigitOrUnderscore d.mnemonic := by
    intro d hd
    rw [← (isUpperWord_of_mem_definitions h d hd).isMnemonic_iff]
    exact isMnemonic_iff_of_mem h hd
  simp only [exists_toTable_iff_forall_not_objection h, forall_not_objection_iff,
    nodup_mnemonics_iff h, forall_and, forall₂_congr hletter]

/-- An extraction is refused for the objection to the definition of smallest code that has one. -/
theorem toTable_eq_error_iff (h : (ofSource policy source).value = .ok x) :
    x.toTable width = .error error ↔ ∃ d ∈ x.definitions, Objection x width d error ∧
      ∀ e ∈ x.definitions, e.code < d.code → ∀ error', ¬ Objection x width e error' := by
  unfold toTable
  rw [Table.build_eq_error_iff]
  constructor
  · intro herror
    obtain ⟨before', a, after', hmap, haccepted, hoffence⟩ := herror
    obtain ⟨before, rest, hsplit, rfl, hrest⟩ := List.map_eq_append_iff.mp hmap
    obtain ⟨d, after, rfl, rfl, -⟩ := List.map_eq_cons_iff.mp hrest
    refine ⟨d, by simp [hsplit], (isOffence_iff_objection h hsplit).mp hoffence, ?_⟩
    -- the definitions of smaller code stand in front, where all declarations were accepted
    intro e he hlt
    have hbefore := (mem_before_iff h hsplit).mpr ⟨he, hlt⟩
    exact (accepted_iff_forall_not_objection h hsplit).mp haccepted e hbefore
  · intro hfirst
    obtain ⟨d, hd, hobjection, hnone⟩ := hfirst
    obtain ⟨before, after, hsplit⟩ := List.append_of_mem hd
    refine ⟨before.map Definition.declaration, d.declaration, after.map Definition.declaration, ?_,
      ?_, (isOffence_iff_objection h hsplit).mpr hobjection⟩
    · unfold declarations
      rw [hsplit, List.map_append, List.map_cons]
      rfl
    · apply (accepted_iff_forall_not_objection h hsplit).mpr
      intro e he
      obtain ⟨hmem, hlt⟩ := (mem_before_iff h hsplit).mp he
      exact hnone e hmem hlt

/-- No objection is about an empty mnemonic, an owner of a code or an alias. -/
theorem Objection.not_isForeign (h : Objection x width d error) : ¬ error.IsForeign := by
  cases h with
  | invalidMnemonic _ => exact id
  | codeOutOfRange _ _ => exact id
  | duplicateMnemonic _ _ _ _ _ => exact id

/-- An extraction is a table if each mnemonic begins with a letter, each code can be written in the
width and no mnemonic has two codes; its entries are then those of the table, all of them canonical.
Otherwise it is refused for the objection to the definition of smallest code that has one, given the
definitions of smaller code, and no error but those three is ever given. -/
theorem toTable_first_objection (h : (ofSource policy source).value = .ok x) (width : CodeWidth) :
    ((∃ t, x.toTable width = .ok t) ↔
      (∀ d ∈ x.definitions, BeginsWith Char.isAlpha d.mnemonic) ∧
      (∀ d ∈ x.definitions, d.code.toNat < 2 ^ width.bits) ∧
      (x.definitions.map Definition.mnemonic).Nodup) ∧
    (∀ t, x.toTable width = .ok t →
      t.toList = x.entries.map fun p => { mnemonic := p.1, code := p.2, aliasOf := none }) ∧
    (∀ error, x.toTable width = .error error ↔
      ∃ d ∈ x.definitions, Objection x width d error ∧
        ∀ e ∈ x.definitions, e.code < d.code → ∀ error', ¬ Objection x width e error') ∧
    ∀ error : TableError, error.IsForeign → x.toTable width ≠ .error error := by
  refine ⟨exists_toTable_iff h, ?_, fun error => toTable_eq_error_iff h, ?_⟩
  · intro t ht
    rw [toList_of_toTable (pairwise_entries h) ht]
    unfold declarations entries
    rw [List.map_map]
    rfl
  · -- an error is an objection, and there is none of another kind
    intro error hforeign herror
    obtain ⟨d, -, hobjection, -⟩ := (toTable_eq_error_iff h).mp herror
    exact hobjection.not_isForeign hforeign

/-- The atom with an underscore in front has the largest code. Eight bits are too few for the code
before it, and in nine bits the mnemonic of that one is taken. -/
theorem toTable_first_objection_second_label :
    let source := ("opname(400) -> {_day,1};\n" ++ "opname(300) -> {label,1};\n" ++
      "opname(1) -> {label,1};\n").toUTF8
    let nineBits : CodeWidth := { bits := 9 }
    ∃ x, (ofSource .reject source).value = .ok x ∧
      x.toTable .byte = .error (.codeOutOfRange "LABEL" 300 .byte) ∧
      x.toTable nineBits = .error (.duplicateMnemonic "LABEL") := by
  intro source nineBits
  let label : Definition := ⟨2, "opname(300) -> {label,1};", 300, "LABEL"⟩
  have hsource : ∃ x, (ofSource .reject source).value = .ok x ∧
      x.definitions = [⟨3, "opname(1) -> {label,1};", 1, "LABEL"⟩, label,
        ⟨1, "opname(400) -> {_day,1};", 400, "_DAY"⟩] := ⟨_, rfl, rfl⟩
  obtain ⟨x, hx, hdefinitions⟩ := hsource
  -- there is no objection to the definition of the smallest code in either width
  have hnone : ∀ width ∈ [CodeWidth.byte, nineBits], ∀ e ∈ x.definitions, e.code < label.code →
      ∀ error, ¬ Objection x width e error := by
    simp only [forall_not_objection_iff, hdefinitions]
    decide
  have hlabel : label ∈ x.definitions := by simp [hdefinitions]
  have hlarge : Objection x .byte label (.codeOutOfRange "LABEL" 300 .byte) :=
    .codeOutOfRange (by decide) (by decide)
  have htwice : Objection x nineBits label (.duplicateMnemonic "LABEL") := by
    have hfirst : ⟨3, "opname(1) -> {label,1};", 1, "LABEL"⟩ ∈ x.definitions := by
      simp [hdefinitions]
    exact .duplicateMnemonic (by decide) (by decide) hfirst (by decide) rfl
  refine ⟨x, hx, ?_, ?_⟩
  · apply ((toTable_first_objection hx .byte).2.2.1 _).mpr
    exact ⟨label, hlabel, hlarge, hnone _ (by simp)⟩
  · apply ((toTable_first_objection hx nineBits).2.2.1 _).mpr
    exact ⟨label, hlabel, htwice, hnone _ (by simp)⟩

end Extraction

end OpcodeRegistry
