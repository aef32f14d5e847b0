import OpcodeRegistry.Listing.Render
import OpcodeRegistry.Mnemonic
import OpcodeRegistry.Proofs.Text.Lines
import OpcodeRegistry.Proofs.Text.Scan

/-! # Which mnemonics share a variant name

A variant name shows where a word of the mnemonic starts if the word starts with a letter, since
that is a capital then. It does not show how many underscores stood there, nor that a word starts at
all if it starts with a digit. `normalForm` writes a mnemonic with the underscores that can be told
from its variant name, and two mnemonics share the name if and only if they share that form.
-/

namespace OpcodeRegistry.Listing

/-- The text with an underscore in front if it starts with a character of the class. -/
def underscored (p : Char → Bool) : List Char → List Char
  | [] => []
  | c :: cs => if p c then '_' :: c :: cs else c :: cs

/-- The words in one, each word but the first with an underscore in front if it starts with a
letter. -/
def joined : List (List Char) → List Char
  | [] => []
  | word :: rest => word ++ rest.flatMap (underscored Char.isAlpha)

/-- The mnemonic with no more underscores than its variant name can show. -/
def normalForm (mnemonic : String) : String :=
  String.ofList (joined (words mnemonic))

/-! ## Words -/

/-- One capital letter or digit, or more. -/
structure IsWord (word : List Char) : Prop where
  ne_nil : word ≠ []
  upper_or_digit : ∀ c ∈ word, c.isUpper = true ∨ c.isDigit = true

/-- The words of a text of capital letters, digits and underscores. -/
theorem isWord_of_mem_words {mnemonic : String} (h : ∀ c ∈ mnemonic.toList, isMnemonicChar c = true)
    {word : List Char} (hword : word ∈ words mnemonic) : IsWord word := by
  obtain ⟨hpiece, hne⟩ := List.mem_filter.mp hword
  obtain ⟨hsep, hmem⟩ := Text.of_mem_splitOn hpiece
  refine ⟨by simpa using hne, ?_⟩
  intro c hc
  have hchar := h c (hmem c hc)
  have hunderscore : ¬ c = '_' := by
    rintro rfl
    exact hsep hc
  simpa [isMnemonicChar, hunderscore] using hchar

section Char

variable {c : Char}

theorem isLower_eq_false (h : c.isUpper = true ∨ c.isDigit = true) : ¬ c.isLower = true := by
  rcases h with hupper | hdigit
  · exact fun hlower => not_isUpper_of_isLower hlower hupper
  · exact not_isLower_of_isDigit hdigit

theorem isAlpha_iff_isUpper (h : c.isUpper = true ∨ c.isDigit = true) :
    c.isAlpha = true ↔ c.isUpper = true := by
  change (c.isUpper || c.isLower) = true ↔ _
  rw [Bool.eq_false_iff.mpr (isLower_eq_false h), Bool.or_false]

theorem toUpper_eq (h : c.isUpper = true ∨ c.isDigit = true) : c.toUpper = c :=
  toUpper_of_not_isLower (isLower_eq_false h)

/-- Lowered, it is no capital, but still tells which capital or digit it was. -/
theorem toLower_spec (h : c.isUpper = true ∨ c.isDigit = true) :
    c.toLower.isUpper = false ∧ c.toLower.toUpper = c := by
  by_cases hupper : c.isUpper = true
  · exact ⟨Bool.eq_false_iff.mpr (not_isUpper_of_isLower (isLower_toLower hupper)),
      toUpper_toLower hupper⟩
  · rw [toLower_of_not_isUpper hupper]
    exact ⟨Bool.eq_false_iff.mpr hupper, toUpper_eq h⟩

theorem ne_underscore (h : c.isUpper = true ∨ c.isDigit = true) : c ≠ '_' := by
  rintro rfl
  exact absurd h (by decide)

end Char

/-! ## An underscore in front -/

section Underscored

variable {p : Char → Bool} {s t : List Char}

theorem underscored_append (h : s ≠ []) : underscored p (s ++ t) = underscored p s ++ t := by
  cases s with
  | nil => exact absurd rfl h
  | cons c cs =>
      simp only [List.cons_append, underscored]
      split
      · rfl
      · rfl

theorem mem_underscored {c : Char} (h : c ∈ underscored p s) : c = '_' ∨ c ∈ s := by
  cases s with
  | nil => exact absurd h List.not_mem_nil
  | cons d ds =>
      rw [underscored] at h
      split at h
      · exact List.mem_cons.mp h
      · exact Or.inr h

/-- The text is found again behind the underscore, if one was put in front of it. -/
theorem skipOne_underscored (hs : s.head? ≠ some '_') : Text.skipOne '_' (underscored p s) = s := by
  cases s with
  | nil => rfl
  | cons c cs =>
      rw [underscored]
      split
      · rw [Text.skipOne_cons_self]
      · rw [Text.skipOne_of_head?_ne hs]

/-- Whether an underscore was put in front can be told from the text, if it had none. -/
theorem underscored_inj (hs : s.head? ≠ some '_') (ht : t.head? ≠ some '_') :
    underscored p s = underscored p t ↔ s = t := by
  constructor
  · intro h
    rw [← skipOne_underscored hs, h, skipOne_underscored ht]
  · rintro rfl
    rfl

theorem guarded_eq (s : List Char) : guarded s = underscored Char.isDigit s := by
  cases s with
  | nil => rfl
  | cons c cs => rfl

end Underscored

/-! ## From the capitals to the underscores and back -/

/-- The text with an underscore in front of each capital, and all letters raised. -/
def spread (s : List Char) : List Char :=
  s.flatMap fun c => if c.isUpper then ['_', c] else [c.toUpper]

theorem spread_cons (c : Char) (cs : List Char) :
    spread (c :: cs) = (if c.isUpper then ['_', c] else [c.toUpper]) ++ spread cs := rfl

/-- The text without its underscores. A letter is lowered, except behind an underscore; `capital`
says whether one stands in front. -/
def lowered (capital : Bool) : List Char → List Char
  | [] => []
  | c :: cs =>
    if c = '_' then lowered true cs
    else (if capital then c else c.toLower) :: lowered false cs

section Word

variable {word : List Char} {ws ws' : List (List Char)}

theorem spread_capitalized (h : IsWord word) :
    spread (capitalized word) = underscored Char.isAlpha word := by
  obtain ⟨c, cs, rfl⟩ := List.exists_cons_of_ne_nil h.ne_nil
  have hc := h.upper_or_digit c List.mem_cons_self
  -- the letters behind the first one were lowered, so none of them is a capital
  have hrest : spread (cs.map Char.toLower) = cs := by
    unfold spread
    rw [List.flatMap_map, List.flatMap_congr fun d hd => ?_]
    · exact List.flatMap_singleton' cs
    · obtain ⟨hupper, hraised⟩ := toLower_spec (h.upper_or_digit d (List.mem_cons_of_mem c hd))
      rw [hupper, hraised]
      rfl
  rw [capitalized, underscored, spread_cons, hrest, toUpper_eq hc, toUpper_eq hc]
  simp only [isAlpha_iff_isUpper hc]
  split
  · rfl
  · rfl

theorem spread_flatMap (h : ∀ w ∈ ws, IsWord w) :
    spread (ws.flatMap capitalized) = ws.flatMap (underscored Char.isAlpha) := by
  unfold spread
  rw [List.flatMap_assoc]
  exact List.flatMap_congr fun w hw => spread_capitalized (h w hw)

theorem lowered_append (h : ∀ c ∈ word, c.isUpper = true ∨ c.isDigit = true) (rest : List Char) :
    lowered false (word ++ rest) = word.map Char.toLower ++ lowered false rest := by
  induction word with
  | nil => rfl
  | cons c cs ih =>
      have hc := ne_underscore (h c List.mem_cons_self)
      rw [List.cons_append, lowered, if_neg hc, ih fun d hd => h d (List.mem_cons_of_mem c hd)]
      rfl

theorem lowered_underscored (h : IsWord word) (capital : Bool) (rest : List Char) :
    lowered capital (underscored Char.isAlpha word ++ rest) =
      capitalized word ++ lowered false rest := by
  obtain ⟨c, cs, rfl⟩ := List.exists_cons_of_ne_nil h.ne_nil
  have hc := h.upper_or_digit c List.mem_cons_self
  have hcs := lowered_append (fun d hd => h.upper_or_digit d (List.mem_cons_of_mem c hd)) rest
  rw [underscored, capitalized, toUpper_eq hc]
  split
  · -- a letter stands behind the underscore that was put in front of it
    rw [List.cons_append, lowered, if_pos rfl, List.cons_append, lowered, if_neg (ne_underscore hc),
      hcs]
    rfl
  · -- a digit has no case
    rename_i halpha
    have hlower : c.toLower = c := by
      rw [isAlpha_iff_isUpper hc] at halpha
      exact toLower_of_not_isUpper halpha
    rw [List.cons_append, lowered, if_neg (ne_underscore hc), hcs, hlower, ite_self]
    rfl

theorem lowered_flatMap (h : ∀ w ∈ ws, IsWord w) (capital : Bool) :
    lowered capital (ws.flatMap (underscored Char.isAlpha)) = ws.flatMap capitalized := by
  induction ws generalizing capital with
  | nil => rfl
  | cons w ws ih =>
      rw [List.flatMap_cons, List.flatMap_cons, lowered_underscored (h w List.mem_cons_self),
        ih fun v hv => h v (List.mem_cons_of_mem w hv)]

theorem flatMap_underscored (h : ∀ w ∈ ws, IsWord w) :
    ws.flatMap (underscored Char.isAlpha) = underscored Char.isAlpha (joined ws) := by
  cases ws with
  | nil => rfl
  | cons w ws =>
      rw [List.flatMap_cons, joined, underscored_append (h w List.mem_cons_self).ne_nil]

end Word

/-! ## Names -/

theorem isWordChar_of_mem_capitalized {word : List Char} (h : IsWord word) :
    ∀ c ∈ capitalized word, isWordChar c = true := by
  obtain ⟨d, ds, rfl⟩ := List.exists_cons_of_ne_nil h.ne_nil
  have hword : ∀ c : Char, c.isUpper = true ∨ c.isDigit = true → isWordChar c = true := by
    intro c hc
    apply isWordChar_of_isMnemonicChar
    simpa [isMnemonicChar] using Or.inl hc
  intro c hc
  rcases List.mem_cons.mp hc with rfl | hc
  · have hd := h.upper_or_digit d List.mem_cons_self
    rw [toUpper_eq hd]
    exact hword d hd
  · rcases List.mem_map.mp hc with ⟨e, he, rfl⟩
    have he := h.upper_or_digit e (List.mem_cons_of_mem d he)
    -- behind the first character a capital is lowered and a digit kept
    by_cases hupper : e.isUpper = true
    · exact isWordChar_iff.mpr (Or.inr (Or.inl (isLower_iff.mp (isLower_toLower hupper))))
    · rw [toLower_of_not_isUpper hupper]
      exact hword e he

/-- A variant name is made of letters, digits and underscores. -/
theorem isWordChar_of_mem_variantName {mnemonic : String}
    (h : ∀ c ∈ mnemonic.toList, isMnemonicChar c = true) :
    ∀ c ∈ (variantName mnemonic).toList, isWordChar c = true := by
  intro c hc
  unfold variantName at hc
  rw [String.toList_ofList, guarded_eq] at hc
  rcases mem_underscored hc with rfl | hc
  · decide
  · rcases List.mem_flatMap.mp hc with ⟨word, hword, hc⟩
    exact isWordChar_of_mem_capitalized (isWord_of_mem_words h hword) c hc

/-- No word starts with an underscore, so neither do words that are written behind one another. -/
theorem head?_joined_ne {ws : List (List Char)} (h : ∀ w ∈ ws, IsWord w) :
    (joined ws).head? ≠ some '_' := by
  cases ws with
  | nil => simp [joined]
  | cons w ws =>
      have hw := h w List.mem_cons_self
      obtain ⟨c, cs, rfl⟩ := List.exists_cons_of_ne_nil hw.ne_nil
      intro hhead
      exact ne_underscore (hw.upper_or_digit c List.mem_cons_self) (Option.some.inj hhead)

theorem head?_flatMap_capitalized_ne {ws : List (List Char)} (h : ∀ w ∈ ws, IsWord w) :
    (ws.flatMap capitalized).head? ≠ some '_' := by
  cases ws with
  | nil => simp
  | cons w ws =>
      have hw := h w List.mem_cons_self
      obtain ⟨c, cs, rfl⟩ := List.exists_cons_of_ne_nil hw.ne_nil
      have hc := hw.upper_or_digit c List.mem_cons_self
      intro hhead
      have hupper : c.toUpper = '_' := Option.some.inj hhead
      rw [toUpper_eq hc] at hupper
      exact ne_underscore hc hupper

/-- The capitals of the words can be told from their underscores, and the other way round. -/
theorem flatMap_capitalized_inj {ws ws' : List (List Char)} (h : ∀ w ∈ ws, IsWord w)
    (h' : ∀ w ∈ ws', IsWord w) :
    ws.flatMap capitalized = ws'.flatMap capitalized ↔ joined ws = joined ws' := by
  rw [← underscored_inj (p := Char.isAlpha) (head?_joined_ne h) (head?_joined_ne h'),
    ← flatMap_underscored h, ← flatMap_underscored h']
  -- `spread` finds the underscores in the capitals, and `lowered` the capitals in the underscores
  constructor
  · intro heq
    rw [← spread_flatMap h, heq, spread_flatMap h']
  · intro heq
    rw [← lowered_flatMap h true, heq, lowered_flatMap h' true]

/-- Two texts of capital letters, digits and underscores share a variant name if and only if they
have the same normal form. -/
theorem variantName_eq_iff {a b : String} (ha : ∀ c ∈ a.toList, isMnemonicChar c = true)
    (hb : ∀ c ∈ b.toList, isMnemonicChar c = true) :
    variantName a = variantName b ↔ normalForm a = normalForm b := by
  have hwords : ∀ w ∈ words a, IsWord w := fun w => isWord_of_mem_words ha
  have hwords' : ∀ w ∈ words b, IsWord w := fun w => isWord_of_mem_words hb
  unfold variantName normalForm
  rw [String.ofList_inj, String.ofList_inj, guarded_eq, guarded_eq,
    underscored_inj (head?_flatMap_capitalized_ne hwords) (head?_flatMap_capitalized_ne hwords'),
    flatMap_capitalized_inj hwords hwords']

end OpcodeRegistry.Listing
