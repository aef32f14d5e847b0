import Mathlib.Data.List.Chain
import OpcodeRegistry.Proofs.Listing.VariantName

/-! # Mnemonics in normal form

In the normal form of a mnemonic one underscore stands between two words if the second one starts
with a letter, and there are no others; `IsTidy` says so of the text itself, without its words. A
normal form is tidy and a tidy mnemonic is its own normal form, so of the mnemonics that share a
variant name one at most is tidy. `recovered` reads the normal form off the name.
-/

namespace OpcodeRegistry.Listing

open Text

/-- Behind an underscore stands neither another one nor a digit. -/
def LettersFollow (s : List Char) : Prop :=
  s.IsChain fun c d => c = '_' → d ≠ '_' ∧ d.isDigit = false

instance (s : List Char) : Decidable (LettersFollow s) :=
  inferInstanceAs (Decidable (s.IsChain fun c d => c = '_' → d ≠ '_' ∧ d.isDigit = false))

/-- Each underscore stands alone between two words, and the second one starts with no digit. -/
structure IsTidy (s : List Char) : Prop where
  leading : s.head? ≠ some '_'
  trailing : s.getLast? ≠ some '_'
  follow : LettersFollow s

/-- The mnemonic that a variant name shows: an underscore goes in front of each capital that is not
the first character, and all letters are raised. What guards a digit at the front is no underscore
of the mnemonic. -/
def recovered (name : String) : String :=
  String.ofList (skipOne '_' (spread (skipOne '_' name.toList)))

/-! ## Underscores at the seams -/

section Tidy

variable {front rest s : List Char}

theorem lettersFollow_of_not_mem (h : '_' ∉ s) : LettersFollow s := by
  apply List.Pairwise.isChain
  apply List.pairwise_of_forall_mem_list
  intro c hc d _ hunderscore
  exact absurd (hunderscore ▸ hc) h

/-- In front of a text, what has no underscore makes no difference. -/
theorem lettersFollow_append_iff (hfront : '_' ∉ front) :
    LettersFollow (front ++ rest) ↔ LettersFollow rest := by
  unfold LettersFollow
  rw [List.isChain_append]
  constructor
  · rintro ⟨-, hrest, -⟩
    exact hrest
  · intro hrest
    refine ⟨lettersFollow_of_not_mem hfront, hrest, ?_⟩
    intro c hc d _ hunderscore
    exact absurd (hunderscore ▸ List.mem_of_mem_getLast? hc) hfront

/-- A text without underscores is tidy. -/
theorem isTidy_of_not_mem (h : '_' ∉ s) : IsTidy s where
  leading hhead := h (List.mem_of_head? hhead)
  trailing hlast := h (List.mem_of_getLast? hlast)
  follow := lettersFollow_of_not_mem h

/-- Text without underscores goes in front of a tidy text as it is. -/
theorem IsTidy.append (hrest : IsTidy rest) (hfront : '_' ∉ front) : IsTidy (front ++ rest) where
  leading := by
    intro hhead
    -- the first character is that of the front, if there is a front
    rcases Option.or_eq_some_iff.mp (List.head?_append.symm.trans hhead) with hhead | ⟨-, hhead⟩
    · exact hfront (List.mem_of_head? hhead)
    · exact hrest.leading hhead
  trailing := by
    intro hlast
    rcases Option.or_eq_some_iff.mp (List.getLast?_append.symm.trans hlast) with hlast | ⟨-, hlast⟩
    · exact hrest.trailing hlast
    · exact hfront (List.mem_of_getLast? hlast)
  follow := (lettersFollow_append_iff hfront).mpr hrest.follow

/-- The first underscore of a tidy text has a word in front of it, and behind it a tidy text that
does not start with a digit. -/
theorem isTidy_append_cons_iff (hfront : '_' ∉ front) :
    IsTidy (front ++ '_' :: rest) ↔
      front ≠ [] ∧ IsTidy rest ∧ ∃ c ∈ rest.head?, c.isDigit = false := by
  constructor
  · intro h
    have hne : front ≠ [] := by
      rintro rfl
      exact h.leading rfl
    have hfollow := (lettersFollow_append_iff hfront).mp h.follow
    obtain ⟨hnext, hrest⟩ := List.isChain_cons.mp hfollow
    have htrailing := h.trailing
    rw [List.getLast?_append_cons] at htrailing
    -- with nothing behind it the underscore would be the last character
    cases rest with
    | nil => exact absurd rfl htrailing
    | cons c cs =>
        obtain ⟨hc, hdigit⟩ := hnext c rfl rfl
        rw [List.getLast?_cons_cons] at htrailing
        refine ⟨hne, ⟨?_, htrailing, hrest⟩, c, rfl, hdigit⟩
        intro hhead
        exact hc (Option.some.inj hhead)
  · rintro ⟨hne, hrest, c, hc, hdigit⟩
    obtain ⟨cs, rfl⟩ := List.head?_eq_some_iff.mp hc
    refine ⟨?_, ?_, (lettersFollow_append_iff hfront).mpr (List.isChain_cons.mpr ⟨?_, hrest.follow⟩)⟩
    · rw [List.head?_append_of_ne_nil front hne]
      intro hhead
      exact hfront (List.mem_of_head? hhead)
    · rw [List.getLast?_append_cons, List.getLast?_cons_cons]
      exact hrest.trailing
    · intro d hd _
      obtain rfl := Option.some.inj hd
      refine ⟨?_, hdigit⟩
      rintro rfl
      exact hrest.leading rfl

end Tidy

/-! ## Normal forms are tidy -/

section Words

variable {ws : List (List Char)} {word : List Char}

theorem IsWord.underscore_not_mem (h : IsWord word) : '_' ∉ word := fun hmem =>
  ne_underscore (h.upper_or_digit _ hmem) rfl

theorem isDigit_eq_false_of_isAlpha {c : Char} (h : c.isAlpha = true) : c.isDigit = false := by
  rw [← Bool.not_eq_true]
  intro hdigit
  rcases Bool.or_eq_true_iff.mp h with hupper | hlower
  · exact not_isUpper_of_isDigit hdigit hupper
  · exact not_isLower_of_isDigit hdigit hlower

/-- A word goes in front of the others with an underscore, unless they start with a digit. -/
theorem joined_cons (h : ∀ w ∈ ws, IsWord w) :
    joined (word :: ws) = word ++ underscored Char.isAlpha (joined ws) := by
  rw [joined, flatMap_underscored h]

theorem isTidy_joined (h : ∀ w ∈ ws, IsWord w) : IsTidy (joined ws) := by
  induction ws with
  | nil => exact isTidy_of_not_mem List.not_mem_nil
  | cons w ws ih =>
      have hw := h w List.mem_cons_self
      have hws : ∀ v ∈ ws, IsWord v := fun v hv => h v (List.mem_cons_of_mem w hv)
      have hrest := ih hws
      rw [joined_cons hws]
      cases hjoined : joined ws with
      | nil => exact (isTidy_of_not_mem List.not_mem_nil).append hw.underscore_not_mem
      | cons c cs =>
          rw [hjoined] at hrest
          rw [underscored]
          -- only a letter gets an underscore in front, and with a digit the words grow together
          split
          · rename_i halpha
            have hdigit := isDigit_eq_false_of_isAlpha halpha
            exact (isTidy_append_cons_iff hw.underscore_not_mem).mpr ⟨hw.ne_nil, hrest, c, rfl, hdigit⟩
          · exact hrest.append hw.underscore_not_mem

end Words

/-! ## Tidy mnemonics are normal forms -/

section Mnemonic

variable {front rest s : List Char} {mnemonic : String}

theorem words_of_not_mem (hne : s ≠ []) (h : '_' ∉ s) : words (String.ofList s) = [s] := by
  unfold words
  rw [String.toList_ofList, List.splitOn_eq_singleton h, List.filter_cons_of_pos (by simpa using hne)]
  rfl

theorem words_append_cons (hne : front ≠ []) (h : '_' ∉ front) :
    words (String.ofList (front ++ '_' :: rest)) = front :: words (String.ofList rest) := by
  unfold words
  rw [String.toList_ofList, String.toList_ofList, List.splitOn_append_cons_self,
    List.splitOn_eq_singleton h, List.singleton_append,
    List.filter_cons_of_pos (by simpa using hne)]

/-- A tidy text is joined again from its words as it was. -/
theorem joined_words (h : ∀ c ∈ s, isMnemonicChar c = true) (htidy : IsTidy s) :
    joined (words (String.ofList s)) = s := by
  -- the text is taken apart at its underscores, from the left
  induction s using endedBy_induction '_' with
  | nil => rfl
  | last s hne hmem => rw [words_of_not_mem hne hmem, joined, List.flatMap_nil, List.append_nil]
  | cons front rest hfront ih =>
      obtain ⟨hne, hrest, c, hc, hdigit⟩ := (isTidy_append_cons_iff hfront).mp htidy
      have hchars : ∀ d ∈ rest, isMnemonicChar d = true := fun d hd =>
        h d (List.mem_append_right front (List.mem_cons_of_mem '_' hd))
      have hwords : ∀ w ∈ words (String.ofList rest), IsWord w := fun w =>
        isWord_of_mem_words (by rwa [String.toList_ofList])
      rw [words_append_cons hne hfront, joined_cons hwords, ih hchars hrest]
      -- what stands behind the underscore is a letter, so the underscore is put back
      obtain ⟨cs, rfl⟩ := List.head?_eq_some_iff.mp hc
      have hunderscore : ¬ c = '_' := by
        rintro rfl
        exact hrest.leading rfl
      have hupper : c.isUpper = true := by
        simpa [isMnemonicChar, hdigit, hunderscore] using hchars c List.mem_cons_self
      rw [underscored, if_pos ((isAlpha_iff_isUpper (Or.inl hupper)).mpr hupper)]

theorem isTidy_normalForm (h : ∀ c ∈ mnemonic.toList, isMnemonicChar c = true) :
    IsTidy (normalForm mnemonic).toList := by
  unfold normalForm
  rw [String.toList_ofList]
  exact isTidy_joined fun w => isWord_of_mem_words h

/-- The tidy mnemonics are the normal forms. -/
theorem normalForm_eq_self_iff (h : ∀ c ∈ mnemonic.toList, isMnemonicChar c = true) :
    normalForm mnemonic = mnemonic ↔ IsTidy mnemonic.toList := by
  constructor
  · intro hnormal
    rw [← hnormal]
    exact isTidy_normalForm h
  · intro htidy
    have hjoined := joined_words h htidy
    rw [String.ofList_toList] at hjoined
    unfold normalForm
    rw [hjoined, String.ofList_toList]

/-! ## Reading a variant name -/

/-- A variant name shows the normal form of the mnemonic that it was made of. -/
theorem recovered_variantName (h : ∀ c ∈ mnemonic.toList, isMnemonicChar c = true) :
    recovered (variantName mnemonic) = normalForm mnemonic := by
  have hwords : ∀ w ∈ words mnemonic, IsWord w := fun w => isWord_of_mem_words h
  unfold recovered variantName normalForm
  rw [String.toList_ofList, guarded_eq, skipOne_underscored (head?_flatMap_capitalized_ne hwords),
    spread_flatMap hwords, flatMap_underscored hwords, skipOne_underscored (head?_joined_ne hwords)]

end Mnemonic

/-- Two texts of capital letters, digits and underscores share a variant name if and only if they
have the same normal form, which can be read off the name. Tidy texts are their own normal forms, so
they have different names, and the text itself is read off. -/
theorem variantName_determines_normalForm {a b : String}
    (ha : ∀ c ∈ a.toList, isMnemonicChar c = true) (hb : ∀ c ∈ b.toList, isMnemonicChar c = true) :
    (variantName a = variantName b ↔ normalForm a = normalForm b) ∧
    (normalForm a = a ↔ IsTidy a.toList) ∧
    (IsTidy a.toList → IsTidy b.toList → variantName a = variantName b → a = b) ∧
    recovered (variantName a) = normalForm a ∧
    (IsTidy a.toList → recovered (variantName a) = a) := by
  have hiff := variantName_eq_iff ha hb
  have hrecovered := recovered_variantName ha
  refine ⟨hiff, normalForm_eq_self_iff ha, ?_, hrecovered, ?_⟩
  · intro htidy htidy' heq
    -- both are what the common variant name tells
    calc a = normalForm a := ((normalForm_eq_self_iff ha).mpr htidy).symm
      _ = normalForm b := hiff.mp heq
      _ = b := (normalForm_eq_self_iff hb).mpr htidy'
  · intro htidy
    rw [hrecovered, normalForm_eq_self_iff ha]
    exact htidy

/-- The variant name does not show how many underscores there were, but that there was one. -/
theorem variantName_determines_normalForm_func_info :
    (∀ c ∈ "FUNC_INFO".toList, isMnemonicChar c = true) ∧ IsTidy "FUNC_INFO".toList ∧
    variantName "FUNC_INFO" = variantName "_FUNC__INFO_" ∧
    variantName "FUNC_INFO" ≠ variantName "FUNCINFO" ∧
    recovered (variantName "FUNC_INFO") = "FUNC_INFO" := by
  have hchars : ∀ c ∈ "FUNC_INFO".toList, isMnemonicChar c = true :=
    List.all_eq_true.mp (by decide)
  have htidy : IsTidy "FUNC_INFO".toList := ⟨by decide, by decide, by decide⟩
  have htidy' : IsTidy "FUNCINFO".toList := ⟨by decide, by decide, by decide⟩
  obtain ⟨hshared, -, -, -, hread⟩ :=
    variantName_determines_normalForm (b := "_FUNC__INFO_") hchars (List.all_eq_true.mp (by decide))
  obtain ⟨-, -, hdifferent, -, -⟩ :=
    variantName_determines_normalForm (b := "FUNCINFO") hchars (List.all_eq_true.mp (by decide))
  refine ⟨hchars, htidy, hshared.mpr (by decide), ?_, hread htidy⟩
  intro heq
  exact absurd (hdifferent htidy htidy' heq) (by decide)

end OpcodeRegistry.Listing
