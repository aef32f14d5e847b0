import OpcodeRegistry.Proofs.Extraction.Classification
import OpcodeRegistry.Proofs.Listing.Reading
import OpcodeRegistry.Proofs.Listing.VariantName

/-! # The mnemonics of an extraction

Each mnemonic of an extraction is the atom of a clause with its letters raised: capital letters,
digits and underscores, one of them at least. It need not be an upper-case identifier, since an atom
may begin with a digit or an underscore, but that is all that can be wrong with it, and whatever the
source looks like, it needs no quotation marks in a document.
-/

namespace OpcodeRegistry

/-! ## Atoms -/

theorem isMnemonicChar_toUpper {c : Char} (h : isWordChar c = true) :
    isMnemonicChar c.toUpper = true := by
  by_cases hlower : c.isLower = true
  · simp [isMnemonicChar, isUpper_toUpper hlower]
  · -- not being a small letter, the character stays as it is
    rw [toUpper_of_not_isLower hlower, isMnemonicChar_iff]
    rcases isWordChar_iff.mp h with hupper | hsmall | hrest
    · exact Or.inl hupper
    · exact absurd (isLower_iff.mpr hsmall) hlower
    · exact Or.inr hrest

/-- The atom of a clause is a run of word characters. -/
theorem Clause.Parts.isUpperWord_toUpper (p : Clause.Parts) : IsUpperWord p.atom.toUpper := by
  unfold IsUpperWord String.toUpper
  rw [String.toList_map]
  refine ⟨by simpa using p.atom_ne_nil, ?_⟩
  intro c hc
  rcases List.mem_map.mp hc with ⟨d, hd, rfl⟩
  exact isMnemonicChar_toUpper (p.isWordChar_atom d hd)

theorem LineClass.isUpperWord_of_ofLine {lineNumber : Nat} {line : String} {d : Definition}
    (h : ofLine lineNumber line = .definition d) : IsUpperWord d.mnemonic := by
  rcases exists_writtenAs_of_ofLine h with ⟨p, hp⟩
  rw [hp.mnemonic_eq]
  exact p.isUpperWord_toUpper

/-! ## The first character -/

/-- The name begins with a character of the class. -/
def BeginsWith (p : Char → Bool) (name : String) : Prop :=
  ∃ c ∈ name.toList.head?, p c = true

instance (p : Char → Bool) (name : String) : Decidable (BeginsWith p name) :=
  decidable_of_iff (name.toList.head?.any p = true) (Option.any_eq_true ..)

/-- What an atom may begin with and a mnemonic may not. -/
def isDigitOrUnderscore (c : Char) : Bool :=
  c.isDigit || c == '_'

theorem isAlpha_iff_of_isMnemonicChar {c : Char} (h : isMnemonicChar c = true) :
    c.isAlpha = true ↔ c.isUpper = true := by
  by_cases hunderscore : c = '_'
  · rw [hunderscore]
    decide
  · exact Listing.isAlpha_iff_isUpper (by simpa [isMnemonicChar, hunderscore] using h)

theorem isDigitOrUnderscore_iff_of_isMnemonicChar {c : Char} (h : isMnemonicChar c = true) :
    isDigitOrUnderscore c = true ↔ ¬ c.isUpper = true := by
  simp only [isMnemonicChar, isDigitOrUnderscore, Bool.or_eq_true, beq_iff_eq, or_assoc] at h ⊢
  constructor
  · intro hc
    rcases hc with hdigit | rfl
    · exact not_isUpper_of_isDigit hdigit
    · decide
  · intro hupper
    exact h.resolve_left hupper

namespace IsUpperWord

variable {name : String}

/-- A run of capital letters, digits and underscores is a mnemonic if its first character is a
capital letter. -/
theorem isMnemonic_iff_isUpper (h : IsUpperWord name) {c : Char} (hc : c ∈ name.toList.head?) :
    IsMnemonic name ↔ c.isUpper = true := by
  constructor
  · intro hname
    obtain ⟨d, hd, hupper, -⟩ := hname
    rwa [Option.some.inj (hc.symm.trans hd)]
  · intro hupper
    exact ⟨c, hc, hupper, fun d hd => h.2 d (List.mem_of_mem_tail hd)⟩

theorem exists_head (h : IsUpperWord name) :
    ∃ c ∈ name.toList.head?, isMnemonicChar c = true := by
  obtain ⟨c, rest, hname⟩ := List.exists_cons_of_ne_nil h.1
  exact ⟨c, by simp [hname], h.2 c (by simp [hname])⟩

theorem isMnemonic_iff (h : IsUpperWord name) : IsMnemonic name ↔ BeginsWith Char.isAlpha name := by
  obtain ⟨c, hc, hchar⟩ := h.exists_head
  rw [h.isMnemonic_iff_isUpper hc, ← isAlpha_iff_of_isMnemonicChar hchar]
  unfold BeginsWith
  rw [Option.mem_def.mp hc]
  simp

theorem not_isMnemonic_iff (h : IsUpperWord name) :
    ¬ IsMnemonic name ↔ BeginsWith isDigitOrUnderscore name := by
  obtain ⟨c, hc, hchar⟩ := h.exists_head
  rw [h.isMnemonic_iff_isUpper hc, ← isDigitOrUnderscore_iff_of_isMnemonicChar hchar]
  unfold BeginsWith
  rw [Option.mem_def.mp hc]
  simp

end IsUpperWord

/-! ## Extractions -/

namespace Extraction

variable {policy : RedefinitionPolicy} {source : ByteArray} {x : Extraction}

theorem isUpperWord_of_mem_definitions (h : (ofSource policy source).value = .ok x) :
    ∀ d ∈ x.definitions, IsUpperWord d.mnemonic := by
  intro d hd
  rcases exists_ofLine_of_mem_definitions h hd with ⟨n, hline⟩
  exact LineClass.isUpperWord_of_ofLine hline

/-- No mnemonic of an extraction needs quotation marks. -/
theorem isBareKey_of_mem_entries (h : (ofSource policy source).value = .ok x) :
    ∀ e ∈ x.entries, Toml.IsBareKey e.1 := by
  intro e he
  rcases List.mem_map.mp he with ⟨d, hd, rfl⟩
  exact (isUpperWord_of_mem_definitions h d hd).isBareKey

end Extraction

end OpcodeRegistry
