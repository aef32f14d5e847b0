import Mathlib.Data.String.Basic
import OpcodeRegistry.Listing.Render
import OpcodeRegistry.Proofs.Listing.VariantName

/-! # Aligned listings

What stands before the equals sign of a line, its declaration, is filled up to a width that is
counted in bytes, while the filling itself is counted in characters. No text has more characters
than bytes, so every declaration fits into that width and all equals signs stand in one column,
whatever characters the mnemonics have. Where they are all ASCII the two counts agree, and then the
width is no larger than it has to be.
-/

namespace OpcodeRegistry

namespace Text

/-! ## Bytes and characters -/

theorem length_le_utf8Len (cs : List Char) : cs.length ≤ String.utf8Len cs := by
  induction cs with
  | nil => simp
  | cons c cs ih =>
      have hpos := c.utf8Size_pos
      rw [List.length_cons, String.utf8Len_cons]
      omega

/-- A character takes one byte at least. -/
theorem length_le_utf8ByteSize (text : String) : text.length ≤ text.utf8ByteSize := by
  rw [← String.length_toList, ← String.utf8Len_toList]
  exact length_le_utf8Len text.toList

/-- The text has ASCII characters only. -/
def IsAscii (text : String) : Prop :=
  ∀ c ∈ text.toList, c.toNat < 128

theorem utf8Len_eq_length {cs : List Char} (h : ∀ c ∈ cs, c.toNat < 128) :
    String.utf8Len cs = cs.length := by
  induction cs with
  | nil => rfl
  | cons c cs ih =>
      have hsize : c.utf8Size = 1 := by
        rw [Char.utf8Size_eq_one_iff, UInt32.le_iff_toNat_le]
        exact Nat.le_of_lt_succ (h c List.mem_cons_self)
      rw [String.utf8Len_cons, ih fun d hd => h d (List.mem_cons_of_mem c hd), hsize,
        List.length_cons]

theorem IsAscii.utf8ByteSize_eq {text : String} (h : IsAscii text) :
    text.utf8ByteSize = text.length := by
  rw [← String.length_toList, ← String.utf8Len_toList]
  exact utf8Len_eq_length h

theorem IsAscii.append {text text' : String} (h : IsAscii text) (h' : IsAscii text') :
    IsAscii (text ++ text') := by
  intro c hc
  rw [String.toList_append] at hc
  rcases List.mem_append.mp hc with hc | hc
  · exact h c hc
  · exact h' c hc

theorem toNat_toUpper_lt {c : Char} (h : c.toNat < 128) : c.toUpper.toNat < 128 := by
  by_cases hlower : c.isLower = true
  · have hraised := toNat_toUpper hlower
    omega
  · rwa [toUpper_of_not_isLower hlower]

theorem toNat_toLower_lt {c : Char} (h : c.toNat < 128) : c.toLower.toNat < 128 := by
  by_cases hupper : c.isUpper = true
  · have hlowered := toNat_toLower hupper
    have hrange := isUpper_iff.mp hupper
    simp only [le_iff_toNat_le, Char.reduceToNat] at hrange
    omega
  · rwa [toLower_of_not_isUpper hupper]

end Text

namespace Listing

open Text

/-! ## The parts of a line -/

/-- What stands before the equals sign of a line. -/
def Style.declaration : Style → String → String
  | plain, mnemonic => mnemonic
  | variants, mnemonic => declarator mnemonic

/-- What stands behind the filling of a line. -/
def Style.tail : Style → Code → String
  | plain, code => " = 0x" ++ hex 2 code.toNat ++ " # " ++ decimal 3 code.toNat
  | variants, code => " = 0x" ++ hex 2 code.toNat ++ ","

/-- A filling of `n` spaces. -/
def filling (n : Nat) : String :=
  String.ofList (List.replicate n ' ')

@[simp] theorem length_filling (n : Nat) : (filling n).length = n := by
  simp [filling]

variable {style : Style} {mnemonic : String} {entries : List (String × Code)}

theorem line_eq (style : Style) (mnemonic : String) (c : Code) (pad : Nat) :
    style.line mnemonic c pad = style.declaration mnemonic ++
      filling (pad - (style.declaration mnemonic).length) ++ style.tail c := by
  cases style with
  | plain =>
      simp only [Style.line, plainLine, padded, Style.declaration, Style.tail, filling,
        String.append_assoc]
  | variants =>
      simp only [Style.line, variantLine, padded, Style.declaration, Style.tail, filling,
        String.append_assoc]

theorem line_zero (style : Style) (mnemonic : String) (c : Code) :
    style.line mnemonic c 0 = style.declaration mnemonic ++ style.tail c := by
  rw [line_eq, Nat.zero_sub]
  exact congrArg (· ++ style.tail c) String.append_empty

/-- The width of a line is that of its declaration: the brackets and quotes around a mnemonic are
four bytes, and its variant name is counted as it is written. -/
theorem byteWidth_eq (style : Style) (mnemonic : String) :
    style.byteWidth mnemonic = (style.declaration mnemonic).utf8ByteSize := by
  cases style with
  | plain => rfl
  | variants =>
      have hopen : "(\"".utf8ByteSize = 2 := by decide
      have hclose : "\")".utf8ByteSize = 2 := by decide
      simp only [Style.byteWidth, Style.declaration, declarator, String.utf8ByteSize_append, hopen,
        hclose]
      omega

/-! ## The width of a listing -/

/-- The width of a listing is the largest one of its declarations, in bytes. -/
theorem alignment_eq (style : Style) (entries : List (String × Code)) :
    alignment style entries =
      ((entries.map fun e => (style.declaration e.1).utf8ByteSize).max?).getD 0 := by
  unfold alignment
  simp only [byteWidth_eq]
  induction entries with
  | nil => rfl
  | cons e entries ih =>
      rw [List.map_cons, List.foldr_cons, ih, List.max?_cons]
      cases (entries.map fun e => (style.declaration e.1).utf8ByteSize).max? with
      | none => simp
      | some m => rfl

theorem utf8ByteSize_le_alignment {e : String × Code} (he : e ∈ entries) :
    (style.declaration e.1).utf8ByteSize ≤ alignment style entries := by
  rw [alignment_eq]
  have hmem := List.mem_map_of_mem (f := fun e => (style.declaration e.1).utf8ByteSize) he
  cases hmax : (entries.map fun e => (style.declaration e.1).utf8ByteSize).max? with
  | none =>
      rw [List.max?_eq_none_iff.mp hmax] at hmem
      exact absurd hmem List.not_mem_nil
  | some m => exact (List.max?_eq_some_iff.mp hmax).2 _ hmem

/-- Some declaration is as wide as the listing. -/
theorem exists_utf8ByteSize_eq_alignment (style : Style) (h : entries ≠ []) :
    ∃ e ∈ entries, (style.declaration e.1).utf8ByteSize = alignment style entries := by
  rw [alignment_eq]
  cases hmax : (entries.map fun e => (style.declaration e.1).utf8ByteSize).max? with
  | none => exact absurd (List.map_eq_nil_iff.mp (List.max?_eq_none_iff.mp hmax)) h
  | some m =>
      rcases List.mem_map.mp (List.max?_eq_some_iff.mp hmax).1 with ⟨e, he, hsize⟩
      exact ⟨e, he, hsize⟩

/-- No declaration has more characters than the listing is wide. -/
theorem length_le_alignment {e : String × Code} (he : e ∈ entries) :
    (style.declaration e.1).length ≤ alignment style entries :=
  Nat.le_trans (length_le_utf8ByteSize _) (utf8ByteSize_le_alignment he)

/-! ## Declarations in ASCII -/

/-- The words of a text are made of its characters, and changing the case of one leaves it ASCII. -/
theorem isAscii_variantName (h : IsAscii mnemonic) : IsAscii (variantName mnemonic) := by
  have hword : ∀ word ∈ words mnemonic, ∀ c ∈ capitalized word, c.toNat < 128 := by
    intro word hword
    have hchar : ∀ c ∈ word, c.toNat < 128 := fun c hc =>
      h c ((of_mem_splitOn (List.mem_filter.mp hword).1).2 c hc)
    cases word with
    | nil => simp [capitalized]
    | cons d ds =>
        intro c hc
        rcases List.mem_cons.mp hc with rfl | hc
        · exact toNat_toUpper_lt (hchar d List.mem_cons_self)
        · rcases List.mem_map.mp hc with ⟨e, he, rfl⟩
          exact toNat_toLower_lt (hchar e (List.mem_cons_of_mem d he))
  intro c hc
  unfold variantName at hc
  rw [String.toList_ofList, guarded_eq] at hc
  -- the underscore in front of a digit is ASCII as well
  rcases mem_underscored hc with rfl | hc
  · decide
  · rcases List.mem_flatMap.mp hc with ⟨word, hmem, hc⟩
    exact hword word hmem c hc

theorem isAscii_declaration (h : IsAscii mnemonic) (style : Style) :
    IsAscii (style.declaration mnemonic) := by
  cases style with
  | plain => exact h
  | variants =>
      have hopen : IsAscii "(\"" := by simp [IsAscii]
      have hclose : IsAscii "\")" := by simp [IsAscii]
      exact (((isAscii_variantName h).append hopen).append h).append hclose

/-! ## Aligned lines -/

/-- An aligned listing has one piece for each entry, in order: the declaration and what stands behind
it, as in the listing that is not aligned, and between them as many spaces as make up the width. The
width is the largest number of bytes of a declaration. So each declaration has room in it and what
stands behind starts in one column; and where the mnemonics are ASCII, some declaration takes all of
the width. -/
theorem render_aligned (style : Style) (entries : List (String × Code)) :
    (alignment style entries =
      ((entries.map fun e => (style.declaration e.1).utf8ByteSize).max?).getD 0) ∧
    (render entries style true = String.join (entries.map fun e => style.declaration e.1 ++
      filling (alignment style entries - (style.declaration e.1).length) ++ style.tail e.2 ++
        "\n")) ∧
    (render entries style false = String.join (entries.map fun e => style.declaration e.1 ++
      style.tail e.2 ++ "\n")) ∧
    (∀ e ∈ entries, (style.declaration e.1).length ≤ alignment style entries) ∧
    (∀ e ∈ entries, (style.declaration e.1 ++
      filling (alignment style entries - (style.declaration e.1).length)).length =
        alignment style entries) ∧
    ((∀ e ∈ entries, IsAscii e.1) → entries ≠ [] →
      ∃ e ∈ entries, (style.declaration e.1).length = alignment style entries) := by
  have hfits : ∀ e ∈ entries, (style.declaration e.1).length ≤ alignment style entries :=
    fun e he => length_le_alignment he
  refine ⟨alignment_eq style entries, ?_, ?_, hfits, ?_, ?_⟩
  · unfold render
    simp only [line_eq, if_true]
  · unfold render
    simp only [line_zero, Bool.false_eq_true, if_false]
  · intro e he
    have hle := hfits e he
    rw [String.length_append, length_filling]
    omega
  · intro hascii hne
    -- the declaration of most bytes has as many characters, so it takes all of the width
    rcases exists_utf8ByteSize_eq_alignment style hne with ⟨e, he, hsize⟩
    exact ⟨e, he, (isAscii_declaration (hascii e he) style).utf8ByteSize_eq.symm.trans hsize⟩

end Listing

end OpcodeRegistry
