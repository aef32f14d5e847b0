import OpcodeRegistry.Listing.Render
import OpcodeRegistry.Proofs.Extraction.Mnemonic
import OpcodeRegistry.Proofs.Listing.VariantName
import OpcodeRegistry.Proofs.Text.Lines
import OpcodeRegistry.Proofs.Text.Numeral

/-! # The lines of a listing

A listing of mnemonics in capital letters, digits and underscores is read back line by line, one for
each opcode. On a line of an enumeration the variant name stands in front of the first bracket, so
the names that a listing declares can be read off its text.
-/

namespace OpcodeRegistry.Listing

open Text

variable {mnemonic : String}

/-! ## Lines -/

theorem not_mem_variantName (h : IsUpperWord mnemonic) {c : Char} (hc : isWordChar c = false) :
    c ∉ (variantName mnemonic).toList := by
  intro hmem
  rw [isWordChar_of_mem_variantName h.2 c hmem] at hc
  exact absurd hc (by decide)

theorem lineFeed_not_mem_padded {text : String} (h : '\n' ∉ text.toList) (width : Nat) :
    '\n' ∉ (padded width text).toList := by
  simp [padded, h]

/-- What stands before the equals sign is on one line, whichever way an opcode is written. -/
theorem lineFeed_not_mem_declarator (h : IsUpperWord mnemonic) :
    '\n' ∉ (declarator mnemonic).toList := by
  have hmnemonic := Toml.lineFeed_not_mem_of_isBareKey h.isBareKey
  have hname : '\n' ∉ (variantName mnemonic).toList := not_mem_variantName h (by decide)
  simp [declarator, hmnemonic, hname]

/-- Either way of writing an opcode takes one line. -/
theorem lineFeed_not_mem_line (h : IsUpperWord mnemonic) (style : Style) (c : Code) (pad : Nat) :
    '\n' ∉ (style.line mnemonic c pad).toList := by
  have hhex := lineFeed_not_mem_numeral (by decide : 1 < 16) (by decide) 2 c.toNat
  have hdecimal := lineFeed_not_mem_numeral (by decide : 1 < 10) (by decide) 3 c.toNat
  cases style with
  | plain =>
      have hmnemonic := Toml.lineFeed_not_mem_of_isBareKey h.isBareKey
      have hname := lineFeed_not_mem_padded hmnemonic pad
      simp [Style.line, plainLine, hex, decimal, hname, hhex, hdecimal]
  | variants =>
      have hname := lineFeed_not_mem_padded (lineFeed_not_mem_declarator h) pad
      simp [Style.line, variantLine, hex, hname, hhex]

/-- The width that the lines of a listing are filled up to. -/
def padding (style : Style) (align : Bool) (entries : List (String × Code)) : Nat :=
  if align then alignment style entries else 0

/-- The lines of a listing are those of its opcodes. -/
theorem linesOf_render {entries : List (String × Code)} (h : ∀ e ∈ entries, IsUpperWord e.1)
    (style : Style) (align : Bool) :
    linesOf (render entries style align) =
      entries.map fun e => style.line e.1 e.2 (padding style align entries) := by
  have hlines : ∀ line ∈ entries.map fun e => style.line e.1 e.2 (padding style align entries),
      '\n' ∉ line.toList := by
    intro line hline
    rcases List.mem_map.mp hline with ⟨e, he, rfl⟩
    exact lineFeed_not_mem_line (h e he) style e.2 _
  rw [← linesOf_join hlines, List.map_map]
  rfl

/-! ## Declared names -/

/-- The variant names that an enumeration declares: on each line, what stands in front of the first
bracket. -/
def declaredVariants (text : String) : List String :=
  (linesOf text).map fun line => String.ofList (line.toList.takeWhile (· ≠ '('))

/-- A line of an enumeration declares the variant name of its mnemonic. -/
theorem takeWhile_variantLine (h : IsUpperWord mnemonic) (c : Code) (pad : Nat) :
    (variantLine mnemonic c pad).toList.takeWhile (· ≠ '(') = (variantName mnemonic).toList := by
  have hname : ∀ d ∈ (variantName mnemonic).toList, (decide (d ≠ '(')) = true := by
    intro d hd
    rw [decide_eq_true_eq]
    rintro rfl
    exact absurd (isWordChar_of_mem_variantName h.2 _ hd) (by decide)
  simp only [variantLine, padded, declarator, String.toList_append, List.append_assoc]
  rw [List.takeWhile_append_of_pos hname]
  exact List.append_nil _

theorem declaredVariants_render {entries : List (String × Code)}
    (h : ∀ e ∈ entries, IsUpperWord e.1) (align : Bool) :
    declaredVariants (render entries .variants align) = entries.map fun e => variantName e.1 := by
  unfold declaredVariants
  rw [linesOf_render h, List.map_map]
  apply List.map_congr_left
  intro e he
  change String.ofList ((variantLine e.1 e.2 _).toList.takeWhile (· ≠ '(')) = _
  rw [takeWhile_variantLine (h e he), String.ofList_toList]

end OpcodeRegistry.Listing
