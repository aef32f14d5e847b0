import Mathlib.Data.List.Forall2
import OpcodeRegistry.Proofs.Listing.Alignment
import OpcodeRegistry.Proofs.Listing.Fields
import OpcodeRegistry.Proofs.Listing.Lines
import OpcodeRegistry.Proofs.Text.Scan
import OpcodeRegistry.Proofs.Text.Value

/-! # What can be told from a listing

A listing is read back line by line: the declaration is the first word of a line and the code stands
in the third. So the mnemonics and codes of a listing can be told from its text, in order and however
often they come, whichever way it is written and whether it is aligned or not. A document knows less:
it cannot have a name twice, and an enumeration is none.
-/

namespace OpcodeRegistry.Listing

open Text

variable {style : Style} {mnemonic : String} {entries : List (String × Code)}

/-! ## The reader -/

/-- The mnemonic that a declaration names. An enumeration has it between quotation marks. -/
def Style.mnemonic? : Style → List Char → Option String
  | plain, declaration => some (String.ofList declaration)
  | variants, declaration => (declaration.splitOn '"')[1]?.map String.ofList

/-- The code in hexadecimal that a field begins with. -/
def codeField? (field : List Char) : Option Code := do
  let field ← word? "0x" field
  let (digits, _) ← run? Char.isHexDigit field
  (valueOf? 16 digits).bind Code.ofNat?

/-- The mnemonic and the code of a line. -/
def Style.entry? (style : Style) (line : String) : Option (String × Code) :=
  match wordsOf line.toList with
  | declaration :: _ :: field :: _ => do
    let mnemonic ← style.mnemonic? declaration
    let code ← codeField? field
    return (mnemonic, code)
  | _ => none

/-- The mnemonics and codes of a listing, in the order of its lines. -/
def entries? (style : Style) (text : String) : Option (List (String × Code)) :=
  (linesOf text).mapM style.entry?

/-! ## Words of a line -/

theorem toList_declarator (mnemonic : String) : (declarator mnemonic).toList =
    ((variantName mnemonic).toList ++ ['(']) ++ '"' :: (mnemonic.toList ++ '"' :: [')']) := by
  simp [declarator]

/-- A declaration is one word. -/
theorem blank_not_mem_declaration (h : IsUpperWord mnemonic) (style : Style) :
    ' ' ∉ (style.declaration mnemonic).toList := by
  cases style with
  | plain => exact h.not_mem (by decide)
  | variants =>
      have hname : ' ' ∉ (variantName mnemonic).toList := not_mem_variantName h (by decide)
      have hmnemonic : ' ' ∉ mnemonic.toList := h.not_mem (by decide)
      simp only [Style.declaration, toList_declarator]
      simp [hname, hmnemonic]

theorem declaration_ne_nil (h : IsUpperWord mnemonic) (style : Style) :
    (style.declaration mnemonic).toList ≠ [] := by
  cases style with
  | plain => exact h.1
  | variants => simp [Style.declaration, toList_declarator]

/-- A declaration is read as the mnemonic that it was made of: no variant name has a quotation mark,
and no mnemonic. -/
theorem mnemonic?_declaration (h : IsUpperWord mnemonic) (style : Style) :
    style.mnemonic? (style.declaration mnemonic).toList = some mnemonic := by
  cases style with
  | plain => simp [Style.mnemonic?, Style.declaration]
  | variants =>
      have hname : '"' ∉ (variantName mnemonic).toList ++ ['('] := by
        simp [not_mem_variantName h (c := '"') (by decide)]
      have hmnemonic : '"' ∉ mnemonic.toList := h.not_mem (by decide)
      simp only [Style.mnemonic?, Style.declaration, toList_declarator]
      rw [List.splitOn_append_cons_self, List.splitOn_eq_singleton hname,
        List.splitOn_append_cons_self, List.splitOn_eq_singleton hmnemonic]
      simp

/-- What stands behind the hexadecimal number of a line, up to the next blank. -/
def Style.mark : Style → List Char
  | plain => []
  | variants => [',']

/-- The third word of a line begins with the code, whatever the line is filled up to. -/
theorem exists_wordsOf_line (h : IsUpperWord mnemonic) (style : Style) (c : Code) (pad : Nat) :
    ∃ rest, wordsOf (style.line mnemonic c pad).toList =
      (style.declaration mnemonic).toList :: ['='] ::
        ("0x".toList ++ (numeral 16 2 c.toNat ++ style.mark)) :: rest := by
  have hhex : ' ' ∉ "0x".toList ++ (numeral 16 2 c.toNat ++ style.mark) := by
    have hnumeral : ' ' ∉ numeral 16 2 c.toNat := blank_not_mem_numeral (by decide) (by decide) _ _
    cases style with
    | plain => simp [Style.mark, hnumeral]
    | variants => simp [Style.mark, hnumeral]
  -- what stands behind the third word is nothing, or a blank and the decimal number
  have htail : ∃ note : List Char, (∀ d ∈ note.head?, d = ' ') ∧
      (style.tail c).toList = ' ' :: (['='] ++ ' ' ::
        (("0x".toList ++ (numeral 16 2 c.toNat ++ style.mark)) ++ note)) := by
    cases style with
    | plain =>
        exact ⟨' ' :: '#' :: ' ' :: numeral 10 3 c.toNat, by simp,
          by simp [Style.tail, Style.mark, hex, decimal]⟩
    | variants => exact ⟨[], by simp, by simp [Style.tail, Style.mark, hex]⟩
  obtain ⟨note, hnote, htail⟩ := htail
  refine ⟨wordsOf note, ?_⟩
  rw [line_eq, String.toList_append, String.toList_append, htail, filling, String.toList_ofList,
    List.append_assoc, wordsOf_filled (declaration_ne_nil h style) (blank_not_mem_declaration h style),
    wordsOf_spaced (by simp) (by simp), wordsOf_append (by simp) hhex hnote]

/-! ## Reading what was written -/

/-- The digits of a code end where the field does, or at the comma. -/
theorem codeField?_numeral (style : Style) (c : Code) :
    codeField? ("0x".toList ++ (numeral 16 2 c.toNat ++ style.mark)) = some c := by
  have hvalue : valueOf? 16 (numeral 16 2 c.toNat) = some c.toNat :=
    valueOf?_numeral (by decide) (by decide) 2 c.toNat
  -- the field is not filled up, so the digits end with the text or at the mark of the style
  have hend : ∀ d ∈ style.mark.head?, d.isHexDigit = false := by
    cases style with
    | plain => simp [Style.mark]
    | variants => simp [Style.mark]; decide
  have hrun : run? Char.isHexDigit (numeral 16 2 c.toNat ++ style.mark) =
      some (numeral 16 2 c.toNat, style.mark) :=
    run?_eq_some_iff.mpr ⟨rfl, numeral_ne_nil _ _ _, (valueOf?_sixteen_eq_some_iff.mp hvalue).2.1, hend⟩
  have hcode : Code.ofNat? c.toNat = some c := Code.ofNat?_eq_some_iff.mpr rfl
  unfold codeField?
  simp only [word?_append, hrun, hvalue, hcode, Option.bind_eq_bind, Option.bind_some]

theorem entry?_line (h : IsUpperWord mnemonic) (style : Style) (c : Code) (pad : Nat) :
    style.entry? (style.line mnemonic c pad) = some (mnemonic, c) := by
  obtain ⟨rest, hwords⟩ := exists_wordsOf_line h style c pad
  unfold Style.entry?
  rw [hwords]
  simp only [mnemonic?_declaration h, codeField?_numeral, Option.bind_eq_bind, Option.bind_some]
  rfl

/-- A listing is read back to what it lists, aligned or not. -/
theorem entries?_render (h : ∀ e ∈ entries, IsUpperWord e.1) (style : Style) (align : Bool) :
    entries? style (render entries style align) = some entries := by
  unfold entries?
  rw [linesOf_render h, List.mapM_map]
  generalize padding style align entries = pad
  induction entries with
  | nil => rfl
  | cons e entries ih =>
      have hfirst := entry?_line (h e List.mem_cons_self) style e.2 pad
      rw [List.mapM_cons, ih fun e' he' => h e' (List.mem_cons_of_mem e he'), Function.comp_apply,
        hfirst]
      rfl

/-! ## Two bases -/

/-- A plain line shows a code in hexadecimal and in decimal, and neither number has a capital letter
or more zeros in front than make up its least width. -/
structure ShowsCode (line : String) (c : Code) (hexadecimal decimal : String) : Prop where
  fields : numberFields line = ["0x" ++ hexadecimal, decimal]
  isHexadecimal : IsHexadecimal hexadecimal.toList c.toNat
  isDecimal : IsDecimal decimal.toList c.toNat
  small : ∀ d ∈ hexadecimal.toList, d.isUpper = false
  /-- A hexadecimal number has two digits, or more without a zero in front. -/
  filledHexadecimal : IsFilled 2 hexadecimal.toList
  filledDecimal : IsFilled 3 decimal.toList

theorem showsCode_plainLine (h : IsUpperWord mnemonic) (c : Code) (pad : Nat) :
    ShowsCode (plainLine mnemonic c pad) c (hex 2 c.toNat) (decimal 3 c.toNat) := by
  -- the fields are known behind any note, and here there is none
  have hfields : numberFields (plainLine mnemonic c pad ++ "") =
      ["0x" ++ hex 2 c.toNat, decimal 3 c.toNat] := numberFields_plainLine h (by simp) c pad
  rw [String.append_empty] at hfields
  refine ⟨hfields, ?_, ?_, ?_, ?_, ?_⟩
  · rw [hex, String.toList_ofList, ← valueOf?_sixteen_eq_some_iff]
    exact valueOf?_numeral (by decide) (by decide) 2 c.toNat
  · rw [decimal, String.toList_ofList, ← valueOf?_ten_eq_some_iff]
    exact valueOf?_numeral (by decide) (by decide) 3 c.toNat
  · rw [hex, String.toList_ofList]
    intro d hd
    exact not_isUpper_of_mem_numeral (by decide) (by decide) hd
  · rw [hex, String.toList_ofList]
    exact isFilled_numeral (by decide) (by decide) (by decide) c.toNat
  · rw [decimal, String.toList_ofList]
    exact isFilled_numeral (by decide) (by decide) (by decide) c.toNat

/-- Of capital letters, digits and underscores, the mnemonics of a listing can be told from its text
together with their codes: it is read back to what it lists, and no other list is printed so, be it
aligned or not. A plain listing has a line for each of them that shows the code in both bases. -/
theorem render_decodable (h : ∀ e ∈ entries, IsUpperWord e.1) (align : Bool) :
    (∀ style, entries? style (render entries style align) = some entries) ∧
    (∀ style others align', (∀ e ∈ others, IsUpperWord e.1) →
      render others style align' = render entries style align → others = entries) ∧
    List.Forall₂ (fun line e => ∃ hexadecimal decimal, ShowsCode line e.2 hexadecimal decimal)
      (linesOf (render entries .plain align)) entries := by
  refine ⟨fun style => entries?_render h style align, ?_, ?_⟩
  · intro style others align' hothers heq
    -- two lists of one text would both be what is read back from it
    have hread := entries?_render hothers style align'
    rw [heq, entries?_render h style align] at hread
    exact (Option.some.inj hread).symm
  · rw [linesOf_render h, List.forall₂_map_left_iff, List.forall₂_same]
    intro e he
    exact ⟨_, _, showsCode_plainLine (h e he) e.2 _⟩

/-- A name that comes twice, and a code that needs a digit more than the least width. -/
theorem render_decodable_name_twice :
    let entries : List (String × Code) := [("A1", 300), ("FUNC_INFO", 2), ("A1", 2)]
    (∀ e ∈ entries, IsUpperWord e.1) ∧
    (∀ style, entries? style (render entries style true) = some entries) ∧
    ∃ hexadecimal decimal, ShowsCode "A1        = 0x12c # 300" 300 hexadecimal decimal := by
  intro entries
  have hmnemonics : ∀ e ∈ entries, IsMnemonic e.1 := by decide
  have hwords : ∀ e ∈ entries, IsUpperWord e.1 := fun e he =>
    isUpperWord_of_isMnemonic (hmnemonics e he)
  have hlines : linesOf (render entries .plain true) =
      ["A1        = 0x12c # 300", "FUNC_INFO = 0x02 # 002", "A1        = 0x02 # 002"] := by
    decide +kernel
  obtain ⟨hread, -, hshown⟩ := render_decodable hwords true
  rw [hlines] at hshown
  exact ⟨hwords, hread, (List.forall₂_cons.mp hshown).1⟩

end OpcodeRegistry.Listing
