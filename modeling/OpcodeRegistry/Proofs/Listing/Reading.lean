import Mathlib.Data.List.Basic
import OpcodeRegistry.Listing.Load
import OpcodeRegistry.Proofs.Toml.Document

/-! # Plain listings as documents

A plain listing of names that need no quotation marks is a document of one-line assignments,
aligned or not, so reading it gives its names and codes back in order: `ofText?_render`. What the
text does not hold, the aliases, is inferred line by line from the lines before.
-/

namespace OpcodeRegistry

/-- The integer that a value is, if it is one. -/
def Toml.Value.integer? : Toml.Value → Option Int
  | .integer n => some n
  | _ => none

/-! ## Names -/

/-- A capital letter, a digit or an underscore, or more of them. -/
def IsUpperWord (name : String) : Prop :=
  name.toList ≠ [] ∧ ∀ c ∈ name.toList, isMnemonicChar c = true

theorem isUpperWord_of_isMnemonic {name : String} (h : IsMnemonic name) : IsUpperWord name := by
  rcases h with ⟨a, hhead, hupper, htail⟩
  obtain ⟨rest, hname⟩ := List.head?_eq_some_iff.mp hhead
  unfold IsUpperWord
  rw [hname] at htail ⊢
  refine ⟨List.cons_ne_nil a rest, ?_⟩
  intro d hd
  rcases List.mem_cons.mp hd with rfl | hd
  · simp [isMnemonicChar, hupper]
  · exact htail d hd

theorem Listing.isBareKeyChar_of_isMnemonicChar {c : Char} (hc : isMnemonicChar c = true) :
    Toml.isBareKeyChar c = true := by
  have hword := isWordChar_of_isMnemonicChar hc
  unfold isWordChar at hword
  unfold Toml.isBareKeyChar
  rw [hword, Bool.true_or]

/-- No other character is in such a word. -/
theorem IsUpperWord.not_mem {name : String} (h : IsUpperWord name) {c : Char}
    (hc : isMnemonicChar c = false) : c ∉ name.toList := by
  intro hmem
  rw [h.2 c hmem] at hc
  exact absurd hc (by decide)

theorem IsUpperWord.isBareKey {name : String} (h : IsUpperWord name) : Toml.IsBareKey name :=
  ⟨h.1, fun c hc => Listing.isBareKeyChar_of_isMnemonicChar (h.2 c hc)⟩

/-- A mnemonic needs no quotation marks. -/
theorem Listing.isBareKey_of_isMnemonic {name : String} (h : IsMnemonic name) :
    Toml.IsBareKey name :=
  (isUpperWord_of_isMnemonic h).isBareKey

namespace Listing

open Toml

/-! ## The text -/

/-- A plain line is one of a document: the blanks before the equals sign are the filling, and the
decimal number is the comment. -/
def hexLine (pad : Nat) (entry : String × Code) : HexLine where
  name := entry.1
  blanks := pad - entry.1.length
  digits := 2
  value := entry.2.toNat
  comment := ' ' :: Text.numeral 10 3 entry.2.toNat

theorem toList_plainLine (pad : Nat) (mnemonic : String) (code : Code) :
    (plainLine mnemonic code pad ++ "\n").toList = (hexLine pad (mnemonic, code)).text := by
  unfold plainLine padded hexLine HexLine.text Text.hex Text.decimal
  rw [List.replicate_succ']
  simp

theorem isCommentChar_of_mem_numeral {width n : Nat} {c : Char}
    (hc : c ∈ Text.numeral 10 width n) : isCommentChar c = true := by
  have hdigits : ∀ d < 10, isCommentChar (Nat.digitChar d) = true := by decide
  rcases Text.exists_digitChar_of_mem_numeral (by decide) hc with ⟨d, hd, rfl⟩
  exact hdigits d hd

theorem hexLine_wellFormed {entry : String × Code} (h : IsBareKey entry.1) (pad : Nat) :
    (hexLine pad entry).WellFormed := by
  have hcode : entry.2.toNat < 2 ^ 63 :=
    Nat.lt_trans (UInt32.toNat_lt entry.2) (Nat.pow_lt_pow_right (by decide) (by decide))
  refine { bare := h, fits := hcode, inline := ?_ }
  intro c hc
  rcases List.mem_cons.mp hc with rfl | hc
  · rfl
  · exact isCommentChar_of_mem_numeral hc

/-- What a document gives the name of an opcode. -/
def field (entry : String × Code) : String × Value :=
  (entry.1, .integer entry.2.toNat)

/-- A plain listing is read to its names and codes, in order, unless a name comes twice. -/
theorem ofText?_render {entries : List (String × Code)} (h : ∀ e ∈ entries, IsBareKey e.1)
    (align : Bool) {fields : List (String × Value)} :
    Document.ofText? (render entries .plain align) = some fields ↔
      (entries.map Prod.fst).Nodup ∧ fields = entries.map field := by
  let pad := if align then alignment .plain entries else 0
  have hlines : ∀ l ∈ entries.map (hexLine pad), l.WellFormed := by
    intro l hl
    rcases List.mem_map.mp hl with ⟨e, he, rfl⟩
    exact hexLine_wellFormed (h e he) pad
  -- alignment only changes how many blanks stand before the equals signs
  have htext : (render entries .plain align).toList =
      (entries.map (hexLine pad)).flatMap HexLine.text := by
    unfold render
    rw [String.toList_join, List.flatMap_map, List.flatMap_map]
    congr 1
    funext e
    exact toList_plainLine pad e.1 e.2
  have hnames : (entries.map (hexLine pad)).map HexLine.name = entries.map Prod.fst := by
    rw [List.map_map]
    rfl
  have hfields : (entries.map (hexLine pad)).map HexLine.entry = entries.map field := by
    rw [List.map_map]
    rfl
  rw [Document.ofText?_hexLines hlines htext, hnames, hfields]

/-! ## Documents of integers

Values hold values, so two of them are not compared by computation. Integers are, and a document of
integers is told by these.
-/

theorem integer?_eq_some_iff {value : Value} {n : Int} :
    value.integer? = some n ↔ value = .integer n := by
  cases value with
  | integer m => simp [Value.integer?]
  | _ => simp [Value.integer?]

theorem eq_map_integer {document : List (String × Value)} {fields : List (String × Int)}
    (h : document.map (fun field => (field.1, field.2.integer?)) =
      fields.map fun field => (field.1, some field.2)) :
    document = fields.map fun field => (field.1, .integer field.2) := by
  induction document generalizing fields with
  | nil =>
      cases fields with
      | nil => rfl
      | cons _ _ => cases h
  | cons first rest ih =>
      cases fields with
      | nil => cases h
      | cons integer fields =>
          rcases first with ⟨key, value⟩
          simp only [List.map_cons, List.cons.injEq, Prod.mk.injEq] at h ⊢
          obtain ⟨⟨hkey, hvalue⟩, hrest⟩ := h
          exact ⟨⟨hkey, integer?_eq_some_iff.mp hvalue⟩, ih hrest⟩

/-- Whether a text is read to given names and integers can be computed. -/
theorem ofText?_of_integers {text : String} (fields : List (String × Int))
    (h : (Document.ofText? text).map (List.map fun field => (field.1, field.2.integer?)) =
      some (fields.map fun field => (field.1, some field.2))) :
    Document.ofText? text = some (fields.map fun field => (field.1, .integer field.2)) := by
  obtain ⟨document, hdocument, hfields⟩ := Option.map_eq_some_iff.mp h
  rw [hdocument, eq_map_integer hfields]

end Listing

end OpcodeRegistry
