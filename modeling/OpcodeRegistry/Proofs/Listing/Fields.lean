import OpcodeRegistry.Proofs.Listing.Reading
import OpcodeRegistry.Proofs.Text.Numeral

/-! # The fields of a line

A plain line is made of words with blanks between them, and two of its words are numbers: the code
in hexadecimal and in decimal. Neither the filling behind the mnemonic nor a note behind the line
changes where they stand.
-/

namespace OpcodeRegistry

namespace Text

/-! ## Words -/

/-- The words of a text: what stands between its blanks. -/
def wordsOf (text : List Char) : List (List Char) :=
  (text.splitOn ' ').filter fun word => !word.isEmpty

theorem wordsOf_blank (rest : List Char) : wordsOf (' ' :: rest) = wordsOf rest := by
  have hsplit : (' ' :: rest).splitOn ' ' = [] :: rest.splitOn ' ' :=
    List.splitOn_append_cons_self [] rest
  unfold wordsOf
  rw [hsplit]
  rfl

theorem wordsOf_blanks (n : Nat) (rest : List Char) :
    wordsOf (List.replicate n ' ' ++ rest) = wordsOf rest := by
  induction n with
  | zero => rfl
  | succ n ih =>
      rw [List.replicate_succ, List.cons_append, wordsOf_blank]
      exact ih

/-- A word ends where the text does, or at a blank. -/
theorem wordsOf_append {word rest : List Char} (hne : word ≠ []) (hword : ' ' ∉ word)
    (hrest : ∀ c ∈ rest.head?, c = ' ') : wordsOf (word ++ rest) = word :: wordsOf rest := by
  cases rest with
  | nil =>
      unfold wordsOf
      simp [List.splitOn_eq_singleton hword, hne]
  | cons c rest =>
      obtain rfl : c = ' ' := hrest c rfl
      rw [wordsOf_blank]
      unfold wordsOf
      rw [List.splitOn_append_cons_self, List.splitOn_eq_singleton hword]
      simp [hne]

/-- A word with a blank behind it is the first one. -/
theorem wordsOf_spaced {word : List Char} (hne : word ≠ []) (hword : ' ' ∉ word)
    (rest : List Char) : wordsOf (word ++ ' ' :: rest) = word :: wordsOf rest := by
  rw [wordsOf_append hne hword (by simp), wordsOf_blank]

/-- So is one that is filled up with blanks. -/
theorem wordsOf_filled {word : List Char} (hne : word ≠ []) (hword : ' ' ∉ word) (n : Nat)
    (rest : List Char) :
    wordsOf (word ++ (List.replicate n ' ' ++ ' ' :: rest)) = word :: wordsOf rest := by
  have hblank : ∀ c ∈ (List.replicate n ' ' ++ ' ' :: rest).head?, c = ' ' := by
    intro c hc
    cases n with
    | zero => simpa [eq_comm] using hc
    | succ n => simpa [List.replicate_succ, eq_comm] using hc
  rw [wordsOf_append hne hword hblank, wordsOf_blanks, wordsOf_blank]

/-- A numeral is part of one word. -/
theorem blank_not_mem_numeral {base : Nat} (hbase : 1 < base) (hle : base ≤ 16) (width n : Nat) :
    ' ' ∉ numeral base width n :=
  not_mem_numeral hbase hle width n (by decide)

end Text

namespace Listing

open Text

/-! ## Numbers -/

/-- The number fields of a line, the hexadecimal one and the decimal one: its third and its fifth
word. -/
def numberFields (line : String) : List String :=
  match wordsOf line.toList with
  | _ :: _ :: hexadecimal :: _ :: decimal :: _ => [String.ofList hexadecimal, String.ofList decimal]
  | _ => []

/-- The words of a plain line, whatever it is filled up to, and whatever stands behind it. -/
theorem wordsOf_plainLine {mnemonic note : String} (h : IsUpperWord mnemonic)
    (hnote : ∀ d ∈ note.toList.head?, d = ' ') (c : Code) (pad : Nat) :
    wordsOf (plainLine mnemonic c pad ++ note).toList =
      mnemonic.toList :: ['='] :: ("0x".toList ++ numeral 16 2 c.toNat) :: ['#'] ::
        numeral 10 3 c.toNat :: wordsOf note.toList := by
  have hhex : ' ' ∉ "0x".toList ++ numeral 16 2 c.toNat := by
    rw [List.mem_append, not_or]
    exact ⟨by decide, blank_not_mem_numeral (by decide) (by decide) _ _⟩
  have hdecimal : ' ' ∉ numeral 10 3 c.toNat := blank_not_mem_numeral (by decide) (by decide) _ _
  have htext : (plainLine mnemonic c pad ++ note).toList =
      mnemonic.toList ++ (List.replicate (pad - mnemonic.length) ' ' ++ ' ' :: (['='] ++ ' ' ::
        (("0x".toList ++ numeral 16 2 c.toNat) ++ ' ' :: (['#'] ++ ' ' ::
          (numeral 10 3 c.toNat ++ note.toList))))) := by
    simp [plainLine, padded, hex, decimal]
  -- only behind the mnemonic there can be more than one space
  rw [htext, wordsOf_filled h.1 (h.not_mem (by decide)), wordsOf_spaced (by simp) (by simp),
    wordsOf_spaced (by simp) hhex, wordsOf_spaced (by simp) (by simp),
    wordsOf_append (numeral_ne_nil _ _ _) hdecimal hnote]

theorem numberFields_plainLine {mnemonic note : String} (h : IsUpperWord mnemonic)
    (hnote : ∀ d ∈ note.toList.head?, d = ' ') (c : Code) (pad : Nat) :
    numberFields (plainLine mnemonic c pad ++ note) =
      ["0x" ++ hex 2 c.toNat, decimal 3 c.toNat] := by
  unfold numberFields
  rw [wordsOf_plainLine h hnote c pad]
  simp only [hex, decimal, String.ofList_append, String.ofList_toList]

end Listing

end OpcodeRegistry
