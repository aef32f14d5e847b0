import OpcodeRegistry.Proofs.Text.Scan
import OpcodeRegistry.Proofs.Text.Value
import OpcodeRegistry.Source

/-! # The grammar of clauses

A clause is written in parts: a number, an atom that may have an apostrophe on either side, and a
count of operands. The scanner takes each part as far as it goes and never goes back. It finds the
parts of every line that has some, since none of them can go on into what stands behind it, and for
the same reason a line has them in one way only.
-/

namespace OpcodeRegistry.Clause

open Text

/-- An apostrophe, or nothing. -/
def apostrophe (quoted : Bool) : String :=
  if quoted then "\x27" else ""

/-- The parts that a clause is written in. -/
@[ext]
structure Parts where
  number : String
  /-- Whether an apostrophe stands in front of the atom. -/
  opened : Bool
  atom : String
  /-- Whether an apostrophe stands behind the atom. -/
  closed : Bool
  operands : String
  number_ne_nil : number.toList ≠ []
  isDigit_number : ∀ c ∈ number.toList, c.isDigit = true
  atom_ne_nil : atom.toList ≠ []
  /-- An atom has nothing but `A` to `Z`, `a` to `z`, `0` to `9` and underscores: `isWordChar_iff`. -/
  isWordChar_atom : ∀ c ∈ atom.toList, isWordChar c = true
  operands_ne_nil : operands.toList ≠ []
  isDigit_operands : ∀ c ∈ operands.toList, c.isDigit = true

/-! ## Apostrophes -/

theorem skipOne_apostrophe (quoted : Bool) {s : List Char} (h : s.head? ≠ some '\x27') :
    skipOne '\x27' ((apostrophe quoted).toList ++ s) = s := by
  cases quoted with
  | true => exact skipOne_cons_self '\x27' s
  | false => exact skipOne_of_head?_ne h

theorem exists_apostrophe (s : List Char) :
    ∃ quoted, s = (apostrophe quoted).toList ++ skipOne '\x27' s := by
  by_cases h : s.head? = some '\x27'
  · obtain ⟨rest, rfl⟩ := List.head?_eq_some_iff.mp h
    exact ⟨true, by rw [skipOne_cons_self]; rfl⟩
  · exact ⟨false, (skipOne_of_head?_ne h).symm⟩

/-- Whether there is an apostrophe can be told from the text. -/
theorem apostrophe_append_inj {quoted quoted' : Bool} {s s' : List Char}
    (h : s.head? ≠ some '\x27') (h' : s'.head? ≠ some '\x27')
    (heq : (apostrophe quoted).toList ++ s = (apostrophe quoted').toList ++ s') :
    quoted = quoted' ∧ s = s' := by
  have hs : s = s' := by
    rw [← skipOne_apostrophe quoted h, heq, skipOne_apostrophe quoted' h']
  refine ⟨?_, hs⟩
  rw [hs, List.append_cancel_right_eq] at heq
  revert heq
  cases quoted <;> cases quoted' <;> decide

namespace Parts

/-- The line that the parts are written as. -/
def line (p : Parts) : String :=
  "opname(" ++ p.number ++ ") -> \x7b" ++ apostrophe p.opened ++ p.atom ++ apostrophe p.closed ++
    "," ++ p.operands ++ "\x7d;"

/-- What the parts say about an opcode. -/
def clause (p : Parts) : Clause where
  number := p.number
  atom := p.atom

/-- The number that the digits stand for. -/
def value (p : Parts) : Nat :=
  Text.value 10 p.number.toList

variable (p : Parts)

/-- The code of a clause is its number, unless that needs more than 32 bits. -/
theorem code?_clause : p.clause.code? = Code.ofNat? p.value := by
  have hvalue : valueOf? 10 p.number.toList = some p.value :=
    valueOf?_ten_eq_some_iff.mpr ⟨p.number_ne_nil, p.isDigit_number, rfl⟩
  unfold code?
  change (valueOf? 10 p.number.toList).bind Code.ofNat? = _
  rw [hvalue, Option.bind_some]

theorem mnemonic_clause : p.clause.mnemonic = p.atom.toUpper :=
  upperCase_eq_toUpper p.atom

theorem toList_line : p.line.toList =
    "opname(".toList ++ (p.number.toList ++ (") -> \x7b".toList ++
      ((apostrophe p.opened).toList ++ (p.atom.toList ++ ((apostrophe p.closed).toList ++
        (",".toList ++ (p.operands.toList ++ "\x7d;".toList))))))) := by
  unfold line
  simp only [String.toList_append, List.append_assoc]

/-- No part of a line is a line feed. -/
theorem feed_not_mem_line : '\n' ∉ p.line.toList := by
  have hnumber : '\n' ∉ p.number.toList := fun h => absurd (p.isDigit_number _ h) (by decide)
  have hatom : '\n' ∉ p.atom.toList := fun h => absurd (p.isWordChar_atom _ h) (by decide)
  have hoperands : '\n' ∉ p.operands.toList := fun h => absurd (p.isDigit_operands _ h) (by decide)
  have hapostrophe : ∀ quoted, '\n' ∉ (apostrophe quoted).toList := by decide
  rw [toList_line]
  simp [hnumber, hatom, hoperands, hapostrophe]

/-- The last part of a line is its semicolon. -/
theorem getLast?_line : p.line.toList.getLast? = some ';' := by
  unfold line
  rw [String.toList_append, List.getLast?_append_of_ne_nil _ (by simp)]
  rfl

/-! ## Where a part ends -/

theorem run?_number (rest : List Char) :
    run? Char.isDigit (p.number.toList ++ (") -> \x7b".toList ++ rest)) =
      some (p.number.toList, ") -> \x7b".toList ++ rest) :=
  run?_append p.number_ne_nil p.isDigit_number (by decide) _

/-- Neither an apostrophe nor the comma behind an atom can be part of it. -/
theorem run?_atom (rest : List Char) :
    run? isWordChar (p.atom.toList ++ ((apostrophe p.closed).toList ++ (",".toList ++ rest))) =
      some (p.atom.toList, (apostrophe p.closed).toList ++ (",".toList ++ rest)) := by
  cases p.closed with
  | true => exact run?_append p.atom_ne_nil p.isWordChar_atom (by decide) _
  | false => exact run?_append p.atom_ne_nil p.isWordChar_atom (by decide) _

theorem run?_operands :
    run? Char.isDigit (p.operands.toList ++ "\x7d;".toList) =
      some (p.operands.toList, "\x7d;".toList) :=
  run?_append p.operands_ne_nil p.isDigit_operands (by decide) _

/-- An atom does not start with an apostrophe. -/
theorem head?_atom_append_ne (rest : List Char) :
    (p.atom.toList ++ rest).head? ≠ some '\x27' := by
  obtain ⟨c, cs, hatom⟩ := List.exists_cons_of_ne_nil p.atom_ne_nil
  have hc : isWordChar c = true := p.isWordChar_atom c (by simp [hatom])
  rw [hatom]
  rintro ⟨⟩
  exact absurd hc (by decide)

theorem head?_comma_append_ne (rest : List Char) :
    (",".toList ++ rest).head? ≠ some '\x27' := by
  simp

/-! ## Reading what was written -/

/-- A line that is written in parts is read as the clause that they make. -/
theorem ofLine?_line : ofLine? p.line = some p.clause := by
  unfold ofLine? ofChars?
  rw [toList_line]
  simp only [word?_append, run?_number, skipOne_apostrophe _ (p.head?_atom_append_ne _), run?_atom,
    skipOne_apostrophe _ (head?_comma_append_ne _), run?_operands, Option.bind_eq_bind,
    Option.bind_some, if_true, String.ofList_toList]
  rfl

/-- The parts can be told from the line. -/
theorem line_injective : Function.Injective line := by
  intro p q h
  have hchars := congrArg String.toList h
  rw [toList_line, toList_line, List.append_cancel_left_eq] at hchars
  -- from the left, each part ends in both texts where the scanner stops
  obtain ⟨hnumber, hchars⟩ := append_inj_of_run? (p.run?_number _) (q.run?_number _) hchars
  rw [List.append_cancel_left_eq] at hchars
  obtain ⟨hopened, hchars⟩ := apostrophe_append_inj (p.head?_atom_append_ne _)
    (q.head?_atom_append_ne _) hchars
  obtain ⟨hatom, hchars⟩ := append_inj_of_run? (p.run?_atom _) (q.run?_atom _) hchars
  obtain ⟨hclosed, hchars⟩ := apostrophe_append_inj (head?_comma_append_ne _)
    (head?_comma_append_ne _) hchars
  rw [List.append_cancel_left_eq, List.append_cancel_right_eq] at hchars
  exact Parts.ext (String.toList_inj.mp hnumber) hopened (String.toList_inj.mp hatom) hclosed
    (String.toList_inj.mp hchars)

end Parts

/-- What is read as a clause was written in parts: what the scanner takes off makes up the line. -/
theorem exists_parts_of_ofLine? {line : String} {clause : Clause}
    (h : ofLine? line = some clause) : ∃ p : Parts, p.line = line ∧ p.clause = clause := by
  unfold ofLine? ofChars? at h
  -- the steps of the scanner, each with the text that it leaves to the next one
  obtain ⟨s₁, hword₁, h⟩ := Option.bind_eq_some_iff.mp h
  obtain ⟨⟨number, s₂⟩, hnumber, h⟩ := Option.bind_eq_some_iff.mp h
  obtain ⟨s₃, hword₂, h⟩ := Option.bind_eq_some_iff.mp h
  obtain ⟨⟨atom, s₄⟩, hatom, h⟩ := Option.bind_eq_some_iff.mp h
  obtain ⟨s₅, hword₃, h⟩ := Option.bind_eq_some_iff.mp h
  obtain ⟨⟨operands, s₆⟩, hoperands, h⟩ := Option.bind_eq_some_iff.mp h
  simp only [Option.ite_none_right_eq_some, Option.some.injEq] at h
  obtain ⟨hend, rfl⟩ := h
  rw [word?_eq_some_iff] at hword₁ hword₂ hword₃
  obtain ⟨hnumber, hnumber_ne, hnumber_digit, -⟩ := run?_eq_some_iff.mp hnumber
  obtain ⟨hatom, hatom_ne, hatom_word, -⟩ := run?_eq_some_iff.mp hatom
  obtain ⟨hoperands, hoperands_ne, hoperands_digit, -⟩ := run?_eq_some_iff.mp hoperands
  -- apostrophes are dropped, so whether there were any is found out from the texts around them
  obtain ⟨opened, hopened⟩ := exists_apostrophe s₃
  obtain ⟨closed, hclosed⟩ := exists_apostrophe s₄
  let p : Parts := {
    number := String.ofList number
    opened
    atom := String.ofList atom
    closed
    operands := String.ofList operands
    number_ne_nil := by simpa using hnumber_ne
    isDigit_number := by simpa using hnumber_digit
    atom_ne_nil := by simpa using hatom_ne
    isWordChar_atom := by simpa using hatom_word
    operands_ne_nil := by simpa using hoperands_ne
    isDigit_operands := by simpa using hoperands_digit }
  refine ⟨p, ?_, rfl⟩
  rw [← String.toList_inj, p.toList_line, hword₁, hnumber, hword₂, hopened, hatom, hclosed, hword₃,
    hoperands, hend]
  simp only [p, String.toList_ofList]

/-- A line is read as a clause if and only if it is written in the parts of one. -/
theorem ofLine?_eq_some_iff {line : String} {clause : Clause} :
    ofLine? line = some clause ↔ ∃ p : Parts, p.line = line ∧ p.clause = clause := by
  constructor
  · exact exists_parts_of_ofLine?
  · rintro ⟨p, rfl, rfl⟩
    exact p.ofLine?_line

end OpcodeRegistry.Clause
