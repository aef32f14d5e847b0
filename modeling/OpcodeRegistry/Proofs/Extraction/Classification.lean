import OpcodeRegistry.Proofs.Extraction.History
import OpcodeRegistry.Proofs.Source.Clause

/-! # Which lines are definitions

A line is a definition if it is written in the parts of a clause and the number needs no more than 32
bits; every other line is ignored. What the definition says can be read off the parts.
-/

namespace OpcodeRegistry.LineClass

open Clause

variable {n : Nat} {line : String} {d : Definition}

/-- The line is written in these parts, and they say what the definition says. -/
structure WrittenAs (n : Nat) (line : String) (d : Definition) (p : Parts) : Prop where
  line_eq : p.line = line
  value_le : p.value ≤ 4294967295
  lineNumber_eq : d.lineNumber = n
  raw_eq : d.line = line
  code_eq : d.code.toNat = p.value
  mnemonic_eq : d.mnemonic = p.atom.toUpper

theorem exists_writtenAs_of_ofLine (h : ofLine n line = .definition d) :
    ∃ p, WrittenAs n line d p := by
  rcases exists_clause_of_ofLine h with ⟨clause, code, hclause, hcode, rfl⟩
  rcases ofLine?_eq_some_iff.mp hclause with ⟨p, hline, rfl⟩
  rw [p.code?_clause, Code.ofNat?_eq_some_iff] at hcode
  have hle : p.value ≤ 4294967295 := by
    have hlt := code.toNat_lt
    omega
  exact ⟨p, hline, hle, rfl, rfl, hcode.symm, p.mnemonic_clause⟩

theorem ofLine_of_parts (n : Nat) {p : Parts} {c : Code} (h : p.value = c.toNat) :
    ofLine n p.line = .definition
      { lineNumber := n, line := p.line, code := c, mnemonic := p.atom.toUpper } := by
  have hcode : p.clause.code? = some c := by
    rw [p.code?_clause, Code.ofNat?_eq_some_iff]
    exact h
  unfold ofLine
  rw [p.ofLine?_line]
  simp only [hcode, p.mnemonic_clause]

theorem eq_ignored_iff {l : LineClass} : l = .ignored ↔ ∀ d, l ≠ .definition d := by
  cases l with
  | definition d => simp
  | ignored => simp

/-- A line is a definition if and only if it is written in the parts of a clause whose number is one
of 32 bits, and then the definition says what they say; it has its parts in one way only. Every other
line is ignored. -/
theorem ofLine_iff_parts (n : Nat) (line : String) :
    (∀ d, ofLine n line = .definition d ↔ ∃ p, WrittenAs n line d p) ∧
    (ofLine n line = .ignored ↔ ¬ ∃ p : Parts, p.line = line ∧ p.value ≤ 4294967295) ∧
    Function.Injective Parts.line := by
  refine ⟨?_, ?_, Parts.line_injective⟩
  · intro d
    constructor
    · exact exists_writtenAs_of_ofLine
    · rintro ⟨p, rfl, -, hn, hraw, hcode, hmnemonic⟩
      rw [ofLine_of_parts n hcode.symm, ← hn, ← hmnemonic, ← hraw]
  · rw [eq_ignored_iff]
    constructor
    · -- parts with a number of 32 bits would have made a definition
      rintro hignored ⟨p, rfl, hle⟩
      have hvalue : p.value = (UInt32.ofNat p.value).toNat :=
        (UInt32.toNat_ofNat_of_lt' (Nat.lt_of_le_of_lt hle (by decide))).symm
      exact hignored _ (ofLine_of_parts n hvalue)
    · intro hnone d hd
      -- a definition would have been written in such parts
      rcases exists_writtenAs_of_ofLine hd with ⟨p, h⟩
      exact hnone ⟨p, h.line_eq, h.value_le⟩

end OpcodeRegistry.LineClass
