import OpcodeRegistry.Proofs.Architecture.Agreement
import OpcodeRegistry.Proofs.Command.Strictness
import OpcodeRegistry.Proofs.Comparison
import OpcodeRegistry.Proofs.Extraction.Mnemonic
import OpcodeRegistry.Proofs.Extraction.Text
import OpcodeRegistry.Proofs.Listing.Reading
import OpcodeRegistry.Proofs.Text.Numeral

/-! # Verification on the command line

Verifying an architecture against a text compares two assignments of mnemonics to codes, and neither
takes an extraction to be stated: the canonical entries of the table, and for each code the last
clause of the text. What is printed is the comparison of the two, a line for each difference, and
the command succeeds if there is none.
-/

namespace OpcodeRegistry

open Text

/-! ## What is compared -/

/-- An outcome reports on two assignments of mnemonics to codes if it prints their comparison, one
line for each difference, and is a success if there is none. -/
structure Outcome.Reports (o : Outcome) (shipped current : Code → Option String) : Prop where
  /-- The output is a line for each difference, by ascending code, and nothing else. -/
  lines : ∃ differences, IsComparison shipped current differences ∧
    o.output = String.join (differences.map fun d => d.message ++ "\n") ∧
    linesOf o.output = differences.map Difference.message
  success_iff : o.success = true ↔ ∀ c, shipped c = current c

namespace Command

variable {reader : FileReader} {file label text : String} {architecture : Architecture}
  {x : Extraction}

end Command

end OpcodeRegistry
