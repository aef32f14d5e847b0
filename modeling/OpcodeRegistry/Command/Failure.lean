import OpcodeRegistry.Architecture.Basic
import OpcodeRegistry.Extraction.Basic
import OpcodeRegistry.Text.Notation

/-! # Failures of commands

A command that fails shows the error as a value, with all that it holds.
-/

namespace OpcodeRegistry

open Text

/-- The fault as a value. -/
def FileFault.shown : FileFault → String
  | notFound =>
    record "Os" [
      ("code", "2"),
      ("kind", "NotFound"),
      ("message", quoted "No such file or directory")]
  | notADirectory =>
    record "Os" [("code", "20"), ("kind", "NotADirectory"), ("message", quoted "Not a directory")]
  | isADirectory =>
    record "Os" [("code", "21"), ("kind", "IsADirectory"), ("message", quoted "Is a directory")]
  | nameTooLong =>
    record "Os" [
      ("code", "36"),
      ("kind", "InvalidFilename"),
      ("message", quoted "File name too long")]
  | nulInName =>
    record "Error" [("kind", "InvalidInput"), ("message", quoted FileFault.nulInName.message)]
  | notUtf8 =>
    record "Error" [("kind", "InvalidData"), ("message", quoted FileFault.notUtf8.message)]

/-- The error as a value. -/
def ExtractionError.shown : ExtractionError → String
  | source fault => tagged "Read" [fault.shown]
  | file path fault => record "Io" [("path", quoted path), ("source", fault.shown)]
  | redefined r =>
    record "Collision" [
      ("code", toString r.code.toNat),
      ("mnemonic", quoted r.replacement.mnemonic),
      ("line", toString r.replacement.lineNumber),
      ("previous", quoted r.previous.mnemonic),
      ("previous_line", toString r.previous.lineNumber)]

/-- The error as a value. -/
def TableError.shown : TableError → String
  | emptyMnemonic code => record "EmptyMnemonic" [("code", toString code.toNat)]
  | invalidMnemonic mnemonic => tagged "InvalidMnemonic" [quoted mnemonic]
  | duplicateMnemonic mnemonic => tagged "DuplicateMnemonic" [quoted mnemonic]
  | codeOutOfRange mnemonic code width =>
    record "CodeOutOfRange" [
      ("mnemonic", quoted mnemonic),
      ("code", toString code.toNat),
      ("bits", toString width.bits)]
  | codeCollision code existing mnemonic =>
    record "CodeCollision" [
      ("code", toString code.toNat),
      ("existing", quoted existing),
      ("mnemonic", quoted mnemonic)]
  | unknownCanonical mnemonic canonical =>
    record "UnknownCanonical" [("alias", quoted mnemonic), ("canonical", quoted canonical)]
  | aliasCodeMismatch mnemonic canonical code expected =>
    record "AliasCodeMismatch" [
      ("alias", quoted mnemonic),
      ("canonical", quoted canonical),
      ("code", toString code.toNat),
      ("expected", toString expected.toNat)]
  | aliasOfAlias mnemonic canonical =>
    record "AliasOfAlias" [("alias", quoted mnemonic), ("canonical", quoted canonical)]

/-- The error as a value. -/
def ArchitectureError.shown : ArchitectureError → String
  | unknown label => tagged "Unknown" [quoted label]
  | invalidTable label e => record "InvalidTable" [("label", quoted label), ("source", e.shown)]

end OpcodeRegistry
