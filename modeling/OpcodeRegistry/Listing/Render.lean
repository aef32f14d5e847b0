import OpcodeRegistry.Code
import OpcodeRegistry.Text.Digits

/-! # Listings

A listing gives one opcode a line. A plain line, `LABEL = 0x01 # 001`, holds the code in two bases;
an enumeration line, `Label("LABEL") = 0x01,`, declares a variant. Aligned, what stands before the
equals sign is filled up with spaces to one width. That width is counted in bytes and the filling in
characters, so a name beyond ASCII gets fewer columns than the longest one.

An enumeration names its variants in camel case: the words of a mnemonic, which underscores divide,
each with one capital. A name that would start with a digit gets an underscore in front.
-/

namespace OpcodeRegistry.Listing

/-! ## Variant names -/

/-- The words of a mnemonic: what stands between underscores. -/
def words (mnemonic : String) : List (List Char) :=
  (mnemonic.toList.splitOn '_').filter fun word => !word.isEmpty

/-- The word with a capital in front and no other. -/
def capitalized : List Char → List Char
  | [] => []
  | c :: cs => c.toUpper :: cs.map Char.toLower

/-- The name with an underscore in front if a digit would stand there. -/
def guarded : List Char → List Char
  | [] => []
  | c :: cs => if c.isDigit then '_' :: c :: cs else c :: cs

/-- The variant name of a mnemonic: `FUNC_INFO` becomes `FuncInfo` and `SLICE_0` becomes `Slice0`.
-/
def variantName (mnemonic : String) : String :=
  String.ofList (guarded ((words mnemonic).flatMap capitalized))

/-! ## Lines -/

/-- How an opcode is written on its line. -/
inductive Style where
  | plain
  | variants
deriving DecidableEq, Repr

/-- The text filled up with spaces on the right to `width` characters. No width is too large, where
a formatter that keeps widths in 16 bits fills up to 65535 characters at most; up to there both come
to the same. -/
def padded (width : Nat) (text : String) : String :=
  text ++ String.ofList (List.replicate (width - text.length) ' ')

/-- What stands before the equals sign of an enumeration line. -/
def declarator (mnemonic : String) : String :=
  variantName mnemonic ++ "(\"" ++ mnemonic ++ "\")"

/-- A plain line. -/
def plainLine (mnemonic : String) (code : Code) (pad : Nat) : String :=
  padded pad mnemonic ++ " = 0x" ++ Text.hex 2 code.toNat ++ " # " ++ Text.decimal 3 code.toNat

/-- A line of an enumeration. -/
def variantLine (mnemonic : String) (code : Code) (pad : Nat) : String :=
  padded pad (declarator mnemonic) ++ " = 0x" ++ Text.hex 2 code.toNat ++ ","

namespace Style

/-- The line of an opcode, filled up to `pad` characters before the equals sign. -/
def line : Style → String → Code → Nat → String
  | plain => plainLine
  | variants => variantLine

/-- The bytes of what stands before the equals sign. The quotes and brackets of an enumeration line
are four of them. -/
def byteWidth : Style → String → Nat
  | plain, mnemonic => mnemonic.utf8ByteSize
  | variants, mnemonic => (variantName mnemonic).utf8ByteSize + mnemonic.utf8ByteSize + 4

end Style

/-- The width that aligned lines are filled up to: the largest width in bytes. -/
def alignment (style : Style) (entries : List (String × Code)) : Nat :=
  (entries.map fun entry => style.byteWidth entry.1).foldr max 0

/-- The listing of mnemonics and codes in the given order, one a line. -/
def render (entries : List (String × Code)) (style : Style) (align : Bool) : String :=
  let pad := if align then alignment style entries else 0
  String.join (entries.map fun (mnemonic, code) => style.line mnemonic code pad ++ "\n")

end OpcodeRegistry.Listing
