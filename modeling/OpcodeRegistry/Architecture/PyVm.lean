import OpcodeRegistry.Architecture.OpcodeSet

/-! # The instruction set of the Python 2.6 virtual machine

A stack machine. The slice instructions come in families of four consecutive codes; the first member
of a family shares the code of the family and is an alias of it.
-/

namespace OpcodeRegistry

/-- An opcode of the Python 2.6 virtual machine. -/
inductive PyOpcode where
  | stopCode | popTop | rotTwo | rotThree | dupTop | rotFour | nop | unaryPositive
  | unaryNegative | unaryNot | unaryConvert | unaryInvert | listAppend | binaryPower
  | binaryMultiply | binaryDivide | binaryModulo | binaryAdd | binarySubtract | binarySubscr
  | binaryFloorDivide | binaryTrueDivide | inplaceFloorDivide | inplaceTrueDivide | slice
  | slice0 | slice1 | slice2 | slice3 | storeSlice | storeSlice0 | storeSlice1 | storeSlice2
  | storeSlice3 | deleteSlice | deleteSlice0 | deleteSlice1 | deleteSlice2 | deleteSlice3
  | storeMap | inplaceAdd | inplaceSubtract | inplaceMultiply | inplaceDivide | inplaceModulo
  | storeSubscr | deleteSubscr | binaryLshift | binaryRshift | binaryAnd | binaryXor | binaryOr
  | inplacePower | getIter | printExpr | printItem | printNewline | printItemTo | printNewlineTo
  | inplaceLshift | inplaceRshift | inplaceAnd | inplaceXor | inplaceOr | breakLoop | withCleanup
  | loadLocals | returnValue | importStar | execStmt | yieldValue | popBlock | endFinally
  | buildClass | storeName | deleteName | unpackSequence | forIter | storeAttr | deleteAttr
  | storeGlobal | deleteGlobal | dupTopx | loadConst | loadName | buildTuple | buildList
  | buildMap | loadAttr | compareOp | importName | importFrom | jumpForward | jumpIfFalse
  | jumpIfTrue | jumpAbsolute | loadGlobal | continueLoop | setupLoop | setupExcept
  | setupFinally | loadFast | storeFast | deleteFast | raiseVarargs | callFunction | makeFunction
  | buildSlice | makeClosure | loadClosure | loadDeref | storeDeref | callFunctionVar
  | callFunctionKw | callFunctionVarKw | extendedArg
deriving DecidableEq, Repr

namespace PyOpcode

/-- All opcodes, in the order of their declaration. -/
def all : List PyOpcode := [
  .stopCode, .popTop, .rotTwo, .rotThree, .dupTop, .rotFour, .nop, .unaryPositive,
  .unaryNegative, .unaryNot, .unaryConvert, .unaryInvert, .listAppend, .binaryPower,
  .binaryMultiply, .binaryDivide, .binaryModulo, .binaryAdd, .binarySubtract, .binarySubscr,
  .binaryFloorDivide, .binaryTrueDivide, .inplaceFloorDivide, .inplaceTrueDivide, .slice,
  .slice0, .slice1, .slice2, .slice3, .storeSlice, .storeSlice0, .storeSlice1, .storeSlice2,
  .storeSlice3, .deleteSlice, .deleteSlice0, .deleteSlice1, .deleteSlice2, .deleteSlice3,
  .storeMap, .inplaceAdd, .inplaceSubtract, .inplaceMultiply, .inplaceDivide, .inplaceModulo,
  .storeSubscr, .deleteSubscr, .binaryLshift, .binaryRshift, .binaryAnd, .binaryXor, .binaryOr,
  .inplacePower, .getIter, .printExpr, .printItem, .printNewline, .printItemTo, .printNewlineTo,
  .inplaceLshift, .inplaceRshift, .inplaceAnd, .inplaceXor, .inplaceOr, .breakLoop, .withCleanup,
  .loadLocals, .returnValue, .importStar, .execStmt, .yieldValue, .popBlock, .endFinally,
  .buildClass, .storeName, .deleteName, .unpackSequence, .forIter, .storeAttr, .deleteAttr,
  .storeGlobal, .deleteGlobal, .dupTopx, .loadConst, .loadName, .buildTuple, .buildList,
  .buildMap, .loadAttr, .compareOp, .importName, .importFrom, .jumpForward, .jumpIfFalse,
  .jumpIfTrue, .jumpAbsolute, .loadGlobal, .continueLoop, .setupLoop, .setupExcept,
  .setupFinally, .loadFast, .storeFast, .deleteFast, .raiseVarargs, .callFunction, .makeFunction,
  .buildSlice, .makeClosure, .loadClosure, .loadDeref, .storeDeref, .callFunctionVar,
  .callFunctionKw, .callFunctionVarKw, .extendedArg]

/-- The mnemonic and the code of an opcode. -/
def spec : PyOpcode → String × UInt8
  | stopCode => ("STOP_CODE", 0x00)
  | popTop => ("POP_TOP", 0x01)
  | rotTwo => ("ROT_TWO", 0x02)
  | rotThree => ("ROT_THREE", 0x03)
  | dupTop => ("DUP_TOP", 0x04)
  | rotFour => ("ROT_FOUR", 0x05)
  | nop => ("NOP", 0x09)
  | unaryPositive => ("UNARY_POSITIVE", 0x0a)
  | unaryNegative => ("UNARY_NEGATIVE", 0x0b)
  | unaryNot => ("UNARY_NOT", 0x0c)
  | unaryConvert => ("UNARY_CONVERT", 0x0d)
  | unaryInvert => ("UNARY_INVERT", 0x0f)
  | listAppend => ("LIST_APPEND", 0x12)
  | binaryPower => ("BINARY_POWER", 0x13)
  | binaryMultiply => ("BINARY_MULTIPLY", 0x14)
  | binaryDivide => ("BINARY_DIVIDE", 0x15)
  | binaryModulo => ("BINARY_MODULO", 0x16)
  | binaryAdd => ("BINARY_ADD", 0x17)
  | binarySubtract => ("BINARY_SUBTRACT", 0x18)
  | binarySubscr => ("BINARY_SUBSCR", 0x19)
  | binaryFloorDivide => ("BINARY_FLOOR_DIVIDE", 0x1a)
  | binaryTrueDivide => ("BINARY_TRUE_DIVIDE", 0x1b)
  | inplaceFloorDivide => ("INPLACE_FLOOR_DIVIDE", 0x1c)
  | inplaceTrueDivide => ("INPLACE_TRUE_DIVIDE", 0x1d)
  | slice => ("SLICE", 0x1e)
  | slice0 => ("SLICE_0", 0x1e)
  | slice1 => ("SLICE_1", 0x1f)
  | slice2 => ("SLICE_2", 0x20)
  | slice3 => ("SLICE_3", 0x21)
  | storeSlice => ("STORE_SLICE", 0x28)
  | storeSlice0 => ("STORE_SLICE_0", 0x28)
  | storeSlice1 => ("STORE_SLICE_1", 0x29)
  | storeSlice2 => ("STORE_SLICE_2", 0x2a)
  | storeSlice3 => ("STORE_SLICE_3", 0x2b)
  | deleteSlice => ("DELETE_SLICE", 0x32)
  | deleteSlice0 => ("DELETE_SLICE_0", 0x32)
  | deleteSlice1 => ("DELETE_SLICE_1", 0x33)
  | deleteSlice2 => ("DELETE_SLICE_2", 0x34)
  | deleteSlice3 => ("DELETE_SLICE_3", 0x35)
  | storeMap => ("STORE_MAP", 0x36)
  | inplaceAdd => ("INPLACE_ADD", 0x37)
  | inplaceSubtract => ("INPLACE_SUBTRACT", 0x38)
  | inplaceMultiply => ("INPLACE_MULTIPLY", 0x39)
  | inplaceDivide => ("INPLACE_DIVIDE", 0x3a)
  | inplaceModulo => ("INPLACE_MODULO", 0x3b)
  | storeSubscr => ("STORE_SUBSCR", 0x3c)
  | deleteSubscr => ("DELETE_SUBSCR", 0x3d)
  | binaryLshift => ("BINARY_LSHIFT", 0x3e)
  | binaryRshift => ("BINARY_RSHIFT", 0x3f)
  | binaryAnd => ("BINARY_AND", 0x40)
  | binaryXor => ("BINARY_XOR", 0x41)
  | binaryOr => ("BINARY_OR", 0x42)
  | inplacePower => ("INPLACE_POWER", 0x43)
  | getIter => ("GET_ITER", 0x44)
  | printExpr => ("PRINT_EXPR", 0x46)
  | printItem => ("PRINT_ITEM", 0x47)
  | printNewline => ("PRINT_NEWLINE", 0x48)
  | printItemTo => ("PRINT_ITEM_TO", 0x49)
  | printNewlineTo => ("PRINT_NEWLINE_TO", 0x4a)
  | inplaceLshift => ("INPLACE_LSHIFT", 0x4b)
  | inplaceRshift => ("INPLACE_RSHIFT", 0x4c)
  | inplaceAnd => ("INPLACE_AND", 0x4d)
  | inplaceXor => ("INPLACE_XOR", 0x4e)
  | inplaceOr => ("INPLACE_OR", 0x4f)
  | breakLoop => ("BREAK_LOOP", 0x50)
  | withCleanup => ("WITH_CLEANUP", 0x51)
  | loadLocals => ("LOAD_LOCALS", 0x52)
  | returnValue => ("RETURN_VALUE", 0x53)
  | importStar => ("IMPORT_STAR", 0x54)
  | execStmt => ("EXEC_STMT", 0x55)
  | yieldValue => ("YIELD_VALUE", 0x56)
  | popBlock => ("POP_BLOCK", 0x57)
  | endFinally => ("END_FINALLY", 0x58)
  | buildClass => ("BUILD_CLASS", 0x59)
  | storeName => ("STORE_NAME", 0x5a)
  | deleteName => ("DELETE_NAME", 0x5b)
  | unpackSequence => ("UNPACK_SEQUENCE", 0x5c)
  | forIter => ("FOR_ITER", 0x5d)
  | storeAttr => ("STORE_ATTR", 0x5f)
  | deleteAttr => ("DELETE_ATTR", 0x60)
  | storeGlobal => ("STORE_GLOBAL", 0x61)
  | deleteGlobal => ("DELETE_GLOBAL", 0x62)
  | dupTopx => ("DUP_TOPX", 0x63)
  | loadConst => ("LOAD_CONST", 0x64)
  | loadName => ("LOAD_NAME", 0x65)
  | buildTuple => ("BUILD_TUPLE", 0x66)
  | buildList => ("BUILD_LIST", 0x67)
  | buildMap => ("BUILD_MAP", 0x68)
  | loadAttr => ("LOAD_ATTR", 0x69)
  | compareOp => ("COMPARE_OP", 0x6a)
  | importName => ("IMPORT_NAME", 0x6b)
  | importFrom => ("IMPORT_FROM", 0x6c)
  | jumpForward => ("JUMP_FORWARD", 0x6e)
  | jumpIfFalse => ("JUMP_IF_FALSE", 0x6f)
  | jumpIfTrue => ("JUMP_IF_TRUE", 0x70)
  | jumpAbsolute => ("JUMP_ABSOLUTE", 0x71)
  | loadGlobal => ("LOAD_GLOBAL", 0x74)
  | continueLoop => ("CONTINUE_LOOP", 0x77)
  | setupLoop => ("SETUP_LOOP", 0x78)
  | setupExcept => ("SETUP_EXCEPT", 0x79)
  | setupFinally => ("SETUP_FINALLY", 0x7a)
  | loadFast => ("LOAD_FAST", 0x7c)
  | storeFast => ("STORE_FAST", 0x7d)
  | deleteFast => ("DELETE_FAST", 0x7e)
  | raiseVarargs => ("RAISE_VARARGS", 0x82)
  | callFunction => ("CALL_FUNCTION", 0x83)
  | makeFunction => ("MAKE_FUNCTION", 0x84)
  | buildSlice => ("BUILD_SLICE", 0x85)
  | makeClosure => ("MAKE_CLOSURE", 0x86)
  | loadClosure => ("LOAD_CLOSURE", 0x87)
  | loadDeref => ("LOAD_DEREF", 0x88)
  | storeDeref => ("STORE_DEREF", 0x89)
  | callFunctionVar => ("CALL_FUNCTION_VAR", 0x8c)
  | callFunctionKw => ("CALL_FUNCTION_KW", 0x8d)
  | callFunctionVarKw => ("CALL_FUNCTION_VAR_KW", 0x8e)
  | extendedArg => ("EXTENDED_ARG", 0x8f)

/-- The opcode that stands for the code of this one. -/
def canonical : PyOpcode → PyOpcode
  | slice0 => slice
  | storeSlice0 => storeSlice
  | deleteSlice0 => deleteSlice
  | op => op

instance : OpcodeSet PyOpcode where
  all := all
  mnemonic op := (spec op).1
  code op := (spec op).2
  canonical := canonical

/-! ## The list of opcodes -/

/-- The position of an opcode in the list is the one at which the type declares it. -/
theorem getElem?_all (op : PyOpcode) : all[op.ctorIdx]? = some op := by
  cases op <;> rfl

theorem nodup_all : all.Nodup :=
  -- Two equal opcodes would have equal positions, and those ascend along the list.
  List.Pairwise.of_map PyOpcode.ctorIdx (S := (· ≠ ·))
    (fun _ _ => mt (congrArg PyOpcode.ctorIdx)) (by decide +kernel)

instance : LawfulOpcodeSet PyOpcode where
  mem_all op := List.mem_of_getElem? (getElem?_all op)
  nodup_all := nodup_all

end PyOpcode

end OpcodeRegistry
