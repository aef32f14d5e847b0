import OpcodeRegistry.Architecture.OpcodeSet

/-! # The instruction set of the Erlang virtual machine

A register machine, BEAM, with one opcode per code.
-/

namespace OpcodeRegistry

/-- An opcode of the Erlang virtual machine. -/
inductive BeamOpcode where
  | label | funcInfo | intCodeEnd | call | callLast | callOnly | callExt | callExtLast | bif0
  | bif1 | bif2 | allocate | allocateHeap | allocateZero | allocateHeapZero | testHeap | init
  | deallocate | returnOp | send | removeMessage | timeout | loopRec | loopRecEnd | wait
  | waitTimeout | mPlus | mMinus | mTimes | mDiv | intDiv | intRem | intBand | intBor | intBxor
  | intBsl | intBsr | intBnot | isLt | isGe | isEq | isNe | isEqExact | isNeExact | isInteger
  | isFloat | isNumber | isAtom | isPid | isReference | isPort | isNil | isBinary | isConstant
  | isList | isNonemptyList | isTuple | testArity | selectVal | selectTupleArity | jump | catchOp
  | catchEnd | move | getList | getTupleElement | setTupleElement | putString | putList
  | putTuple | put | badmatch | ifEnd | caseEnd | callFun | makeFun | isFunction | callExtOnly
  | bsStartMatch | bsGetInteger | bsGetFloat | bsGetBinary | bsSkipBits | bsTestTail | bsSave
  | bsRestore | bsInit | bsFinal | bsPutInteger | bsPutBinary | bsPutFloat | bsPutString
  | bsNeedBuf | fclearerror | fcheckerror | fmove | fconv | fadd | fsub | fmul | fdiv | fnegate
  | makeFun2 | tryOp | tryEnd | tryCase | tryCaseEnd | raise | bsInit2 | bsBitsToBytes | bsAdd
  | apply | applyLast | isBoolean | isFunction2 | bsStartMatch2 | bsGetInteger2 | bsGetFloat2
  | bsGetBinary2 | bsSkipBits2 | bsTestTail2 | bsSave2 | bsRestore2 | gcBif1 | gcBif2 | bsFinal2
  | bsBitsToBytes2 | putLiteral | isBitstr | bsContextToBinary | bsTestUnit | bsMatchString
  | bsInitWritable | bsAppend | bsPrivateAppend | trim | bsInitBits | bsGetUtf8 | bsSkipUtf8
  | bsGetUtf16 | bsSkipUtf16 | bsGetUtf32 | bsSkipUtf32 | bsUtf8Size | bsPutUtf8 | bsUtf16Size
  | bsPutUtf16 | bsPutUtf32
deriving DecidableEq, Repr

namespace BeamOpcode

/-- All opcodes, in the order of their declaration. -/
def all : List BeamOpcode := [
  .label, .funcInfo, .intCodeEnd, .call, .callLast, .callOnly, .callExt, .callExtLast, .bif0,
  .bif1, .bif2, .allocate, .allocateHeap, .allocateZero, .allocateHeapZero, .testHeap, .init,
  .deallocate, .returnOp, .send, .removeMessage, .timeout, .loopRec, .loopRecEnd, .wait,
  .waitTimeout, .mPlus, .mMinus, .mTimes, .mDiv, .intDiv, .intRem, .intBand, .intBor, .intBxor,
  .intBsl, .intBsr, .intBnot, .isLt, .isGe, .isEq, .isNe, .isEqExact, .isNeExact, .isInteger,
  .isFloat, .isNumber, .isAtom, .isPid, .isReference, .isPort, .isNil, .isBinary, .isConstant,
  .isList, .isNonemptyList, .isTuple, .testArity, .selectVal, .selectTupleArity, .jump, .catchOp,
  .catchEnd, .move, .getList, .getTupleElement, .setTupleElement, .putString, .putList,
  .putTuple, .put, .badmatch, .ifEnd, .caseEnd, .callFun, .makeFun, .isFunction, .callExtOnly,
  .bsStartMatch, .bsGetInteger, .bsGetFloat, .bsGetBinary, .bsSkipBits, .bsTestTail, .bsSave,
  .bsRestore, .bsInit, .bsFinal, .bsPutInteger, .bsPutBinary, .bsPutFloat, .bsPutString,
  .bsNeedBuf, .fclearerror, .fcheckerror, .fmove, .fconv, .fadd, .fsub, .fmul, .fdiv, .fnegate,
  .makeFun2, .tryOp, .tryEnd, .tryCase, .tryCaseEnd, .raise, .bsInit2, .bsBitsToBytes, .bsAdd,
  .apply, .applyLast, .isBoolean, .isFunction2, .bsStartMatch2, .bsGetInteger2, .bsGetFloat2,
  .bsGetBinary2, .bsSkipBits2, .bsTestTail2, .bsSave2, .bsRestore2, .gcBif1, .gcBif2, .bsFinal2,
  .bsBitsToBytes2, .putLiteral, .isBitstr, .bsContextToBinary, .bsTestUnit, .bsMatchString,
  .bsInitWritable, .bsAppend, .bsPrivateAppend, .trim, .bsInitBits, .bsGetUtf8, .bsSkipUtf8,
  .bsGetUtf16, .bsSkipUtf16, .bsGetUtf32, .bsSkipUtf32, .bsUtf8Size, .bsPutUtf8, .bsUtf16Size,
  .bsPutUtf16, .bsPutUtf32]

/-- The mnemonic and the code of an opcode. -/
def spec : BeamOpcode → String × UInt8
  | label => ("LABEL", 0x01)
  | funcInfo => ("FUNC_INFO", 0x02)
  | intCodeEnd => ("INT_CODE_END", 0x03)
  | call => ("CALL", 0x04)
  | callLast => ("CALL_LAST", 0x05)
  | callOnly => ("CALL_ONLY", 0x06)
  | callExt => ("CALL_EXT", 0x07)
  | callExtLast => ("CALL_EXT_LAST", 0x08)
  | bif0 => ("BIF0", 0x09)
  | bif1 => ("BIF1", 0x0a)
  | bif2 => ("BIF2", 0x0b)
  | allocate => ("ALLOCATE", 0x0c)
  | allocateHeap => ("ALLOCATE_HEAP", 0x0d)
  | allocateZero => ("ALLOCATE_ZERO", 0x0e)
  | allocateHeapZero => ("ALLOCATE_HEAP_ZERO", 0x0f)
  | testHeap => ("TEST_HEAP", 0x10)
  | init => ("INIT", 0x11)
  | deallocate => ("DEALLOCATE", 0x12)
  | returnOp => ("RETURN", 0x13)
  | send => ("SEND", 0x14)
  | removeMessage => ("REMOVE_MESSAGE", 0x15)
  | timeout => ("TIMEOUT", 0x16)
  | loopRec => ("LOOP_REC", 0x17)
  | loopRecEnd => ("LOOP_REC_END", 0x18)
  | wait => ("WAIT", 0x19)
  | waitTimeout => ("WAIT_TIMEOUT", 0x1a)
  | mPlus => ("M_PLUS", 0x1b)
  | mMinus => ("M_MINUS", 0x1c)
  | mTimes => ("M_TIMES", 0x1d)
  | mDiv => ("M_DIV", 0x1e)
  | intDiv => ("INT_DIV", 0x1f)
  | intRem => ("INT_REM", 0x20)
  | intBand => ("INT_BAND", 0x21)
  | intBor => ("INT_BOR", 0x22)
  | intBxor => ("INT_BXOR", 0x23)
  | intBsl => ("INT_BSL", 0x24)
  | intBsr => ("INT_BSR", 0x25)
  | intBnot => ("INT_BNOT", 0x26)
  | isLt => ("IS_LT", 0x27)
  | isGe => ("IS_GE", 0x28)
  | isEq => ("IS_EQ", 0x29)
  | isNe => ("IS_NE", 0x2a)
  | isEqExact => ("IS_EQ_EXACT", 0x2b)
  | isNeExact => ("IS_NE_EXACT", 0x2c)
  | isInteger => ("IS_INTEGER", 0x2d)
  | isFloat => ("IS_FLOAT", 0x2e)
  | isNumber => ("IS_NUMBER", 0x2f)
  | isAtom => ("IS_ATOM", 0x30)
  | isPid => ("IS_PID", 0x31)
  | isReference => ("IS_REFERENCE", 0x32)
  | isPort => ("IS_PORT", 0x33)
  | isNil => ("IS_NIL", 0x34)
  | isBinary => ("IS_BINARY", 0x35)
  | isConstant => ("IS_CONSTANT", 0x36)
  | isList => ("IS_LIST", 0x37)
  | isNonemptyList => ("IS_NONEMPTY_LIST", 0x38)
  | isTuple => ("IS_TUPLE", 0x39)
  | testArity => ("TEST_ARITY", 0x3a)
  | selectVal => ("SELECT_VAL", 0x3b)
  | selectTupleArity => ("SELECT_TUPLE_ARITY", 0x3c)
  | jump => ("JUMP", 0x3d)
  | catchOp => ("CATCH", 0x3e)
  | catchEnd => ("CATCH_END", 0x3f)
  | move => ("MOVE", 0x40)
  | getList => ("GET_LIST", 0x41)
  | getTupleElement => ("GET_TUPLE_ELEMENT", 0x42)
  | setTupleElement => ("SET_TUPLE_ELEMENT", 0x43)
  | putString => ("PUT_STRING", 0x44)
  | putList => ("PUT_LIST", 0x45)
  | putTuple => ("PUT_TUPLE", 0x46)
  | put => ("PUT", 0x47)
  | badmatch => ("BADMATCH", 0x48)
  | ifEnd => ("IF_END", 0x49)
  | caseEnd => ("CASE_END", 0x4a)
  | callFun => ("CALL_FUN", 0x4b)
  | makeFun => ("MAKE_FUN", 0x4c)
  | isFunction => ("IS_FUNCTION", 0x4d)
  | callExtOnly => ("CALL_EXT_ONLY", 0x4e)
  | bsStartMatch => ("BS_START_MATCH", 0x4f)
  | bsGetInteger => ("BS_GET_INTEGER", 0x50)
  | bsGetFloat => ("BS_GET_FLOAT", 0x51)
  | bsGetBinary => ("BS_GET_BINARY", 0x52)
  | bsSkipBits => ("BS_SKIP_BITS", 0x53)
  | bsTestTail => ("BS_TEST_TAIL", 0x54)
  | bsSave => ("BS_SAVE", 0x55)
  | bsRestore => ("BS_RESTORE", 0x56)
  | bsInit => ("BS_INIT", 0x57)
  | bsFinal => ("BS_FINAL", 0x58)
  | bsPutInteger => ("BS_PUT_INTEGER", 0x59)
  | bsPutBinary => ("BS_PUT_BINARY", 0x5a)
  | bsPutFloat => ("BS_PUT_FLOAT", 0x5b)
  | bsPutString => ("BS_PUT_STRING", 0x5c)
  | bsNeedBuf => ("BS_NEED_BUF", 0x5d)
  | fclearerror => ("FCLEARERROR", 0x5e)
  | fcheckerror => ("FCHECKERROR", 0x5f)
  | fmove => ("FMOVE", 0x60)
  | fconv => ("FCONV", 0x61)
  | fadd => ("FADD", 0x62)
  | fsub => ("FSUB", 0x63)
  | fmul => ("FMUL", 0x64)
  | fdiv => ("FDIV", 0x65)
  | fnegate => ("FNEGATE", 0x66)
  | makeFun2 => ("MAKE_FUN2", 0x67)
  | tryOp => ("TRY", 0x68)
  | tryEnd => ("TRY_END", 0x69)
  | tryCase => ("TRY_CASE", 0x6a)
  | tryCaseEnd => ("TRY_CASE_END", 0x6b)
  | raise => ("RAISE", 0x6c)
  | bsInit2 => ("BS_INIT2", 0x6d)
  | bsBitsToBytes => ("BS_BITS_TO_BYTES", 0x6e)
  | bsAdd => ("BS_ADD", 0x6f)
  | apply => ("APPLY", 0x70)
  | applyLast => ("APPLY_LAST", 0x71)
  | isBoolean => ("IS_BOOLEAN", 0x72)
  | isFunction2 => ("IS_FUNCTION2", 0x73)
  | bsStartMatch2 => ("BS_START_MATCH2", 0x74)
  | bsGetInteger2 => ("BS_GET_INTEGER2", 0x75)
  | bsGetFloat2 => ("BS_GET_FLOAT2", 0x76)
  | bsGetBinary2 => ("BS_GET_BINARY2", 0x77)
  | bsSkipBits2 => ("BS_SKIP_BITS2", 0x78)
  | bsTestTail2 => ("BS_TEST_TAIL2", 0x79)
  | bsSave2 => ("BS_SAVE2", 0x7a)
  | bsRestore2 => ("BS_RESTORE2", 0x7b)
  | gcBif1 => ("GC_BIF1", 0x7c)
  | gcBif2 => ("GC_BIF2", 0x7d)
  | bsFinal2 => ("BS_FINAL2", 0x7e)
  | bsBitsToBytes2 => ("BS_BITS_TO_BYTES2", 0x7f)
  | putLiteral => ("PUT_LITERAL", 0x80)
  | isBitstr => ("IS_BITSTR", 0x81)
  | bsContextToBinary => ("BS_CONTEXT_TO_BINARY", 0x82)
  | bsTestUnit => ("BS_TEST_UNIT", 0x83)
  | bsMatchString => ("BS_MATCH_STRING", 0x84)
  | bsInitWritable => ("BS_INIT_WRITABLE", 0x85)
  | bsAppend => ("BS_APPEND", 0x86)
  | bsPrivateAppend => ("BS_PRIVATE_APPEND", 0x87)
  | trim => ("TRIM", 0x88)
  | bsInitBits => ("BS_INIT_BITS", 0x89)
  | bsGetUtf8 => ("BS_GET_UTF8", 0x8a)
  | bsSkipUtf8 => ("BS_SKIP_UTF8", 0x8b)
  | bsGetUtf16 => ("BS_GET_UTF16", 0x8c)
  | bsSkipUtf16 => ("BS_SKIP_UTF16", 0x8d)
  | bsGetUtf32 => ("BS_GET_UTF32", 0x8e)
  | bsSkipUtf32 => ("BS_SKIP_UTF32", 0x8f)
  | bsUtf8Size => ("BS_UTF8_SIZE", 0x90)
  | bsPutUtf8 => ("BS_PUT_UTF8", 0x91)
  | bsUtf16Size => ("BS_UTF16_SIZE", 0x92)
  | bsPutUtf16 => ("BS_PUT_UTF16", 0x93)
  | bsPutUtf32 => ("BS_PUT_UTF32", 0x94)

instance : OpcodeSet BeamOpcode where
  all := all
  mnemonic op := (spec op).1
  code op := (spec op).2
  canonical := id

/-! ## The list of opcodes -/

/-- The position of an opcode in the list is the one at which the type declares it. -/
theorem getElem?_all (op : BeamOpcode) : all[op.ctorIdx]? = some op := by
  cases op <;> rfl

theorem nodup_all : all.Nodup :=
  -- Two equal opcodes would have equal positions, and those ascend along the list.
  List.Pairwise.of_map BeamOpcode.ctorIdx (S := (· ≠ ·))
    (fun _ _ => mt (congrArg BeamOpcode.ctorIdx)) (by decide +kernel)

instance : LawfulOpcodeSet BeamOpcode where
  mem_all op := List.mem_of_getElem? (getElem?_all op)
  nodup_all := nodup_all

end BeamOpcode

end OpcodeRegistry
