import Mathlib

set_option autoImplicit false

namespace Sandstar.Svm

inductive Opcode
  | nop | loadIM1 | loadI0 | loadI1 | loadI2 | loadI3 | loadI4 | loadI5 | loadIntU1 | loadIntU2
  | loadL0 | loadL1 | loadF0 | loadF1 | loadD0 | loadD1 | loadNull | loadNullBool
  | loadNullFloat | loadNullDouble | loadInt | loadFloat | loadLong | loadDouble | loadStr
  | loadBuf | loadType | loadSlot | loadDefine | loadParam0 | loadParam1 | loadParam2
  | loadParam3 | loadParam | loadParamWide | storeParam | storeParamWide | loadLocal0
  | loadLocal1 | loadLocal2 | loadLocal3 | loadLocal4 | loadLocal5 | loadLocal6 | loadLocal7
  | loadLocal | loadLocalWide | storeLocal0 | storeLocal1 | storeLocal2 | storeLocal3
  | storeLocal4 | storeLocal5 | storeLocal6 | storeLocal7 | storeLocal | storeLocalWide | intEq
  | intNotEq | intGt | intGtEq | intLt | intLtEq | intMul | intDiv | intMod | intAdd | intSub
  | intOr | intXor | intAnd | intNot | intNeg | intShiftL | intShiftR | intInc | intDec
  | longEq | longNotEq | longGt | longGtEq | longLt | longLtEq | longMul | longDiv | longMod
  | longAdd | longSub | longOr | longXor | longAnd | longNot | longNeg | longShiftL
  | longShiftR | floatEq | floatNotEq | floatGt | floatGtEq | floatLt | floatLtEq | floatMul
  | floatDiv | floatAdd | floatSub | floatNeg | doubleEq | doubleNotEq | doubleGt | doubleGtEq
  | doubleLt | doubleLtEq | doubleMul | doubleDiv | doubleAdd | doubleSub | doubleNeg
  | intToFloat | intToLong | intToDouble | longToInt | longToFloat | longToDouble | floatToInt
  | floatToLong | floatToDouble | doubleToInt | doubleToLong | doubleToFloat | objEq | objNotEq
  | eqZero | notEqZero | pop | pop2 | pop3 | dup | dup2 | dupDown2 | dupDown3 | dup2Down2
  | dup2Down3 | jump | jumpNonZero | jumpZero | foreach | jumpFar | jumpFarNonZero
  | jumpFarZero | foreachFar | jumpIntEq | jumpIntNotEq | jumpIntGt | jumpIntGtEq | jumpIntLt
  | jumpIntLtEq | jumpFarIntEq | jumpFarIntNotEq | jumpFarIntGt | jumpFarIntGtEq | jumpFarIntLt
  | jumpFarIntLtEq | loadDataAddr | load8BitFieldU1 | load8BitFieldU2 | load8BitFieldU4
  | load8BitArray | store8BitFieldU1 | store8BitFieldU2 | store8BitFieldU4 | store8BitArray
  | add8BitArray | load16BitFieldU1 | load16BitFieldU2 | load16BitFieldU4 | load16BitArray
  | store16BitFieldU1 | store16BitFieldU2 | store16BitFieldU4 | store16BitArray | add16BitArray
  | load32BitFieldU1 | load32BitFieldU2 | load32BitFieldU4 | load32BitArray | store32BitFieldU1
  | store32BitFieldU2 | store32BitFieldU4 | store32BitArray | add32BitArray | load64BitFieldU1
  | load64BitFieldU2 | load64BitFieldU4 | load64BitArray | store64BitFieldU1
  | store64BitFieldU2 | store64BitFieldU4 | store64BitArray | add64BitArray | loadRefFieldU1
  | loadRefFieldU2 | loadRefFieldU4 | loadRefArray | storeRefFieldU1 | storeRefFieldU2
  | storeRefFieldU4 | storeRefArray | addRefArray | loadConstFieldU1 | loadConstFieldU2
  | loadConstStatic | loadConstArray | loadInlineFieldU1 | loadInlineFieldU2
  | loadInlineFieldU4 | loadParam0InlineFieldU1 | loadParam0InlineFieldU2
  | loadParam0InlineFieldU4 | loadDataInlineFieldU1 | loadDataInlineFieldU2
  | loadDataInlineFieldU4 | call | callVirtual | callNative | callNativeWide | callNativeVoid
  | returnVoid | returnPop | returnPopWide | loadParam0Call | initArray | initVirt | initComp
  | sizeOf | assert | switch | metaSlot | cast | loadArrayLiteral | loadSlotId
deriving DecidableEq, Repr

namespace Opcode

/-- The opcodes by value, from 0 on. -/
def all : List Opcode :=
  [.nop, .loadIM1, .loadI0, .loadI1, .loadI2, .loadI3, .loadI4, .loadI5, .loadIntU1,
    .loadIntU2, .loadL0, .loadL1, .loadF0, .loadF1, .loadD0, .loadD1, .loadNull, .loadNullBool,
    .loadNullFloat, .loadNullDouble, .loadInt, .loadFloat, .loadLong, .loadDouble, .loadStr,
    .loadBuf, .loadType, .loadSlot, .loadDefine, .loadParam0, .loadParam1, .loadParam2,
    .loadParam3, .loadParam, .loadParamWide, .storeParam, .storeParamWide, .loadLocal0,
    .loadLocal1, .loadLocal2, .loadLocal3, .loadLocal4, .loadLocal5, .loadLocal6, .loadLocal7,
    .loadLocal, .loadLocalWide, .storeLocal0, .storeLocal1, .storeLocal2, .storeLocal3,
    .storeLocal4, .storeLocal5, .storeLocal6, .storeLocal7, .storeLocal, .storeLocalWide,
    .intEq, .intNotEq, .intGt, .intGtEq, .intLt, .intLtEq, .intMul, .intDiv, .intMod, .intAdd,
    .intSub, .intOr, .intXor, .intAnd, .intNot, .intNeg, .intShiftL, .intShiftR, .intInc,
    .intDec, .longEq, .longNotEq, .longGt, .longGtEq, .longLt, .longLtEq, .longMul, .longDiv,
    .longMod, .longAdd, .longSub, .longOr, .longXor, .longAnd, .longNot, .longNeg, .longShiftL,
    .longShiftR, .floatEq, .floatNotEq, .floatGt, .floatGtEq, .floatLt, .floatLtEq, .floatMul,
    .floatDiv, .floatAdd, .floatSub, .floatNeg, .doubleEq, .doubleNotEq, .doubleGt,
    .doubleGtEq, .doubleLt, .doubleLtEq, .doubleMul, .doubleDiv, .doubleAdd, .doubleSub,
    .doubleNeg, .intToFloat, .intToLong, .intToDouble, .longToInt, .longToFloat, .longToDouble,
    .floatToInt, .floatToLong, .floatToDouble, .doubleToInt, .doubleToLong, .doubleToFloat,
    .objEq, .objNotEq, .eqZero, .notEqZero, .pop, .pop2, .pop3, .dup, .dup2, .dupDown2,
    .dupDown3, .dup2Down2, .dup2Down3, .jump, .jumpNonZero, .jumpZero, .foreach, .jumpFar,
    .jumpFarNonZero, .jumpFarZero, .foreachFar, .jumpIntEq, .jumpIntNotEq, .jumpIntGt,
    .jumpIntGtEq, .jumpIntLt, .jumpIntLtEq, .jumpFarIntEq, .jumpFarIntNotEq, .jumpFarIntGt,
    .jumpFarIntGtEq, .jumpFarIntLt, .jumpFarIntLtEq, .loadDataAddr, .load8BitFieldU1,
    .load8BitFieldU2, .load8BitFieldU4, .load8BitArray, .store8BitFieldU1, .store8BitFieldU2,
    .store8BitFieldU4, .store8BitArray, .add8BitArray, .load16BitFieldU1, .load16BitFieldU2,
    .load16BitFieldU4, .load16BitArray, .store16BitFieldU1, .store16BitFieldU2,
    .store16BitFieldU4, .store16BitArray, .add16BitArray, .load32BitFieldU1, .load32BitFieldU2,
    .load32BitFieldU4, .load32BitArray, .store32BitFieldU1, .store32BitFieldU2,
    .store32BitFieldU4, .store32BitArray, .add32BitArray, .load64BitFieldU1, .load64BitFieldU2,
    .load64BitFieldU4, .load64BitArray, .store64BitFieldU1, .store64BitFieldU2,
    .store64BitFieldU4, .store64BitArray, .add64BitArray, .loadRefFieldU1, .loadRefFieldU2,
    .loadRefFieldU4, .loadRefArray, .storeRefFieldU1, .storeRefFieldU2, .storeRefFieldU4,
    .storeRefArray, .addRefArray, .loadConstFieldU1, .loadConstFieldU2, .loadConstStatic,
    .loadConstArray, .loadInlineFieldU1, .loadInlineFieldU2, .loadInlineFieldU4,
    .loadParam0InlineFieldU1, .loadParam0InlineFieldU2, .loadParam0InlineFieldU4,
    .loadDataInlineFieldU1, .loadDataInlineFieldU2, .loadDataInlineFieldU4, .call,
    .callVirtual, .callNative, .callNativeWide, .callNativeVoid, .returnVoid, .returnPop,
    .returnPopWide, .loadParam0Call, .initArray, .initVirt, .initComp, .sizeOf, .assert,
    .switch, .metaSlot, .cast, .loadArrayLiteral, .loadSlotId]

def tryFrom (byte : BitVec 8) : Option Opcode := all[byte.toNat]?

end Opcode

end Sandstar.Svm
