import Sandstar.SvmMachine
import Sandstar.SvmOpcodes

set_option autoImplicit false

/-!
# The instructions of the virtual machine

Opcodes that differ only in a constant, a width or a function of their operands
share one instruction form; `Opcode.instr` gives each its own values. `exec` is
the arm of `VmInterpreter::step` for a form, as a program of operations.
-/
namespace Sandstar.Svm

open Sandstar.Effects

abbrev Program (α : Type) := Prog ops α

/-- The native methods, as functions of their parameters. -/
structure Natives where
  call : Byte → BitVec 16 → List Cell → Except VmError Cell
  callWide : Byte → BitVec 16 → List Cell → Except VmError (BitVec 64)

def Natives.stubs : Natives where
  call _ _ _ := .ok 0
  callWide _ _ _ := .ok 0

inductive StepResult
  | continue
  | returnI32 (v : Cell)
  | returnWide (v : BitVec 64)
  | returnVoid
deriving DecidableEq

inductive Instr
  | nop
  | literal (v : Cell)
  | literalWide (v : BitVec 64)
  /-- Push an unsigned operand of `w` bytes. -/
  | operand (w : ℕ)
  | poolInt
  | poolWide
  | poolRef
  | loadSlot (b : Bank) (i : ℕ)
  | loadSlotU1 (b : Bank)
  | loadSlotWide (b : Bank)
  | storeSlot (b : Bank) (i : ℕ)
  | storeSlotU1 (b : Bank)
  | storeSlotWide (b : Bank)
  | unary (f : Cell → Cell)
  | binary (f : Cell → Cell → Cell)
  | unaryWide (f : BitVec 64 → BitVec 64)
  | binaryWide (f : BitVec 64 → BitVec 64 → BitVec 64)
  | compareWide (f : BitVec 64 → BitVec 64 → Cell)
  | shiftWide (f : BitVec 64 → Cell → BitVec 64)
  | widen (f : Cell → BitVec 64)
  | narrow (f : BitVec 64 → Cell)
  | drop (n : ℕ)
  | dup
  | dup2
  | dupDown2
  | dupDown3
  | dup2Down2
  | dup2Down3
  /-- The branches carry the width of their offset. -/
  | jump (w : ℕ)
  | jumpIf (w : ℕ) (c : Cell → Bool)
  | jumpCompare (w : ℕ) (c : Cell → Cell → Bool)
  | foreach (w : ℕ)
  /-- A value of `n` bytes at an offset operand of `w` bytes. -/
  | loadField (n w : ℕ)
  | loadFieldWide (w : ℕ)
  | storeField (n w : ℕ)
  | storeFieldWide (w : ℕ)
  | load8BitArray
  | store8BitArray
  /-- Elements of `n` bytes. -/
  | loadArray (n : ℕ)
  | loadArrayWide
  | storeArray (n : ℕ)
  | storeArrayWide
  | addArray (n : ℕ)
  | loadConstField (w : ℕ)
  | loadConstStatic
  | loadConstArray
  | loadInlineField (w : ℕ)
  | loadParam0InlineField (w : ℕ)
  | call
  | loadParam0Call
  | callVirtual
  | callNative
  | callNativeWide
  | callNativeVoid
  | returnPop
  | returnPopWide
  | returnVoid
  | initArray
  /-- Store the block index operand in the object, `offset` bytes in. -/
  | initBlock (offset : ℕ)
  | assert
  | switch
  | metaSlot
  | unsupported

def ofBool (b : Bool) : Cell := if b then 1 else 0

section Floats

def compareF32 (f : Float32 → Float32 → Bool) (a b : Cell) : Cell :=
  ofBool (f (.ofBits ⟨a⟩) (.ofBits ⟨b⟩))

def compareF64 (f : Float → Float → Bool) (a b : BitVec 64) : Cell :=
  ofBool (f (.ofBits ⟨a⟩) (.ofBits ⟨b⟩))

def arithF32 (f : Float32 → Float32 → Float32) (a b : Cell) : Cell :=
  (f (.ofBits ⟨a⟩) (.ofBits ⟨b⟩)).toBits.toBitVec

def arithF64 (f : Float → Float → Float) (a b : BitVec 64) : BitVec 64 :=
  (f (.ofBits ⟨a⟩) (.ofBits ⟨b⟩)).toBits.toBitVec

def eqF32 (a b : Float32) : Bool := a.isNaN && b.isNaN || a == b

def eqF64 (a b : Float) : Bool := a.isNaN && b.isNaN || a == b

end Floats

def nullFloat : Cell := 0x7fc00000

def nullDouble : BitVec 64 := 0x7ff8000000000000

def Opcode.instr : Opcode → Instr
  | .nop => .nop
  | .loadIM1 => .literal (-1)
  | .loadNull | .loadI0 => .literal 0
  | .loadI1 => .literal 1
  | .loadNullBool | .loadI2 => .literal 2
  | .loadI3 => .literal 3
  | .loadI4 => .literal 4
  | .loadI5 => .literal 5
  | .loadIntU1 => .operand 1
  | .loadIntU2 => .operand 2
  | .loadL0 => .literalWide 0
  | .loadL1 => .literalWide 1
  | .loadF0 => .literal 0
  | .loadF1 => .literal 0x3f800000
  | .loadNullFloat => .literal nullFloat
  | .loadNullDouble => .literalWide nullDouble
  | .loadD0 => .literalWide 0
  | .loadD1 => .literalWide 0x3ff0000000000000
  | .loadInt | .loadFloat => .poolInt
  | .loadLong | .loadDouble => .poolWide
  | .loadStr | .loadBuf | .loadType | .loadSlot => .poolRef
  | .loadParam0 => .loadSlot .params 0
  | .loadParam1 => .loadSlot .params 1
  | .loadParam2 => .loadSlot .params 2
  | .loadParam3 => .loadSlot .params 3
  | .loadParam => .loadSlotU1 .params
  | .loadParamWide => .loadSlotWide .params
  | .storeParam => .storeSlotU1 .params
  | .storeParamWide => .storeSlotWide .params
  | .loadLocal0 => .loadSlot .locals 0
  | .loadLocal1 => .loadSlot .locals 1
  | .loadLocal2 => .loadSlot .locals 2
  | .loadLocal3 => .loadSlot .locals 3
  | .loadLocal4 => .loadSlot .locals 4
  | .loadLocal5 => .loadSlot .locals 5
  | .loadLocal6 => .loadSlot .locals 6
  | .loadLocal7 => .loadSlot .locals 7
  | .loadLocal => .loadSlotU1 .locals
  | .loadLocalWide => .loadSlotWide .locals
  | .storeLocal0 => .storeSlot .locals 0
  | .storeLocal1 => .storeSlot .locals 1
  | .storeLocal2 => .storeSlot .locals 2
  | .storeLocal3 => .storeSlot .locals 3
  | .storeLocal4 => .storeSlot .locals 4
  | .storeLocal5 => .storeSlot .locals 5
  | .storeLocal6 => .storeSlot .locals 6
  | .storeLocal7 => .storeSlot .locals 7
  | .storeLocal => .storeSlotU1 .locals
  | .storeLocalWide => .storeSlotWide .locals
  | .intEq => .binary fun a b => ofBool (a == b)
  | .intNotEq => .binary fun a b => ofBool (a != b)
  | .intGt => .binary fun a b => ofBool (b.slt a)
  | .intGtEq => .binary fun a b => ofBool (b.sle a)
  | .intLt => .binary fun a b => ofBool (a.slt b)
  | .intLtEq => .binary fun a b => ofBool (a.sle b)
  | .intMul => .binary fun a b => a * b
  | .intDiv => .binary fun a b => if b = 0 then 0 else a.sdiv b
  | .intMod => .binary fun a b => if b = 0 then 0 else a.srem b
  | .intAdd => .binary fun a b => a + b
  | .intSub => .binary fun a b => a - b
  | .intOr => .binary fun a b => a ||| b
  | .intXor => .binary fun a b => a ^^^ b
  | .intAnd => .binary fun a b => a &&& b
  | .intNot => .unary fun a => ~~~a
  | .intNeg => .unary fun a => -a
  -- `wrapping_shl` and `wrapping_shr` take the shift modulo the width
  | .intShiftL => .binary fun a b => a <<< (b.toNat % 32)
  | .intShiftR => .binary fun a b => a.sshiftRight (b.toNat % 32)
  | .intInc => .unary fun a => a + 1
  | .intDec => .unary fun a => a - 1
  | .longEq => .compareWide fun a b => ofBool (a == b)
  | .longNotEq => .compareWide fun a b => ofBool (a != b)
  | .longGt => .compareWide fun a b => ofBool (b.slt a)
  | .longGtEq => .compareWide fun a b => ofBool (b.sle a)
  | .longLt => .compareWide fun a b => ofBool (a.slt b)
  | .longLtEq => .compareWide fun a b => ofBool (a.sle b)
  | .longMul => .binaryWide fun a b => a * b
  | .longDiv => .binaryWide fun a b => if b = 0 then 0 else a.sdiv b
  | .longMod => .binaryWide fun a b => if b = 0 then 0 else a.srem b
  | .longAdd => .binaryWide fun a b => a + b
  | .longSub => .binaryWide fun a b => a - b
  | .longOr => .binaryWide fun a b => a ||| b
  | .longXor => .binaryWide fun a b => a ^^^ b
  | .longAnd => .binaryWide fun a b => a &&& b
  | .longNot => .unaryWide fun a => ~~~a
  | .longNeg => .unaryWide fun a => -a
  | .longShiftL => .shiftWide fun a b => a <<< (b.toNat % 64)
  | .longShiftR => .shiftWide fun a b => a.sshiftRight (b.toNat % 64)
  | .floatEq => .binary (compareF32 eqF32)
  | .floatNotEq => .binary (compareF32 fun a b => !eqF32 a b)
  | .floatGt => .binary (compareF32 fun a b => a > b)
  | .floatGtEq => .binary (compareF32 fun a b => a ≥ b)
  | .floatLt => .binary (compareF32 fun a b => a < b)
  | .floatLtEq => .binary (compareF32 fun a b => a ≤ b)
  | .floatMul => .binary (arithF32 fun a b => a * b)
  | .floatDiv => .binary (arithF32 fun a b => a / b)
  | .floatAdd => .binary (arithF32 fun a b => a + b)
  | .floatSub => .binary (arithF32 fun a b => a - b)
  -- negation flips the sign bit, of a NaN too
  | .floatNeg => .unary fun a => a ^^^ 0x80000000
  | .doubleEq => .compareWide (compareF64 eqF64)
  | .doubleNotEq => .compareWide (compareF64 fun a b => !eqF64 a b)
  | .doubleGt => .compareWide (compareF64 fun a b => a > b)
  | .doubleGtEq => .compareWide (compareF64 fun a b => a ≥ b)
  | .doubleLt => .compareWide (compareF64 fun a b => a < b)
  | .doubleLtEq => .compareWide (compareF64 fun a b => a ≤ b)
  | .doubleMul => .binaryWide (arithF64 fun a b => a * b)
  | .doubleDiv => .binaryWide (arithF64 fun a b => a / b)
  | .doubleAdd => .binaryWide (arithF64 fun a b => a + b)
  | .doubleSub => .binaryWide (arithF64 fun a b => a - b)
  | .doubleNeg => .unaryWide fun a => a ^^^ 0x8000000000000000
  | .objEq => .binary fun a b => ofBool (a == b)
  | .objNotEq => .binary fun a b => ofBool (a != b)
  | .eqZero => .unary fun a => ofBool (a == 0)
  | .notEqZero => .unary fun a => ofBool (a != 0)
  | .intToFloat => .unary fun a => (Int32.toFloat32 ⟨⟨a⟩⟩).toBits.toBitVec
  | .intToLong => .widen fun a => a.signExtend 64
  | .intToDouble => .widen fun a => (Int32.toFloat ⟨⟨a⟩⟩).toBits.toBitVec
  | .longToInt => .narrow fun a => a.setWidth 32
  | .longToFloat => .narrow fun a => (Int64.toFloat32 ⟨⟨a⟩⟩).toBits.toBitVec
  | .longToDouble => .unaryWide fun a => (Int64.toFloat ⟨⟨a⟩⟩).toBits.toBitVec
  | .floatToInt => .unary fun a => (Float32.ofBits ⟨a⟩).toInt32.toBitVec
  | .floatToLong => .widen fun a => (Float32.ofBits ⟨a⟩).toInt64.toBitVec
  | .floatToDouble => .widen fun a => (Float32.ofBits ⟨a⟩).toFloat.toBits.toBitVec
  | .doubleToInt => .narrow fun a => (Float.ofBits ⟨a⟩).toInt32.toBitVec
  | .doubleToLong => .unaryWide fun a => (Float.ofBits ⟨a⟩).toInt64.toBitVec
  | .doubleToFloat => .narrow fun a => (Float.ofBits ⟨a⟩).toFloat32.toBits.toBitVec
  | .pop => .drop 1
  | .pop2 => .drop 2
  | .pop3 => .drop 3
  | .dup => .dup
  | .dup2 => .dup2
  | .dupDown2 => .dupDown2
  | .dupDown3 => .dupDown3
  | .dup2Down2 => .dup2Down2
  | .dup2Down3 => .dup2Down3
  | .jump => .jump 1
  | .jumpNonZero => .jumpIf 1 fun v => v != 0
  | .jumpZero => .jumpIf 1 fun v => v == 0
  | .foreach => .foreach 1
  | .jumpFar => .jump 2
  | .jumpFarNonZero => .jumpIf 2 fun v => v != 0
  | .jumpFarZero => .jumpIf 2 fun v => v == 0
  | .foreachFar => .foreach 2
  | .jumpIntEq => .jumpCompare 1 fun a b => a == b
  | .jumpIntNotEq => .jumpCompare 1 fun a b => a != b
  | .jumpIntGt => .jumpCompare 1 fun a b => b.slt a
  | .jumpIntGtEq => .jumpCompare 1 fun a b => b.sle a
  | .jumpIntLt => .jumpCompare 1 fun a b => a.slt b
  | .jumpIntLtEq => .jumpCompare 1 fun a b => a.sle b
  | .jumpFarIntEq => .jumpCompare 2 fun a b => a == b
  | .jumpFarIntNotEq => .jumpCompare 2 fun a b => a != b
  | .jumpFarIntGt => .jumpCompare 2 fun a b => b.slt a
  | .jumpFarIntGtEq => .jumpCompare 2 fun a b => b.sle a
  | .jumpFarIntLt => .jumpCompare 2 fun a b => a.slt b
  | .jumpFarIntLtEq => .jumpCompare 2 fun a b => a.sle b
  | .loadDataAddr => .literal 0
  | .load8BitFieldU1 => .loadField 1 1
  | .load8BitFieldU2 => .loadField 1 2
  | .load8BitFieldU4 => .loadField 1 4
  | .load8BitArray => .load8BitArray
  | .store8BitFieldU1 => .storeField 1 1
  | .store8BitFieldU2 => .storeField 1 2
  | .store8BitFieldU4 => .storeField 1 4
  | .store8BitArray => .store8BitArray
  | .add8BitArray => .addArray 1
  | .load16BitFieldU1 => .loadField 2 1
  | .load16BitFieldU2 => .loadField 2 2
  | .load16BitFieldU4 => .loadField 2 4
  | .load16BitArray => .loadArray 2
  | .store16BitFieldU1 => .storeField 2 1
  | .store16BitFieldU2 => .storeField 2 2
  | .store16BitFieldU4 => .storeField 2 4
  | .store16BitArray => .storeArray 2
  | .add16BitArray => .addArray 2
  | .load32BitFieldU1 => .loadField 4 1
  | .load32BitFieldU2 => .loadField 4 2
  | .load32BitFieldU4 => .loadField 4 4
  | .load32BitArray => .loadArray 4
  | .store32BitFieldU1 => .storeField 4 1
  | .store32BitFieldU2 => .storeField 4 2
  | .store32BitFieldU4 => .storeField 4 4
  | .store32BitArray => .storeArray 4
  | .add32BitArray => .addArray 4
  | .load64BitFieldU1 => .loadFieldWide 1
  | .load64BitFieldU2 => .loadFieldWide 2
  | .load64BitFieldU4 => .loadFieldWide 4
  | .load64BitArray => .loadArrayWide
  | .store64BitFieldU1 => .storeFieldWide 1
  | .store64BitFieldU2 => .storeFieldWide 2
  | .store64BitFieldU4 => .storeFieldWide 4
  | .store64BitArray => .storeArrayWide
  | .add64BitArray => .addArray 8
  -- references are 4 bytes in the data segment
  | .loadRefFieldU1 => .loadField 4 1
  | .loadRefFieldU2 => .loadField 4 2
  | .loadRefFieldU4 => .loadField 4 4
  | .loadRefArray => .loadArray 4
  | .storeRefFieldU1 => .storeField 4 1
  | .storeRefFieldU2 => .storeField 4 2
  | .storeRefFieldU4 => .storeField 4 4
  | .storeRefArray => .storeArray 4
  | .addRefArray => .addArray 4
  | .loadConstFieldU1 => .loadConstField 1
  | .loadConstFieldU2 => .loadConstField 2
  | .loadConstStatic => .loadConstStatic
  | .loadConstArray => .loadConstArray
  | .loadInlineFieldU1 => .loadInlineField 1
  | .loadInlineFieldU2 => .loadInlineField 2
  | .loadInlineFieldU4 => .loadInlineField 4
  | .loadParam0InlineFieldU1 => .loadParam0InlineField 1
  | .loadParam0InlineFieldU2 => .loadParam0InlineField 2
  | .loadParam0InlineFieldU4 => .loadParam0InlineField 4
  | .loadDataInlineFieldU1 => .operand 1
  | .loadDataInlineFieldU2 => .operand 2
  | .loadDataInlineFieldU4 => .operand 4
  | .call => .call
  | .loadParam0Call => .loadParam0Call
  | .callVirtual => .callVirtual
  | .callNative => .callNative
  | .callNativeWide => .callNativeWide
  | .callNativeVoid => .callNativeVoid
  | .returnVoid => .returnVoid
  | .returnPop => .returnPop
  | .returnPopWide => .returnPopWide
  | .initArray => .initArray
  | .initVirt => .initBlock 0
  | .initComp => .initBlock 2
  | .assert => .assert
  | .switch => .switch
  | .metaSlot => .metaSlot
  | .loadDefine | .sizeOf | .cast | .loadArrayLiteral | .loadSlotId => .unsupported

section Operations

abbrev perform (o : Op) : Program o.Res := @Prog.perform ops o

def push (v : Cell) : Program Unit := perform (.push v)

def pop : Program Cell := perform .pop

def dropCells (n : ℕ) : Program Unit := perform (.drop n)

def room (n : ℕ) : Program Unit := perform (.room n)

def need (n : ℕ) : Program Unit := perform (.need n)

def peek (k : ℕ) : Program Cell := perform (.peek k)

def poke (k : ℕ) (v : Cell) : Program Unit := perform (.poke k v)

def bankBase (b : Bank) : Program Unit := perform (.base b)

def getSlot (b : Bank) (i : ℕ) : Program Cell := perform (.get b i)

def setSlot (b : Bank) (i : ℕ) (v : Cell) : Program Unit := perform (.set b i v)

def code (w addr : ℕ) : Program (Bytes w) := perform (.code w addr)

def load (w addr : ℕ) : Program (Bytes w) := perform (.load w addr)

def store (w addr : ℕ) (v : Bytes w) : Program Unit := perform (.store w addr v)

def setPc (n : ℕ) : Program Unit := perform (.setPc n)

def setupCallFrame (methodAddr : ℕ) (numParams numLocals : Byte) (returnPc : ℕ) : Program Unit :=
  perform (.enter methodAddr numParams numLocals returnPc)

def unwindFrame : Program UnwindResult := perform .unwind

def countAssert (passed : Bool) : Program Unit := perform (.countAssert passed)

def fail {α : Type} (e : VmError) : Program α := .op (Op.fail e : ops.Op) Empty.elim

def fault {α : Type} : Program α := .op (Op.fault : ops.Op) Empty.elim

end Operations

section Values

def checked (n : ℕ) : Program ℕ := if n < usizeLimit then pure n else fault

def usize (v : Cell) : ℕ := (v.signExtend 64).toNat

def pushRef (ptr : ℕ) : Program Unit := push (BitVec.ofNat 32 ptr)

def popRef : Program ℕ := do
  let v ← pop
  pure v.toNat

def pushI64 (v : BitVec 64) : Program Unit := do
  room 2
  push (v.setWidth 32)
  push (v.extractLsb' 32 32)

def popI64 : Program (BitVec 64) := do
  need 2
  let hi ← pop
  let lo ← pop
  pure (hi ++ lo)

/-- `get_wide` and `set_wide` look at the upper cell first. -/
def getSlotWide (b : Bank) (i : ℕ) : Program (BitVec 64) := do
  let hi ← getSlot b (i + 1)
  let lo ← getSlot b i
  pure (hi ++ lo)

def setSlotWide (b : Bank) (i : ℕ) (v : BitVec 64) : Program Unit := do
  setSlot b (i + 1) (v.extractLsb' 32 32)
  setSlot b i (v.setWidth 32)

def dataAddr (base : ℕ) (offset : ℤ) : Program ℕ :=
  if 0 ≤ offset then
    if base + offset.toNat < usizeLimit then pure (base + offset.toNat) else fail .nullPointer
  -- `-offset` overflows at the least `i32`
  else if offset = -2 ^ 31 then fault
  else if offset.natAbs ≤ base then pure (base - offset.natAbs)
  else fail .nullPointer

def getData (w base : ℕ) (offset : ℤ) : Program (Bytes w) := do
  let addr ← dataAddr base offset
  load w addr

def setData (w base : ℕ) (offset : ℤ) (v : Bytes w) : Program Unit := do
  let addr ← dataAddr base offset
  store w addr v

def elemAddr (n base : ℕ) (idx : Cell) : Program ℕ := do
  let scaled ← checked (usize idx * n)
  pure ((base + scaled) % usizeLimit)

def constAddr (blockSize : ℕ) (bix : Bytes 2) : ℕ := if bix ≠ 0 then bix.toNat * blockSize else 0

/-- The top `n` cells, the deepest first. -/
def peekParams : ℕ → Program (List Cell)
  | 0 => pure []
  | n + 1 => do
    let v ← peek (n + 1)
    let vs ← peekParams n
    pure (v :: vs)

def popParams : ℕ → Program Unit
  | 0 => pure ()
  | n + 1 => do
    let _ ← pop
    popParams n

def nativeResult {α : Type} : Except VmError α → Program α
  | .ok a => pure a
  | .error e => fail e

/-- The loop of `InitArray` from index `i`, over the `n` elements left. -/
def initRefs (refs objs elemSize : ℕ) : ℕ → ℕ → Program Unit
  | 0, _ => pure ()
  | n + 1, i => do
    let refOffset ← checked (i * 4)
    let refAddr ← checked (refs + refOffset)
    let objOffset ← checked (i * elemSize)
    let objAddr ← checked (objs + objOffset)
    setData 4 refAddr 0 (BitVec.ofNat 32 objAddr)
    initRefs refs objs elemSize n (i + 1)

end Values

/-- The instruction ends with the program counter at `n`. -/
def next (n : ℕ) : Program StepResult := do
  setPc n
  pure .continue

def jumpTo (target : ℤ) : Program StepResult := do
  perform (.jump target)
  pure .continue

def branch (pc w : ℕ) : Program StepResult := do
  let offset ← code w (pc + 1)
  jumpTo (pc + 1 + w + offset.toInt)

def doCall (blockSize bixOffset : ℕ) : Program StepResult := do
  let bix ← code 2 bixOffset
  let methodAddr := bix.toNat * blockSize
  let numParams ← code 1 methodAddr
  let numLocals ← code 1 (methodAddr + 1)
  setupCallFrame methodAddr numParams numLocals (bixOffset + 2)
  pure .continue

/-- The operands of a native call: kit, method and parameter count. -/
def nativeOperands (pc : ℕ) : Program (Byte × BitVec 16 × ℕ) := do
  let kitId ← code 1 (pc + 1)
  let methodId ← code 1 (pc + 2)
  let numParams ← code 1 (pc + 3)
  pure (kitId, methodId.setWidth 16, numParams.toNat)

section Exec

variable (natives : Natives) (blockSize pc : ℕ) (opByte : Byte)

def exec : Instr → Program StepResult
  | .nop => next (pc + 1)
  | .literal v => do
    push v
    next (pc + 1)
  | .literalWide v => do
    pushI64 v
    next (pc + 1)
  | .operand w => do
    let v ← code w (pc + 1)
    push (v.setWidth 32)
    next (pc + 1 + w)
  | .poolInt => do
    let bix ← code 2 (pc + 1)
    let v ← code 4 (bix.toNat * blockSize)
    push (v.setWidth 32)
    next (pc + 3)
  | .poolWide => do
    let bix ← code 2 (pc + 1)
    let addr := bix.toNat * blockSize
    let lo ← code 4 addr
    let hi ← code 4 (addr + 4)
    pushI64 ((hi ++ lo).setWidth 64)
    next (pc + 3)
  | .poolRef => do
    let bix ← code 2 (pc + 1)
    pushRef (bix.toNat * blockSize)
    next (pc + 3)
  | .loadSlot b i => do
    let v ← getSlot b i
    push v
    next (pc + 1)
  | .loadSlotU1 b => do
    let idx ← code 1 (pc + 1)
    let v ← getSlot b idx.toNat
    push v
    next (pc + 2)
  | .loadSlotWide b => do
    let idx ← code 1 (pc + 1)
    let v ← getSlotWide b idx.toNat
    pushI64 v
    next (pc + 2)
  | .storeSlot b i => do
    bankBase b
    let v ← pop
    setSlot b i v
    next (pc + 1)
  | .storeSlotU1 b => do
    let idx ← code 1 (pc + 1)
    bankBase b
    let v ← pop
    setSlot b idx.toNat v
    next (pc + 2)
  | .storeSlotWide b => do
    let idx ← code 1 (pc + 1)
    bankBase b
    let v ← popI64
    setSlotWide b idx.toNat v
    next (pc + 2)
  | .unary f => do
    let a ← pop
    push (f a)
    next (pc + 1)
  | .binary f => do
    let b ← pop
    let a ← pop
    push (f a b)
    next (pc + 1)
  | .unaryWide f => do
    let a ← popI64
    pushI64 (f a)
    next (pc + 1)
  | .binaryWide f => do
    let b ← popI64
    let a ← popI64
    pushI64 (f a b)
    next (pc + 1)
  | .compareWide f => do
    let b ← popI64
    let a ← popI64
    push (f a b)
    next (pc + 1)
  | .shiftWide f => do
    let b ← pop
    let a ← popI64
    pushI64 (f a b)
    next (pc + 1)
  | .widen f => do
    let a ← pop
    pushI64 (f a)
    next (pc + 1)
  | .narrow f => do
    let a ← popI64
    push (f a)
    next (pc + 1)
  | .drop n => do
    dropCells n
    next (pc + 1)
  | .dup => do
    need 1
    room 1
    let a ← peek 1
    push a
    next (pc + 1)
  | .dup2 => do
    need 2
    room 2
    let a ← peek 2
    let b ← peek 1
    push a
    push b
    next (pc + 1)
  | .dupDown2 => do
    need 2
    room 1
    let b ← peek 1
    let a ← peek 2
    push b
    poke 2 a
    poke 3 b
    next (pc + 1)
  | .dupDown3 => do
    need 3
    room 1
    let c ← peek 1
    let b ← peek 2
    let a ← peek 3
    push c
    poke 2 b
    poke 3 a
    poke 4 c
    next (pc + 1)
  | .dup2Down2 => do
    need 4
    let a ← peek 4
    let b ← peek 3
    let c ← peek 2
    let d ← peek 1
    push 0
    push 0
    poke 6 c
    poke 5 d
    poke 4 a
    poke 3 b
    poke 2 c
    poke 1 d
    next (pc + 1)
  | .dup2Down3 => do
    need 5
    let a ← peek 5
    let b ← peek 4
    let c ← peek 3
    let d ← peek 2
    let e ← peek 1
    push 0
    push 0
    poke 7 d
    poke 6 e
    poke 5 a
    poke 4 b
    poke 3 c
    poke 2 d
    poke 1 e
    next (pc + 1)
  | .jump w => branch pc w
  | .jumpIf w c => do
    let v ← pop
    if c v then branch pc w else next (pc + 1 + w)
  | .jumpCompare w c => do
    let b ← pop
    let a ← pop
    if c a b then branch pc w else next (pc + 1 + w)
  | .foreach w => do
    let last ← peek 1
    let counter := last + 1
    poke 1 counter
    let length ← peek 2
    if length.sle counter then branch pc w
    else do
      let arrayRef ← peek 3
      push arrayRef
      push counter
      next (pc + 1 + w)
  | .loadField n w => do
    let base ← popRef
    let offset ← code w (pc + 1)
    let v ← getData n base (offset.setWidth 32).toInt
    push (v.setWidth 32)
    next (pc + 1 + w)
  | .loadFieldWide w => do
    let base ← popRef
    let offset ← code w (pc + 1)
    let v ← getData 8 base (offset.setWidth 32).toInt
    pushI64 (v.setWidth 64)
    next (pc + 1 + w)
  | .storeField n w => do
    let v ← pop
    let base ← popRef
    let offset ← code w (pc + 1)
    setData n base (offset.setWidth 32).toInt (v.setWidth (8 * n))
    next (pc + 1 + w)
  | .storeFieldWide w => do
    let v ← popI64
    let base ← popRef
    let offset ← code w (pc + 1)
    setData 8 base (offset.setWidth 32).toInt v
    next (pc + 1 + w)
  | .load8BitArray => do
    let idx ← pop
    let base ← popRef
    let v ← getData 1 base idx.toInt
    push (v.setWidth 32)
    next (pc + 1)
  | .store8BitArray => do
    let v ← pop
    let idx ← pop
    let base ← popRef
    setData 1 base idx.toInt (v.setWidth 8)
    next (pc + 1)
  | .loadArray n => do
    let idx ← pop
    let base ← popRef
    let addr ← elemAddr n base idx
    let v ← getData n addr 0
    push (v.setWidth 32)
    next (pc + 1)
  | .loadArrayWide => do
    let idx ← pop
    let base ← popRef
    let addr ← elemAddr 8 base idx
    let v ← getData 8 addr 0
    pushI64 (v.setWidth 64)
    next (pc + 1)
  | .storeArray n => do
    let v ← pop
    let idx ← pop
    let base ← popRef
    let addr ← elemAddr n base idx
    setData n addr 0 (v.setWidth (8 * n))
    next (pc + 1)
  | .storeArrayWide => do
    let v ← popI64
    let idx ← pop
    let base ← popRef
    let addr ← elemAddr 8 base idx
    setData 8 addr 0 v
    next (pc + 1)
  | .addArray n => do
    let idx ← pop
    let base ← popRef
    let addr ← elemAddr n base idx
    pushRef addr
    next (pc + 1)
  | .loadConstField w => do
    let base ← popRef
    let offset ← code w (pc + 1)
    let bix ← getData 2 base (offset.setWidth 32).toInt
    pushRef (constAddr blockSize bix)
    next (pc + 1 + w)
  | .loadConstStatic => do
    let bix ← code 2 (pc + 1)
    pushRef (constAddr blockSize bix)
    next (pc + 3)
  | .loadConstArray => do
    let idx ← pop
    let base ← popRef
    let addr ← elemAddr 2 base idx
    let bix ← getData 2 addr 0
    pushRef (constAddr blockSize bix)
    next (pc + 1)
  | .loadInlineField w => do
    let base ← popRef
    let offset ← code w (pc + 1)
    pushRef ((base + offset.toNat) % usizeLimit)
    next (pc + 1 + w)
  | .loadParam0InlineField w => do
    let base ← getSlot .params 0
    let offset ← code w (pc + 1)
    pushRef ((base.toNat + offset.toNat) % usizeLimit)
    next (pc + 1 + w)
  | .call => doCall blockSize (pc + 1)
  | .loadParam0Call => do
    let v ← getSlot .params 0
    push v
    doCall blockSize (pc + 1)
  | .callVirtual => do
    let methodIdx ← code 2 (pc + 1)
    let numParams ← code 1 (pc + 3)
    let this ← peek numParams.toNat
    let vtableBix ← getData 2 this.toNat 0
    let methodBix ← code 2 (vtableBix.toNat * blockSize + methodIdx.toNat * 2)
    let methodAddr := methodBix.toNat * blockSize
    let mNumParams ← code 1 methodAddr
    let mNumLocals ← code 1 (methodAddr + 1)
    setupCallFrame methodAddr mNumParams mNumLocals (pc + 4)
    pure .continue
  | .callNative => do
    let (kitId, methodId, numParams) ← nativeOperands pc
    let params ← peekParams numParams
    let result ← nativeResult (natives.call kitId methodId params)
    popParams numParams
    push result
    next (pc + 4)
  | .callNativeWide => do
    let (kitId, methodId, numParams) ← nativeOperands pc
    let params ← peekParams numParams
    let result ← nativeResult (natives.callWide kitId methodId params)
    popParams numParams
    pushI64 result
    next (pc + 4)
  | .callNativeVoid => do
    let (kitId, methodId, numParams) ← nativeOperands pc
    let params ← peekParams numParams
    let _ ← nativeResult (natives.call kitId methodId params)
    popParams numParams
    next (pc + 4)
  | .returnPop => do
    let result ← pop
    match ← unwindFrame with
    | .topLevel => pure (.returnI32 result)
    | .caller => do
      push result
      pure .continue
  | .returnPopWide => do
    let result ← popI64
    match ← unwindFrame with
    | .topLevel => pure (.returnWide result)
    | .caller => do
      pushI64 result
      pure .continue
  | .returnVoid => do
    match ← unwindFrame with
    | .topLevel => pure .returnVoid
    | .caller => pure .continue
  | .initArray => do
    let elemSize ← pop
    let length ← pop
    let base ← popRef
    let refsSize ← checked (usize length * 4)
    let objsStart ← checked (base + refsSize)
    initRefs base objsStart (usize elemSize) (usize length) 0
    next (pc + 1)
  | .initBlock offset => do
    let obj ← popRef
    let bix ← code 2 (pc + 1)
    setData 2 obj offset bix
    next (pc + 3)
  | .assert => do
    let v ← pop
    let _ ← code 2 (pc + 1)
    countAssert (v != 0)
    next (pc + 3)
  | .switch => do
    let num ← code 2 (pc + 1)
    let cond ← pop
    if cond.toInt < 0 ∨ (num.toNat : ℤ) ≤ cond.toInt then next (pc + 3 + num.toNat * 2)
    else do
      -- a table entry is relative to the opcode itself
      let offset ← code 2 (pc + 3 + cond.toNat * 2)
      jumpTo (pc + offset.toInt)
  | .metaSlot => next (pc + 3)
  | .unsupported => fail (.invalidOpcode opByte)

def stepProgram : Program StepResult := do
  let byte ← code 1 pc
  match Opcode.tryFrom byte with
  | none => fail (.invalidOpcode byte)
  | some op => exec natives blockSize pc byte op.instr

end Exec

def maxInstructions : ℕ := 10000000

namespace Vm

variable (natives : Natives)

def opcode (s : Vm) : Option Opcode := (s.codeAt 1 s.pc).bind Opcode.tryFrom

/-- `VmInterpreter::step`. -/
def step (s : Vm) : Except Halt StepResult × Vm :=
  Prog.run handle (stepProgram natives s.blockSize.toNat s.pc) s

def runLoop : ℕ → Vm → Except Halt Cell × Vm
  | 0, s => (.error (.error (if s.stopped then .stopped else .timeout)), s)
  | n + 1, s =>
    if s.stopped then (.error (.error .stopped), s)
    else match step natives s with
      | (.ok .continue, t) => runLoop n t
      | (.ok (.returnI32 v), t) => (.ok v, t)
      | (.ok (.returnWide _), t) => (.ok 0, t)
      | (.ok .returnVoid, t) => (.ok 0, t)
      | (.error e, t) => (.error e, t)

def pushEntry (s : Vm) (entryPoint : ℕ) (args : List Cell) (numParams numLocals : Byte) :
    Except Halt Unit × Vm :=
  andThen (s.pushCells (args ++ [0, 0, BitVec.ofNat 32 entryPoint])) fun t =>
  t.pushFrame ⟨0, t.sp - 3, numParams, numLocals⟩

def arityMessage (entryPoint expected got : ℕ) : String :=
  s!"method at {entryPoint} expects {expected} params, got {got}"

end Vm

/-- A call of an entry point: `execute_with_args` or `execute_method`. -/
inductive Entry
  | withArgs (entryPoint : ℕ) (args : List Cell)
  | method (entryPoint : ℕ) (args : List Cell)

def Entry.setup (s : Vm) : Entry → Except Halt Unit × Vm
  | .withArgs entryPoint args =>
    Vm.andThen (s.pushEntry entryPoint args (BitVec.ofNat 8 args.length) 0) fun t =>
    (.ok (), { t with pc := entryPoint })
  | .method entryPoint args =>
    match s.codeAt 1 entryPoint with
    | none => (.error (.error (.pcOutOfBounds entryPoint s.code.length)), s)
    | some numParams =>
      match s.codeAt 1 (entryPoint + 1) with
      | none => (.error (.error (.pcOutOfBounds (entryPoint + 1) s.code.length)), s)
      | some numLocals =>
        if numParams.toNat ≠ args.length then
          (.error (.error (.badImage (Vm.arityMessage entryPoint numParams.toNat args.length))), s)
        else
          Vm.andThen (s.pushEntry entryPoint args numParams numLocals) fun t =>
          Vm.andThen (t.pushCells (List.replicate numLocals.toNat 0)) fun t =>
          (.ok (), { t with pc := entryPoint + 2 })

namespace Vm

variable (natives : Natives)

def enter (s : Vm) (entry : Entry) : Except Halt Cell × Vm :=
  andThen (entry.setup s) (runLoop natives maxInstructions)

def executeWithArgs (s : Vm) (entryPoint : ℕ) (args : List Cell) : Except Halt Cell × Vm :=
  s.enter natives (.withArgs entryPoint args)

def execute (s : Vm) (entryPoint : ℕ) : Except Halt Cell × Vm :=
  s.executeWithArgs natives entryPoint []

def executeMethod (s : Vm) (entryPoint : ℕ) (args : List Cell) : Except Halt Cell × Vm :=
  s.enter natives (.method entryPoint args)

/-- `VmInterpreter::new`. -/
def new (code data : List Byte) (blockSize : Byte) : Vm where
  code := code
  data := data
  blockSize := blockSize
  cells _ := 0
  capacity := 4096
  sp := 0
  frames := []
  pc := 0
  stopped := false
  assertFailures := 0
  assertSuccesses := 0

end Vm

end Sandstar.Svm
