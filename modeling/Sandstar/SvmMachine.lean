import Sandstar.Effects
import Sandstar.Machine

set_option autoImplicit false

/-!
# The state of the virtual machine and its elementary operations

`VmMemory` and `VmStack` with the registers of `VmInterpreter`, and what one
operation of an instruction does to them. Arithmetic is that of a 64-bit target
that checks overflow: an operation that would leave `usize` faults. The program
counter is a `usize` computed through `isize`, so a jump wraps without a fault.
-/
namespace Sandstar.Svm

open Sandstar.Effects

abbrev Byte := BitVec 8

abbrev Bytes (w : ℕ) := BitVec (8 * w)

abbrev Cell := BitVec 32

inductive VmError
  | badImage (message : String)
  | stackOverflow
  | stackUnderflow
  | invalidOpcode (op : Byte)
  | pcOutOfBounds (pc codeLen : ℕ)
  | nativeError (kit : Byte) (method : BitVec 16) (message : String)
  | methodNotFound (block : BitVec 16)
  | nullPointer
  | typeMismatch (expected got : Byte)
  | arrayOutOfBounds (index length : BitVec 32)
  | assertFailure (method : String)
  | stopped
  | timeout
deriving DecidableEq

/-- Why an operation goes no further: the error it returns, or a panic. -/
inductive Halt
  | error (e : VmError)
  | fault (f : Machine.Fault)
deriving DecidableEq

def usizeLimit : ℕ := 2 ^ 64

def maxFrameDepth : ℕ := 512

/-- The `method_block` of a frame is always 0 and never read. -/
structure CallFrame where
  returnPc : ℕ
  framePointer : ℕ
  numParams : Byte
  numLocals : Byte
deriving DecidableEq

structure Vm where
  code : List Byte
  data : List Byte
  blockSize : Byte
  cells : ℕ → Cell
  /-- The length of the cell vector. -/
  capacity : ℕ
  sp : ℕ
  /-- The call frames, the current one first. -/
  frames : List CallFrame
  pc : ℕ
  stopped : Bool
  assertFailures : ℤ
  assertSuccesses : ℤ

def leValue : List Byte → ℕ
  | [] => 0
  | b :: bs => b.toNat + 256 * leValue bs

def leBytes (w : ℕ) (v : Bytes w) : List Byte :=
  (List.range w).map fun i => v.extractLsb' (8 * i) 8

def readAt (segment : List Byte) (w addr : ℕ) : Option (Bytes w) :=
  if addr + w ≤ segment.length then
    some (BitVec.ofNat (8 * w) (leValue ((segment.drop addr).take w)))
  else none

def writeAt (segment : List Byte) (addr : ℕ) (bytes : List Byte) : List Byte :=
  segment.take addr ++ bytes ++ segment.drop (addr + bytes.length)

namespace Vm

def codeAt (s : Vm) (w addr : ℕ) : Option (Bytes w) := readAt s.code w addr

def dataAt (s : Vm) (w addr : ℕ) : Option (Bytes w) := readAt s.data w addr

def blockToAddr (s : Vm) (block : ℕ) : ℕ := block * s.blockSize.toNat

def top (s : Vm) (k : ℕ) : Cell := s.cells (s.sp - k)

/-- The stack after pushing `vs`, the last of them on top. -/
def write (s : Vm) (vs : List Cell) : Vm :=
  { s with
    cells := fun i => if s.sp ≤ i then (vs[i - s.sp]?).getD (s.cells i) else s.cells i
    sp := s.sp + vs.length }

/-- Consecutive `push_i32`, which end at the first that finds no cell. -/
def pushCells (s : Vm) : List Cell → Except Halt Unit × Vm
  | [] => (.ok (), s)
  | v :: vs =>
    if s.capacity ≤ s.sp then (.error (.error .stackOverflow), s)
    else (s.write [v]).pushCells vs

def pushFrame (s : Vm) (frame : CallFrame) : Except Halt Unit × Vm :=
  if maxFrameDepth ≤ s.frames.length then (.error (.error .stackOverflow), s)
  else (.ok (), { s with frames := frame :: s.frames })

def andThen {α : Type} (o : Except Halt Unit × Vm) (f : Vm → Except Halt α × Vm) :
    Except Halt α × Vm :=
  match o with
  | (.ok (), t) => f t
  | (.error e, t) => (.error e, t)

def setupCallFrame (s : Vm) (methodAddr : ℕ) (numParams numLocals : Byte) (returnPc : ℕ) :
    Except Halt Unit × Vm :=
  let prevFp := (s.frames.head?.map (·.framePointer)).getD 0
  andThen (s.pushCells
    [BitVec.ofNat 32 returnPc, BitVec.ofNat 32 prevFp, BitVec.ofNat 32 methodAddr]) fun t =>
  andThen (t.pushFrame ⟨returnPc, t.sp - 3, numParams, numLocals⟩) fun t =>
  andThen (t.pushCells (List.replicate numLocals.toNat 0)) fun t =>
  (.ok (), { t with pc := methodAddr + 2 })

end Vm

inductive UnwindResult
  | topLevel
  | caller
deriving DecidableEq

inductive Bank
  | params
  | locals
deriving DecidableEq

/-- The elementary operations that instructions are made of. Positions in the
    stack are relative to the stack pointer or to the current frame. -/
inductive Op
  | push (v : Cell)
  | pop
  | drop (n : ℕ)
  /-- `StackOverflow` unless `n` cells are free. -/
  | room (n : ℕ)
  /-- `StackUnderflow` unless `n` cells are in use. -/
  | need (n : ℕ)
  /-- `get(sp - k)`. -/
  | peek (k : ℕ)
  /-- `set(sp - k, v)`. -/
  | poke (k : ℕ) (v : Cell)
  /-- `param_base()` or `locals_base()`, without an access. -/
  | base (b : Bank)
  | get (b : Bank) (i : ℕ)
  | set (b : Bank) (i : ℕ) (v : Cell)
  | code (w addr : ℕ)
  | load (w addr : ℕ)
  | store (w addr : ℕ) (v : Bytes w)
  | setPc (n : ℕ)
  /-- `self.pc = target as usize`. -/
  | jump (target : ℤ)
  | enter (methodAddr : ℕ) (numParams numLocals : Byte) (returnPc : ℕ)
  | unwind
  | countAssert (passed : Bool)
  | fail (e : VmError)
  | fault

@[reducible]
def Op.Res : Op → Type
  | .pop | .peek _ | .get _ _ => Cell
  | .code w _ | .load w _ => Bytes w
  | .unwind => UnwindResult
  | .fail _ | .fault => Empty
  | _ => Unit

abbrev ops : Signature := ⟨Op, Op.Res⟩

namespace Vm

def bankBase (s : Vm) (b : Bank) : Except Halt ℕ :=
  match s.frames with
  | [] => .error (.error .stackUnderflow)
  | f :: _ =>
    match b with
    | .params =>
      if f.numParams.toNat ≤ f.framePointer then .ok (f.framePointer - f.numParams.toNat)
      else .error (.fault .overflow)
    | .locals => .ok (f.framePointer + 3)

def slotIndex (s : Vm) (b : Bank) (i : ℕ) : Except Halt ℕ :=
  match s.bankBase b with
  | .error e => .error e
  | .ok n => if n + i < s.capacity then .ok (n + i) else .error (.error .stackOverflow)

def peekIndex (s : Vm) (k : ℕ) : Except Halt ℕ :=
  if s.sp < k then .error (.fault .overflow)
  else if s.sp - k < s.capacity then .ok (s.sp - k)
  else .error (.error .stackOverflow)

def setCell (s : Vm) (i : ℕ) (v : Cell) : Vm := { s with cells := Function.update s.cells i v }

def unwindFrame (s : Vm) : Except Halt UnwindResult × Vm :=
  match s.frames with
  | [] => (.error (.error .stackUnderflow), s)
  | f :: fs =>
    if f.numParams.toNat ≤ f.framePointer then
      let t : Vm := { s with frames := fs, sp := f.framePointer - f.numParams.toNat }
      if f.returnPc = 0 then (.ok .topLevel, t)
      else (.ok .caller, { t with pc := f.returnPc })
    else (.error (.fault .overflow), { s with frames := fs })

def countAssert (s : Vm) (passed : Bool) : Except Halt Unit × Vm :=
  let n := (if passed then s.assertSuccesses else s.assertFailures) + 1
  if n < 2 ^ 31 then
    (.ok (), if passed then { s with assertSuccesses := n } else { s with assertFailures := n })
  else (.error (.fault .overflow), s)

def handle : Handler ops Vm Halt
  | .push v, s =>
    if s.capacity ≤ s.sp then (.error (.error .stackOverflow), s) else (.ok (), s.write [v])
  | .pop, s =>
    if s.sp = 0 then (.error (.error .stackUnderflow), s)
    else if s.capacity < s.sp then (.error (.fault .slice), { s with sp := s.sp - 1 })
    else (.ok (s.top 1), { s with sp := s.sp - 1 })
  | .drop n, s =>
    if s.sp < n then (.error (.error .stackUnderflow), s) else (.ok (), { s with sp := s.sp - n })
  | .room n, s =>
    if s.capacity < s.sp + n then (.error (.error .stackOverflow), s) else (.ok (), s)
  | .need n, s => if s.sp < n then (.error (.error .stackUnderflow), s) else (.ok (), s)
  | .peek k, s =>
    match s.peekIndex k with
    | .error e => (.error e, s)
    | .ok i => (.ok (s.cells i), s)
  | .poke k v, s =>
    match s.peekIndex k with
    | .error e => (.error e, s)
    | .ok i => (.ok (), s.setCell i v)
  | .base b, s =>
    match s.bankBase b with
    | .error e => (.error e, s)
    | .ok _ => (.ok (), s)
  | .get b i, s =>
    match s.slotIndex b i with
    | .error e => (.error e, s)
    | .ok n => (.ok (s.cells n), s)
  | .set b i v, s =>
    match s.slotIndex b i with
    | .error e => (.error e, s)
    | .ok n => (.ok (), s.setCell n v)
  | .code w addr, s =>
    match s.codeAt w addr with
    | none => (.error (.error (.pcOutOfBounds addr s.code.length)), s)
    | some v => (.ok v, s)
  | .load w addr, s =>
    match s.dataAt w addr with
    | none => (.error (.error .nullPointer), s)
    | some v => (.ok v, s)
  | .store w addr v, s =>
    match s.dataAt w addr with
    | none => (.error (.error .nullPointer), s)
    | some _ => (.ok (), { s with data := writeAt s.data addr (leBytes w v) })
  | .setPc n, s => (.ok (), { s with pc := n })
  | .jump target, s => (.ok (), { s with pc := (target % usizeLimit).toNat })
  | .enter m np nl r, s => s.setupCallFrame m np nl r
  | .unwind, s => s.unwindFrame
  | .countAssert passed, s => s.countAssert passed
  | .fail e, s => (.error (.error e), s)
  | .fault, s => (.error (.fault .overflow), s)

end Vm

end Sandstar.Svm
