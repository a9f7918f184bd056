import Sandstar.Utf8

set_option autoImplicit false

/-!
# The SOX message codec (sox_protocol.rs)

A reader is kept as the bytes from its cursor on. A failed read of a fixed-width
value leaves the cursor where it was; a string without a terminator runs to the end.
-/
namespace Sandstar.SoxProtocol
open Utf8

inductive SoxCmd where
  | readSchema | readVersion | readComp | readProp | link
  | subscribe | unsubscribe
  | write | invoke | add | delete | rename | reorder
  | fileOpen | fileRead | fileWrite | fileClose | fileRename
  | event
  deriving DecidableEq, Repr

namespace SoxCmd

def byte : SoxCmd → UInt8
  | readSchema => 118
  | readVersion => 121
  | readComp => 99
  | readProp => 114
  | link => 108
  | subscribe => 115
  | unsubscribe => 117
  | write => 119
  | invoke => 105
  | add => 97
  | delete => 100
  | rename => 110
  | reorder => 111
  | fileOpen => 102
  | fileRead => 103
  | fileWrite => 104
  | fileClose => 122
  | fileRename => 98
  | event => 101

/-- Two commands have a second spelling: invoke is 'k' or 'i', file close is 'z' or 'q'. -/
def fromByte (b : UInt8) : Option SoxCmd :=
  if b = 118 then some readSchema
  else if b = 121 then some readVersion
  else if b = 99 then some readComp
  else if b = 114 then some readProp
  else if b = 108 then some link
  else if b = 115 then some subscribe
  else if b = 117 then some unsubscribe
  else if b = 119 then some write
  else if b = 107 ∨ b = 105 then some invoke
  else if b = 97 then some add
  else if b = 100 then some delete
  else if b = 110 then some rename
  else if b = 111 then some reorder
  else if b = 102 then some fileOpen
  else if b = 103 then some fileRead
  else if b = 104 then some fileWrite
  else if b = 122 ∨ b = 113 then some fileClose
  else if b = 98 then some fileRename
  else if b = 101 then some event
  else none

def responseByte (c : SoxCmd) : UInt8 :=
  if 97 ≤ c.byte ∧ c.byte ≤ 122 then c.byte - 32 else c.byte

def errorByte : UInt8 := 33

end SoxCmd

inductive SoxValueType where
  | void | bool | byte | short | int | long | float | double | buf
  deriving DecidableEq, Repr

def SoxValueType.code : SoxValueType → UInt8
  | .void => 0
  | .bool => 1
  | .byte => 2
  | .short => 3
  | .int => 4
  | .long => 5
  | .float => 6
  | .double => 7
  | .buf => 8

structure SoxRequest where
  cmd : SoxCmd
  reqId : UInt8
  payload : List UInt8
  deriving DecidableEq, Repr

def SoxRequest.parse : List UInt8 → Option SoxRequest
  | b :: reqId :: payload => (SoxCmd.fromByte b).map fun cmd => ⟨cmd, reqId, payload⟩
  | _ => none

structure SoxResponse where
  cmd : UInt8
  reqId : UInt8
  payload : List UInt8
  deriving DecidableEq, Repr

def beU16 (hi lo : UInt8) : UInt16 := hi.toUInt16 <<< 8 ||| lo.toUInt16

def beBytes16 (v : UInt16) : List UInt8 := [(v >>> 8).toUInt8, v.toUInt8]

def beU32 (a b c d : UInt8) : UInt32 :=
  a.toUInt32 <<< 24 ||| b.toUInt32 <<< 16 ||| c.toUInt32 <<< 8 ||| d.toUInt32

def beU64 (hi lo : UInt32) : UInt64 := hi.toUInt64 <<< 32 ||| lo.toUInt64

def beBytes32 (v : UInt32) : List UInt8 :=
  [(v >>> 24).toUInt8, (v >>> 16).toUInt8, (v >>> 8).toUInt8, v.toUInt8]

def beBytes64 (v : UInt64) : List UInt8 := beBytes32 (v >>> 32).toUInt32 ++ beBytes32 v.toUInt32

theorem beU16_beBytes16 (v : UInt16) : beU16 (v >>> 8).toUInt8 v.toUInt8 = v := by
  have hv := v.toNat_lt
  have hhi : v.toNat >>> 8 % 2 ^ 8 = v.toNat / 256 := by
    rw [Nat.shiftRight_eq_div_pow]
    omega
  have hshift : (v.toNat / 256) <<< 8 % 2 ^ 16 = (v.toNat / 256) <<< 8 := by
    rw [Nat.shiftLeft_eq]
    omega
  unfold beU16
  apply UInt16.toNat_inj.1
  rw [UInt16.toNat_or, UInt16.toNat_shiftLeft, UInt8.toNat_toUInt16, UInt8.toNat_toUInt16,
    UInt16.toNat_toUInt8, UInt16.toNat_toUInt8, UInt16.toNat_shiftRight]
  change (v.toNat >>> 8 % 2 ^ 8) <<< 8 % 2 ^ 16 ||| v.toNat % 2 ^ 8 = v.toNat
  rw [hhi, hshift, ← Nat.shiftLeft_add_eq_or_of_lt (Nat.mod_lt _ (by decide)), Nat.shiftLeft_eq]
  omega

theorem beU32_beBytes32 (v : UInt32) :
    beU32 (v >>> 24).toUInt8 (v >>> 16).toUInt8 (v >>> 8).toUInt8 v.toUInt8 = v := by
  unfold beU32
  apply UInt32.toBitVec_inj.1
  apply BitVec.eq_of_getLsbD_eq
  intro i hi
  -- bit by bit: each byte covers its eight positions
  change ((((v.toBitVec >>> 24).setWidth 8).setWidth 32 <<< 24 |||
    ((v.toBitVec >>> 16).setWidth 8).setWidth 32 <<< 16 |||
    ((v.toBitVec >>> 8).setWidth 8).setWidth 32 <<< 8) |||
    (v.toBitVec.setWidth 8).setWidth 32).getLsbD i = v.toBitVec.getLsbD i
  simp only [BitVec.getLsbD_or, BitVec.getLsbD_shiftLeft, BitVec.getLsbD_setWidth,
    BitVec.getLsbD_ushiftRight]
  grind

theorem beU64_halves (v : UInt64) : beU64 (v >>> 32).toUInt32 v.toUInt32 = v := by
  unfold beU64
  apply UInt64.toBitVec_inj.1
  apply BitVec.eq_of_getLsbD_eq
  intro i hi
  change ((((v.toBitVec >>> 32).setWidth 32).setWidth 64 <<< 32) |||
    (v.toBitVec.setWidth 32).setWidth 64).getLsbD i = v.toBitVec.getLsbD i
  simp only [BitVec.getLsbD_or, BitVec.getLsbD_shiftLeft, BitVec.getLsbD_setWidth,
    BitVec.getLsbD_ushiftRight]
  grind

namespace SoxResponse

def success (cmd : SoxCmd) (reqId : UInt8) : SoxResponse := ⟨cmd.responseByte, reqId, []⟩

def error (_cmd : SoxCmd) (reqId : UInt8) : SoxResponse := ⟨SoxCmd.errorByte, reqId, []⟩

def writeU16 (r : SoxResponse) (v : UInt16) : SoxResponse :=
  { r with payload := r.payload ++ beBytes16 v }

def writeStr (r : SoxResponse) (s : String) : SoxResponse :=
  { r with payload := r.payload ++ asBytes s ++ [0] }

def writeU8 (r : SoxResponse) (v : UInt8) : SoxResponse := { r with payload := r.payload ++ [v] }

def writeU32 (r : SoxResponse) (v : UInt32) : SoxResponse :=
  { r with payload := r.payload ++ beBytes32 v }

def writeU64 (r : SoxResponse) (v : UInt64) : SoxResponse :=
  { r with payload := r.payload ++ beBytes64 v }

def writeBytes (r : SoxResponse) (data : List UInt8) : SoxResponse :=
  { r with payload := r.payload ++ data }

def toBytes (r : SoxResponse) : List UInt8 := r.cmd :: r.reqId :: r.payload

end SoxResponse

structure SoxReader where
  rest : List UInt8
  deriving DecidableEq, Repr

namespace SoxReader

def readU8 (r : SoxReader) : Option UInt8 × SoxReader :=
  match r.rest with
  | b :: bs => (some b, ⟨bs⟩)
  | [] => (none, r)

def readU16 (r : SoxReader) : Option UInt16 × SoxReader :=
  match r.rest with
  | a :: b :: bs => (some (beU16 a b), ⟨bs⟩)
  | _ => (none, r)

def readU32 (r : SoxReader) : Option UInt32 × SoxReader :=
  match r.rest with
  | a :: b :: c :: d :: bs => (some (beU32 a b c d), ⟨bs⟩)
  | _ => (none, r)

def readI32 (r : SoxReader) : Option Int32 × SoxReader :=
  ((readU32 r).1.map UInt32.toInt32, (readU32 r).2)

/-- The eight bytes shared by `read_f64` and the 64-bit integer read. -/
def readU64 (r : SoxReader) : Option UInt64 × SoxReader :=
  match r.rest with
  | a :: b :: c :: d :: e :: f :: g :: h :: bs =>
    (some (beU64 (beU32 a b c d) (beU32 e f g h)), ⟨bs⟩)
  | _ => (none, r)

def readStr (r : SoxReader) : Option String × SoxReader :=
  if (0 : UInt8) ∈ r.rest then
    (some (fromUtf8Lossy (r.rest.takeWhile (· ≠ 0))), ⟨(r.rest.dropWhile (· ≠ 0)).drop 1⟩)
  else (none, ⟨[]⟩)

def readBytes (r : SoxReader) (len : ℕ) : Option (List UInt8) × SoxReader :=
  if len ≤ r.rest.length then (some (r.rest.take len), ⟨r.rest.drop len⟩) else (none, r)

end SoxReader

theorem readU16_beBytes16 (v : UInt16) (rest : List UInt8) :
    SoxReader.readU16 ⟨beBytes16 v ++ rest⟩ = (some v, ⟨rest⟩) := by
  change (some (beU16 (v >>> 8).toUInt8 v.toUInt8), (⟨rest⟩ : SoxReader)) = _
  rw [beU16_beBytes16]

theorem readU32_beBytes32 (v : UInt32) (rest : List UInt8) :
    SoxReader.readU32 ⟨beBytes32 v ++ rest⟩ = (some v, ⟨rest⟩) := by
  change (some (beU32 (v >>> 24).toUInt8 (v >>> 16).toUInt8 (v >>> 8).toUInt8 v.toUInt8),
    (⟨rest⟩ : SoxReader)) = _
  rw [beU32_beBytes32]

theorem readU64_beBytes64 (v : UInt64) (rest : List UInt8) :
    SoxReader.readU64 ⟨beBytes64 v ++ rest⟩ = (some v, ⟨rest⟩) := by
  let hi := (v >>> 32).toUInt32
  let lo := v.toUInt32
  change (some (beU64
      (beU32 (hi >>> 24).toUInt8 (hi >>> 16).toUInt8 (hi >>> 8).toUInt8 hi.toUInt8)
      (beU32 (lo >>> 24).toUInt8 (lo >>> 16).toUInt8 (lo >>> 8).toUInt8 lo.toUInt8)),
    (⟨rest⟩ : SoxReader)) = _
  rw [beU32_beBytes32, beU32_beBytes32, beU64_halves]

end Sandstar.SoxProtocol
