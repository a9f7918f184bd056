import Sandstar.Decoding
import Sandstar.DriverWatches
import Sandstar.SoxProtocol

set_option autoImplicit false

/-!
# Modbus TCP frames (modbus.rs)

The MBAP header is the transaction id, the protocol id 0 and a length that counts
the unit id, the function code and the data. `decode` asks for nine bytes, one more
than the shortest frame, and takes the length field as it comes: below 2 it ends the
data before its start.
-/
namespace Sandstar.Modbus
open Decoding SoxProtocol
open Drivers (DriverError)

structure ModbusFrame where
  transactionId : UInt16
  unitId : UInt8
  functionCode : UInt8
  data : List UInt8
deriving DecidableEq, Repr

namespace Fc

def readCoils : UInt8 := 0x01
def readDiscreteInputs : UInt8 := 0x02
def readHoldingRegisters : UInt8 := 0x03
def readInputRegisters : UInt8 := 0x04
def writeSingleCoil : UInt8 := 0x05
def writeSingleRegister : UInt8 := 0x06
end Fc

def upperHex (b : UInt8) : String :=
  String.ofList [(Nat.digitChar (b.toNat / 16)).toUpper, (Nat.digitChar (b.toNat % 16)).toUpper]

def exceptionError (functionCode exceptionCode : UInt8) : DriverError :=
  .remoteStatus ("modbus exception: FC 0x" ++ upperHex (functionCode &&& 0x7F) ++ ", code " ++
    toString exceptionCode)

namespace ModbusFrame

/-- The length is cut to sixteen bits. -/
def encode (f : ModbusFrame) : List UInt8 :=
  beBytes16 f.transactionId ++ beBytes16 0 ++ beBytes16 (UInt16.ofNat (2 + f.data.length)) ++
    [f.unitId, f.functionCode] ++ f.data

def decode (bytes : List UInt8) : Decoder DriverError ModbusFrame := do
  if bytes.length < 9 then
    .error (.reject (.commFault ("modbus frame too short: " ++ toString bytes.length ++
      " bytes (need at least 9)")))
  else
    let protocolId := beU16 (← index bytes 2) (← index bytes 3)
    if protocolId ≠ 0 then
      .error (.reject (.commFault ("invalid modbus protocol ID: " ++ toString protocolId ++
        " (expected 0)")))
    else
      let length := (beU16 (← index bytes 4) (← index bytes 5)).toNat
      if bytes.length < 6 + length then
        .error (.reject (.commFault ("modbus frame truncated: have " ++
          toString (bytes.length - 6) ++ " bytes after header, need " ++ toString length)))
      else
        let functionCode ← index bytes 7
        if functionCode &&& 0x80 ≠ 0 then
          let exceptionCode ← if 8 < bytes.length then index bytes 8 else .ok 0
          .error (.reject (exceptionError functionCode exceptionCode))
        else
          let hi ← index bytes 0
          let lo ← index bytes 1
          let unitId ← index bytes 6
          let data ← range bytes 8 (6 + length)
          .ok ⟨beU16 hi lo, unitId, functionCode, data⟩

def readRequest (functionCode : UInt8) (txn : UInt16) (unit : UInt8) (start count : UInt16) :
    ModbusFrame :=
  ⟨txn, unit, functionCode, beBytes16 start ++ beBytes16 count⟩

def readCoils (txn : UInt16) (unit : UInt8) (start count : UInt16) : ModbusFrame :=
  readRequest Fc.readCoils txn unit start count

def readDiscreteInputs (txn : UInt16) (unit : UInt8) (start count : UInt16) : ModbusFrame :=
  readRequest Fc.readDiscreteInputs txn unit start count

def readHoldingRegisters (txn : UInt16) (unit : UInt8) (start count : UInt16) : ModbusFrame :=
  readRequest Fc.readHoldingRegisters txn unit start count

def readInputRegisters (txn : UInt16) (unit : UInt8) (start count : UInt16) : ModbusFrame :=
  readRequest Fc.readInputRegisters txn unit start count

def writeSingleCoil (txn : UInt16) (unit : UInt8) (address : UInt16) (value : Bool) : ModbusFrame :=
  ⟨txn, unit, Fc.writeSingleCoil, beBytes16 address ++ beBytes16 (if value then 0xFF00 else 0)⟩

def writeSingleRegister (txn : UInt16) (unit : UInt8) (address value : UInt16) : ModbusFrame :=
  ⟨txn, unit, Fc.writeSingleRegister, beBytes16 address ++ beBytes16 value⟩

def registerAt (data : List UInt8) (i : ℕ) : Option UInt16 :=
  match data[i]?, data[i + 1]? with
  | some hi, some lo => some (beU16 hi lo)
  | _, _ => none

def parseRegisterResponse (f : ModbusFrame) : Except DriverError (List UInt16) :=
  match f.data with
  | [] => .error (.commFault "empty register response")
  | byteCount :: _ =>
    if f.data.length < 1 + byteCount.toNat then
      .error (.commFault ("register response truncated: expected " ++ toString byteCount ++
        " data bytes, got " ++ toString (f.data.length - 1)))
    else
      .ok ((List.range ((byteCount.toNat + 1) / 2)).filterMap fun i =>
        registerAt f.data (1 + 2 * i))

def parseCoilResponse (f : ModbusFrame) (count : UInt16) : Except DriverError (List Bool) :=
  match f.data with
  | [] => .error (.commFault "empty coil response")
  | byteCount :: _ =>
    if f.data.length < 1 + byteCount.toNat then
      .error (.commFault "coil response truncated")
    else
      .ok ((List.range count.toNat).filterMap fun bit =>
        (f.data[1 + bit / 8]?).map fun b => b.toNat.testBit (bit % 8))

end ModbusFrame

section Reading

theorem beU16_toNat (hi lo : UInt8) : (beU16 hi lo).toNat = 256 * hi.toNat + lo.toNat := by
  have hhi := hi.toNat_lt
  have hlo := lo.toNat_lt
  have hshift : hi.toNat <<< 8 % 2 ^ 16 = hi.toNat <<< 8 := by
    rw [Nat.shiftLeft_eq]
    omega
  unfold beU16
  rw [UInt16.toNat_or, UInt16.toNat_shiftLeft, UInt8.toNat_toUInt16, UInt8.toNat_toUInt16]
  change hi.toNat <<< 8 % 2 ^ 16 ||| lo.toNat = _
  rw [hshift, ← Nat.shiftLeft_add_eq_or_of_lt hlo, Nat.shiftLeft_eq]
  omega

variable (b0 b1 b2 b3 b4 b5 b6 b7 b8 : UInt8) (rest : List UInt8)

/-- Past the first check every index is in range. -/
theorem decode_cons :
    ModbusFrame.decode (b0 :: b1 :: b2 :: b3 :: b4 :: b5 :: b6 :: b7 :: b8 :: rest) =
      if beU16 b2 b3 ≠ 0 then
        .error (.reject (.commFault ("invalid modbus protocol ID: " ++ toString (beU16 b2 b3) ++
          " (expected 0)")))
      else if rest.length + 9 < 6 + (beU16 b4 b5).toNat then
        .error (.reject (.commFault ("modbus frame truncated: have " ++
          toString (rest.length + 9 - 6) ++ " bytes after header, need " ++
          toString (beU16 b4 b5).toNat)))
      else if b7 &&& 0x80 ≠ 0 then .error (.reject (exceptionError b7 b8))
      else if 2 ≤ (beU16 b4 b5).toNat then
        .ok ⟨beU16 b0 b1, b6, b7, (b8 :: rest).take ((beU16 b4 b5).toNat - 2)⟩
      else .error .panic := by
  have hcode : 8 < rest.length + 1 + 1 + 1 + 1 + 1 + 1 + 1 + 1 + 1 := by omega
  have hsize : 6 + (beU16 b4 b5).toNat - 8 = (beU16 b4 b5).toNat - 2 := by omega
  unfold ModbusFrame.decode
  rw [if_neg (by simp)]
  simp only [index, List.getElem?_cons_zero, List.getElem?_cons_succ, ok_bind, List.length_cons,
    if_pos hcode]
  split_ifs with hpid hlen hfc hshort
  · rfl
  · rfl
  · rfl
  · rw [range, if_pos (by simp only [List.length_cons]; omega), hsize]
    rfl
  · rw [range, if_neg (by omega)]
    rfl

end Reading

/-- The byte string is long enough for `decode`, and its header states a length
    below 2 under a function code of an answer. -/
def ShortLength (bytes : List UInt8) : Prop :=
  ∃ b0 b1 b4 b5 b6 b7 b8 rest, bytes = b0 :: b1 :: 0 :: 0 :: b4 :: b5 :: b6 :: b7 :: b8 :: rest ∧
    (beU16 b4 b5).toNat < 2 ∧ b7 &&& 0x80 = 0

theorem beU16_eq_zero {hi lo : UInt8} (h : beU16 hi lo = 0) : hi = 0 ∧ lo = 0 := by
  have hsum : 256 * hi.toNat + lo.toNat = 0 := by
    rw [← beU16_toNat, h]
    rfl
  refine ⟨UInt8.toNat_inj.1 ?_, UInt8.toNat_inj.1 ?_⟩
  · change hi.toNat = 0
    omega
  · change lo.toNat = 0
    omega

theorem long_cases (bytes : List UInt8) :
    bytes.length < 9 ∨ ∃ b0 b1 b2 b3 b4 b5 b6 b7 b8 rest,
      bytes = b0 :: b1 :: b2 :: b3 :: b4 :: b5 :: b6 :: b7 :: b8 :: rest := by
  rcases bytes with
    _ | ⟨b0, _ | ⟨b1, _ | ⟨b2, _ | ⟨b3, _ | ⟨b4, _ | ⟨b5, _ | ⟨b6, _ | ⟨b7, _ | ⟨b8, rest⟩⟩⟩⟩⟩⟩⟩⟩⟩
  case cons.cons.cons.cons.cons.cons.cons.cons.cons =>
    exact Or.inr ⟨b0, b1, b2, b3, b4, b5, b6, b7, b8, rest, rfl⟩
  all_goals exact Or.inl (by simp)

theorem decode_short {bytes : List UInt8} (h : bytes.length < 9) :
    ∃ e, ModbusFrame.decode bytes = .error (.reject e) := by
  unfold ModbusFrame.decode
  rw [if_pos h]
  exact ⟨_, rfl⟩

/-- `decode` returns or rejects exactly where the stated length is not short. -/
theorem decode_safe_iff (bytes : List UInt8) :
    Safe (ModbusFrame.decode bytes) (fun _ => True) ↔ ¬ ShortLength bytes := by
  rcases long_cases bytes with hlen | ⟨b0, b1, b2, b3, b4, b5, b6, b7, b8, rest, rfl⟩
  · obtain ⟨e, he⟩ := decode_short hlen
    rw [he]
    refine ⟨fun _ => ?_, fun _ => trivial⟩
    rintro ⟨b0, b1, b4, b5, b6, b7, b8, rest, rfl, -, -⟩
    simp only [List.length_cons] at hlen
    omega
  · rw [decode_cons]
    constructor
    · rintro hsafe ⟨c0, c1, c4, c5, c6, c7, c8, crest, heq, hshort, hfc⟩
      simp only [List.cons.injEq] at heq
      obtain ⟨rfl, rfl, rfl, rfl, rfl, rfl, rfl, rfl, rfl, rfl⟩ := heq
      rw [if_neg (by decide), if_neg (by omega), if_neg (fun h => h hfc), if_neg (by omega)]
        at hsafe
      exact hsafe
    · intro hn
      split_ifs with hpid hlen hfc hshort
      · trivial
      · trivial
      · trivial
      · trivial
      · obtain ⟨rfl, rfl⟩ := beU16_eq_zero (not_not.1 hpid)
        exact hn ⟨b0, b1, b4, b5, b6, b7, b8, rest, rfl, by omega, not_not.1 hfc⟩

theorem encode_empty_rejected {f : ModbusFrame} (h : f.data = []) :
    ∃ e, ModbusFrame.decode f.encode = .error (.reject e) := by
  apply decode_short
  simp [ModbusFrame.encode, beBytes16, h]

theorem decode_encode {f : ModbusFrame} {b : UInt8} {bs : List UInt8} (hdata : f.data = b :: bs)
    (hlen : f.data.length ≤ 65533) (rest : List UInt8) :
    ModbusFrame.decode (f.encode ++ rest) =
      if f.functionCode &&& 0x80 ≠ 0 then .error (.reject (exceptionError f.functionCode b))
      else .ok f := by
  have hlength : (UInt16.ofNat (2 + f.data.length)).toNat = 2 + f.data.length := by
    rw [UInt16.toNat_ofNat']
    omega
  have hbytes : f.encode ++ rest =
      (f.transactionId >>> 8).toUInt8 :: f.transactionId.toUInt8 :: 0 :: 0 ::
        (UInt16.ofNat (2 + f.data.length) >>> 8).toUInt8 ::
        (UInt16.ofNat (2 + f.data.length)).toUInt8 :: f.unitId :: f.functionCode :: b ::
        (bs ++ rest) := by
    unfold ModbusFrame.encode
    rw [hdata]
    rfl
  rw [hbytes, decode_cons, beU16_beBytes16, beU16_beBytes16, hlength]
  rw [hdata, List.length_cons] at hlen ⊢
  rw [if_neg (by decide), if_neg (by simp only [List.length_append]; omega)]
  split_ifs with hfc hshort
  · rfl
  · have htake : (b :: (bs ++ rest)).take (2 + (bs.length + 1) - 2) = b :: bs := by
      rw [Nat.add_sub_cancel_left, List.take_succ_cons, List.take_left]
    rw [htake, ← hdata]
  · omega

theorem beBytes16_beU16 (hi lo : UInt8) : beBytes16 (beU16 hi lo) = [hi, lo] := by
  have hhi := hi.toNat_lt
  have hlo := lo.toNat_lt
  have hleft : (beU16 hi lo >>> 8).toUInt8 = hi := by
    apply UInt8.toNat_inj.1
    rw [UInt16.toNat_toUInt8, UInt16.toNat_shiftRight, beU16_toNat, Nat.shiftRight_eq_div_pow]
    change (256 * hi.toNat + lo.toNat) / 2 ^ 8 % 2 ^ 8 = hi.toNat
    omega
  have hright : (beU16 hi lo).toUInt8 = lo := by
    apply UInt8.toNat_inj.1
    rw [UInt16.toNat_toUInt8, beU16_toNat]
    omega
  rw [beBytes16, hleft, hright]

/-- What `decode` returns with data stood at the front of the stream. -/
theorem encode_of_decode {bytes : List UInt8} {r : ModbusFrame}
    (h : ModbusFrame.decode bytes = .ok r) (hdata : r.data ≠ []) :
    r.functionCode &&& 0x80 = 0 ∧ ∃ more, bytes = r.encode ++ more := by
  rcases long_cases bytes with hlen | ⟨b0, b1, b2, b3, b4, b5, b6, b7, b8, rest, rfl⟩
  · obtain ⟨e, he⟩ := decode_short hlen
    rw [he] at h
    cases h
  · rw [decode_cons] at h
    split_ifs at h with hpid hlen hfc hshort
    cases h
    obtain ⟨rfl, rfl⟩ := beU16_eq_zero (not_not.1 hpid)
    refine ⟨not_not.1 hfc, (b8 :: rest).drop ((beU16 b4 b5).toNat - 2), ?_⟩
    have hlength : ((b8 :: rest).take ((beU16 b4 b5).toNat - 2)).length =
        (beU16 b4 b5).toNat - 2 := by
      rw [List.length_take, List.length_cons]
      omega
    have hstated : UInt16.ofNat (2 + ((b8 :: rest).take ((beU16 b4 b5).toNat - 2)).length) =
        beU16 b4 b5 := by
      rw [hlength, Nat.add_sub_cancel' hshort, UInt16.ofNat_toNat]
    rw [ModbusFrame.encode, hstated, beBytes16_beU16, beBytes16_beU16]
    simp [beBytes16]

theorem functionCode_lt_iff (b : UInt8) : b &&& 0x80 = 0 ↔ b < 0x80 := by
  revert b
  decide +kernel

/-- The framing contract for one frame and one byte string: an answer comes back
    from its encoding, decoding ends in a value or an error, and an exception answer
    is an error that shows its code, also with more of the stream behind it. -/
structure Framing (f : ModbusFrame) (bytes : List UInt8) : Prop where
  roundTrip : f.functionCode < 0x80 → f.data.length ≤ 65533 → ModbusFrame.decode f.encode = .ok f
  returns : Safe (ModbusFrame.decode bytes) fun _ => True
  exception : ¬ f.functionCode < 0x80 → f.data.length ≤ 65533 → ∀ code more, f.data = code :: more →
    ModbusFrame.decode (f.encode ++ bytes) = .error (.reject (exceptionError f.functionCode code))

/-- The contract holds exactly where an answer has data and no short length comes
    before a function code of an answer. -/
theorem framing_iff (f : ModbusFrame) (bytes : List UInt8) :
    Framing f bytes ↔
      (f.functionCode < 0x80 → f.data.length ≤ 65533 → f.data ≠ []) ∧ ¬ ShortLength bytes := by
  constructor
  · intro h
    refine ⟨fun hfc hlen hempty => ?_, (decode_safe_iff bytes).1 h.returns⟩
    obtain ⟨e, he⟩ := encode_empty_rejected hempty
    have hok := h.roundTrip hfc hlen
    rw [he] at hok
    cases hok
  · rintro ⟨hdata, hshort⟩
    refine ⟨fun hfc hlen => ?_, (decode_safe_iff bytes).2 hshort, ?_⟩
    · obtain ⟨b, bs, hcons⟩ := List.exists_cons_of_ne_nil (hdata hfc hlen)
      have h := decode_encode hcons hlen []
      rw [List.append_nil] at h
      rw [h, if_neg (fun hne => hne ((functionCode_lt_iff _).2 hfc))]
    · intro hfc hlen code more hcons
      rw [decode_encode hcons hlen, if_pos (fun he => hfc ((functionCode_lt_iff _).1 he))]

/-- A frame without data is too short for `decode`, and a header with length 0
    before nine bytes makes it panic. -/
theorem frames_misread :
    ¬ Framing ⟨1, 1, 3, []⟩ [0, 1, 0, 0, 0, 3, 1, 3, 0] ∧
      ¬ Framing ⟨1, 1, 3, [0]⟩ [0, 1, 0, 0, 0, 0, 1, 3, 0] := by
  constructor
  · intro h
    obtain ⟨e, he⟩ := encode_empty_rejected (f := ⟨1, 1, 3, []⟩) rfl
    have hok := h.roundTrip (by decide) (by decide)
    rw [he] at hok
    cases hok
  · intro h
    exact h.returns

end Sandstar.Modbus
