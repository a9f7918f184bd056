import Sandstar.Decoding
import Sandstar.SoxProtocol

set_option autoImplicit false

/-!
# BACnet application values (value.rs, frame.rs)

An application value starts with a tag byte: the tag number, the class bit, and
three bits that hold a length or a value. The decoder is `decode_application_tag`,
the encoder `encode_bacnet_value`; they were written apart and do not agree on
every variant.
-/
namespace Sandstar.Bacnet

open Decoding SoxProtocol Utf8

inductive BacnetError
  | malformedFrame (message : String)
  | timeout (retries : UInt32)
  | remoteError (errorClass code : UInt32)
  | io (message : String)
deriving DecidableEq

/-- Floats are kept as their bits. -/
inductive BacnetValue
  | null
  | boolean (b : Bool)
  | unsigned (n : UInt32)
  | signed (n : Int32)
  | real (bits : UInt32)
  | double (bits : UInt64)
  | octetString (bytes : List UInt8)
  | characterString (s : String)
  | bitString (bytes : List UInt8)
  | enumerated (n : UInt32)
  | date (a b c d : UInt8)
  | time (a b c d : UInt8)
  | objectId (objectType : UInt16) (inst : UInt32)
  | unknown
  | array (items : List BacnetValue)

def malformed {α : Type} (message : String) : Decoder BacnetError α :=
  .error (.reject (.malformedFrame message))

def readUnsigned (data : List UInt8) (len : ℕ) : Decoder BacnetError UInt32 :=
  if data.length < len then malformed "unsigned value truncated"
  else match len with
    | 0 => .ok 0
    | 1 => do return (← index data 0).toUInt32
    | 2 => do return (beU16 (← index data 0) (← index data 1)).toUInt32
    | 3 => do
      return (← index data 0).toUInt32 <<< 16 ||| (← index data 1).toUInt32 <<< 8 |||
        (← index data 2).toUInt32
    | 4 => do return beU32 (← index data 0) (← index data 1) (← index data 2) (← index data 3)
    | _ => malformed "unsigned value too wide"

def indexU32 (data : List UInt8) (pos : ℕ) : Decoder BacnetError UInt32 := do
  return beU32 (← index data pos) (← index data (pos + 1)) (← index data (pos + 2))
    (← index data (pos + 3))

/-- `raw as i8 as i32` and the like, by the number of bytes read. -/
def signExtend (len : ℕ) (raw : UInt32) : Int32 :=
  match len with
  | 1 => raw.toUInt8.toInt8.toInt32
  | 2 => raw.toUInt16.toInt16.toInt32
  | _ => raw.toInt32

def objectTypeOf (raw : UInt32) : UInt16 := (raw >>> 22 &&& 0x3FF).toUInt16
def instanceOf (raw : UInt32) : UInt32 := raw &&& 0x003FFFFF

def characterStringLength (data : List UInt8) (lvt : ℕ) : Decoder BacnetError (ℕ × ℕ) :=
  if lvt ≤ 4 then .ok (lvt, 1)
  else if lvt = 5 then
    if data.length < 2 then malformed "CharacterString extended length truncated"
    else do return ((← index data 1).toNat, 2)
  else if lvt = 6 then
    if data.length < 3 then malformed "CharacterString extended length truncated"
    else do return ((beU16 (← index data 1) (← index data 2)).toNat, 3)
  else malformed "CharacterString LVT=7 not supported"

def decodeCharacterString (data : List UInt8) (lvt : ℕ) : Decoder BacnetError (BacnetValue × ℕ) := do
  let (strLen, headerLen) ← characterStringLength data lvt
  if strLen = 0 then .ok (.characterString "", headerLen)
  else if data.length < headerLen + strLen then malformed "CharacterString truncated"
  else if 1 < strLen then do
    let bytes ← range data (headerLen + 1) (headerLen + strLen)
    .ok (.characterString (fromUtf8Lossy bytes), headerLen + strLen)
  else .ok (.characterString "", headerLen + strLen)

def decodeBytes (data : List UInt8) (lvt : ℕ) (truncated : String) (make : List UInt8 → BacnetValue) :
    Decoder BacnetError (BacnetValue × ℕ) :=
  if data.length < 1 + lvt then malformed truncated
  else do return (make (← range data 1 (1 + lvt)), 1 + lvt)

def decodeFour (data : List UInt8) (lvt : ℕ) (invalid : String)
    (make : UInt8 → UInt8 → UInt8 → UInt8 → BacnetValue) : Decoder BacnetError (BacnetValue × ℕ) :=
  if lvt ≠ 4 ∨ data.length < 5 then malformed invalid
  else do
    return (make (← index data 1) (← index data 2) (← index data 3) (← index data 4), 5)

def decodeReal (data : List UInt8) (lvt : ℕ) : Decoder BacnetError (BacnetValue × ℕ) :=
  if lvt ≠ 4 then malformed "Real tag must have LVT=4"
  else if data.length < 5 then malformed "Real value truncated"
  else do return (.real (← indexU32 data 1), 5)

/-- Eight bytes right after the tag byte, whatever the length bits say. -/
def decodeDouble (data : List UInt8) : Decoder BacnetError (BacnetValue × ℕ) :=
  if data.length < 9 then malformed "Double value truncated"
  else do return (.double (beU64 (← indexU32 data 1) (← indexU32 data 5)), 9)

def decodeObjectId (data : List UInt8) (lvt : ℕ) : Decoder BacnetError (BacnetValue × ℕ) :=
  if lvt ≠ 4 then malformed "ObjectId tag must have LVT=4"
  else if data.length < 5 then malformed "ObjectId value truncated"
  else do
    let raw ← indexU32 data 1
    return (.objectId (objectTypeOf raw) (instanceOf raw), 5)

def skipTag (data : List UInt8) (lvt : ℕ) (truncated : String) :
    Decoder BacnetError (BacnetValue × ℕ) :=
  if data.length < 1 + lvt then malformed truncated else .ok (.unknown, 1 + lvt)

def decodeApplicationTag (data : List UInt8) : Decoder BacnetError (BacnetValue × ℕ) :=
  match data with
  | [] => malformed "empty application tag"
  | tagByte :: rest =>
    let lvt := (tagByte &&& 0x07).toNat
    if tagByte >>> 3 &&& 0x01 ≠ 0 then skipTag data lvt "context tag truncated"
    else match (tagByte >>> 4 &&& 0x0F).toNat with
      | 0 => .ok (.null, 1)
      | 1 => .ok (.boolean (lvt ≠ 0), 1)
      | 2 => do return (.unsigned (← readUnsigned rest lvt), 1 + lvt)
      | 3 => do return (.signed (signExtend lvt (← readUnsigned rest lvt)), 1 + lvt)
      | 4 => decodeReal data lvt
      | 5 => decodeDouble data
      | 6 => decodeBytes data lvt "OctetString truncated" .octetString
      | 7 => decodeCharacterString data lvt
      | 8 => decodeBytes data lvt "BitString truncated" .bitString
      | 9 => do return (.enumerated (← readUnsigned rest lvt), 1 + lvt)
      | 10 => decodeFour data lvt "Date tag invalid" .date
      | 11 => decodeFour data lvt "Time tag invalid" .time
      | 12 => decodeObjectId data lvt
      | _ => skipTag data lvt "unknown application tag truncated"

def objectIdRaw (objectType : UInt16) (inst : UInt32) : UInt32 :=
  objectType.toUInt32 <<< 22 ||| (inst &&& 0x003FFFFF)

def encodeAppUnsigned (n : UInt32) : List UInt8 :=
  if n ≤ 0xFF then [0x21, n.toUInt8]
  else if n ≤ 0xFFFF then 0x22 :: beBytes16 n.toUInt16
  else 0x24 :: beBytes32 n

def encodeAppEnumerated (n : UInt32) : List UInt8 :=
  if n ≤ 0xFF then [0x91, n.toUInt8] else 0x92 :: beBytes16 n.toUInt16

def characterStringHeader (len : ℕ) : List UInt8 :=
  if len ≤ 4 then [0x70 ||| UInt8.ofNat len]
  else if len ≤ 253 then [0x75, UInt8.ofNat len]
  else 0x76 :: beBytes16 (UInt16.ofNat len)

mutual

/-- What `encode_bacnet_value` appends to its buffer. -/
def encodeBacnetValue : BacnetValue → List UInt8
  | .real bits => 0x44 :: beBytes32 bits
  | .double bits => 0x55 :: 8 :: beBytes64 bits
  | .unsigned n => encodeAppUnsigned n
  | .boolean b => [if b then 0x11 else 0x10]
  | .objectId objectType inst => 0xC4 :: beBytes32 (objectIdRaw objectType inst)
  | .enumerated n => encodeAppEnumerated n
  | .characterString s =>
    characterStringHeader ((asBytes s).length + 1) ++ 0x00 :: asBytes s
  | .null => [0x00]
  | .array items => encodeBacnetValues items
  -- skipped without a word
  | .signed _ | .octetString _ | .bitString _ | .date .. | .time .. | .unknown => []

def encodeBacnetValues : List BacnetValue → List UInt8
  | [] => []
  | v :: vs => encodeBacnetValue v ++ encodeBacnetValues vs

end

section Bounds

variable {data : List UInt8} {lvt : ℕ}

theorem malformed_safe {α : Type} {message : String} {post : α → Prop} :
    Safe (malformed message) post := safe_reject

def Consumes (data : List UInt8) (r : BacnetValue × ℕ) : Prop := 1 ≤ r.2 ∧ r.2 ≤ data.length

theorem readUnsigned_safe (data : List UInt8) (len : ℕ) :
    Safe (readUnsigned data len) fun _ => len ≤ data.length := by
  unfold readUnsigned
  refine safe_ite (fun _ => malformed_safe) fun hlen => ?_
  have hle : len ≤ data.length := by omega
  split
  · exact hle
  · refine safe_bind (safe_index (by omega)) fun _ _ => hle
  · refine safe_bind (safe_index (by omega)) fun _ _ => ?_
    exact safe_bind (safe_index (by omega)) fun _ _ => hle
  · refine safe_bind (safe_index (by omega)) fun _ _ => ?_
    refine safe_bind (safe_index (by omega)) fun _ _ => ?_
    exact safe_bind (safe_index (by omega)) fun _ _ => hle
  · refine safe_bind (safe_index (by omega)) fun _ _ => ?_
    refine safe_bind (safe_index (by omega)) fun _ _ => ?_
    refine safe_bind (safe_index (by omega)) fun _ _ => ?_
    exact safe_bind (safe_index (by omega)) fun _ _ => hle
  · exact malformed_safe

theorem indexU32_safe {pos : ℕ} (h : pos + 4 ≤ data.length) :
    Safe (indexU32 data pos) fun _ => True := by
  unfold indexU32
  refine safe_bind (safe_index (by omega)) fun _ _ => ?_
  refine safe_bind (safe_index (by omega)) fun _ _ => ?_
  refine safe_bind (safe_index (by omega)) fun _ _ => ?_
  exact safe_bind (safe_index (by omega)) fun _ _ => trivial

theorem skipTag_safe {truncated : String} : Safe (skipTag data lvt truncated) (Consumes data) := by
  unfold skipTag
  exact safe_ite (fun _ => malformed_safe) fun h => ⟨by simp, by simpa using h⟩

theorem decodeReal_safe : Safe (decodeReal data lvt) (Consumes data) := by
  unfold decodeReal
  refine safe_ite (fun _ => malformed_safe) fun _ => ?_
  refine safe_ite (fun _ => malformed_safe) fun h => ?_
  exact safe_bind (indexU32_safe (by omega)) fun _ _ => ⟨by simp, by simpa using h⟩

theorem decodeDouble_safe : Safe (decodeDouble data) (Consumes data) := by
  unfold decodeDouble
  refine safe_ite (fun _ => malformed_safe) fun h => ?_
  refine safe_bind (indexU32_safe (by omega)) fun _ _ => ?_
  exact safe_bind (indexU32_safe (by omega)) fun _ _ => ⟨by simp, by simpa using h⟩

theorem decodeObjectId_safe : Safe (decodeObjectId data lvt) (Consumes data) := by
  unfold decodeObjectId
  refine safe_ite (fun _ => malformed_safe) fun _ => ?_
  refine safe_ite (fun _ => malformed_safe) fun h => ?_
  exact safe_bind (indexU32_safe (by omega)) fun _ _ => ⟨by simp, by simpa using h⟩

theorem decodeFour_safe {invalid : String} {make : UInt8 → UInt8 → UInt8 → UInt8 → BacnetValue} :
    Safe (decodeFour data lvt invalid make) (Consumes data) := by
  unfold decodeFour
  refine safe_ite (fun _ => malformed_safe) fun h => ?_
  have hlen : 5 ≤ data.length := by omega
  refine safe_bind (safe_index (by omega)) fun _ _ => ?_
  refine safe_bind (safe_index (by omega)) fun _ _ => ?_
  refine safe_bind (safe_index (by omega)) fun _ _ => ?_
  exact safe_bind (safe_index (by omega)) fun _ _ => ⟨by simp, hlen⟩

theorem decodeBytes_safe {truncated : String} {make : List UInt8 → BacnetValue} :
    Safe (decodeBytes data lvt truncated make) (Consumes data) := by
  unfold decodeBytes
  refine safe_ite (fun _ => malformed_safe) fun h => ?_
  exact safe_bind (safe_range (by omega) (by omega)) fun _ _ => ⟨by simp, by simpa using h⟩

theorem characterStringLength_safe (h : 1 ≤ data.length) :
    Safe (characterStringLength data lvt) fun r => 1 ≤ r.2 ∧ r.2 ≤ data.length := by
  unfold characterStringLength
  refine safe_ite (fun _ => ⟨le_rfl, h⟩) fun _ => ?_
  refine safe_ite (fun _ => ?_) fun _ => safe_ite (fun _ => ?_) fun _ => malformed_safe
  · refine safe_ite (fun _ => malformed_safe) fun hlen => ?_
    exact safe_bind (safe_index (by omega)) fun _ _ => ⟨by simp, Nat.le_of_not_lt hlen⟩
  · refine safe_ite (fun _ => malformed_safe) fun hlen => ?_
    refine safe_bind (safe_index (by omega)) fun _ _ => ?_
    exact safe_bind (safe_index (by omega)) fun _ _ => ⟨by simp, by simpa using hlen⟩

theorem decodeCharacterString_safe (h : 1 ≤ data.length) :
    Safe (decodeCharacterString data lvt) (Consumes data) := by
  unfold decodeCharacterString
  refine safe_bind (characterStringLength_safe h) ?_
  rintro ⟨strLen, headerLen⟩ ⟨hpos, hheader⟩
  refine safe_ite (fun _ => ⟨hpos, hheader⟩) fun _ => ?_
  refine safe_ite (fun _ => malformed_safe) fun hlen => ?_
  have hconsumed : 1 ≤ headerLen + strLen ∧ headerLen + strLen ≤ data.length := by
    dsimp only at hpos
    omega
  refine safe_ite (fun hlong => ?_) fun _ => hconsumed
  exact safe_bind (safe_range (by omega) hconsumed.2) fun _ _ => hconsumed

/-- The decoder of one value stays inside its data and consumes its tag byte at
    least. -/
theorem decodeApplicationTag_safe (data : List UInt8) :
    Safe (decodeApplicationTag data) (Consumes data) := by
  cases data with
  | nil => exact malformed_safe
  | cons tagByte rest =>
    have hlen : 1 ≤ (tagByte :: rest).length := by simp
    have hunsigned : ∀ (make : UInt32 → BacnetValue) (len : ℕ),
        Safe (readUnsigned rest len >>= fun n => pure (make n, 1 + len))
          (Consumes (tagByte :: rest)) := by
      intro make len
      refine safe_bind (readUnsigned_safe rest len) fun _ h => ⟨by simp, ?_⟩
      simp only [List.length_cons]
      omega
    unfold decodeApplicationTag
    refine safe_ite (fun _ => skipTag_safe) fun _ => ?_
    split
    · exact ⟨le_rfl, hlen⟩
    · exact ⟨le_rfl, hlen⟩
    · exact hunsigned _ _
    · exact hunsigned _ _
    · exact decodeReal_safe
    · exact decodeDouble_safe
    · exact decodeBytes_safe
    · exact decodeCharacterString_safe hlen
    · exact decodeBytes_safe
    · exact hunsigned _ _
    · exact decodeFour_safe
    · exact decodeFour_safe
    · exact decodeObjectId_safe
    · exact skipTag_safe

end Bounds

section RoundTrip

variable {data trailing : List UInt8} {pos : ℕ}

theorem toUInt8_toUInt32 {n : UInt32} (h : n ≤ 0xFF) : n.toUInt8.toUInt32 = n := by
  apply UInt32.toNat_inj.1
  have h' : n.toNat ≤ 255 := h
  simp
  omega

theorem toUInt16_toUInt32_iff {n : UInt32} : n.toUInt16.toUInt32 = n ↔ n ≤ 0xFFFF := by
  rw [← UInt32.toNat_inj, UInt32.le_iff_toNat_le]
  simp
  omega

/-- The ten low bits of the type above the twenty-two of the instance. -/
theorem objectIdRaw_toNat (objectType : UInt16) (inst : UInt32) :
    (objectIdRaw objectType inst).toNat =
      2 ^ 22 * (objectType.toNat % 2 ^ 10) + inst.toNat % 2 ^ 22 := by
  have htype : (objectType.toNat <<< 22) % 2 ^ 32 = 2 ^ 22 * (objectType.toNat % 2 ^ 10) := by
    rw [Nat.shiftLeft_eq]
    omega
  have hinst : inst.toNat &&& 0x003FFFFF = inst.toNat % 2 ^ 22 :=
    Nat.and_two_pow_sub_one_eq_mod inst.toNat 22
  have hor := Nat.two_pow_add_eq_or_of_lt (Nat.mod_lt inst.toNat (by decide : 0 < 2 ^ 22))
    (objectType.toNat % 2 ^ 10)
  rw [hor, ← htype, ← hinst]
  unfold objectIdRaw
  simp

theorem objectTypeOf_toNat (raw : UInt32) : (objectTypeOf raw).toNat = raw.toNat / 2 ^ 22 := by
  have hraw := raw.toNat_lt
  have hmask : raw.toNat >>> 22 &&& 0x3FF = raw.toNat >>> 22 % 2 ^ 10 :=
    Nat.and_two_pow_sub_one_eq_mod _ 10
  unfold objectTypeOf
  simp only [UInt32.toNat_toUInt16, UInt32.toNat_and, UInt32.toNat_shiftRight]
  change (raw.toNat >>> 22 &&& 0x3FF) % 2 ^ 16 = _
  rw [hmask, Nat.shiftRight_eq_div_pow]
  omega

theorem instanceOf_toNat (raw : UInt32) : (instanceOf raw).toNat = raw.toNat % 2 ^ 22 := by
  unfold instanceOf
  rw [UInt32.toNat_and]
  exact Nat.and_two_pow_sub_one_eq_mod raw.toNat 22

theorem objectTypeOf_raw_iff {objectType : UInt16} {inst : UInt32} :
    objectTypeOf (objectIdRaw objectType inst) = objectType ↔ objectType < 1024 := by
  rw [← UInt16.toNat_inj, objectTypeOf_toNat, objectIdRaw_toNat, UInt16.lt_iff_toNat_lt]
  simp
  omega

theorem instanceOf_raw_iff {objectType : UInt16} {inst : UInt32} :
    instanceOf (objectIdRaw objectType inst) = inst ↔ inst < 0x400000 := by
  rw [← UInt32.toNat_inj, instanceOf_toNat, objectIdRaw_toNat, UInt32.lt_iff_toNat_lt]
  simp

theorem readUnsigned_one (b : UInt8) (trailing : List UInt8) :
    readUnsigned (b :: trailing) 1 = .ok b.toUInt32 := by
  simp [readUnsigned, index]

theorem readUnsigned_two (v : UInt16) (trailing : List UInt8) :
    readUnsigned (beBytes16 v ++ trailing) 2 = .ok v.toUInt32 := by
  have hv := beU16_beBytes16 v
  simp only [readUnsigned, index, beBytes16, List.cons_append, List.nil_append, List.length_cons]
  rw [if_neg (by omega)]
  change Except.ok (beU16 (v >>> 8).toUInt8 v.toUInt8).toUInt32 = _
  rw [hv]

theorem readUnsigned_four (v : UInt32) (trailing : List UInt8) :
    readUnsigned (beBytes32 v ++ trailing) 4 = .ok v := by
  have hv := beU32_beBytes32 v
  simp only [readUnsigned, index, beBytes32, List.cons_append, List.nil_append, List.length_cons]
  rw [if_neg (by omega)]
  exact congrArg Except.ok hv

theorem indexU32_at {v : UInt32} (h : At data pos (beBytes32 v ++ trailing)) :
    indexU32 data pos = .ok v := by
  have h0 : index (E := BacnetError) data (pos + 0) = .ok (v >>> 24).toUInt8 := h.index rfl
  have h1 : index (E := BacnetError) data (pos + 1) = .ok (v >>> 16).toUInt8 := h.index rfl
  have h2 : index (E := BacnetError) data (pos + 2) = .ok (v >>> 8).toUInt8 := h.index rfl
  have h3 : index (E := BacnetError) data (pos + 3) = .ok v.toUInt8 := h.index rfl
  unfold indexU32
  rw [h1, h2, h3, show index (E := BacnetError) data pos = .ok (v >>> 24).toUInt8 from h0]
  exact congrArg Except.ok (beU32_beBytes32 v)

theorem decode_unsigned (n : UInt32) (trailing : List UInt8) :
    decodeApplicationTag (encodeAppUnsigned n ++ trailing) =
      .ok (.unsigned n, (encodeAppUnsigned n).length) := by
  unfold encodeAppUnsigned
  split_ifs with hone htwo
  · change (readUnsigned (n.toUInt8 :: trailing) 1 >>= fun n => pure (BacnetValue.unsigned n, 2)) = _
    rw [readUnsigned_one, toUInt8_toUInt32 hone]
    rfl
  · change (readUnsigned (beBytes16 n.toUInt16 ++ trailing) 2 >>= fun n =>
      pure (BacnetValue.unsigned n, 3)) = _
    rw [readUnsigned_two, toUInt16_toUInt32_iff.2 htwo]
    rfl
  · change (readUnsigned (beBytes32 n ++ trailing) 4 >>= fun n => pure (BacnetValue.unsigned n, 5)) = _
    rw [readUnsigned_four]
    rfl

/-- What comes back of an enumerated value: its low two bytes. -/
theorem decode_enumerated (n : UInt32) (trailing : List UInt8) :
    decodeApplicationTag (encodeAppEnumerated n ++ trailing) =
      .ok (.enumerated n.toUInt16.toUInt32, (encodeAppEnumerated n).length) := by
  unfold encodeAppEnumerated
  split_ifs with hone
  · have htwo : n ≤ 0xFFFF := by
      rw [UInt32.le_iff_toNat_le] at hone ⊢
      simp at hone ⊢
      omega
    change (readUnsigned (n.toUInt8 :: trailing) 1 >>= fun n => pure (BacnetValue.enumerated n, 2)) = _
    rw [readUnsigned_one, toUInt8_toUInt32 hone, toUInt16_toUInt32_iff.2 htwo]
    rfl
  · change (readUnsigned (beBytes16 n.toUInt16 ++ trailing) 2 >>= fun n =>
      pure (BacnetValue.enumerated n, 3)) = _
    rw [readUnsigned_two]
    rfl

theorem decode_real (bits : UInt32) (trailing : List UInt8) :
    decodeApplicationTag (0x44 :: beBytes32 bits ++ trailing) = .ok (.real bits, 5) := by
  have hat : At (0x44 :: beBytes32 bits ++ trailing) 1 (beBytes32 bits ++ trailing) :=
    (at_zero _).next
  have hlen : ¬(0x44 :: beBytes32 bits ++ trailing).length < 5 := by
    simp [beBytes32]
  change decodeReal (0x44 :: beBytes32 bits ++ trailing) 4 = _
  unfold decodeReal
  rw [if_neg (by decide), if_neg hlen, indexU32_at hat]
  rfl

theorem decode_objectId (raw : UInt32) (trailing : List UInt8) :
    decodeApplicationTag (0xC4 :: beBytes32 raw ++ trailing) =
      .ok (.objectId (objectTypeOf raw) (instanceOf raw), 5) := by
  have hat : At (0xC4 :: beBytes32 raw ++ trailing) 1 (beBytes32 raw ++ trailing) :=
    (at_zero _).next
  have hlen : ¬(0xC4 :: beBytes32 raw ++ trailing).length < 5 := by
    simp [beBytes32]
  change decodeObjectId (0xC4 :: beBytes32 raw ++ trailing) 4 = _
  unfold decodeObjectId
  rw [if_neg (by decide), if_neg hlen, indexU32_at hat]
  rfl

theorem decodeDouble_eight (t a b c d e f g h : UInt8) (trailing : List UInt8) :
    decodeDouble (t :: a :: b :: c :: d :: e :: f :: g :: h :: trailing) =
      .ok (.double (beU64 (beU32 a b c d) (beU32 e f g h)), 9) := by
  unfold decodeDouble
  rw [if_neg (by simp)]
  rfl

/-- A double is written in nine bytes after its tag byte and read from eight. -/
theorem decode_double (bits : UInt64) (trailing : List UInt8) :
    ∃ bits', decodeApplicationTag (0x55 :: 8 :: beBytes64 bits ++ trailing) =
      .ok (.double bits', 9) :=
  ⟨_, decodeDouble_eight 0x55 8 _ _ _ _ _ _ _ (_ :: trailing)⟩

/-- A character string whose length bytes are read back right. -/
theorem decodeCharacterString_read {lvt strLen headerLen : ℕ} {bytes : List UInt8}
    (hlength : characterStringLength data lvt = .ok (strLen, headerLen))
    (hat : At data headerLen (0x00 :: bytes ++ trailing)) (hlen : strLen = bytes.length + 1) :
    decodeCharacterString data lvt =
      .ok (.characterString (fromUtf8Lossy bytes), headerLen + strLen) := by
  have hdata := hat.length
  have hnext : At data (headerLen + 1) (bytes ++ trailing) := At.next hat
  unfold decodeCharacterString
  rw [hlength]
  change (if strLen = 0 then _ else _) = _
  rw [if_neg (by omega), if_neg (by simp at hdata; omega)]
  split_ifs with hlong
  · rw [hnext.range (by omega)]
    rfl
  · have hnil : bytes = [] := List.length_eq_zero_iff.1 (by omega)
    rw [hnil]
    rfl

theorem decodeCharacterString_consumed {lvt strLen headerLen consumed : ℕ} {v : BacnetValue}
    (hlength : characterStringLength data lvt = .ok (strLen, headerLen))
    (h : decodeCharacterString data lvt = .ok (v, consumed)) : consumed = headerLen + strLen := by
  unfold decodeCharacterString at h
  rw [hlength] at h
  change (if strLen = 0 then _ else _) = _ at h
  split_ifs at h with hzero hshort hlong
  · cases h
    omega
  · cases h
  · rw [range, if_pos ⟨by omega, by omega⟩] at h
    cases h
    rfl
  · cases h
    rfl

theorem decodeApplicationTag_short {len : ℕ} (hpos : 1 ≤ len) (h : len ≤ 4) (rest : List UInt8) :
    decodeApplicationTag ((0x70 ||| UInt8.ofNat len) :: rest) =
      decodeCharacterString ((0x70 ||| UInt8.ofNat len) :: rest) len := by
  interval_cases len <;> rfl

theorem characterStringLength_one (tagByte b : UInt8) (rest : List UInt8) :
    characterStringLength (tagByte :: b :: rest) 5 = .ok (b.toNat, 2) := by
  simp [characterStringLength, index]

theorem characterStringLength_two (tagByte : UInt8) (v : UInt16) (rest : List UInt8) :
    characterStringLength (tagByte :: (beBytes16 v ++ rest)) 6 = .ok (v.toNat, 3) := by
  unfold characterStringLength
  rw [if_neg (by decide), if_neg (by decide), if_pos rfl, if_neg (by simp [beBytes16])]
  change Except.ok ((beU16 (v >>> 8).toUInt8 v.toUInt8).toNat, 3) = _
  rw [beU16_beBytes16]

theorem decode_characterString (s : String) (trailing : List UInt8)
    (h : (asBytes s).length + 1 ≤ 0xFFFF) :
    decodeApplicationTag (encodeBacnetValue (.characterString s) ++ trailing) =
      .ok (.characterString s, (encodeBacnetValue (.characterString s)).length) := by
  unfold encodeBacnetValue characterStringHeader
  generalize hbytes : asBytes s = bytes at h
  have hs : fromUtf8Lossy bytes = s := by
    rw [← hbytes]
    exact fromUtf8Lossy_asBytes s
  split_ifs with hshort hmid
  · rw [List.append_assoc]
    change decodeApplicationTag ((0x70 ||| UInt8.ofNat (bytes.length + 1)) ::
      (0x00 :: bytes ++ trailing)) = _
    rw [decodeApplicationTag_short (by omega) hshort,
      decodeCharacterString_read (if_pos hshort) (at_zero _).next rfl, hs]
    simp
    omega
  · have hlen : (UInt8.ofNat (bytes.length + 1)).toNat = bytes.length + 1 := by
      rw [UInt8.toNat_ofNat']
      omega
    change decodeCharacterString (0x75 :: UInt8.ofNat (bytes.length + 1) ::
      (0x00 :: bytes ++ trailing)) 5 = _
    rw [decodeCharacterString_read (characterStringLength_one _ _ _) (at_zero _).next.next hlen,
      hlen, hs]
    simp
    omega
  · have hlen : (UInt16.ofNat (bytes.length + 1)).toNat = bytes.length + 1 := by
      rw [UInt16.toNat_ofNat']
      omega
    change decodeCharacterString (0x76 :: (beBytes16 (UInt16.ofNat (bytes.length + 1)) ++
      (0x00 :: bytes ++ trailing))) 6 = _
    have hat : At (0x76 :: (beBytes16 (UInt16.ofNat (bytes.length + 1)) ++
        (0x00 :: bytes ++ trailing))) 3 (0x00 :: bytes ++ trailing) := (at_zero _).next.skip
    rw [decodeCharacterString_read (characterStringLength_two _ _ _) hat hlen, hlen, hs]
    simp [beBytes16]
    omega

/-- Of a longer string the length is cut to sixteen bits, so the decoder stops
    early. -/
theorem decode_characterString_long (s : String) (trailing : List UInt8)
    (h : 0xFFFF < (asBytes s).length + 1) :
    decodeApplicationTag (encodeBacnetValue (.characterString s) ++ trailing) ≠
      .ok (.characterString s, (encodeBacnetValue (.characterString s)).length) := by
  unfold encodeBacnetValue characterStringHeader
  generalize asBytes s = bytes at h
  rw [if_neg (by omega), if_neg (by omega)]
  intro hdecode
  have hlen : (UInt16.ofNat (bytes.length + 1)).toNat < bytes.length + 1 := by
    have := (UInt16.ofNat (bytes.length + 1)).toNat_lt
    omega
  change decodeCharacterString (0x76 :: (beBytes16 (UInt16.ofNat (bytes.length + 1)) ++
    (0x00 :: bytes ++ trailing))) 6 = _ at hdecode
  have hconsumed := decodeCharacterString_consumed (characterStringLength_two _ _ _) hdecode
  simp [beBytes16] at hconsumed
  omega

/-- A single value: neither a sequence nor the mark of a skipped tag. -/
def Scalar : BacnetValue → Prop
  | .unknown | .array _ => False
  | _ => True

/-- The values the encoder writes so that they come back. -/
def Encodable : BacnetValue → Prop
  | .null | .boolean _ | .unsigned _ | .real _ => True
  | .enumerated n => n ≤ 0xFFFF
  | .objectId objectType inst => objectType < 1024 ∧ inst < 0x400000
  | .characterString s => (asBytes s).length ≤ 0xFFFE
  | _ => False

/-- A value for which nothing is written does not come back, whatever follows. -/
theorem not_decoded_from_nothing (v : BacnetValue) (trailing : List UInt8) :
    decodeApplicationTag ([] ++ trailing) ≠ .ok (v, 0) := by
  intro h
  have hsafe := decodeApplicationTag_safe trailing
  rw [List.nil_append] at h
  rw [h] at hsafe
  exact absurd hsafe.1 (by simp)

theorem decode_encodable {v : BacnetValue} (hv : Encodable v) (trailing : List UInt8) :
    decodeApplicationTag (encodeBacnetValue v ++ trailing) =
      .ok (v, (encodeBacnetValue v).length) := by
  cases v with
  | null => rfl
  | boolean b => cases b <;> rfl
  | unsigned n =>
    unfold encodeBacnetValue
    exact decode_unsigned n trailing
  | real bits =>
    unfold encodeBacnetValue
    exact decode_real bits trailing
  | enumerated n =>
    unfold encodeBacnetValue
    rw [decode_enumerated, toUInt16_toUInt32_iff.2 hv]
  | characterString s =>
    have hlen : (asBytes s).length ≤ 0xFFFE := hv
    exact decode_characterString s trailing (by omega)
  | objectId objectType inst =>
    unfold encodeBacnetValue
    rw [decode_objectId, objectTypeOf_raw_iff.2 hv.1, instanceOf_raw_iff.2 hv.2]
    rfl
  | _ => exact hv.elim

/-- A value without such a form does not come back. -/
theorem not_decoded {v : BacnetValue} (hscalar : Scalar v) (hv : ¬Encodable v)
    (trailing : List UInt8) :
    decodeApplicationTag (encodeBacnetValue v ++ trailing) ≠
      .ok (v, (encodeBacnetValue v).length) := by
  cases v with
  | null => exact absurd trivial hv
  | boolean b => exact absurd trivial hv
  | unsigned n => exact absurd trivial hv
  | real bits => exact absurd trivial hv
  | double bits =>
    unfold encodeBacnetValue
    obtain ⟨bits', hbits⟩ := decode_double bits trailing
    rw [hbits]
    intro h
    cases h
  | enumerated n =>
    unfold encodeBacnetValue
    rw [decode_enumerated]
    intro h
    apply hv
    change n ≤ 0xFFFF
    rw [← toUInt16_toUInt32_iff]
    simpa using h
  | characterString s =>
    have hlen : ¬(asBytes s).length ≤ 0xFFFE := hv
    exact decode_characterString_long s trailing (by omega)
  | objectId objectType inst =>
    unfold encodeBacnetValue
    rw [decode_objectId]
    intro h
    apply hv
    change objectType < 1024 ∧ inst < 0x400000
    rw [← @objectTypeOf_raw_iff objectType inst, ← @instanceOf_raw_iff objectType inst]
    simpa [beBytes32] using h
  | signed n => exact not_decoded_from_nothing _ trailing
  | octetString bytes => exact not_decoded_from_nothing _ trailing
  | bitString bytes => exact not_decoded_from_nothing _ trailing
  | date a b c d => exact not_decoded_from_nothing _ trailing
  | time a b c d => exact not_decoded_from_nothing _ trailing
  | unknown => exact hscalar.elim
  | array items => exact hscalar.elim

/-- A scalar value comes back from its bytes, whatever follows them, exactly if
    the encoder has a form for it. -/
theorem value_round_trip_iff (v : BacnetValue) (hv : Scalar v) (trailing : List UInt8) :
    decodeApplicationTag (encodeBacnetValue v ++ trailing) =
      .ok (v, (encodeBacnetValue v).length) ↔ Encodable v := by
  constructor
  · intro h
    by_contra hnot
    exact not_decoded hv hnot trailing h
  · intro h
    exact decode_encodable h trailing

theorem value_round_trip_name :
    decodeApplicationTag (encodeBacnetValue (.characterString "AHU-1") ++ [0x3F]) =
      .ok (.characterString "AHU-1", (encodeBacnetValue (.characterString "AHU-1")).length) :=
  (value_round_trip_iff (.characterString "AHU-1") trivial [0x3F]).2
    (by decide : (asBytes "AHU-1").length ≤ 0xFFFE)

/-- The double 1.0 is read back as another double and a byte short, the enumerated
    value 65536 as 0, and a signed integer as the value that follows it. -/
theorem values_misread :
    (∃ bits, decodeApplicationTag (encodeBacnetValue (.double 0x3FF0000000000000)) =
        .ok (.double bits, 9) ∧ bits ≠ 0x3FF0000000000000) ∧
      decodeApplicationTag (encodeBacnetValue (.enumerated 65536)) = .ok (.enumerated 0, 3) ∧
      decodeApplicationTag (encodeBacnetValue (.signed (-5)) ++ [0x21, 0x07]) =
        .ok (.unsigned 7, 2) := by
  refine ⟨⟨0x083FF00000000000, rfl, by decide⟩, rfl, rfl⟩

end RoundTrip

end Sandstar.Bacnet
