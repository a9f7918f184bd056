import Sandstar.SoxSlots

set_option autoImplicit false

/-!
# Slot values on the wire

The two encoders of a slot value (`encode_slot_value` for reads,
`encode_slot_value_raw` for change events) against the decoder of `SoxSlots`.
Values carry no tag, so a message is read by the type ids of its schema; strings
have no type of their own and travel as buffers.
-/
namespace Sandstar.SoxSlots
open SoxProtocol Utf8

/-- The type id of a value. A string takes the id after `double`, which is the buffer's. -/
def typeId : SlotValue → UInt8
  | .bool _ => SoxValueType.bool.code
  | .int _ => SoxValueType.int.code
  | .long _ => SoxValueType.long.code
  | .float _ => SoxValueType.float.code
  | .double _ => SoxValueType.double.code
  | .str _ => SoxValueType.double.code + 1
  | .buf _ => SoxValueType.buf.code
  | .null => SoxValueType.void.code

def encodeSlotValue (resp : SoxResponse) : SlotValue → SoxResponse
  | .bool v => resp.writeU8 (if v then 1 else 0)
  | .int v => resp.writeU32 v.toUInt32
  | .long v => resp.writeU64 v.toUInt64
  | .float bits => resp.writeU32 bits
  | .double bits => resp.writeU64 bits
  | .str s =>
    let bytes := asBytes s
    ((resp.writeU16 (UInt16.ofNat (bytes.length + 1))).writeBytes bytes).writeU8 0
  | .buf b => (resp.writeU16 (UInt16.ofNat b.length)).writeBytes b
  | .null => resp

def encodeSlotValueRaw (buf : List UInt8) : SlotValue → List UInt8
  | .bool v => buf ++ [if v then 1 else 0]
  | .int v => buf ++ beBytes32 v.toUInt32
  | .long v => buf ++ beBytes64 v.toUInt64
  | .float bits => buf ++ beBytes32 bits
  | .double bits => buf ++ beBytes64 bits
  | .str s =>
    let bytes := asBytes s
    buf ++ beBytes16 (UInt16.ofNat (bytes.length + 1)) ++ bytes ++ [0]
  | .buf b => buf ++ beBytes16 (UInt16.ofNat b.length) ++ b
  | .null => buf

def wire (v : SlotValue) : List UInt8 := encodeSlotValueRaw [] v

def appended (before after : SoxResponse) : List UInt8 := after.payload.drop before.payload.length

/-- Reading the values of a message by their type ids, one after the other. -/
def decodeSlots : SoxReader → List UInt8 → List (Option SlotValue) × SoxReader
  | r, [] => ([], r)
  | r, id :: ids =>
    let (v, r) := decodeSlotValue r id
    let (vs, r) := decodeSlots r ids
    (v :: vs, r)

section RoundTrip

/-- The lengths a sixteen-bit count can hold. -/
def Fits : SlotValue → Prop
  | .str s => (asBytes s).length ≤ 65534
  | .buf b => b.length ≤ 65535
  | _ => True

instance : (v : SlotValue) → Decidable (Fits v)
  | .str s => inferInstanceAs (Decidable ((asBytes s).length ≤ 65534))
  | .buf b => inferInstanceAs (Decidable (b.length ≤ 65535))
  | .bool _ | .int _ | .long _ | .float _ | .double _ | .null => inferInstanceAs (Decidable True)

/-- What the reader makes of a value: a string comes back as the buffer of its
    bytes and terminator. -/
def readBack : SlotValue → SlotValue
  | .str s => .buf (asBytes s ++ [0])
  | v => v

theorem encodeSlotValueRaw_eq (buf : List UInt8) (v : SlotValue) :
    encodeSlotValueRaw buf v = buf ++ wire v := by
  cases v <;> simp [wire, encodeSlotValueRaw]

theorem encodeSlotValue_payload (resp : SoxResponse) (v : SlotValue) :
    (encodeSlotValue resp v).payload = encodeSlotValueRaw resp.payload v := by
  cases v <;> rfl

theorem decode_counted (b rest : List UInt8) (h : b.length ≤ 65535) :
    decodeSlotValue ⟨beBytes16 (UInt16.ofNat b.length) ++ b ++ rest⟩ SoxValueType.buf.code =
      (some (.buf b), ⟨rest⟩) := by
  have hlen : (UInt16.ofNat b.length).toNat = b.length :=
    UInt16.toNat_ofNat_of_lt' (by change b.length < 65536; omega)
  unfold decodeSlotValue
  rw [List.append_assoc, readU16_beBytes16]
  simp only [hlen, SoxReader.readBytes, List.length_append, Nat.le_add_right, if_true,
    List.take_left', List.drop_left']
  rfl

theorem decodeSlotValue_wire (v : SlotValue) (hv : Fits v) (rest : List UInt8) :
    decodeSlotValue ⟨wire v ++ rest⟩ (typeId v) = (some (readBack v), ⟨rest⟩) := by
  cases v with
  | bool v =>
    cases v
    · rfl
    · rfl
  | int v =>
    change ((SoxReader.readI32 _).1.map SlotValue.int, (SoxReader.readI32 _).2) = _
    change (((SoxReader.readU32 ⟨beBytes32 v.toUInt32 ++ rest⟩).1.map UInt32.toInt32).map
      SlotValue.int, (SoxReader.readU32 ⟨beBytes32 v.toUInt32 ++ rest⟩).2) = _
    rw [readU32_beBytes32]
    rfl
  | long v =>
    change ((SoxReader.readU64 ⟨beBytes64 v.toUInt64 ++ rest⟩).1.map
      (fun u => SlotValue.long u.toInt64), (SoxReader.readU64 ⟨beBytes64 v.toUInt64 ++ rest⟩).2) = _
    rw [readU64_beBytes64]
    rfl
  | float bits =>
    change ((SoxReader.readU32 ⟨beBytes32 bits ++ rest⟩).1.map SlotValue.float,
      (SoxReader.readU32 ⟨beBytes32 bits ++ rest⟩).2) = _
    rw [readU32_beBytes32]
    rfl
  | double bits =>
    change ((SoxReader.readU64 ⟨beBytes64 bits ++ rest⟩).1.map SlotValue.double,
      (SoxReader.readU64 ⟨beBytes64 bits ++ rest⟩).2) = _
    rw [readU64_beBytes64]
    rfl
  | str s =>
    have hlen : (asBytes s ++ [0]).length = (asBytes s).length + 1 := by simp
    have hs : (asBytes s).length ≤ 65534 := hv
    have hwire : wire (.str s) =
        beBytes16 (UInt16.ofNat (asBytes s ++ [0]).length) ++ (asBytes s ++ [0]) := by
      rw [hlen]
      simp [wire, encodeSlotValueRaw]
    rw [hwire]
    exact decode_counted (asBytes s ++ [0]) rest (by omega)
  | buf b => exact decode_counted b rest hv
  | null => rfl

theorem appended_encodeSlotValue (resp : SoxResponse) (v : SlotValue) :
    appended resp (encodeSlotValue resp v) = wire v := by
  unfold appended
  rw [encodeSlotValue_payload, encodeSlotValueRaw_eq, List.drop_left]

theorem encodeSlots_payload (vs : List SlotValue) (resp : SoxResponse) :
    (vs.foldl encodeSlotValue resp).payload = resp.payload ++ vs.flatMap wire := by
  induction vs generalizing resp with
  | nil => simp
  | cons v vs ih =>
    rw [List.foldl_cons, ih, encodeSlotValue_payload, encodeSlotValueRaw_eq, List.flatMap_cons,
      List.append_assoc]

theorem decodeSlots_wire (vs : List SlotValue) (hvs : ∀ v ∈ vs, Fits v) (rest : List UInt8) :
    decodeSlots ⟨vs.flatMap wire ++ rest⟩ (vs.map typeId) =
      (vs.map (fun v => some (readBack v)), ⟨rest⟩) := by
  induction vs with
  | nil => rfl
  | cons v vs ih =>
    have hv : Fits v := hvs v List.mem_cons_self
    have htail := ih fun w hw => hvs w (List.mem_cons_of_mem _ hw)
    rw [List.flatMap_cons, List.append_assoc, List.map_cons]
    unfold decodeSlots
    rw [decodeSlotValue_wire v hv]
    dsimp only
    rw [htail]
    rfl

/-- The slot value codec. A value that is no string is read back as itself, a
    string as the buffer of its bytes and terminator, each taking exactly its own
    bytes; so the slots of a message are read back one by one; and change events
    carry the bytes that reads carry. -/
theorem slotValue_codec (resp : SoxResponse) :
    (∀ v, Fits v → (∀ s, v ≠ .str s) → ∀ rest,
      decodeSlotValue ⟨appended resp (encodeSlotValue resp v) ++ rest⟩ (typeId v) =
        (some v, ⟨rest⟩)) ∧
    (∀ s, Fits (.str s) → ∀ rest,
      decodeSlotValue ⟨appended resp (encodeSlotValue resp (.str s)) ++ rest⟩ (typeId (.str s)) =
        (some (.buf (asBytes s ++ [0])), ⟨rest⟩)) ∧
    (∀ vs : List SlotValue, (∀ v ∈ vs, Fits v) → ∀ rest,
      decodeSlots ⟨appended resp (vs.foldl encodeSlotValue resp) ++ rest⟩ (vs.map typeId) =
        (vs.map (fun v => some (readBack v)), ⟨rest⟩)) ∧
    ∀ buf v, encodeSlotValueRaw buf v = buf ++ appended resp (encodeSlotValue resp v) := by
  refine ⟨fun v hv hstr rest => ?_, fun s hs rest => ?_, fun vs hvs rest => ?_, fun buf v => ?_⟩
  · have hback : readBack v = v := by
      cases v with
      | str s => exact absurd rfl (hstr s)
      | _ => rfl
    rw [appended_encodeSlotValue, decodeSlotValue_wire v hv, hback]
  · rw [appended_encodeSlotValue, decodeSlotValue_wire (.str s) hs]
    rfl
  · have hbytes : appended resp (vs.foldl encodeSlotValue resp) = vs.flatMap wire := by
      unfold appended
      rw [encodeSlots_payload, List.drop_left]
    rw [hbytes]
    exact decodeSlots_wire vs hvs rest
  · rw [appended_encodeSlotValue, encodeSlotValueRaw_eq]

/-- A message of an integer, a string and a boolean, read back by its schema. -/
theorem slotValue_codec_message :
    decodeSlots ⟨appended (SoxResponse.success .readComp 1)
        ([SlotValue.int 7, .str "hi", .bool true].foldl encodeSlotValue
          (SoxResponse.success .readComp 1)) ++ [9]⟩
        ([SlotValue.int 7, .str "hi", .bool true].map typeId) =
      ([some (.int 7), some (.buf [104, 105, 0]), some (.bool true)], ⟨[9]⟩) := by
  have h := (slotValue_codec (SoxResponse.success .readComp 1)).2.2.1
    [SlotValue.int 7, .str "hi", .bool true] (by decide) [9]
  rw [h]
  decide

/-- No string comes back as itself: here `"hi"` is read as the buffer of three bytes. -/
theorem str_reads_back_as_buf :
    ¬ ∀ (v : SlotValue) (rest : List UInt8), Fits v → (∀ s, v = .str s → (0 : UInt8) ∉ asBytes s) →
      decodeSlotValue ⟨appended (SoxResponse.success .readComp 1)
          (encodeSlotValue (SoxResponse.success .readComp 1) v) ++ rest⟩ (typeId v) =
        (some v, ⟨rest⟩) := by
  intro h
  have hhi := h (.str "hi") [] (by decide) (by
    intro s hs
    cases hs
    decide)
  revert hhi
  decide

end RoundTrip
end Sandstar.SoxSlots
