import Sandstar.BacnetRoundTrip

set_option autoImplicit false

namespace Sandstar.Bacnet

open Decoding SoxProtocol Utf8

inductive Message
  | whoIs (low high : UInt32)
  | readProperty (invokeId : UInt8) (objectType : UInt16) (inst propertyId : UInt32)
      (arrayIndex : Option UInt32)
  | writeProperty (invokeId : UInt8) (objectType : UInt16) (inst propertyId : UInt32)
      (value : BacnetValue) (arrayIndex : Option UInt32) (priority : Option UInt8)
  | readPropertyMultiple (invokeId : UInt8) (specs : List RpmRequestSpec)
  | readPropertyAck (invokeId : UInt8) (objectType : UInt16) (inst propertyId : UInt32)
      (value : BacnetValue)
  | readPropertyAckMulti (invokeId : UInt8) (objectType : UInt16) (inst propertyId : UInt32)
      (values : List BacnetValue)
  | readPropertyMultipleAck (invokeId : UInt8) (results : List RpmResult)
  | simpleAck (invokeId serviceChoice : UInt8)
  | error (invokeId serviceChoice : UInt8) (errorClass errorCode : UInt32)

namespace Message

def encode : Message → List UInt8
  | whoIs low high => encodeWhoIs (some low) (some high)
  | readProperty invokeId objectType inst propertyId arrayIndex =>
    encodeReadProperty invokeId objectType inst propertyId arrayIndex
  | writeProperty invokeId objectType inst propertyId value arrayIndex priority =>
    encodeWriteProperty invokeId objectType inst propertyId value arrayIndex priority
  | readPropertyMultiple invokeId specs => encodeReadPropertyMultiple invokeId specs
  | readPropertyAck invokeId objectType inst propertyId value =>
    encodeReadPropertyAck invokeId objectType inst propertyId value
  | readPropertyAckMulti invokeId objectType inst propertyId values =>
    encodeReadPropertyAckMulti invokeId objectType inst propertyId values
  | readPropertyMultipleAck invokeId results => encodeReadPropertyMultipleAck invokeId results
  | simpleAck invokeId serviceChoice => encodeSimpleAck invokeId serviceChoice
  | error invokeId serviceChoice errorClass errorCode =>
    encodeErrorPdu invokeId serviceChoice errorClass errorCode

/-- The same message as an APDU: entries grouped by object, and a list of one
    value as that value. -/
def apdu : Message → Apdu
  | whoIs low high => .whoIs (some low) (some high)
  | readProperty invokeId objectType inst propertyId arrayIndex =>
    .readPropertyRequest invokeId objectType inst propertyId arrayIndex
  | writeProperty invokeId objectType inst propertyId value arrayIndex priority =>
    .writePropertyRequest invokeId objectType inst propertyId arrayIndex value priority
  | readPropertyMultiple invokeId specs =>
    .readPropertyMultipleRequest invokeId (grouped RpmRequestSpec.object specs)
  | readPropertyAck invokeId objectType inst propertyId value =>
    .readPropertyAck invokeId objectType inst propertyId value
  | readPropertyAckMulti invokeId objectType inst propertyId values =>
    .readPropertyAck invokeId objectType inst propertyId (collectValues values)
  | readPropertyMultipleAck invokeId results =>
    .readPropertyMultipleAck invokeId (grouped RpmResult.object results)
  | simpleAck invokeId serviceChoice => .simpleAck invokeId serviceChoice
  | error invokeId serviceChoice errorClass errorCode =>
    .error invokeId serviceChoice errorClass errorCode

end Message

def Listed : BacnetValue → Prop
  | .null | .boolean _ | .unsigned _ | .real _ | .characterString _ => True
  | .enumerated n => n ≤ 0xFFFF
  | .objectId objectType inst => Fits (objectType, inst)
  | _ => False

/-- Object identifiers in range and listed values only. -/
def Message.InScope : Message → Prop
  | whoIs .. | simpleAck .. | error .. => True
  | readProperty _ objectType inst _ _ => Fits (objectType, inst)
  | writeProperty _ objectType inst _ value _ _ => Fits (objectType, inst) ∧ Listed value
  | readPropertyMultiple _ specs => ∀ s ∈ specs, Fits s.object
  | readPropertyAck _ objectType inst _ value => Fits (objectType, inst) ∧ Listed value
  | readPropertyAckMulti _ objectType inst _ values =>
    Fits (objectType, inst) ∧ ∀ v ∈ values, Listed v
  | readPropertyMultipleAck _ results =>
    ∀ r ∈ results, Fits r.object ∧ ∀ v, r.value = .ok v → Listed v

section Packets

theorem packetLength_read {n : ℕ} (h : n < 65536) :
    (beU16 (UInt8.ofNat (n >>> 8)) (UInt8.ofNat (n &&& 0xFF))).toNat = n := by
  have hhi : n >>> 8 = n / 256 := Nat.shiftRight_eq_div_pow n 8
  have hlo : n &&& 0xFF = n % 256 := Nat.and_two_pow_sub_one_eq_mod n 8
  have hsum : n / 256 * 2 ^ 8 ||| n % 256 = n := by
    have hor := Nat.two_pow_add_eq_or_of_lt (Nat.mod_lt n (by decide : 0 < 2 ^ 8)) (n / 256)
    rw [Nat.mul_comm, ← hor]
    omega
  have hhigh : (n / 256 % 2 ^ 8) * 2 ^ 8 % 2 ^ 16 = n / 256 * 2 ^ 8 := by omega
  have hlow : n % 256 % 2 ^ 8 = n % 256 := by omega
  unfold beU16
  rw [hhi, hlo]
  simp only [UInt16.toNat_or, UInt16.toNat_shiftLeft, UInt8.toNat_toUInt16, UInt8.toNat_ofNat']
  rw [Nat.shiftLeft_eq]
  change (n / 256 % 2 ^ 8) * 2 ^ 8 % 2 ^ 16 ||| n % 256 % 2 ^ 8 = n
  rw [hhigh, hlow, hsum]

/-- A packet that is not too long for its length field is unwrapped to its APDU. -/
theorem decodePacket_build (bvllType : UInt8) (apdu : List UInt8) (h : 6 + apdu.length < 65536) :
    decodePacket (buildPacket bvllType apdu) =
      (decodeApdu apdu >>= fun a => .ok (⟨npduVersion, npduControlNormal⟩, a)) := by
  have hlen : (buildPacket bvllType apdu).length = 6 + apdu.length := by
    simp [buildPacket]
    omega
  have hlength := packetLength_read h
  have hat : At (buildPacket bvllType apdu) 4 ([npduVersion, npduControlNormal] ++ apdu ++ []) := by
    rw [List.append_nil]
    exact (at_zero (buildPacket bvllType apdu)).next.next.next.next
  have hheader : decodeBvllHeader (buildPacket bvllType apdu) =
      .ok ⟨bvllType, beU16 (UInt8.ofNat ((6 + apdu.length) >>> 8))
        (UInt8.ofNat ((6 + apdu.length) &&& 0xFF))⟩ := by
    have h0 : index (E := BacnetError) (buildPacket bvllType apdu) 0 = .ok bvllBacnetIp := rfl
    have h1 : index (E := BacnetError) (buildPacket bvllType apdu) 1 = .ok bvllType := rfl
    have h2 : index (E := BacnetError) (buildPacket bvllType apdu) 2 =
      .ok (UInt8.ofNat ((6 + apdu.length) >>> 8)) := rfl
    have h3 : index (E := BacnetError) (buildPacket bvllType apdu) 3 =
      .ok (UInt8.ofNat ((6 + apdu.length) &&& 0xFF)) := rfl
    unfold decodeBvllHeader
    rw [if_neg (by omega), h0, ok_bind, if_neg (by simp), h2, ok_bind, h3, ok_bind]
    dsimp only
    rw [hlength, if_neg (by omega), h1, ok_bind]
  unfold decodePacket
  rw [hheader, ok_bind]
  dsimp only
  rw [hlength, hat.range (by simp; omega), ok_bind]
  rfl

/-! The header of an APDU selects the decoder of its service. -/

theorem decodeApdu_whoIs (payload : List UInt8) :
    decodeApdu ([0x10, svcUnconfirmedWhois] ++ payload) = decodeWhoIs payload := rfl

theorem decodeApdu_readProperty (invokeId : UInt8) (payload : List UInt8) :
    decodeApdu ([0x00, 0x05, invokeId, svcConfirmedReadProperty] ++ payload) =
      decodeReadPropertyRequest invokeId payload := rfl

theorem decodeApdu_writeProperty (invokeId : UInt8) (payload : List UInt8) :
    decodeApdu ([0x00, 0x05, invokeId, svcConfirmedWriteProperty] ++ payload) =
      decodeWritePropertyRequest invokeId payload := rfl

theorem decodeApdu_readPropertyMultiple (invokeId : UInt8) (payload : List UInt8) :
    decodeApdu ([0x00, 0x05, invokeId, svcConfirmedReadPropertyMultiple] ++ payload) =
      decodeReadPropertyMultipleRequest invokeId payload := rfl

theorem decodeApdu_readPropertyAck (invokeId : UInt8) (payload : List UInt8) :
    decodeApdu ([0x30, invokeId, svcConfirmedReadProperty] ++ payload) =
      decodeReadPropertyAck invokeId payload := rfl

theorem decodeApdu_readPropertyMultipleAck (invokeId : UInt8) (payload : List UInt8) :
    decodeApdu ([0x30, invokeId, svcConfirmedReadPropertyMultiple] ++ payload) =
      decodeReadPropertyMultipleAck invokeId payload := rfl

theorem decodeApdu_error (invokeId serviceChoice : UInt8) (payload : List UInt8) :
    decodeApdu ([0x50, invokeId, serviceChoice] ++ payload) =
      decodeErrorPdu ([0x50, invokeId, serviceChoice] ++ payload) := rfl

end Packets

section Services

variable {rest : List UInt8} {invokeId : UInt8} {object : UInt16 × UInt32} {propertyId : UInt32}

theorem encodable_of_listed {v : BacnetValue} (hv : Listed v)
    (hsize : (encodeBacnetValue v).length < 65536) : Encodable v := by
  cases v with
  | characterString s =>
    unfold encodeBacnetValue at hsize
    simp only [List.length_append, List.length_cons] at hsize
    change (asBytes s).length ≤ 0xFFFE
    omega
  | _ => exact hv

theorem at_property (object : UInt16 × UInt32) (rest : List UInt8) :
    At (encodeObject object.1 object.2 ++ rest) 5 rest := (at_zero _).skip

theorem arrayIndex_read {payload : List UInt8} {pos : ℕ} {arrayIndex : Option UInt32}
    (hrest : ∀ b ∈ rest.head?, (isContext b && tagNumber b = 2) = false)
    (h : At payload pos (encodeContextOption 2 arrayIndex ++ rest)) :
    readOptional payload pos 2 (fun tb => isContext tb && tagNumber tb = 2) =
      .ok (arrayIndex, pos + (encodeContextOption 2 arrayIndex).length) :=
  readOptional_read (.inr (.inr (.inl rfl)))
    (fun len hlen => by rcases hlen with rfl | rfl | rfl <;> decide) hrest h

theorem decodeReadPropertyRequest_read (hfits : Fits object) (arrayIndex : Option UInt32) :
    decodeReadPropertyRequest invokeId (encodeObject object.1 object.2 ++
        (encodeContextUnsigned 1 propertyId ++ encodeContextOption 2 arrayIndex)) =
      .ok (.readPropertyRequest invokeId object.1 object.2 propertyId arrayIndex) := by
  have hat := at_property object (encodeContextUnsigned 1 propertyId ++
    (encodeContextOption 2 arrayIndex ++ []))
  have hindex := arrayIndex_read (by simp) hat.skip
  rw [List.append_nil] at hat hindex
  unfold decodeReadPropertyRequest
  rw [payloadObject_read hfits, ok_bind, readContextAt_read (.inr (.inl rfl)) hat, ok_bind]
  dsimp only
  rw [hindex, ok_bind]

theorem decodeWritePropertyRequest_read (hfits : Fits object) {value : BacnetValue}
    (hvalue : Encodable value) (arrayIndex : Option UInt32) (priority : Option UInt8) :
    decodeWritePropertyRequest invokeId (encodeObject object.1 object.2 ++
        (encodeContextUnsigned 1 propertyId ++ (encodeContextOption 2 arrayIndex ++
          0x3E :: (encodeBacnetValue value ++
            0x3F :: encodeContextOption 4 (priority.map UInt8.toUInt32))))) =
      .ok (.writePropertyRequest invokeId object.1 object.2 propertyId arrayIndex value priority) := by
  have hat := at_property object (encodeContextUnsigned 1 propertyId ++
    (encodeContextOption 2 arrayIndex ++ 0x3E :: (encodeBacnetValue value ++
      0x3F :: (encodeContextOption 4 (priority.map UInt8.toUInt32) ++ []))))
  have hopening := hat.skip.skip
  have hclosing := hopening.next.skip
  have hindex := arrayIndex_read (by rintro b ⟨⟩; decide) hat.skip
  have hpriority := @readOptional_read _ _ _ 4 (.inr (.inr (.inr (.inr rfl))))
    (fun tb => isContext tb && tagNumber tb = 4) _
    (fun len hlen => by rcases hlen with rfl | rfl | rfl <;> decide) (by simp) hclosing.next
  have hlength := hclosing.length
  have hback : (priority.map UInt8.toUInt32).map UInt32.toUInt8 = priority := by
    cases priority with
    | none => rfl
    | some p => simp
  rw [List.append_nil] at *
  unfold decodeWritePropertyRequest
  rw [payloadObject_read hfits, ok_bind, readContextAt_read (.inr (.inl rfl)) hat, ok_bind]
  dsimp only
  rw [hindex, ok_bind]
  dsimp only
  rw [if_neg (not_not.2 hopening.head?), if_neg (by simp only [List.length_cons] at hlength; omega),
    decodeValueAt_read hvalue hopening.next, ok_bind]
  dsimp only
  rw [if_neg (not_not.2 hclosing.head?), hpriority, ok_bind, hback]

theorem decodeWhoIs_read (low high : UInt32) :
    decodeWhoIs (encodeContextUnsigned 0 low ++ encodeContextUnsigned 1 high) =
      .ok (.whoIs (some low) (some high)) := by
  obtain ⟨len, tl, -, hhead⟩ := encodeContextUnsigned_head 0 low
  have hsome : encodeContextUnsigned 0 low ++ encodeContextUnsigned 1 high ≠ [] := by
    rw [hhead]
    exact List.cons_ne_nil _ _
  have hlow : At (encodeContextUnsigned 0 low ++ encodeContextUnsigned 1 high) 0
      (encodeContextUnsigned 0 low ++ (encodeContextUnsigned 1 high ++ [])) := by
    rw [List.append_nil]
    exact at_zero _
  unfold decodeWhoIs
  rw [if_neg hsome, readContextAt_read (.inl rfl) hlow, ok_bind]
  dsimp only
  rw [readContextAt_read (.inr (.inl rfl)) hlow.skip, ok_bind]

theorem encodeBacnetValue_head {v : BacnetValue} (hv : Encodable v) :
    ∃ b tl, encodeBacnetValue v = b :: tl ∧ b ≠ 0x3F := by
  cases v with
  | null => exact ⟨_, _, rfl, by decide⟩
  | boolean b => cases b <;> exact ⟨_, _, rfl, by decide⟩
  | unsigned n =>
    unfold encodeBacnetValue encodeAppUnsigned
    split_ifs <;> exact ⟨_, _, rfl, by decide⟩
  | real bits => exact ⟨_, _, rfl, by decide⟩
  | enumerated n =>
    unfold encodeBacnetValue encodeAppEnumerated
    split_ifs <;> exact ⟨_, _, rfl, by decide⟩
  | objectId objectType inst => exact ⟨_, _, rfl, by decide⟩
  | characterString s =>
    unfold encodeBacnetValue characterStringHeader
    split_ifs with hshort
    · refine ⟨_, _, rfl, ?_⟩
      generalize (asBytes s).length + 1 = len at hshort
      interval_cases len <;> decide
    · exact ⟨_, _, rfl, by decide⟩
    · exact ⟨_, _, rfl, by decide⟩
  | _ => exact hv.elim

theorem isUnknown_of_encodable {v : BacnetValue} (hv : Encodable v) : v.isUnknown = false := by
  cases v with
  | unknown => exact hv.elim
  | _ => rfl

theorem encodeBacnetValues_eq (values : List BacnetValue) :
    encodeBacnetValues values = values.flatMap encodeBacnetValue := by
  induction values with
  | nil => rfl
  | cons v values ih =>
    rw [encodeBacnetValues, ih]
    rfl

theorem decodeReadPropertyAck_read (hfits : Fits object) {values : List BacnetValue}
    (hvalues : ∀ v ∈ values, Encodable v) :
    decodeReadPropertyAck invokeId (encodeObject object.1 object.2 ++
        (encodeContextUnsigned 1 propertyId ++
          0x3E :: (values.flatMap encodeBacnetValue ++ [0x3F]))) =
      .ok (.readPropertyAck invokeId object.1 object.2 propertyId (collectValues values)) := by
  have hat := at_property object (encodeContextUnsigned 1 propertyId ++
    0x3E :: (values.flatMap encodeBacnetValue ++ [0x3F]))
  have hopening := hat.skip
  generalize hpayload : encodeObject object.1 object.2 ++ (encodeContextUnsigned 1 propertyId ++
    0x3E :: (values.flatMap encodeBacnetValue ++ [0x3F])) = payload at hat hopening
  have hskip : skipArrayIndex payload (5 + (encodeContextUnsigned 1 propertyId).length) =
      5 + (encodeContextUnsigned 1 propertyId).length := by
    unfold skipArrayIndex
    rw [hopening.head?]
    rfl
  have hsome : ∀ v ∈ values, encodeBacnetValue v ≠ [] := by
    intro v hv h
    obtain ⟨b, tl, hhead, -⟩ := encodeBacnetValue_head (hvalues v hv)
    rw [hhead] at h
    cases h
  have hrounds := length_le_flatMap values hsome
  have hlength := hopening.next.length
  have hobject := @payloadObject_read (encodeContextUnsigned 1 propertyId ++
    0x3E :: (values.flatMap encodeBacnetValue ++ [0x3F])) object hfits
    "ReadProperty-ACK: ObjectId truncated" "ReadProperty-ACK: expected 0x0C, got 0x"
  rw [hpayload] at hobject
  unfold decodeReadPropertyAck
  rw [hobject, ok_bind, readContextAt_read (.inr (.inl rfl)) hat, ok_bind]
  dsimp only
  rw [hskip, if_neg (not_not.2 hopening.head?),
    @whileLoop_entries _ _ _ _ _ _ _ _ (fun v => [v]) (fun _ => True) values ?_
      (fun _ _ _ => trivial) _ trivial (fun _ _ h => notYet_false h) _ _ _ hopening.next ?_,
    ok_bind, List.nil_append, ← List.map_eq_flatMap, List.map_id']
  · intro v hv pos acc rest hat _
    obtain ⟨b, tl, hhead, hb⟩ := encodeBacnetValue_head (hvalues v hv)
    constructor
    · rw [hhead] at hat
      exact notYet_true hat hb
    · unfold ackValue
      rw [decodeValueAt_read (hvalues v hv) hat, ok_bind]
      dsimp only
      rw [isUnknown_of_encodable (hvalues v hv)]
      rfl
  · simp only [List.length_append] at hlength
    omega

theorem length_le_flatMap_of_mem {R : Type} {enc : R → List UInt8} {rs : List R} {r : R}
    (h : r ∈ rs) : (enc r).length ≤ (rs.flatMap enc).length := by
  obtain ⟨before, after, rfl⟩ := List.append_of_mem h
  simp only [List.flatMap_append, List.flatMap_cons, List.length_append]
  omega

/-- What a list of objects comes back as, entry by entry. -/
theorem groups_back {R : Type} (obj : R → UInt16 × UInt32) (f : R → R)
    (back : UInt16 × UInt32 → R → R) (hback : ∀ r, back (obj r) r = f r) (rs : List R) :
    ((groupByObject obj rs).flatMap fun g => g.2.map (back g.1)) = (grouped obj rs).map f := by
  rw [groupByObject_eq]
  unfold grouped
  rw [List.flatMap_map, List.map_flatMap]
  congr 1
  funext key
  apply List.map_congr_left
  intro r hr
  have hkey : obj r = key := by simpa using (List.mem_filter.1 hr).2
  rw [← hkey, hback]

theorem mem_groups {R : Type} {obj : R → UInt16 × UInt32} {rs : List R}
    {g : (UInt16 × UInt32) × List R} (hg : g ∈ groupByObject obj rs) :
    (∃ r ∈ rs, obj r = g.1) ∧ ∀ r ∈ g.2, r ∈ rs := by
  rw [groupByObject_eq, List.mem_map] at hg
  obtain ⟨key, hkey, rfl⟩ := hg
  exact ⟨mem_firstObjects.1 hkey, fun r hr => List.mem_of_mem_filter hr⟩

def specUnder (object : UInt16 × UInt32) (s : RpmRequestSpec) : RpmRequestSpec :=
  ⟨object.1, object.2, s.propertyId, s.arrayIndex⟩

theorem decodeReadPropertyMultipleRequest_read {specs : List RpmRequestSpec}
    (hfits : ∀ s ∈ specs, Fits s.object) :
    decodeReadPropertyMultipleRequest invokeId
        ((groupByObject RpmRequestSpec.object specs).flatMap (encodeGroup encodeSpec)) =
      .ok (.readPropertyMultipleRequest invokeId (grouped RpmRequestSpec.object specs)) := by
  unfold decodeReadPropertyMultipleRequest
  rw [rpmObjects_read specUnder NoIndexTag _ ?_ ?_ ?_ ?_, ok_bind,
    groups_back _ id specUnder (fun _ => rfl), List.map_id]
  · intro g hg
    obtain ⟨⟨s, hs, hkey⟩, -⟩ := mem_groups hg
    exact hkey ▸ hfits s hs
  · rintro rest b ⟨⟩
    decide
  · intro g hg s hs
    obtain ⟨b, tl, hhead, hb⟩ := encodeSpec_head s
    refine ⟨?_, b, tl, hhead, ?_⟩
    · intro rest
      rw [hhead]
      rintro b' ⟨⟩
      rcases hb with rfl | rfl | rfl <;> decide
    · rcases hb with rfl | rfl | rfl <;> decide
  · intro g hg s hs pos acc rest hat hnext
    exact rpmSpec_read hat hnext

theorem length_le_groups {results : List RpmResult} (enc : RpmResult → List UInt8) {r : RpmResult}
    (hr : r ∈ results) : (enc r).length ≤
      ((groupByObject RpmResult.object results).flatMap (encodeGroup enc)).length := by
  have hgroup : (r.object, results.filter (·.object = r.object)) ∈
      groupByObject RpmResult.object results := by
    rw [groupByObject_eq]
    exact List.mem_map_of_mem (mem_firstObjects.2 ⟨r, hr, rfl⟩)
  have hentry : (enc r).length ≤ ((results.filter (·.object = r.object)).flatMap enc).length :=
    length_le_flatMap_of_mem (List.mem_filter.2 ⟨hr, by simp⟩)
  have hle : (encodeGroup enc (r.object, results.filter (·.object = r.object))).length ≤
      ((groupByObject RpmResult.object results).flatMap (encodeGroup enc)).length :=
    length_le_flatMap_of_mem hgroup
  rw [length_encodeGroup] at hle
  exact (hentry.trans (Nat.le_add_right _ 7)).trans hle

def resultUnder (object : UInt16 × UInt32) (r : RpmResult) : RpmResult :=
  ⟨object.1, object.2, r.propertyId, r.arrayIndex, cutOutcome r.value⟩

def cutResult (r : RpmResult) : RpmResult := { r with value := cutOutcome r.value }

theorem decodeReadPropertyMultipleAck_read {results : List RpmResult}
    (hfits : ∀ r ∈ results, Fits r.object)
    (hvalues : ∀ r ∈ results, ∀ v, r.value = .ok v → Encodable v) :
    decodeReadPropertyMultipleAck invokeId
        ((groupByObject RpmResult.object results).flatMap (encodeGroup encodeResult)) =
      .ok (.readPropertyMultipleAck invokeId (grouped RpmResult.object (results.map cutResult))) := by
  unfold decodeReadPropertyMultipleAck
  rw [rpmObjects_read resultUnder (fun _ => True) _ ?_ ?_ ?_ ?_, ok_bind,
    groups_back _ cutResult resultUnder (fun _ => rfl),
    ← @grouped_map _ RpmResult.object cutResult (fun _ => rfl)]
  · intro g hg
    obtain ⟨⟨r, hr, hkey⟩, -⟩ := mem_groups hg
    exact hkey ▸ hfits r hr
  · exact fun _ => trivial
  · intro g hg r hr
    exact ⟨fun _ => trivial, encodeResult_head r⟩
  · intro g hg r hr pos acc rest hat _
    exact rpmResult_read (hvalues r ((mem_groups hg).2 r hr)) hat

theorem decodeErrorPdu_read (serviceChoice : UInt8) (errorClass errorCode : UInt32) :
    decodeErrorPdu ([0x50, invokeId, serviceChoice] ++
        (encodeAppEnumerated errorClass ++ encodeAppEnumerated errorCode)) =
      .ok (.error invokeId serviceChoice errorClass.toUInt16.toUInt32
        errorCode.toUInt16.toUInt32) := by
  have hat : At ([0x50, invokeId, serviceChoice] ++ (encodeAppEnumerated errorClass ++
      encodeAppEnumerated errorCode)) 3
      (encodeAppEnumerated errorClass ++ (encodeAppEnumerated errorCode ++ [])) := by
    rw [List.append_nil]
    exact (at_zero _).next.next.next
  change (decodeEnumeratedAt _ 3 >>= _) = _
  rw [decodeEnumeratedAt_read hat, ok_bind]
  dsimp only
  rw [decodeEnumeratedAt_read hat.skip]
  rfl

end Services

section Messages

def ackForm : BacnetValue → BacnetValue
  | .real bits => .real bits
  | .unsigned n => .unsigned n
  | .boolean b => .boolean b
  | _ => .real 0

theorem encodeAckValue_eq (v : BacnetValue) : encodeAckValue v = encodeBacnetValue (ackForm v) := by
  cases v <;> rfl

theorem encodable_ackForm (v : BacnetValue) : Encodable (ackForm v) := by
  cases v <;> trivial

def Message.cut : Message → Message
  | readPropertyAck invokeId objectType inst propertyId value =>
    readPropertyAck invokeId objectType inst propertyId (ackForm value)
  | readPropertyMultipleAck invokeId results =>
    readPropertyMultipleAck invokeId (results.map cutResult)
  | error invokeId serviceChoice errorClass errorCode =>
    error invokeId serviceChoice errorClass.toUInt16.toUInt32 errorCode.toUInt16.toUInt32
  | m => m

theorem length_buildPacket (bvllType : UInt8) (apdu : List UInt8) :
    (buildPacket bvllType apdu).length = 6 + apdu.length := by
  simp [buildPacket]
  omega

/-- Every message in scope decodes, to its cut form. -/
theorem decodePacket_encode (m : Message) (hscope : m.InScope) (hsize : m.encode.length < 65536) :
    decodePacket m.encode = .ok (⟨npduVersion, npduControlNormal⟩, m.cut.apdu) := by
  cases m with
  | whoIs low high =>
    simp only [Message.encode, encodeWhoIs] at hsize ⊢
    rw [length_buildPacket] at hsize
    rw [decodePacket_build _ _ hsize, decodeApdu_whoIs, decodeWhoIs_read, ok_bind]
    rfl
  | readProperty invokeId objectType inst propertyId arrayIndex =>
    simp only [Message.encode, encodeReadProperty] at hsize ⊢
    rw [length_buildPacket] at hsize
    have hread := @decodeReadPropertyRequest_read invokeId (objectType, inst) propertyId hscope
      arrayIndex
    rw [decodePacket_build _ _ hsize, decodeApdu_readProperty, hread, ok_bind]
    rfl
  | writeProperty invokeId objectType inst propertyId value arrayIndex priority =>
    simp only [Message.encode, encodeWriteProperty] at hsize ⊢
    rw [length_buildPacket] at hsize
    have hvalue : Encodable value := encodable_of_listed hscope.2 (by
      simp only [List.length_append, List.length_cons] at hsize
      omega)
    have hread := @decodeWritePropertyRequest_read invokeId (objectType, inst) propertyId hscope.1 _
      hvalue arrayIndex priority
    rw [decodePacket_build _ _ hsize, decodeApdu_writeProperty, hread, ok_bind]
    rfl
  | readPropertyMultiple invokeId specs =>
    simp only [Message.encode, encodeReadPropertyMultiple] at hsize ⊢
    rw [length_buildPacket] at hsize
    rw [decodePacket_build _ _ hsize, decodeApdu_readPropertyMultiple,
      decodeReadPropertyMultipleRequest_read hscope, ok_bind]
    rfl
  | readPropertyAck invokeId objectType inst propertyId value =>
    simp only [Message.encode, encodeReadPropertyAck, encodeAckValue_eq] at hsize ⊢
    rw [length_buildPacket] at hsize
    have hread := @decodeReadPropertyAck_read invokeId (objectType, inst) propertyId hscope.1
      [ackForm value] (by simpa using encodable_ackForm value)
    rw [List.flatMap_singleton] at hread
    rw [decodePacket_build _ _ hsize, decodeApdu_readPropertyAck, hread, ok_bind]
    rfl
  | readPropertyAckMulti invokeId objectType inst propertyId values =>
    simp only [Message.encode, encodeReadPropertyAckMulti, encodeBacnetValues_eq] at hsize ⊢
    rw [length_buildPacket] at hsize
    have hvalues : ∀ v ∈ values, Encodable v := by
      intro v hv
      apply encodable_of_listed (hscope.2 v hv)
      have hle : (encodeBacnetValue v).length ≤ (values.flatMap encodeBacnetValue).length :=
        length_le_flatMap_of_mem hv
      simp only [List.length_append, List.length_cons] at hsize
      omega
    have hread := @decodeReadPropertyAck_read invokeId (objectType, inst) propertyId hscope.1 _
      hvalues
    rw [decodePacket_build _ _ hsize]
    change (decodeApdu ([0x30, invokeId, svcConfirmedReadProperty] ++ _) >>= _) = _
    rw [decodeApdu_readPropertyAck, hread, ok_bind]
    rfl
  | readPropertyMultipleAck invokeId results =>
    simp only [Message.encode, encodeReadPropertyMultipleAck] at hsize ⊢
    rw [length_buildPacket] at hsize
    have hvalues : ∀ r ∈ results, ∀ v, r.value = .ok v → Encodable v := by
      intro r hr v hv
      apply encodable_of_listed ((hscope r hr).2 v hv)
      have hle := length_le_groups encodeResult hr
      have hvalue : (encodeBacnetValue v).length ≤ (encodeResult r).length := by
        simp only [encodeResult, hv, encodeResultValue, List.length_append, List.length_cons]
        omega
      simp only [List.length_append, List.length_cons] at hsize
      omega
    rw [decodePacket_build _ _ hsize, decodeApdu_readPropertyMultipleAck,
      decodeReadPropertyMultipleAck_read (fun r hr => (hscope r hr).1) hvalues, ok_bind]
    rfl
  | simpleAck invokeId serviceChoice =>
    simp only [Message.encode, encodeSimpleAck] at hsize ⊢
    rw [length_buildPacket] at hsize
    rw [decodePacket_build _ _ hsize]
    rfl
  | error invokeId serviceChoice errorClass errorCode =>
    simp only [Message.encode, encodeErrorPdu] at hsize ⊢
    rw [length_buildPacket] at hsize
    rw [decodePacket_build _ _ hsize, decodeApdu_error, decodeErrorPdu_read, ok_bind]
    rfl

/-- The ack carries one of the three values its encoder knows, and error codes fit
    in sixteen bits. -/
def Message.Carried : Message → Prop
  | readPropertyAck _ _ _ _ value => (∃ bits, value = .real bits) ∨ (∃ n, value = .unsigned n) ∨
      ∃ b, value = .boolean b
  | readPropertyMultipleAck _ results => ∀ r ∈ results, ∀ errorClass code,
      r.value = .error (errorClass, code) → errorClass ≤ 0xFFFF ∧ code ≤ 0xFFFF
  | error _ _ errorClass errorCode => errorClass ≤ 0xFFFF ∧ errorCode ≤ 0xFFFF
  | _ => True

theorem ackForm_iff (v : BacnetValue) :
    ackForm v = v ↔ (∃ bits, v = .real bits) ∨ (∃ n, v = .unsigned n) ∨ ∃ b, v = .boolean b := by
  cases v <;> simp [ackForm]

theorem cutResult_iff (r : RpmResult) :
    cutResult r = r ↔ ∀ errorClass code,
      r.value = .error (errorClass, code) → errorClass ≤ 0xFFFF ∧ code ≤ 0xFFFF := by
  obtain ⟨objectType, inst, propertyId, arrayIndex, value⟩ := r
  cases value with
  | ok v => simp [cutResult, cutOutcome]
  | error codes =>
    obtain ⟨errorClass, code⟩ := codes
    simp only [cutResult, cutOutcome, RpmResult.mk.injEq, Except.error.injEq, Prod.mk.injEq,
      true_and, toUInt16_toUInt32_iff]
    constructor
    · rintro h _ _ ⟨rfl, rfl⟩
      exact h
    · intro h
      exact h errorClass code ⟨rfl, rfl⟩

theorem cut_apdu_iff (m : Message) : m.cut.apdu = m.apdu ↔ m.Carried := by
  cases m with
  | readPropertyAck invokeId objectType inst propertyId value =>
    simp only [Message.cut, Message.apdu, Message.Carried, Apdu.readPropertyAck.injEq, true_and]
    exact ackForm_iff value
  | readPropertyMultipleAck invokeId results =>
    simp only [Message.cut, Message.apdu, Message.Carried, Apdu.readPropertyMultipleAck.injEq,
      true_and]
    have hmap := @grouped_map _ RpmResult.object cutResult (fun _ => rfl) results
    have hself : (grouped RpmResult.object results).map cutResult = grouped RpmResult.object results ↔
        ∀ r ∈ grouped RpmResult.object results, cutResult r = r := by
      conv_lhs => rhs; rw [← List.map_id (grouped RpmResult.object results)]
      exact List.map_inj_left
    rw [hmap, hself]
    refine forall_congr' fun r => ?_
    rw [mem_grouped, cutResult_iff]
  | error invokeId serviceChoice errorClass errorCode =>
    simp only [Message.cut, Message.apdu, Message.Carried, Apdu.error.injEq, true_and,
      toUInt16_toUInt32_iff]
  | _ => exact iff_of_true rfl trivial

/-- A message in scope comes back from its packet exactly if its ack value and its
    error codes are carried. -/
theorem message_round_trip_iff (m : Message) (hscope : m.InScope)
    (hsize : m.encode.length < 65536) :
    decodePacket m.encode = .ok (⟨npduVersion, npduControlNormal⟩, m.apdu) ↔ m.Carried := by
  rw [decodePacket_encode m hscope hsize, ← cut_apdu_iff]
  simp

theorem message_round_trip_write :
    let m := Message.writeProperty 7 2 40 85 (.characterString "on") none (some 8)
    m.InScope ∧ m.encode.length < 65536 ∧
      decodePacket m.encode = .ok (⟨npduVersion, npduControlNormal⟩, m.apdu) := by
  have hscope : (Message.writeProperty 7 2 40 85 (.characterString "on") none (some 8)).InScope :=
    ⟨by constructor <;> decide, trivial⟩
  have hsize : (Message.writeProperty 7 2 40 85 (.characterString "on") none
      (some 8)).encode.length < 65536 := by decide
  exact ⟨hscope, hsize, (message_round_trip_iff _ hscope hsize).2 trivial⟩

/-- A Null in a ReadProperty ack comes back as the number zero, and error class
    65536 as class zero. -/
theorem messages_misread :
    (∀ m ∈ [Message.readPropertyAck 1 2 40 85 .null, Message.error 1 12 65536 31],
      m.InScope ∧ m.encode.length < 65536 ∧
        decodePacket m.encode ≠ .ok (⟨npduVersion, npduControlNormal⟩, m.apdu)) ∧
      decodePacket (Message.readPropertyAck 1 2 40 85 .null).encode =
        .ok (⟨npduVersion, npduControlNormal⟩, .readPropertyAck 1 2 40 85 (.real 0)) ∧
      decodePacket (Message.error 1 12 65536 31).encode =
        .ok (⟨npduVersion, npduControlNormal⟩, .error 1 12 0 31) := by
  have hackScope : (Message.readPropertyAck 1 2 40 85 .null).InScope :=
    ⟨by constructor <;> decide, trivial⟩
  have hackSize : (Message.readPropertyAck 1 2 40 85 .null).encode.length < 65536 := by decide
  have herrorSize : (Message.error 1 12 65536 31).encode.length < 65536 := by decide
  have hack := decodePacket_encode _ hackScope hackSize
  have herror := decodePacket_encode (.error 1 12 65536 31) trivial herrorSize
  refine ⟨?_, hack, herror⟩
  intro m hm
  rcases List.mem_cons.1 hm with rfl | hm
  · refine ⟨hackScope, hackSize, ?_⟩
    rw [hack]
    simp [Message.cut, Message.apdu, ackForm]
  · obtain rfl := List.mem_singleton.1 hm
    refine ⟨trivial, herrorSize, ?_⟩
    rw [herror]
    simp only [Message.cut, Message.apdu, ne_eq, Except.ok.injEq, Prod.mk.injEq, Apdu.error.injEq]
    decide

end Messages

end Sandstar.Bacnet
