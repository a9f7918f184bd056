import Sandstar.BacnetValues

set_option autoImplicit false

/-!
# BACnet/IP packets (frame.rs)

A packet is a BVLL header, an NPDU with optional routing fields, and an APDU. The
decoders keep a position into their slice; an index or a slice outside of it, on
which the source would panic, is an outcome of the model.
-/
namespace Sandstar.Bacnet

open Decoding SoxProtocol

structure RpmRequestSpec where
  objectType : UInt16
  inst : UInt32
  propertyId : UInt32
  arrayIndex : Option UInt32
deriving DecidableEq

structure RpmResult where
  objectType : UInt16
  inst : UInt32
  propertyId : UInt32
  arrayIndex : Option UInt32
  value : Except (UInt32 × UInt32) BacnetValue

structure CovPropertyValue where
  propertyId : UInt32
  arrayIndex : Option UInt32
  value : BacnetValue

structure CovNotification where
  subscriberProcessId : UInt32
  initiatingDeviceInstance : UInt32
  monitoredObjectType : UInt16
  monitoredObjectInstance : UInt32
  timeRemaining : Option UInt32
  values : List CovPropertyValue

structure BvllHeader where
  bvllType : UInt8
  length : UInt16
deriving DecidableEq

structure NpduHeader where
  version : UInt8
  control : UInt8
deriving DecidableEq

inductive Apdu
  | whoIs (lowLimit highLimit : Option UInt32)
  | iAm (deviceInstance : UInt32) (maxApdu : UInt16) (segmentation : UInt8) (vendorId : UInt16)
  | readPropertyRequest (invokeId : UInt8) (objectType : UInt16) (inst propertyId : UInt32)
      (arrayIndex : Option UInt32)
  | readPropertyAck (invokeId : UInt8) (objectType : UInt16) (inst propertyId : UInt32)
      (value : BacnetValue)
  | error (invokeId serviceChoice : UInt8) (errorClass errorCode : UInt32)
  | writePropertyRequest (invokeId : UInt8) (objectType : UInt16) (inst propertyId : UInt32)
      (arrayIndex : Option UInt32) (value : BacnetValue) (priority : Option UInt8)
  | simpleAck (invokeId serviceChoice : UInt8)
  | readPropertyMultipleRequest (invokeId : UInt8) (specs : List RpmRequestSpec)
  | readPropertyMultipleAck (invokeId : UInt8) (results : List RpmResult)
  | unconfirmedCovNotification (notification : CovNotification)
  | confirmedCovNotification (invokeId : UInt8) (notification : CovNotification)
  | other (pduType invokeId : UInt8) (data : List UInt8)

def bvllBacnetIp : UInt8 := 0x81
def bvllUnicast : UInt8 := 0x0A
def bvllBroadcast : UInt8 := 0x0B
def npduVersion : UInt8 := 0x01
def npduControlNormal : UInt8 := 0x00

def svcUnconfirmedIam : UInt8 := 0x00
def svcUnconfirmedWhois : UInt8 := 0x08
def svcConfirmedReadProperty : UInt8 := 0x0C
def svcConfirmedReadPropertyMultiple : UInt8 := 0x0E
def svcConfirmedWriteProperty : UInt8 := 0x0F
def svcConfirmedSubscribeCov : UInt8 := 0x05
def svcUnconfirmedCovNotification : UInt8 := 0x02
def svcConfirmedCovNotification : UInt8 := 0x01

def buildPacket (bvllType : UInt8) (apdu : List UInt8) : List UInt8 :=
  let totalLen := 4 + 2 + apdu.length
  [bvllBacnetIp, bvllType, UInt8.ofNat (totalLen >>> 8), UInt8.ofNat (totalLen &&& 0xFF),
    npduVersion, npduControlNormal] ++ apdu

def encodeContextUnsigned (tagNum : UInt8) (val : UInt32) : List UInt8 :=
  if val ≤ 0xFF then [tagNum <<< 4 ||| 0x08 ||| 1, val.toUInt8]
  else if val ≤ 0xFFFF then (tagNum <<< 4 ||| 0x08 ||| 2) :: beBytes16 val.toUInt16
  else (tagNum <<< 4 ||| 0x08 ||| 4) :: beBytes32 val

def encodeContextOption (tagNum : UInt8) (val : Option UInt32) : List UInt8 :=
  match val with
  | some v => encodeContextUnsigned tagNum v
  | none => []

def encodeObject (objectType : UInt16) (inst : UInt32) : List UInt8 :=
  0x0C :: beBytes32 (objectIdRaw objectType inst)

def encodeWhoIs (low high : Option UInt32) : List UInt8 :=
  let limits := match low, high with
    | some lo, some hi => encodeContextUnsigned 0 lo ++ encodeContextUnsigned 1 hi
    | _, _ => []
  buildPacket bvllBroadcast ([0x10, svcUnconfirmedWhois] ++ limits)

def encodeReadProperty (invokeId : UInt8) (objectType : UInt16) (inst propertyId : UInt32)
    (arrayIndex : Option UInt32) : List UInt8 :=
  buildPacket bvllUnicast ([0x00, 0x05, invokeId, svcConfirmedReadProperty] ++
    (encodeObject objectType inst ++ (encodeContextUnsigned 1 propertyId ++
      encodeContextOption 2 arrayIndex)))

def encodeAckValue : BacnetValue → List UInt8
  | .real bits => 0x44 :: beBytes32 bits
  | .unsigned n => encodeAppUnsigned n
  | .boolean b => [if b then 0x11 else 0x10]
  | _ => 0x44 :: beBytes32 0

def encodeReadPropertyAck (invokeId : UInt8) (objectType : UInt16) (inst propertyId : UInt32)
    (value : BacnetValue) : List UInt8 :=
  buildPacket bvllUnicast ([0x30, invokeId, svcConfirmedReadProperty] ++
    (encodeObject objectType inst ++ (encodeContextUnsigned 1 propertyId ++
      0x3E :: (encodeAckValue value ++ [0x3F]))))

def encodeReadPropertyAckMulti (invokeId : UInt8) (objectType : UInt16) (inst propertyId : UInt32)
    (values : List BacnetValue) : List UInt8 :=
  buildPacket bvllUnicast ([0x30, invokeId, 0x0C] ++
    (encodeObject objectType inst ++ (encodeContextUnsigned 1 propertyId ++
      0x3E :: (encodeBacnetValues values ++ [0x3F]))))

def addToGroup {R : Type} (key : UInt16 × UInt32) (r : R) :
    List ((UInt16 × UInt32) × List R) → List ((UInt16 × UInt32) × List R)
  | [] => [(key, [r])]
  | (k, rs) :: groups =>
    if k = key then (k, rs ++ [r]) :: groups else (k, rs) :: addToGroup key r groups

def groupByObject {R : Type} (object : R → UInt16 × UInt32) (rs : List R) :
    List ((UInt16 × UInt32) × List R) :=
  rs.foldl (fun groups r => addToGroup (object r) r groups) []

def RpmRequestSpec.object (s : RpmRequestSpec) : UInt16 × UInt32 := (s.objectType, s.inst)
def RpmResult.object (r : RpmResult) : UInt16 × UInt32 := (r.objectType, r.inst)

def encodeGroup {R : Type} (entry : R → List UInt8) (group : (UInt16 × UInt32) × List R) :
    List UInt8 :=
  encodeObject group.1.1 group.1.2 ++ 0x1E :: (group.2.flatMap entry ++ [0x1F])

def encodeSpec (s : RpmRequestSpec) : List UInt8 :=
  encodeContextUnsigned 0 s.propertyId ++ encodeContextOption 1 s.arrayIndex

def encodeReadPropertyMultiple (invokeId : UInt8) (specs : List RpmRequestSpec) : List UInt8 :=
  buildPacket bvllUnicast ([0x00, 0x05, invokeId, svcConfirmedReadPropertyMultiple] ++
    (groupByObject RpmRequestSpec.object specs).flatMap (encodeGroup encodeSpec))

def encodeResultValue : Except (UInt32 × UInt32) BacnetValue → List UInt8
  | .ok v => 0x4E :: (encodeBacnetValue v ++ [0x4F])
  | .error (errorClass, code) =>
    0x5E :: (encodeAppEnumerated errorClass ++ (encodeAppEnumerated code ++ [0x5F]))

def encodeResult (r : RpmResult) : List UInt8 :=
  encodeContextUnsigned 2 r.propertyId ++
    (encodeContextOption 3 r.arrayIndex ++ encodeResultValue r.value)

def encodeReadPropertyMultipleAck (invokeId : UInt8) (results : List RpmResult) : List UInt8 :=
  buildPacket bvllUnicast ([0x30, invokeId, svcConfirmedReadPropertyMultiple] ++
    (groupByObject RpmResult.object results).flatMap (encodeGroup encodeResult))

def encodeErrorPdu (invokeId serviceChoice : UInt8) (errorClass errorCode : UInt32) : List UInt8 :=
  buildPacket bvllUnicast ([0x50, invokeId, serviceChoice] ++
    (encodeAppEnumerated errorClass ++ encodeAppEnumerated errorCode))

def encodeSimpleAck (invokeId serviceChoice : UInt8) : List UInt8 :=
  buildPacket bvllUnicast [0x20, invokeId, serviceChoice]

def encodeWriteProperty (invokeId : UInt8) (objectType : UInt16) (inst propertyId : UInt32)
    (value : BacnetValue) (arrayIndex : Option UInt32) (priority : Option UInt8) : List UInt8 :=
  buildPacket bvllUnicast ([0x00, 0x05, invokeId, svcConfirmedWriteProperty] ++
    (encodeObject objectType inst ++ (encodeContextUnsigned 1 propertyId ++
      (encodeContextOption 2 arrayIndex ++ 0x3E :: (encodeBacnetValue value ++
        0x3F :: encodeContextOption 4 (priority.map UInt8.toUInt32))))))

def encodeSubscribeCov (invokeId : UInt8) (subscriberProcessId : UInt32)
    (monitoredObjectType : UInt16) (monitoredObjectInstance : UInt32)
    (issueConfirmed : Option Bool) (lifetime : Option UInt32) : List UInt8 :=
  let terms := match issueConfirmed with
    | some confirmed => 0x29 :: (if confirmed then 0x01 else 0x00) :: encodeContextOption 3 lifetime
    | none => []
  buildPacket bvllUnicast ([0x00, 0x05, invokeId, svcConfirmedSubscribeCov] ++
    (encodeContextUnsigned 0 subscriberProcessId ++
      0x1C :: (beBytes32 (objectIdRaw monitoredObjectType monitoredObjectInstance) ++ terms)))

def hex02 (b : UInt8) : String :=
  String.ofList [(b.toNat / 16).digitChar.toUpper, (b.toNat % 16).digitChar.toUpper]

def tagNumber (tagByte : UInt8) : UInt8 := tagByte >>> 4 &&& 0x0F
def isContext (tagByte : UInt8) : Bool := tagByte &&& 0x08 ≠ 0
def tagLength (tagByte : UInt8) : ℕ := (tagByte &&& 0x07).toNat

def decodeBvllHeader (data : List UInt8) : Decoder BacnetError BvllHeader :=
  if data.length < 4 then
    malformed ("BVLL header too short: " ++ toString data.length ++ " bytes")
  else do
    let magic ← index data 0
    if magic ≠ bvllBacnetIp then
      malformed ("not BACnet/IP: expected 0x81, got 0x" ++ hex02 magic)
    else do
      let length := beU16 (← index data 2) (← index data 3)
      if data.length < length.toNat then
        malformed ("BVLL length " ++ toString length.toNat ++ " > buffer " ++ toString data.length)
      else do
        let bvllType ← index data 1
        .ok ⟨bvllType, length⟩

/-- Passes over an address of the NPDU: a network number, a length, so many bytes
    and `extra` more. -/
def skipAddress (data : List UInt8) (consumed extra : ℕ) (fields address : String) :
    Decoder BacnetError ℕ :=
  if data.length < consumed + 3 then malformed fields
  else do
    let len ← index data (consumed + 2)
    let bytes := 2 + 1 + len.toNat + extra
    if data.length < consumed + bytes then malformed address else .ok (consumed + bytes)

def skipAddressIf (present : Bool) (data : List UInt8) (consumed extra : ℕ)
    (fields address : String) : Decoder BacnetError ℕ :=
  if present then skipAddress data consumed extra fields address else .ok consumed

def decodeNpdu (data : List UInt8) : Decoder BacnetError (NpduHeader × ℕ) :=
  if data.length < 2 then malformed ("NPDU too short: " ++ toString data.length ++ " bytes")
  else do
    let version ← index data 0
    if version ≠ npduVersion then
      malformed ("NPDU version " ++ toString version.toNat ++ " != 1")
    else do
      let control ← index data 1
      let consumed ← skipAddressIf (control &&& 0x20 ≠ 0) data 2 1
        "NPDU router fields truncated" "NPDU router DADR truncated"
      let consumed ← skipAddressIf (control &&& 0x08 ≠ 0) data consumed 0
        "NPDU source fields truncated" "NPDU source SADR truncated"
      .ok (⟨version, control⟩, consumed)

def contextValue (data : List UInt8) (lvt : ℕ) (expected : String) : Decoder BacnetError UInt32 :=
  match lvt with
  | 0 => .ok 0
  | 1 => do return (← index data 1).toUInt32
  | 2 => do return (beU16 (← index data 1) (← index data 2)).toUInt32
  | 3 => do
    return (← index data 1).toUInt32 <<< 16 ||| (← index data 2).toUInt32 <<< 8 |||
      (← index data 3).toUInt32
  | 4 => indexU32 data 1
  | _ => malformed ("context tag " ++ expected ++ " LVT " ++ toString lvt ++ " too large")

def readContextUnsigned (data : List UInt8) (expectedTag : UInt8) :
    Decoder BacnetError (UInt32 × ℕ) :=
  let expected := toString expectedTag.toNat
  match data with
  | [] => malformed ("expected context tag " ++ expected ++ ", got empty slice")
  | tagByte :: _ =>
    let lvt := tagLength tagByte
    if tagByte >>> 3 &&& 0x01 ≠ 1 then
      malformed ("expected context tag " ++ expected ++ ", got application byte 0x" ++ hex02 tagByte)
    else if tagNumber tagByte ≠ expectedTag then
      malformed ("expected context tag " ++ expected ++ ", got tag " ++
        toString (tagNumber tagByte).toNat)
    else if data.length < 1 + lvt then
      malformed ("context tag " ++ expected ++ " value truncated")
    else do
      let val ← contextValue data lvt expected
      .ok (val, 1 + lvt)

def readContextAt (payload : List UInt8) (pos : ℕ) (expectedTag : UInt8) :
    Decoder BacnetError (UInt32 × ℕ) := do
  let (val, consumed) ← readContextUnsigned (← suffix payload pos) expectedTag
  .ok (val, pos + consumed)

def decodeValueAt (payload : List UInt8) (pos : ℕ) : Decoder BacnetError (BacnetValue × ℕ) := do
  let (val, n) ← decodeApplicationTag (← suffix payload pos)
  .ok (val, pos + n)

/-- A context tag that may be absent: read if the byte at the position is
    `accepted`, with the position after it. -/
def readOptional (payload : List UInt8) (pos : ℕ) (expectedTag : UInt8) (accepted : UInt8 → Bool) :
    Decoder BacnetError (Option UInt32 × ℕ) :=
  match payload[pos]? with
  | none => .ok (none, pos)
  | some tagByte =>
    if accepted tagByte then do
      let (val, pos) ← readContextAt payload pos expectedTag
      .ok (some val, pos)
    else .ok (none, pos)

def decodeEnumeratedAt (data : List UInt8) (pos : ℕ) : Decoder BacnetError (UInt32 × ℕ) := do
  let (val, pos) ← decodeValueAt data pos
  match val with
  | .enumerated v => .ok (v, pos)
  | .unsigned v => .ok (v, pos)
  | _ => malformed "expected Enumerated value"

/-- `pos < data.len() && data[pos] != stop`. -/
def notYet (data : List UInt8) (stop : UInt8) (pos : ℕ) : Bool := data[pos]?.any (· ≠ stop)

/-- The local `read_context_unsigned`: any length up to seven, the upper bytes of
    longer ones shifted out. -/
def covUnsigned (data : List UInt8) (pos : ℕ) (expectedTag : UInt8) :
    Decoder BacnetError (UInt32 × ℕ) :=
  match data[pos]? with
  | none => malformed ("COV: truncated at context tag " ++ toString expectedTag.toNat)
  | some tagByte =>
    if !isContext tagByte || tagNumber tagByte ≠ expectedTag then
      malformed ("COV: expected context tag " ++ toString expectedTag.toNat ++ ", got byte 0x" ++
        hex02 tagByte)
    else
      let len := tagLength tagByte
      if data.length < pos + 1 + len then malformed "COV: truncated value"
      else do
        let val ← (List.range len).foldlM
          (fun (val : UInt32) i => do pure (val <<< 8 ||| (← index data (pos + 1 + i)).toUInt32)) 0
        .ok (val, pos + 1 + len)

def covObjectId (data : List UInt8) (pos : ℕ) (expectedTag : UInt8) :
    Decoder BacnetError ((UInt16 × UInt32) × ℕ) :=
  match data[pos]? with
  | none => malformed ("COV: truncated at object-id tag " ++ toString expectedTag.toNat)
  | some tagByte =>
    if !isContext tagByte || tagNumber tagByte ≠ expectedTag || tagLength tagByte ≠ 4 then
      malformed ("COV: expected context object-id tag " ++ toString expectedTag.toNat ++
        ", got byte 0x" ++ hex02 tagByte)
    else if data.length < pos + 1 + 4 then malformed "COV: truncated object-id"
    else do
      let raw ← indexU32 data (pos + 1)
      .ok ((objectTypeOf raw, instanceOf raw), pos + 1 + 4)

def isValueTag (tagNum : UInt8) (tagByte : UInt8) : Bool :=
  isContext tagByte && tagNumber tagByte = tagNum && tagLength tagByte ≠ 6 && tagLength tagByte ≠ 7

def covTimeRemaining (data : List UInt8) (pos : ℕ) : Decoder BacnetError (Option UInt32 × ℕ) :=
  match data[pos]? with
  | none => .ok (none, pos)
  | some tagByte =>
    if isContext tagByte && tagNumber tagByte = 3 && tagLength tagByte ≠ 6 then do
      let (val, pos) ← covUnsigned data pos 3
      .ok (some val, pos)
    else .ok (none, pos)

def covArrayIndex (data : List UInt8) (pos : ℕ) : Decoder BacnetError (Option UInt32 × ℕ) :=
  match data[pos]? with
  | none => .ok (none, pos)
  | some tagByte =>
    if isValueTag 1 tagByte then do
      let (val, pos) ← covUnsigned data pos 1
      .ok (some val, pos)
    else .ok (none, pos)

def covValue (data : List UInt8) (pos : ℕ) : Decoder BacnetError (BacnetValue × ℕ) :=
  if notYet data 0x2F pos then decodeValueAt data pos else .ok (.null, pos)

def covSkipPriority (data : List UInt8) (pos : ℕ) : ℕ :=
  match data[pos]? with
  | none => pos
  | some tagByte => if isValueTag 3 tagByte then pos + 1 + tagLength tagByte else pos

def covEntry (data : List UInt8) (s : ℕ × List CovPropertyValue) :
    Decoder BacnetError (ℕ × List CovPropertyValue) := do
  let (propertyId, pos) ← covUnsigned data s.1 0
  let (arrayIndex, pos) ← covArrayIndex data pos
  if data[pos]? ≠ some 0x2E then malformed "COV: expected tag 2 opening (0x2E)"
  else do
    let (value, pos) ← covValue data (pos + 1)
    if data[pos]? ≠ some 0x2F then malformed "COV: expected tag 2 closing (0x2F)"
    else .ok (covSkipPriority data (pos + 1), s.2 ++ [⟨propertyId, arrayIndex, value⟩])

def covValues (data : List UInt8) (pos : ℕ) : Decoder BacnetError (List CovPropertyValue) :=
  if data[pos]? = some 0x4E then do
    let s ← whileLoop (fun s => notYet data 0x4F s.1) (covEntry data) (data.length + 1) (pos + 1, [])
    .ok s.2
  else .ok []

def decodeCovNotificationPayload (data : List UInt8) : Decoder BacnetError CovNotification := do
  let (subscriberProcessId, pos) ← covUnsigned data 0 0
  let (device, pos) ← covObjectId data pos 1
  let (monitored, pos) ← covObjectId data pos 2
  let (timeRemaining, pos) ← covTimeRemaining data pos
  let values ← covValues data pos
  .ok ⟨subscriberProcessId, device.2, monitored.1, monitored.2, timeRemaining, values⟩

def rpmObject (payload : List UInt8) (pos : ℕ) (who opening : String) :
    Decoder BacnetError (UInt16 × UInt32) :=
  if payload.length < pos + 5 then malformed (who ++ ": object-identifier truncated")
  else do
    let tagByte ← index payload pos
    if tagByte ≠ 0x0C then
      malformed (who ++ ": expected context tag 0 (0x0C), got 0x" ++ hex02 tagByte)
    else do
      let raw ← indexU32 payload (pos + 1)
      if payload[pos + 5]? ≠ some 0x1E then malformed (who ++ ": expected " ++ opening)
      else .ok (objectTypeOf raw, instanceOf raw)

def rpmObjects {R : Type} (payload : List UInt8) (who opening closing : String)
    (entry : UInt16 × UInt32 → ℕ × List R → Decoder BacnetError (ℕ × List R)) :
    Decoder BacnetError (List R) := do
  let s ← whileLoop (fun s => decide (s.1 < payload.length))
    (fun s => do
      let object ← rpmObject payload s.1 who opening
      let s ← whileLoop (fun s => notYet payload 0x1F s.1) (entry object) (payload.length + 1)
        (s.1 + 6, s.2)
      if payload[s.1]? ≠ some 0x1F then malformed (who ++ ": expected " ++ closing)
      else .ok (s.1 + 1, s.2))
    (payload.length + 1) (0, [])
  .ok s.2

def rpmSpec (payload : List UInt8) (object : UInt16 × UInt32) (s : ℕ × List RpmRequestSpec) :
    Decoder BacnetError (ℕ × List RpmRequestSpec) := do
  let (propId, pos) ← readContextAt payload s.1 0
  let (arrayIndex, pos) ← readOptional payload pos 1 fun tb =>
    isContext tb && tagNumber tb = 1 && tb ≠ 0x1E && tb ≠ 0x1F
  .ok (pos, s.2 ++ [⟨object.1, object.2, propId, arrayIndex⟩])

def decodeReadPropertyMultipleRequest (invokeId : UInt8) (payload : List UInt8) :
    Decoder BacnetError Apdu := do
  let specs ← rpmObjects payload "RPM request" "list-of-property-references opening 0x1E"
    "list-of-property-references closing 0x1F" (rpmSpec payload)
  .ok (.readPropertyMultipleRequest invokeId specs)

def rpmOutcome (payload : List UInt8) (pos : ℕ) :
    Decoder BacnetError (Except (UInt32 × UInt32) BacnetValue × ℕ) :=
  match payload[pos]? with
  | none => malformed "RPM-ACK: truncated after property-id"
  | some tb =>
    if tb = 0x4E then do
      let (val, pos) ← decodeValueAt payload (pos + 1)
      if payload[pos]? ≠ some 0x4F then malformed "RPM-ACK: expected property-value closing 0x4F"
      else .ok (.ok val, pos + 1)
    else if tb = 0x5E then do
      let (errorClass, pos) ← decodeEnumeratedAt payload (pos + 1)
      let (errorCode, pos) ← decodeEnumeratedAt payload pos
      if payload[pos]? ≠ some 0x5F then
        malformed "RPM-ACK: expected property-access-error closing 0x5F"
      else .ok (.error (errorClass, errorCode), pos + 1)
    else malformed ("RPM-ACK: unexpected tag 0x" ++ hex02 tb ++ " in result")

def rpmResult (payload : List UInt8) (object : UInt16 × UInt32) (s : ℕ × List RpmResult) :
    Decoder BacnetError (ℕ × List RpmResult) := do
  let (propId, pos) ← readContextAt payload s.1 2
  let (arrayIndex, pos) ← readOptional payload pos 3 fun tb =>
    tagNumber tb = 3 && isContext tb && tb ≠ 0x3E && tb ≠ 0x3F
  let (value, pos) ← rpmOutcome payload pos
  .ok (pos, s.2 ++ [⟨object.1, object.2, propId, arrayIndex, value⟩])

def decodeReadPropertyMultipleAck (invokeId : UInt8) (payload : List UInt8) :
    Decoder BacnetError Apdu := do
  let results ← rpmObjects payload "RPM-ACK" "list-of-results opening tag 0x1E"
    "list-of-results closing 0x1F" (rpmResult payload)
  .ok (.readPropertyMultipleAck invokeId results)

def decodeWhoIs (payload : List UInt8) : Decoder BacnetError Apdu :=
  if payload = [] then .ok (.whoIs none none)
  else do
    let (low, pos) ← readContextAt payload 0 0
    let (high, _) ← readContextAt payload pos 1
    .ok (.whoIs (some low) (some high))

def iAmUnsigned (expected : String) : BacnetValue → Decoder BacnetError UInt16
  | .unsigned v => .ok v.toUInt16
  | _ => malformed expected

def iAmEnumerated (expected : String) : BacnetValue → Decoder BacnetError UInt8
  | .enumerated v => .ok v.toUInt8
  | _ => malformed expected

def iAmObject (expected : String) : BacnetValue → Decoder BacnetError UInt32
  | .objectId _ inst => .ok inst
  | _ => malformed expected

def decodeIAm (payload : List UInt8) : Decoder BacnetError Apdu := do
  let (objVal, pos) ← decodeValueAt payload 0
  let deviceInstance ← iAmObject "I-Am: expected ObjectId" objVal
  let (maxApduVal, pos) ← decodeValueAt payload pos
  let maxApdu ← iAmUnsigned "I-Am: expected Unsigned for max-apdu" maxApduVal
  let (segVal, pos) ← decodeValueAt payload pos
  let segmentation ← iAmEnumerated "I-Am: expected Enumerated for segmentation" segVal
  let (vidVal, _) ← decodeValueAt payload pos
  let vendorId ← iAmUnsigned "I-Am: expected Unsigned for vendor-id" vidVal
  .ok (.iAm deviceInstance maxApdu segmentation vendorId)

def payloadObject (payload : List UInt8) (truncated wrong : String) :
    Decoder BacnetError (UInt16 × UInt32) :=
  if payload.length < 5 then malformed truncated
  else do
    let tagByte ← index payload 0
    if tagByte ≠ 0x0C then malformed (wrong ++ hex02 tagByte)
    else do
      let raw ← indexU32 payload 1
      .ok (objectTypeOf raw, instanceOf raw)

def decodeReadPropertyRequest (invokeId : UInt8) (payload : List UInt8) :
    Decoder BacnetError Apdu := do
  let object ← payloadObject payload "ReadProperty request: ObjectId truncated"
    "ReadProperty request: expected context tag 0 (0x0C), got 0x"
  let (propId, pos) ← readContextAt payload 5 1
  let (arrayIndex, _) ← readOptional payload pos 2 fun tb =>
    isContext tb && tagNumber tb = 2
  .ok (.readPropertyRequest invokeId object.1 object.2 propId arrayIndex)

def expectedTagAt (who tag : String) (payload : List UInt8) (pos : ℕ) : String :=
  who ++ ": expected " ++ tag ++ " at pos " ++ toString pos ++ ", got 0x" ++
    hex02 (payload[pos]?.getD 0)

def decodeWritePropertyRequest (invokeId : UInt8) (payload : List UInt8) :
    Decoder BacnetError Apdu := do
  let object ← payloadObject payload "WriteProperty request: ObjectId truncated"
    "WriteProperty request: expected context tag 0 (0x0C), got 0x"
  let (propId, pos) ← readContextAt payload 5 1
  let (arrayIndex, pos) ← readOptional payload pos 2 fun tb =>
    isContext tb && tagNumber tb = 2
  if payload[pos]? ≠ some 0x3E then
    malformed (expectedTagAt "WriteProperty request" "opening tag 3 (0x3E)" payload pos)
  else if payload.length ≤ pos + 1 then malformed "WriteProperty request: value truncated"
  else do
    let (value, pos) ← decodeValueAt payload (pos + 1)
    if payload[pos]? ≠ some 0x3F then
      malformed (expectedTagAt "WriteProperty request" "closing tag 3 (0x3F)" payload pos)
    else do
      let (priority, _) ← readOptional payload (pos + 1) 4 fun tb =>
        isContext tb && tagNumber tb = 4
      .ok (.writePropertyRequest invokeId object.1 object.2 propId arrayIndex value
        (priority.map UInt32.toUInt8))

def skipArrayIndex (payload : List UInt8) (pos : ℕ) : ℕ :=
  match payload[pos]? with
  | none => pos
  | some tagByte =>
    if isContext tagByte && tagNumber tagByte = 2 then pos + (1 + tagLength tagByte) else pos

def BacnetValue.isUnknown : BacnetValue → Bool
  | .unknown => true
  | _ => false

def ackValue (payload : List UInt8) (s : ℕ × List BacnetValue) :
    Decoder BacnetError (ℕ × List BacnetValue) := do
  let (val, pos) ← decodeValueAt payload s.1
  .ok (pos, if val.isUnknown then s.2 else s.2 ++ [val])

/-- One value stands for itself, any other number of values for a sequence. -/
def collectValues : List BacnetValue → BacnetValue
  | [value] => value
  | values => .array values

def decodeReadPropertyAck (invokeId : UInt8) (payload : List UInt8) : Decoder BacnetError Apdu := do
  let object ← payloadObject payload "ReadProperty-ACK: ObjectId truncated"
    "ReadProperty-ACK: expected 0x0C, got 0x"
  let (propertyId, pos) ← readContextAt payload 5 1
  let pos := skipArrayIndex payload pos
  if payload[pos]? ≠ some 0x3E then
    malformed (expectedTagAt "ReadProperty-ACK" "opening tag 3 (0x3E)" payload pos)
  else do
    let s ← whileLoop (fun s => notYet payload 0x3F s.1) (ackValue payload) (payload.length + 1)
      (pos + 1, [])
    .ok (.readPropertyAck invokeId object.1 object.2 propertyId (collectValues s.2))

def decodeSimpleAck (data : List UInt8) : Decoder BacnetError Apdu :=
  if data.length < 3 then malformed "Simple-ACK too short"
  else do
    let invokeId ← index data 1
    let serviceChoice ← index data 2
    .ok (.simpleAck invokeId serviceChoice)

def decodeConfirmedRequest (data : List UInt8) : Decoder BacnetError Apdu :=
  if data.length < 4 then malformed "Confirmed-Request too short"
  else do
    let invokeId ← index data 2
    let service ← index data 3
    let payload ← suffix data 4
    if service = svcConfirmedReadProperty then decodeReadPropertyRequest invokeId payload
    else if service = svcConfirmedWriteProperty then decodeWritePropertyRequest invokeId payload
    else if service = svcConfirmedReadPropertyMultiple then
      decodeReadPropertyMultipleRequest invokeId payload
    else if service = svcConfirmedCovNotification then do
      let notification ← decodeCovNotificationPayload payload
      .ok (.confirmedCovNotification invokeId notification)
    else do
      let pduType ← index data 0
      .ok (.other pduType invokeId data)

def decodeUnconfirmedRequest (data : List UInt8) : Decoder BacnetError Apdu :=
  if data.length < 2 then malformed "Unconfirmed-Request too short"
  else do
    let service ← index data 1
    let payload ← suffix data 2
    if service = svcUnconfirmedWhois then decodeWhoIs payload
    else if service = svcUnconfirmedIam then decodeIAm payload
    else if service = svcUnconfirmedCovNotification then do
      let notification ← decodeCovNotificationPayload payload
      .ok (.unconfirmedCovNotification notification)
    else do
      let pduType ← index data 0
      .ok (.other pduType 0 data)

def decodeComplexAck (data : List UInt8) : Decoder BacnetError Apdu :=
  if data.length < 3 then malformed "Complex-ACK too short"
  else do
    let invokeId ← index data 1
    let service ← index data 2
    let payload ← suffix data 3
    if service = svcConfirmedReadProperty then decodeReadPropertyAck invokeId payload
    else if service = svcConfirmedReadPropertyMultiple then
      decodeReadPropertyMultipleAck invokeId payload
    else do
      let pduType ← index data 0
      .ok (.other pduType invokeId data)

def decodeErrorPdu (data : List UInt8) : Decoder BacnetError Apdu :=
  if data.length < 3 then malformed "Error PDU too short"
  else do
    let invokeId ← index data 1
    let serviceChoice ← index data 2
    let (errorClass, pos) ← decodeEnumeratedAt data 3
    let (errorCode, _) ← decodeEnumeratedAt data pos
    .ok (.error invokeId serviceChoice errorClass errorCode)

def decodeApdu (data : List UInt8) : Decoder BacnetError Apdu :=
  match data with
  | [] => malformed "empty APDU"
  | first :: _ =>
    let pduType := first &&& 0xF0
    if pduType = 0x00 then decodeConfirmedRequest data
    else if pduType = 0x10 then decodeUnconfirmedRequest data
    else if pduType = 0x20 then decodeSimpleAck data
    else if pduType = 0x30 then decodeComplexAck data
    else if pduType = 0x50 then decodeErrorPdu data
    else .ok (.other first (data[1]?.getD 0) data)

def decodePacket (data : List UInt8) : Decoder BacnetError (NpduHeader × Apdu) := do
  let bvll ← decodeBvllHeader data
  let packet ← range data 4 bvll.length.toNat
  let (npdu, npduLen) ← decodeNpdu packet
  let apdu ← decodeApdu (← suffix packet npduLen)
  .ok (npdu, apdu)

end Sandstar.Bacnet
