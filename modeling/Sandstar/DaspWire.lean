import Sandstar.Cursor
import Sandstar.SoxProtocol

set_option autoImplicit false

/-!
# DASP messages on the wire (dasp.rs)

A header is five fixed bytes and up to fifteen tagged fields; the low two bits of a
field's id give the type of its value. The parser keeps its own bounds checks, and an
index outside the packet, which the source would panic on, is an outcome of the model.
-/
namespace Sandstar.Dasp
open SoxProtocol Utf8 Cursor

inductive DaspMsgType where
  | discover | hello | challenge | authenticate | welcome | keepalive | datagram | close
  deriving DecidableEq, Repr

namespace DaspMsgType

def byte : DaspMsgType → UInt8
  | discover => 0
  | hello => 1
  | challenge => 2
  | authenticate => 3
  | welcome => 4
  | keepalive => 5
  | datagram => 6
  | close => 7

def fromU8 (v : UInt8) : Option DaspMsgType :=
  if v = 0 then some discover
  else if v = 1 then some hello
  else if v = 2 then some challenge
  else if v = 3 then some authenticate
  else if v = 4 then some welcome
  else if v = 5 then some keepalive
  else if v = 6 then some datagram
  else if v = 7 then some close
  else none

end DaspMsgType

namespace FieldId

def version : UInt8 := 0x05
def remoteId : UInt8 := 0x09
def digestAlgorithm : UInt8 := 0x0e
def nonce : UInt8 := 0x13
def username : UInt8 := 0x16
def digest : UInt8 := 0x1b
def idealMax : UInt8 := 0x1d
def absMax : UInt8 := 0x21
def ack : UInt8 := 0x25
def ackMore : UInt8 := 0x2b
def receiveMax : UInt8 := 0x2d
def receiveTimeout : UInt8 := 0x31
def errorCode : UInt8 := 0x35
def platformId : UInt8 := 0x3a

end FieldId

def idealMaxDefault : UInt16 := 512
def absMaxDefault : UInt16 := 512
def receiveMaxDefault : UInt16 := 31
def receiveTimeoutSecsDefault : UInt16 := 30

structure DaspHeader where
  sessionId : UInt16
  seqNum : UInt16
  msgType : DaspMsgType
  version : Option UInt16
  remoteId : Option UInt16
  digestAlgorithm : Option String
  nonce : Option (List UInt8)
  username : Option String
  digest : Option (List UInt8)
  idealMax : Option UInt16
  absMax : Option UInt16
  ack : Option UInt16
  ackMore : Option (List UInt8)
  receiveMax : Option UInt16
  receiveTimeoutSecs : Option UInt16
  errorCode : Option UInt16
  platformId : Option String
  payloadOffset : ℕ
  deriving DecidableEq, Repr

def DaspHeader.bare (sessionId seqNum : UInt16) (msgType : DaspMsgType) : DaspHeader :=
  ⟨sessionId, seqNum, msgType, none, none, none, none, none, none, none, none, none, none, none,
    none, none, none, 0⟩

inductive FieldValue where
  | nil
  | u2 (v : UInt16)
  | str (s : String)
  | bytes (b : List UInt8)
  deriving DecidableEq, Repr

/-- One field from `pos` on: its id, its value, and the position after it. -/
def readField (data : List UInt8) (pos : ℕ) : Except ReadError (UInt8 × FieldValue × ℕ) :=
  if data.length ≤ pos then .error .malformed
  else do
    let id ← byteAt data pos
    let pos := pos + 1
    let fieldType := id &&& 3
    if fieldType = 0 then .ok (id, .nil, pos)
    else if fieldType = 1 then
      if data.length < pos + 2 then .error .malformed
      else do
        let hi ← byteAt data pos
        let lo ← byteAt data (pos + 1)
        .ok (id, .u2 (beU16 hi lo), pos + 2)
    else if fieldType = 2 then do
      let stop ← scanTo 0 data (data.length - pos) pos
      if data.length ≤ stop then .error .malformed
      else do
        let s ← slice data pos stop
        .ok (id, .str (fromUtf8Lossy s), stop + 1)
    else if data.length ≤ pos then .error .malformed
    else do
      let blen ← byteAt data pos
      let pos := pos + 1
      if data.length < pos + blen.toNat then .error .malformed
      else do
        let b ← slice data pos (pos + blen.toNat)
        .ok (id, .bytes b, pos + blen.toNat)

def DaspHeader.setField (hdr : DaspHeader) (id : UInt8) : FieldValue → DaspHeader
  | .nil => hdr
  | .u2 v =>
    if id = FieldId.version then { hdr with version := some v }
    else if id = FieldId.remoteId then { hdr with remoteId := some v }
    else if id = FieldId.idealMax then { hdr with idealMax := some v }
    else if id = FieldId.absMax then { hdr with absMax := some v }
    else if id = FieldId.ack then { hdr with ack := some v }
    else if id = FieldId.receiveMax then { hdr with receiveMax := some v }
    else if id = FieldId.receiveTimeout then { hdr with receiveTimeoutSecs := some v }
    else if id = FieldId.errorCode then { hdr with errorCode := some v }
    else hdr
  | .str s =>
    if id = FieldId.digestAlgorithm then { hdr with digestAlgorithm := some s }
    else if id = FieldId.username then { hdr with username := some s }
    else if id = FieldId.platformId then { hdr with platformId := some s }
    else hdr
  | .bytes b =>
    if id = FieldId.nonce then { hdr with nonce := some b }
    else if id = FieldId.digest then { hdr with digest := some b }
    else if id = FieldId.ackMore then { hdr with ackMore := some b }
    else hdr

def parseFields (data : List UInt8) : ℕ → ℕ → DaspHeader → Except ReadError (DaspHeader × ℕ)
  | 0, pos, hdr => .ok (hdr, pos)
  | count + 1, pos, hdr => do
    let (id, value, pos) ← readField data pos
    parseFields data count pos (hdr.setField id value)

def parseHeader (data : List UInt8) : Except ReadError DaspHeader :=
  if data.length < 5 then .error .malformed
  else do
    let b0 ← byteAt data 0
    let b1 ← byteAt data 1
    let b2 ← byteAt data 2
    let b3 ← byteAt data 3
    let typeFields ← byteAt data 4
    match DaspMsgType.fromU8 (typeFields >>> 4) with
    | none => .error .malformed
    | some msgType =>
      let (hdr, pos) ← parseFields data (typeFields &&& 0x0f).toNat 5
        (DaspHeader.bare (beU16 b0 b1) (beU16 b2 b3) msgType)
      .ok { hdr with payloadOffset := pos }

/-- The fields the encoder writes, in its order. Tuning fields equal to their
    defaults are left out. -/
def DaspHeader.fields (hdr : DaspHeader) : List (Option (UInt8 × FieldValue)) :=
  [hdr.version.map fun v => (FieldId.version, .u2 v),
    hdr.remoteId.map fun v => (FieldId.remoteId, .u2 v),
    hdr.digestAlgorithm.map fun s => (FieldId.digestAlgorithm, .str s),
    hdr.nonce.map fun b => (FieldId.nonce, .bytes b),
    hdr.username.map fun s => (FieldId.username, .str s),
    hdr.digest.map fun b => (FieldId.digest, .bytes b),
    (hdr.idealMax.filter (· ≠ idealMaxDefault)).map fun v => (FieldId.idealMax, .u2 v),
    (hdr.absMax.filter (· ≠ absMaxDefault)).map fun v => (FieldId.absMax, .u2 v),
    hdr.ack.map fun v => (FieldId.ack, .u2 v),
    hdr.ackMore.map fun b => (FieldId.ackMore, .bytes b),
    (hdr.receiveMax.filter (· ≠ receiveMaxDefault)).map fun v => (FieldId.receiveMax, .u2 v),
    (hdr.receiveTimeoutSecs.filter (· ≠ receiveTimeoutSecsDefault)).map
      fun v => (FieldId.receiveTimeout, .u2 v),
    hdr.errorCode.map fun v => (FieldId.errorCode, .u2 v),
    hdr.platformId.map fun s => (FieldId.platformId, .str s)]

def encodeField : UInt8 × FieldValue → List UInt8
  | (id, .nil) => [id]
  | (id, .u2 v) => id :: beBytes16 v
  | (id, .str s) => id :: (asBytes s ++ [0])
  | (id, .bytes b) => id :: UInt8.ofNat b.length :: b

def encodeMessage (hdr : DaspHeader) (payload : List UInt8) : List UInt8 :=
  let fields := hdr.fields.reduceOption
  beBytes16 hdr.sessionId ++ beBytes16 hdr.seqNum ++
    [hdr.msgType.byte <<< 4 ||| (UInt8.ofNat fields.length &&& 0x0f)] ++
    fields.flatMap encodeField ++ payload

end Sandstar.Dasp
