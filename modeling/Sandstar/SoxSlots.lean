import Sandstar.ComponentTree

set_option autoImplicit false

namespace Sandstar.SoxSlots
open SoxProtocol SoxValueType

def slot (name : String) (type : SoxValueType) (flags : UInt8) (value : SlotValue) : VirtualSlot :=
  ⟨name, type.code, flags, value⟩

def metaSlot : VirtualSlot := slot "meta" int slotFlagConfig (.int 1)

def defaultSlotsForType (kitId typeId : UInt8) : List VirtualSlot :=
  if (kitId, typeId) = (2, 14) then
    [metaSlot, slot "out" float slotFlagConfig (.float 0),
      slot "set" float slotFlagAction (.float 0), slot "setNull" void slotFlagAction .null]
  else if (kitId, typeId) = (2, 15) then
    [metaSlot, slot "out" int slotFlagConfig (.int 0), slot "set" int slotFlagAction (.int 0)]
  else if (kitId, typeId) = (2, 3) ∨ (kitId, typeId) = (2, 49) ∨ (kitId, typeId) = (2, 37) then
    [metaSlot, slot "out" float slotFlagRuntime (.float 0),
      slot "in1" float slotFlagRuntime (.float 0), slot "in2" float slotFlagRuntime (.float 0)]
  else if (kitId, typeId) = (2, 18) then
    [metaSlot, slot "out" float slotFlagRuntime (.float 0),
      slot "in1" float slotFlagRuntime (.float 0), slot "in2" float slotFlagRuntime (.float 0),
      slot "div0" bool slotFlagRuntime (.bool false)]
  else if (kitId, typeId) = (2, 13) then
    [metaSlot, slot "out" bool slotFlagConfig (.bool false),
      slot "setTrue" void slotFlagAction .null, slot "setFalse" void slotFlagAction .null,
      slot "setNull" void slotFlagAction .null]
  else if (kitId, typeId) = (2, 56) then
    [metaSlot, slot "in" bool slotFlagConfig (.bool false),
      slot "out" bool slotFlagRuntime (.bool false), slot "setTrue" void slotFlagAction .null,
      slot "setFalse" void slotFlagAction .null, slot "setNull" void slotFlagAction .null]
  else if (kitId, typeId) = (2, 57) then
    [metaSlot, slot "in" float slotFlagConfig (.float 0),
      slot "out" float slotFlagRuntime (.float 0), slot "set" float slotFlagAction (.float 0),
      slot "setNull" void slotFlagAction .null]
  else if (kitId, typeId) = (2, 58) then
    [metaSlot, slot "in" int slotFlagConfig (.int 0), slot "out" int slotFlagRuntime (.int 0),
      slot "set" int slotFlagAction (.int 0)]
  else if (kitId, typeId) = (1, 100) then
    [metaSlot, slot "channelId" int slotFlagConfig (.int 0),
      slot "out" float slotFlagRuntime (.float 0), slot "status" buf slotFlagRuntime (.str "")]
  else [metaSlot]

/-- Decoding never fails on a type without a wire form: it gives null. -/
def decodeSlotValue (r : SoxReader) (typeId : UInt8) : Option SlotValue × SoxReader :=
  if typeId = bool.code then (r.readU8.1.map fun v => .bool (v ≠ 0), r.readU8.2)
  else if typeId = int.code then (r.readI32.1.map .int, r.readI32.2)
  else if typeId = long.code then (r.readU64.1.map fun v => .long v.toInt64, r.readU64.2)
  else if typeId = float.code then (r.readU32.1.map .float, r.readU32.2)
  else if typeId = double.code then (r.readU64.1.map .double, r.readU64.2)
  else if typeId = buf.code then
    match r.readU16 with
    | (some len, r) => ((r.readBytes len.toNat).1.map .buf, (r.readBytes len.toNat).2)
    | (none, r) => (none, r)
  else if typeId = byte.code then
    (r.readU8.1.map fun v => .int v.toUInt32.toInt32, r.readU8.2)
  else if typeId = short.code then
    (r.readU16.1.map fun v => .int v.toUInt32.toInt32, r.readU16.2)
  else (some .null, r)

def encodePosition (x y : UInt8) : SlotValue :=
  .int ((1 : UInt32) ||| x.toUInt32 <<< 16 ||| y.toUInt32 <<< 24).toInt32

/-- A channel as the engine lists it; `cur` is the bit pattern of a double. -/
structure ChannelInfo where
  id : UInt32
  label : String
  channelType : String
  direction : String
  enabled : Bool
  status : String
  cur : UInt64
  raw : UInt64
  deriving DecidableEq, Repr

def f64ToF32 (bits : UInt64) : UInt32 := (Float.ofBits bits).toFloat32.toBits

def channelTypeName (direction : String) : String :=
  if direction = "AI" ∨ direction = "ao" ∨ direction = "AO" then "control::NumericPoint"
  else if direction = "DI" ∨ direction = "do" ∨ direction = "DO" then "control::BooleanPoint"
  else "control::NumericPoint"

def channelSlots (ch : ChannelInfo) : List VirtualSlot :=
  [metaSlot, slot "channelName" buf slotFlagRuntime (.str ch.label),
    slot "channel" int slotFlagRuntime (.int ch.id.toInt32),
    slot "pointQuery" buf slotFlagConfig (.str ""),
    slot "pointQuerySize" int slotFlagRuntime (.int 0),
    slot "pointQueryStatus" bool slotFlagRuntime (.bool false),
    slot "out" float slotFlagRuntime (.float (f64ToF32 ch.cur)),
    slot "curStatus" buf slotFlagRuntime (.str ch.status),
    slot "enabled" bool slotFlagRuntime (.bool ch.enabled)]

def setValue (v : SlotValue) (s : VirtualSlot) : VirtualSlot := { s with value := v }

def channelSlotsWithPos (ch : ChannelInfo) (x y : UInt8) : List VirtualSlot :=
  (channelSlots ch).modifyHead (setValue (encodePosition x y))

end Sandstar.SoxSlots

/-!
# Building the tree from the engine's channels (sox_handlers.rs)

Seven system components, then one component per channel under the io folder, with
id 100 plus the channel's index. The index is cut to 16 bits and the sum wraps.
-/
namespace Sandstar.ComponentTree
open SoxProtocol SoxSlots

def systemComponent (compId parentId : UInt16) (name typeName : String) (kitId typeId : UInt8)
    (slots : List VirtualSlot) : VirtualComponent :=
  ⟨compId, parentId, name, typeName, kitId, typeId, [], slots, []⟩

def app : VirtualComponent := systemComponent 0 noParent "app" "sys::App" 0 10
  [slot "appName" .float slotFlagConfig (.str "sandstar")]

def service : VirtualComponent := systemComponent 1 0 "service" "sys::Folder" 0 11 []

def sox : VirtualComponent := systemComponent 2 1 "sox" "sox::SoxService" 12 1
  [slot "port" .int slotFlagConfig (.int 1876)]

def users : VirtualComponent := systemComponent 3 1 "users" "sys::UserService" 0 16 []

def plat : VirtualComponent := systemComponent 4 1 "plat" "sys::PlatformService" 0 13
  [slot "platformId" .float slotFlagProperty (.str "sandstar-rust")]

def io : VirtualComponent := systemComponent 5 0 "io" "sys::Folder" 0 11 []

def control : VirtualComponent := systemComponent 6 0 "control" "sys::Folder" 0 11 []

def systemTree (db : ManifestDb) : ComponentTree :=
  [app, service, sox, users, plat, io, control].foldl add (newWithManifest db)

def channelComponent (entry : ChannelInfo × ℕ) : VirtualComponent :=
  let (ch, i) := entry
  let x : UInt8 := 2 + UInt8.ofNat (i % 6) * 30
  let y : UInt8 := 2 + UInt8.ofNat (i / 6) * 12
  ⟨channelCompBase + UInt16.ofNat i, 5, "ch_" ++ toString ch.id, channelTypeName ch.direction,
    1, 0, [], channelSlotsWithPos ch x y, []⟩

def isOutput (ch : ChannelInfo) : Bool :=
  ch.direction.toLower = "out" || ch.direction.toLower = "ao" || ch.direction.toLower = "do"

def fromChannelsWithManifest (channels : List ChannelInfo) (db : ManifestDb) : ComponentTree :=
  { (channels.zipIdx.map channelComponent).foldl add (systemTree db) with
    channelCompEnd := channelCompBase + UInt16.ofNat channels.length
    outputChannelIds := ((channels.filter isOutput).map fun ch => ch.id.toInt32).toFinset }

def fromChannels (channels : List ChannelInfo) : ComponentTree :=
  fromChannelsWithManifest channels ManifestDb.new

end Sandstar.ComponentTree
