import Sandstar.SlotCodec
import Sandstar.TreeRequests
import Sandstar.DynSlots

set_option autoImplicit false

/-!
# SOX commands that read (sox_handlers.rs)

The schema, the version, a component in one of its views, and a property. Dynamic
tags come from the side-car store; the double arithmetic of computed tags is a
record of operations on bit patterns.
-/
namespace Sandstar.SoxReads
open SoxProtocol SoxSlots TreeRequests

structure KitInfo where
  name : String
  checksum : UInt32
  version : String
deriving DecidableEq, Repr

def defaultKits : List KitInfo :=
  [⟨"sys", 0xd3984c51, "1.2.28"⟩, ⟨"EacIo", 0x6f9da65b, "1.2.30"⟩,
    ⟨"control", 0x808b7db3, "1.2.28"⟩, ⟨"driver", 0xb4cc82ce, "1.2.28"⟩,
    ⟨"func", 0x821b7396, "1.2.28"⟩, ⟨"hvac", 0x7264c67c, "1.2.28"⟩,
    ⟨"inet", 0x25648ba7, "1.2.28"⟩, ⟨"logic", 0x9fe95ce1, "1.2.28"⟩,
    ⟨"math", 0xc22b255c, "1.2.28"⟩, ⟨"platUnix", 0x751711ab, "1.2.28"⟩,
    ⟨"pricomp", 0xb5cd6698, "1.2.28"⟩, ⟨"shaystack", 0xedf7a27c, "1.2"⟩,
    ⟨"sox", 0x397a84dd, "1.2.28"⟩, ⟨"types", 0x10936551, "1.2.28"⟩,
    ⟨"web", 0x0d0dd007, "1.2.29"⟩]

def handleReadSchema (req : SoxRequest) : SoxResponse :=
  defaultKits.foldl (fun resp kit => (resp.writeStr kit.name).writeU32 kit.checksum)
    ((SoxResponse.success .readSchema req.reqId).writeU8 (UInt8.ofNat defaultKits.length))

def handleReadVersion (req : SoxRequest) : SoxResponse :=
  let resp := ((SoxResponse.success .readVersion req.reqId).writeStr "EacIo").writeU8 0
  let resp := defaultKits.foldl (fun resp kit => resp.writeStr kit.version) resp
  ((resp.writeU8 1).writeStr "soxVer").writeStr "1.1"

/-- Double arithmetic, conversion and display on bit patterns. -/
structure F64Ops where
  add : UInt64 → UInt64 → UInt64
  sub : UInt64 → UInt64 → UInt64
  mul : UInt64 → UInt64 → UInt64
  div : UInt64 → UInt64 → UInt64
  isZero : UInt64 → Bool
  ofInt : Int64 → UInt64
  toF32 : UInt64 → UInt32
  display : UInt64 → String

section Dynamic

variable (f64 : F64Ops)

def asF64 : DynValue → Option UInt64
  | .float bits => some bits
  | .int i => some (f64.ofInt i)
  | _ => none

def toDisplayString : DynValue → String
  | .null => ""
  | .marker => "✓"
  | .bool b => if b then "true" else "false"
  | .int i => toString i.toInt
  | .float bits => f64.display bits
  | .str s => s
  | .ref r => r

def applyNumericOp (op : NumericOp) (l r : UInt64) : DynValue :=
  match op with
  | .add => .float (f64.add l r)
  | .sub => .float (f64.sub l r)
  | .mul => .float (f64.mul l r)
  | .div => if f64.isZero r then .null else .float (f64.div l r)

def evaluateFormula (tags : Option Tags) : ComputedFormula → DynValue
  | .constant value => value
  | .copyTag source => (tags.bind fun t => t.get source).getD .null
  | .concat sources =>
    .str (match tags with
      | none => ""
      | some t => sources.foldl (fun buf src =>
          match t.get src with
          | some value => buf ++ toDisplayString f64 value
          | none => buf) "")
  | .numericOp left op right =>
    match (tags.bind fun t => t.get left).bind (asF64 f64),
        (tags.bind fun t => t.get right).bind (asF64 f64) with
    | some l, some r => applyNumericOp f64 op l r
    | _, _ => .null
  | .tagExists tag trueVal falseVal =>
    if (tags.bind fun t => t.get tag).isSome then trueVal else falseVal

def getAllWithComputed (store : DynSlotStore) (compId : UInt16) : Tags :=
  ((store.computed.get compId).getD []).foldl
    (fun result slot =>
      if (result.get slot.name).isSome then result
      else result.insert slot.name
        (evaluateFormula f64 (store.slots.get compId) slot.formula))
    ((store.slots.get compId).getD Table.empty)

def encodeDynValue (resp : SoxResponse) : DynValue → SoxResponse
  | .null => resp.writeU8 0
  | .marker => resp.writeU8 1
  | .bool b => (resp.writeU8 2).writeU8 (if b then 1 else 0)
  | .int i => (resp.writeU8 3).writeU32 i.toInt32.toUInt32
  | .float bits => (resp.writeU8 4).writeU32 (f64.toF32 bits)
  | .str s => (resp.writeU8 5).writeStr s
  | .ref r => (resp.writeU8 6).writeStr r

def writeTag (tags : Tags) (resp : SoxResponse) (key : String) : SoxResponse :=
  match tags.get key with
  | some value => encodeDynValue f64 (resp.writeStr key) value
  | none => resp

def handleReadCompDynamic (compId : UInt16) (dynStore : Option DynSlotStore) (resp : SoxResponse) :
    SoxResponse :=
  match dynStore with
  | none => resp.writeU16 0
  | some store =>
    let tags := getAllWithComputed f64 store compId
    (tags.keys.sort (· ≤ ·)).foldl (writeTag f64 tags) (resp.writeU16 (UInt16.ofNat tags.size))

end Dynamic

def isConfig (s : VirtualSlot) : Bool := s.flags &&& slotFlagConfig ≠ 0

def writeSlots (resp : SoxResponse) (slots : List VirtualSlot) : SoxResponse :=
  slots.foldl (fun resp slot => encodeSlotValue resp slot.value) resp

def writeLink (resp : SoxResponse) (link : Link) : SoxResponse :=
  (((resp.writeU16 link.fromComp).writeU8 link.fromSlot).writeU16 link.toComp).writeU8 link.toSlot

def writeTree (resp : SoxResponse) (comp : VirtualComponent) : SoxResponse :=
  let resp := (((resp.writeU8 comp.kitId).writeU8 comp.typeId).writeStr comp.name).writeU16
    comp.parentId
  comp.children.foldl (fun resp childId => resp.writeU16 childId)
    ((resp.writeU8 0xFF).writeU8 (UInt8.ofNat comp.children.length))

/-- The views of a component that readComp and subscribe share: tree ('t'), config ('c'),
    runtime ('r') and links ('l'); any other letter adds nothing. -/
def writeView (resp : SoxResponse) (comp : VirtualComponent) (what : UInt8) : SoxResponse :=
  if what = 116 then writeTree resp comp
  else if what = 99 then
    writeSlots resp (comp.slots.filter fun s => !isAction s && isConfig s)
  else if what = 114 then
    writeSlots resp (comp.slots.filter fun s => !isAction s && !isConfig s)
  else if what = 108 then (comp.links.foldl writeLink resp).writeU16 0xFFFF
  else resp

def handleReadComp (f64 : F64Ops) (req : SoxRequest) (tree : ComponentTree)
    (dynStore : Option DynSlotStore) : SoxResponse :=
  match (SoxReader.mk req.payload).readU16 with
  | (none, _) => errorMsg req "missing compId"
  | (some compId, r) =>
    let what := r.readU8.1.getD 116
    match tree.get compId with
    | none => errorMsg req "unknown comp"
    | some comp =>
      let resp := ((SoxResponse.success .readComp req.reqId).writeU16 comp.compId).writeU8 what
      if what = 100 then handleReadCompDynamic f64 compId dynStore resp
      else writeView resp comp what

def handleReadProp (req : SoxRequest) (tree : ComponentTree) : SoxResponse :=
  match (SoxReader.mk req.payload).readU16 with
  | (none, _) => errorMsg req "missing compId"
  | (some compId, r) =>
    match r.readU8.1 with
    | none => errorMsg req "missing slotId"
    | some slotId =>
      match tree.get compId with
      | none => errorMsg req "unknown comp"
      | some comp =>
        let resp := ((SoxResponse.success .readProp req.reqId).writeU16 compId).writeU8 slotId
        match comp.slots[slotId.toNat]? with
        | none => (resp.writeU8 SoxValueType.float.code).writeU32 0
        | some slot => encodeSlotValue (resp.writeU8 slot.typeId) slot.value

end Sandstar.SoxReads
