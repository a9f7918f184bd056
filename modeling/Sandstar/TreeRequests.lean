import Sandstar.SoxSlots

set_option autoImplicit false

/-!
# Requests that change the component tree

The mutating handlers of the three front ends: SOX commands (sox_handlers.rs), the
REST API (rest/sox_api.rs) and RoWS (rest/rows.rs). Each handler first decodes and
checks its request, then changes the tree and answers. The answer to a rejected
request is kept beside the unchanged tree.
-/
namespace Sandstar.TreeRequests
open SoxProtocol SoxSlots ComponentTree

def errorMsg (req : SoxRequest) (msg : String) : SoxResponse :=
  (SoxResponse.error req.cmd req.reqId).writeStr msg

def isAsciiAlphabetic (n : ℕ) : Bool := (65 ≤ n && n ≤ 90) || (97 ≤ n && n ≤ 122)

def isAsciiAlphanumeric (n : ℕ) : Bool := isAsciiAlphabetic n || (48 ≤ n && n ≤ 57)

def maxNameLen : ℕ := 31

def validateSoxName (name : String) : Option String :=
  if name = "" then some "name cannot be empty"
  else if maxNameLen < name.utf8ByteSize then some "name too long (max 31 chars)"
  else if !(name.toList.head?.any fun c => isAsciiAlphabetic c.toNat) then
    some "name must start with a letter"
  else if !(name.toList.all fun c => isAsciiAlphanumeric c.toNat || c = '_') then
    some "name can only contain letters, numbers, and underscores"
  else none

def validateName (name : String) : Option String :=
  if name = "" then some "name cannot be empty"
  else if maxNameLen < name.utf8ByteSize then some "name too long (max 31 chars)"
  else if !((Utf8.asBytes name).head?.any fun b => isAsciiAlphabetic b.toNat) then
    some "name must start with a letter"
  else if !((Utf8.asBytes name).tail.all fun b => isAsciiAlphanumeric b.toNat || b = 95) then
    some "name can only contain letters, numbers, and underscores"
  else none

def newComponent (t : ComponentTree) (parentId : UInt16) (name typeName : String)
    (kitId typeId : UInt8) (slots : List VirtualSlot) : VirtualComponent :=
  ⟨t.nextCompId, parentId, name, typeName, kitId, typeId, [], slots, []⟩

def decodeAdd (req : SoxRequest) (t : ComponentTree) : Except String VirtualComponent :=
  let r : SoxReader := ⟨req.payload⟩
  match r.readU16 with
  | (none, _) => .error "missing parentId"
  | (some parentId, r) =>
    let kitId := r.readU8.1.getD 0
    let r := r.readU8.2
    let typeId := r.readU8.1.getD 0
    let r := r.readU8.2
    let name := r.readStr.1.getD ""
    match validateSoxName name with
    | some err => .error err
    | none =>
      if (t.get parentId).isNone then .error "bad compId"
      else .ok (newComponent t parentId name
        ("kit" ++ toString kitId ++ "::type" ++ toString typeId) kitId typeId
        (match t.manifestDb.getSlots kitId typeId with
          | some slots => ManifestDb.slotsToVirtual slots
          | none => defaultSlotsForType kitId typeId))

def handleAdd (req : SoxRequest) (t : ComponentTree) : ComponentTree × SoxResponse :=
  match decodeAdd req t with
  | .error msg => (t, errorMsg req msg)
  | .ok comp =>
    ((t.add comp).markUserAdded comp.compId,
      (SoxResponse.success .add req.reqId).writeU16 comp.compId)

def decodeDelete (req : SoxRequest) : Except String UInt16 :=
  match (SoxReader.mk req.payload).readU16.1 with
  | none => .error "missing compId"
  | some compId => if compId < 7 then .error "cannot delete system component" else .ok compId

def handleDelete (req : SoxRequest) (t : ComponentTree) : ComponentTree × SoxResponse :=
  match decodeDelete req with
  | .error msg => (t, errorMsg req msg)
  | .ok compId =>
    match t.remove compId with
    | (none, _) => (t, errorMsg req "bad compId")
    | (some _, t') =>
      (if t.isUserAdded compId then
          { t' with userAddedIds := t'.userAddedIds.erase compId, dirty := true }
        else t',
        SoxResponse.success .delete req.reqId)

def decodeRename (req : SoxRequest) : Except String (UInt16 × String) :=
  match (SoxReader.mk req.payload).readU16 with
  | (none, _) => .error "missing compId"
  | (some compId, r) =>
    let newName := r.readStr.1.getD ""
    match validateSoxName newName with
    | some err => .error err
    | none => .ok (compId, newName)

def handleRename (req : SoxRequest) (t : ComponentTree) : ComponentTree × SoxResponse :=
  match decodeRename req with
  | .error msg => (t, errorMsg req msg)
  | .ok (compId, newName) =>
    match t.rename compId newName with
    | (false, _) => (t, errorMsg req "bad compId")
    | (true, t') =>
      (if t'.isUserAdded compId then t'.markDirty else t', SoxResponse.success .rename req.reqId)

def decodeLink (req : SoxRequest) : Except String (UInt8 × Link) :=
  match (SoxReader.mk req.payload).readU8 with
  | (none, _) => .error "missing subcmd"
  | (some subcmd, r) =>
    match r.readU16 with
    | (none, _) => .error "missing fromCompId"
    | (some fromComp, r) =>
      match r.readU8 with
      | (none, _) => .error "missing fromSlotId"
      | (some fromSlot, r) =>
        match r.readU16 with
        | (none, _) => .error "missing toCompId"
        | (some toComp, r) =>
          match r.readU8 with
          | (none, _) => .error "missing toSlotId"
          | (some toSlot, _) => .ok (subcmd, ⟨fromComp, fromSlot, toComp, toSlot⟩)

def markLinkDirty (t : ComponentTree) (l : Link) : ComponentTree :=
  if t.isUserAdded l.fromComp || t.isUserAdded l.toComp then t.markDirty else t

def handleLink (req : SoxRequest) (t : ComponentTree) : ComponentTree × SoxResponse :=
  match decodeLink req with
  | .error msg => (t, errorMsg req msg)
  | .ok (subcmd, l) =>
    if subcmd = 97 then
      if t.wouldCreateCycle l.fromComp l.toComp then
        (t, errorMsg req "link rejected: would create cycle")
      else
        match t.addLink l.fromComp l.fromSlot l.toComp l.toSlot with
        | (true, t') => (markLinkDirty t' l, SoxResponse.success .link req.reqId)
        | (false, _) => (t, errorMsg req "link add failed")
    else if subcmd = 100 then
      match t.removeLink l.fromComp l.fromSlot l.toComp l.toSlot with
      | (true, t') => (markLinkDirty t' l, SoxResponse.success .link req.reqId)
      | (false, t') => (t', errorMsg req "link not found")
    else (t, errorMsg req "unknown link subcmd")

def readIds : ℕ → SoxReader → Option (List UInt16)
  | 0, _ => some []
  | count + 1, r =>
    match r.readU16 with
    | (none, _) => none
    | (some id, r) => (readIds count r).map (id :: ·)

def decodeReorder (req : SoxRequest) : Except String (UInt16 × List UInt16) :=
  match (SoxReader.mk req.payload).readU16 with
  | (none, _) => .error "missing parentId"
  | (some parentId, r) =>
    match r.readU8 with
    | (none, _) => .error "missing childCount"
    | (some count, r) =>
      match readIds count.toNat r with
      | none => .error "missing childId"
      | some childIds => .ok (parentId, childIds)

def handleReorder (req : SoxRequest) (t : ComponentTree) : ComponentTree × SoxResponse :=
  match decodeReorder req with
  | .error msg => (t, errorMsg req msg)
  | .ok (parentId, childIds) =>
    match t.reorderChildren parentId childIds with
    | (true, t') => (t', SoxResponse.success .reorder req.reqId)
    | (false, _) => (t, errorMsg req "reorder failed")

def withSlots (t : ComponentTree) (compId : UInt16)
    (f : List VirtualSlot → List VirtualSlot) : ComponentTree :=
  t.modify compId fun c => { c with slots := f c.slots }

def updateFirst (p : VirtualSlot → Bool) (f : VirtualSlot → VirtualSlot) :
    List VirtualSlot → List VirtualSlot
  | [] => []
  | s :: ss => if p s then f s :: ss else s :: updateFirst p f ss

def isAction (s : VirtualSlot) : Bool := s.flags &&& slotFlagAction ≠ 0

def invokeTarget (slots : List VirtualSlot) : Option VirtualSlot :=
  (slots.find? fun s => s.name = "out" && !isAction s).orElse
    fun _ => slots.find? fun s => s.name = "in" && !isAction s

def invokeValue (action : String) (targetType : UInt8) (r : SoxReader) : Option SlotValue :=
  if action = "set" then
    if targetType = SoxValueType.int.code then r.readI32.1.map .int
    else if targetType = SoxValueType.bool.code then r.readU8.1.map fun v => .bool (v ≠ 0)
    else r.readU32.1.map .float
  else if action = "setTrue" then some (.bool true)
  else if action = "setFalse" then some (.bool false)
  else if action = "setNull" then some .null
  else if action = "save" ∨ action = "hibernate" then none
  else r.readU32.1.map .float

def markIfUserAdded (t : ComponentTree) (compId : UInt16) : ComponentTree :=
  if t.isUserAdded compId then t.markDirty else t

def handleInvoke (req : SoxRequest) (t : ComponentTree) : ComponentTree × SoxResponse :=
  let r : SoxReader := ⟨req.payload⟩
  let compId := r.readU16.1.getD 0
  let r := r.readU16.2
  let slotId := r.readU8.1.getD 0
  let r := r.readU8.2
  let slots := ((t.get compId).map VirtualComponent.slots).getD []
  let action := (slots[slotId.toNat]?.map VirtualSlot.name).getD ""
  let target := invokeTarget slots
  let targetName := (target.map VirtualSlot.name).getD ""
  let targetType := (target.map VirtualSlot.typeId).getD SoxValueType.float.code
  (match invokeValue action targetType r with
    | some v =>
      markIfUserAdded (withSlots t compId (updateFirst (·.name = targetName) (setValue v))) compId
    | none => t,
    SoxResponse.success .invoke req.reqId)

def extendSlots (typeId : UInt8) (slotId : ℕ) (slots : List VirtualSlot) : List VirtualSlot :=
  slots ++ (List.range' slots.length (slotId + 1 - slots.length)).map fun i =>
    ⟨"slot" ++ toString i, typeId, slotFlagRuntime, .null⟩

def writeSlotAt (typeId : UInt8) (slotId : ℕ) (v : SlotValue) (slots : List VirtualSlot) :
    List VirtualSlot :=
  (extendSlots typeId slotId slots).modify slotId fun s => { s with typeId := typeId, value := v }

def slotTypeAt (t : ComponentTree) (compId : UInt16) (slotId : ℕ) : UInt8 :=
  (((t.get compId).bind fun c => c.slots[slotId]?).map VirtualSlot.typeId).getD
    SoxValueType.float.code

def handleWrite (req : SoxRequest) (t : ComponentTree) : ComponentTree × SoxResponse :=
  match (SoxReader.mk req.payload).readU16 with
  | (none, _) => (t, errorMsg req "missing compId")
  | (some compId, r) =>
    match r.readU8 with
    | (none, _) => (t, errorMsg req "missing slotId")
    | (some slotId, r) =>
      let typeId := slotTypeAt t compId slotId.toNat
      match (decodeSlotValue r typeId).1 with
      | none => (t, errorMsg req "bad value")
      | some v =>
        if (t.get compId).isNone then (t, errorMsg req "unknown comp")
        else (markIfUserAdded (withSlots t compId (writeSlotAt typeId slotId.toNat v)) compId,
          SoxResponse.success .write req.reqId)

/-- The tree after `handle_sox_request`. The commands not named here (reads,
    subscriptions, file transfer) take the tree by shared reference or not at all. -/
def handleSoxRequest (req : SoxRequest) (t : ComponentTree) : ComponentTree :=
  match req.cmd with
  | .add => (handleAdd req t).1
  | .delete => (handleDelete req t).1
  | .rename => (handleRename req t).1
  | .link => (handleLink req t).1
  | .reorder => (handleReorder req t).1
  | .invoke => (handleInvoke req t).1
  | .write => (handleWrite req t).1
  | _ => t

/-! A JSON body is taken as the function that coerces it to the slot type asked for
(`json_to_slot_value` applied to the body). -/

structure HttpResponse where
  status : ℕ
  body : String
  deriving DecidableEq, Repr

def notFound (id : UInt16) : String := "component " ++ toString id ++ " not found"

def manifestSlots (db : ManifestDb) (kitId typeId : UInt8) : List VirtualSlot :=
  match db.getSlots kitId typeId with
  | some slots => ManifestDb.slotsToVirtual slots
  | none => [metaSlot]

def manifestTypeName (db : ManifestDb) (kitId typeId : UInt8) : String :=
  (db.typeName kitId typeId).getD ("Type_" ++ toString kitId ++ "_" ++ toString typeId)

/-- The component that `add_comp` and RoWS addComp build after their checks. -/
def manifestComponent (t : ComponentTree) (parentId : UInt16) (kitId typeId : UInt8)
    (name : String) : VirtualComponent :=
  newComponent t parentId name (manifestTypeName t.manifestDb kitId typeId) kitId typeId
    (manifestSlots t.manifestDb kitId typeId)

def addComp (t : ComponentTree) (parentId : UInt16) (kitId typeId : UInt8) (name : String) :
    ComponentTree × HttpResponse :=
  match validateName name with
  | some err => (t, ⟨400, err⟩)
  | none =>
    if (t.get parentId).isNone then (t, ⟨400, "parent " ++ toString parentId ++ " not found"⟩)
    else
      let comp := manifestComponent t parentId kitId typeId name
      (((t.add comp).markUserAdded comp.compId).markDirty,
        ⟨201, "\x7b\"compId\":" ++ toString comp.compId ++ "\x7d"⟩)

def dropLinksOf (t : ComponentTree) (id : UInt16) : ComponentTree :=
  (((t.get id).map VirtualComponent.links).getD []).foldl
    (fun t l => (t.removeLink l.fromComp l.fromSlot l.toComp l.toSlot).2) t

/-- The id stays in the user-added set. -/
def deleteComp (t : ComponentTree) (id : UInt16) : ComponentTree × HttpResponse :=
  if id < 7 then (t, ⟨403, "cannot delete system components (id < 7)"⟩)
  else
    match (dropLinksOf t id).remove id with
    | (some _, t') => (t'.markDirty, ⟨204, ""⟩)
    | (none, t') => (t', ⟨404, notFound id⟩)

def renameComp (t : ComponentTree) (id : UInt16) (name : String) : ComponentTree × HttpResponse :=
  match validateName name with
  | some err => (t, ⟨400, err⟩)
  | none =>
    match t.rename id name with
    | (true, t') => (t'.markDirty, ⟨204, ""⟩)
    | (false, _) => (t, ⟨404, notFound id⟩)

def writeSlot (t : ComponentTree) (id : UInt16) (idx : ℕ) (coerce : UInt8 → Option SlotValue) :
    ComponentTree × HttpResponse :=
  match t.get id with
  | none => (t, ⟨404, notFound id⟩)
  | some comp =>
    match comp.slots[idx]? with
    | none => (t, ⟨400, "slot index " ++ toString idx ++ " out of range"⟩)
    | some s =>
      match coerce s.typeId with
      | none => (t, ⟨400, "cannot coerce value to type_id " ++ toString s.typeId⟩)
      | some v => ((withSlots t id fun ss => ss.modify idx (setValue v)).markDirty, ⟨204, ""⟩)

def isBoolSlot (s : VirtualSlot) : Bool := s.typeId = SoxValueType.bool.code && !isAction s

def invokeAction (t : ComponentTree) (id : UInt16) (slotName : String)
    (body : Option (UInt8 → Option SlotValue)) : ComponentTree × HttpResponse :=
  match t.get id with
  | none => (t, ⟨404, notFound id⟩)
  | some comp =>
    match comp.slots.find? (·.name = slotName) with
    | none => (t, ⟨400, "slot '" ++ slotName ++ "' not found on component " ++ toString id⟩)
    | some s =>
      ((if slotName = "setTrue" then withSlots t id (updateFirst isBoolSlot (setValue (.bool true)))
        else if slotName = "setFalse" then
          withSlots t id (updateFirst isBoolSlot (setValue (.bool false)))
        else
          match body.bind fun coerce => coerce s.typeId with
          | some v => withSlots t id (updateFirst (·.name = slotName) (setValue v))
          | none => t).markDirty,
        ⟨204, ""⟩)

def restAddLink (t : ComponentTree) (l : Link) : ComponentTree × HttpResponse :=
  match t.addLink l.fromComp l.fromSlot l.toComp l.toSlot with
  | (true, t') => (t'.markDirty, ⟨201, ""⟩)
  | (false, _) => (t, ⟨409, "link already exists or would create a cycle"⟩)

def deleteLink (t : ComponentTree) (l : Link) : ComponentTree × HttpResponse :=
  match t.removeLink l.fromComp l.fromSlot l.toComp l.toSlot with
  | (true, t') => (t'.markDirty, ⟨204, ""⟩)
  | (false, t') => (t', ⟨404, "link not found"⟩)

def restReorderChildren (t : ComponentTree) (id : UInt16) (children : List UInt16) :
    ComponentTree × HttpResponse :=
  if (t.get id).isNone then (t, ⟨404, notFound id⟩)
  else
    match t.reorderChildren id children with
    | (true, t') => (t'.markDirty, ⟨204, ""⟩)
    | (false, _) => (t, ⟨400, "new order must contain the exact set of current children"⟩)

def updatePos (t : ComponentTree) (id : UInt16) (x y : UInt8) : ComponentTree × HttpResponse :=
  match t.get id with
  | none => (t, ⟨404, notFound id⟩)
  | some comp =>
    if comp.slots.isEmpty then (t, ⟨400, "component has no meta slot"⟩)
    else ((withSlots t id (List.modifyHead (setValue (encodePosition x y)))).markDirty, ⟨204, ""⟩)

inductive RowsReply where
  | ok
  | compId (id : UInt16)
  | error (code message : String)
  deriving DecidableEq, Repr

def rowsAddComp (t : ComponentTree) (parentId : UInt16) (kitId typeId : UInt8) (name : String) :
    ComponentTree × RowsReply :=
  match validateName name with
  | some err => (t, .error "BAD_REQUEST" err)
  | none =>
    if (t.get parentId).isNone then
      (t, .error "NOT_FOUND" ("parent " ++ toString parentId ++ " not found"))
    else
      let comp := manifestComponent t parentId kitId typeId name
      (((t.add comp).markUserAdded comp.compId).markDirty, .compId comp.compId)

def rowsDeleteComp (t : ComponentTree) (id : UInt16) : ComponentTree × RowsReply :=
  if id < 7 then (t, .error "FORBIDDEN" "cannot delete system components (id < 7)")
  else
    match (dropLinksOf t id).remove id with
    | (some _, t') => (t'.markDirty, .ok)
    | (none, t') => (t', .error "NOT_FOUND" (notFound id))

def rowsRename (t : ComponentTree) (id : UInt16) (name : String) : ComponentTree × RowsReply :=
  match validateName name with
  | some err => (t, .error "BAD_REQUEST" err)
  | none =>
    match t.rename id name with
    | (true, t') => (t'.markDirty, .ok)
    | (false, _) => (t, .error "NOT_FOUND" (notFound id))

def rowsWriteSlot (t : ComponentTree) (id : UInt16) (idx : ℕ)
    (coerce : UInt8 → Option SlotValue) : ComponentTree × RowsReply :=
  match t.get id with
  | none => (t, .error "NOT_FOUND" (notFound id))
  | some comp =>
    match comp.slots[idx]? with
    | none => (t, .error "BAD_REQUEST" ("slot index " ++ toString idx ++ " out of range"))
    | some s =>
      match coerce s.typeId with
      | none => (t, .error "BAD_REQUEST" ("cannot coerce value to type_id " ++ toString s.typeId))
      | some v => ((withSlots t id fun ss => ss.modify idx (setValue v)).markDirty, .ok)

def rowsInvoke (t : ComponentTree) (id : UInt16) (idx : ℕ) : ComponentTree × RowsReply :=
  match t.get id with
  | none => (t, .error "NOT_FOUND" (notFound id))
  | some comp =>
    match comp.slots[idx]? with
    | none => (t, .error "BAD_REQUEST" ("slot index " ++ toString idx ++ " out of range"))
    | some s =>
      if !isAction s then (t, .error "BAD_REQUEST" "slot is not an action slot")
      else
        ((if s.name = "setTrue" then withSlots t id (updateFirst isBoolSlot (setValue (.bool true)))
          else if s.name = "setFalse" then
            withSlots t id (updateFirst isBoolSlot (setValue (.bool false)))
          else t).markDirty,
          .ok)

def rowsAddLink (t : ComponentTree) (l : Link) : ComponentTree × RowsReply :=
  match t.addLink l.fromComp l.fromSlot l.toComp l.toSlot with
  | (true, t') => (t'.markDirty, .ok)
  | (false, _) => (t, .error "CONFLICT" "link already exists or would create a cycle")

def rowsDeleteLink (t : ComponentTree) (l : Link) : ComponentTree × RowsReply :=
  match t.removeLink l.fromComp l.fromSlot l.toComp l.toSlot with
  | (true, t') => (t'.markDirty, .ok)
  | (false, t') => (t', .error "NOT_FOUND" "link not found")

def rowsUpdatePos (t : ComponentTree) (id : UInt16) (x y : UInt8) : ComponentTree × RowsReply :=
  match t.get id with
  | none => (t, .error "NOT_FOUND" (notFound id))
  | some comp =>
    if comp.slots.isEmpty then (t, .error "BAD_REQUEST" "component has no meta slot")
    else ((withSlots t id (List.modifyHead (setValue (encodePosition x y)))).markDirty, .ok)

end Sandstar.TreeRequests
