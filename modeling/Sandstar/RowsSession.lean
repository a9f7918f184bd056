import Sandstar.DynSlots
import Sandstar.FloatOps
import Sandstar.Json
import Sandstar.Persistence
import Sandstar.TreeRequests

set_option autoImplicit false

/-!
# RoWS sessions (rest/rows.rs)

One session decodes the JSON commands of its client, runs them on the component tree
and the dynamic tags, and pushes what has changed of the components that the client
subscribed to. The texts of answers are left out; an answer holds what they are made
of.
-/
namespace Sandstar.Rows
open SoxProtocol SoxSlots ComponentTree TreeRequests

/-- What the session takes from its platform and from serde: the width of `usize`, the
    roundings of numbers, the derived reader of a tagged value and the printer of JSON. -/
structure Platform where
  usizeBits : ℕ
  nearest : ℚ → ℚ
  toF32 : ℚ → UInt32
  toF64 : ℚ → UInt64
  tagged : Json → Option DynValue
  print : Json → String

structure RowsState where
  tree : ComponentTree
  dynStore : Option DynSlotStore

structure TagJson where
  type : String
  val : Option JsonScalar
deriving DecidableEq

/-- The subscriptions of a session, and what it has last sent of them. -/
structure Session where
  subscribed : Finset UInt16
  covCache : Table UInt16 (List JsonScalar)
  treeCache : Table UInt16 (List UInt16)
  tagsCache : Table UInt16 (Table String TagJson)
  compactCov : Bool

def Session.new : Session := ⟨∅, Table.empty, Table.empty, Table.empty, false⟩

/-- The number of a finite `f32`; `none` if it is not finite. -/
def finite32 (bits : UInt32) : Option ℚ :=
  if bits.toNat / 2 ^ 23 % 2 ^ 8 = 255 then none
  else some (floatValue 23 (-149) (bits.toNat.testBit 31) (bits.toNat / 2 ^ 23 % 2 ^ 8)
    (bits.toNat % 2 ^ 23))

def finite64 (bits : UInt64) : Option ℚ :=
  if bits.toNat / 2 ^ 52 % 2 ^ 11 = 2047 then none
  else some (floatValue 52 (-1074) (bits.toNat.testBit 63) (bits.toNat / 2 ^ 52 % 2 ^ 11)
    (bits.toNat % 2 ^ 52))

def floatJson (value : Option ℚ) : JsonScalar :=
  match value with
  | some x => .float x
  | none => .null

def hexByte (b : UInt8) : List Char :=
  [Nat.digitChar (b.toNat / 16), Nat.digitChar (b.toNat % 16)]

def slotValueToJson : SlotValue → JsonScalar
  | .bool v => .bool v
  | .int v => .ofInt64 v.toInt64
  | .long v => .ofInt64 v
  | .float bits => floatJson (finite32 bits)
  | .double bits => floatJson (finite64 bits)
  | .str s => .str s
  | .buf b => .str ("0x" ++ String.ofList (b.flatMap hexByte))
  | .null => .null

def slotValues (comp : VirtualComponent) : List JsonScalar :=
  comp.slots.map fun s => slotValueToJson s.value

def tagJson : DynValue → TagJson
  | .null => ⟨"Null", none⟩
  | .marker => ⟨"Marker", none⟩
  | .bool b => ⟨"Bool", some (.bool b)⟩
  | .int i => ⟨"Int", some (.ofInt64 i)⟩
  | .float bits => ⟨"Float", some (floatJson (finite64 bits))⟩
  | .str s => ⟨"Str", some (.str s)⟩
  | .ref r => ⟨"Ref", some (.str r)⟩

def currentTags (store : DynSlotStore) (compId : UInt16) : Table String TagJson :=
  ((store.slots.get compId).map fun tags => tags.mapValues tagJson).getD Table.empty

section Requests

variable (p : Platform)

def asF64 : Json → Option ℚ
  | .scalar (.posInt n) => some (p.nearest n.toNat)
  | .scalar (.negInt n) => some (p.nearest n.toInt)
  | .scalar (.float x) => some x
  | _ => none

def jsonToSlotValue (json : Json) (typeId : UInt8) : Option SlotValue :=
  if typeId = SoxValueType.bool.code then json.asBool.map .bool
  else if typeId = SoxValueType.int.code then json.asI64.map fun v => .int v.toInt32
  else if typeId = SoxValueType.long.code then json.asI64.map .long
  else if typeId = SoxValueType.float.code then (asF64 p json).map fun v => .float (p.toF32 v)
  else if typeId = SoxValueType.double.code then (asF64 p json).map fun v => .double (p.toF64 v)
  else if typeId = SoxValueType.buf.code then json.asStr.map .str
  else if typeId = SoxValueType.byte.code ∨ typeId = SoxValueType.short.code then
    json.asI64.map fun v => .int v.toInt32
  else none

def jsonToDynvalue (val : Json) : DynValue :=
  match val with
  | .scalar .null => .null
  | .scalar (.bool b) => .bool b
  | .scalar (.str s) => .str s
  | .arr _ | .obj _ => .str (p.print val)
  | _ =>
    match val.asI64 with
    | some i => .int i
    | none => ((asF64 p val).map fun f => DynValue.float (p.toF64 f)).getD .null

inductive RowsOp
  | ping | readTree | readComp | writeSlot | addComp | deleteComp | rename | addLink | deleteLink
  | updatePos | invoke | nameTable | palette | subscribe | unsubscribe | readTags | setTags
  | deleteTag | setFormat
deriving DecidableEq

def RowsOp.ofString : String → Option RowsOp
  | "ping" => some .ping
  | "readTree" => some .readTree
  | "readComp" => some .readComp
  | "writeSlot" => some .writeSlot
  | "addComp" => some .addComp
  | "deleteComp" => some .deleteComp
  | "rename" => some .rename
  | "addLink" => some .addLink
  | "deleteLink" => some .deleteLink
  | "updatePos" => some .updatePos
  | "invoke" => some .invoke
  | "nameTable" => some .nameTable
  | "palette" => some .palette
  | "subscribe" => some .subscribe
  | "unsubscribe" => some .unsubscribe
  | "readTags" => some .readTags
  | "setTags" => some .setTags
  | "deleteTag" => some .deleteTag
  | "setFormat" => some .setFormat
  | _ => none

inductive RowsCmd
  | ping
  | readTree
  | readComp (compId : UInt16)
  | writeSlot (compId : UInt16) (slotIdx : ℕ) (value : Json)
  | addComp (parentId : UInt16) (kitId typeId : UInt8) (name : String)
  | deleteComp (compId : UInt16)
  | rename (compId : UInt16) (name : String)
  | addLink (l : Link)
  | deleteLink (l : Link)
  | updatePos (compId : UInt16) (x y : UInt8)
  | invoke (compId : UInt16) (slotIdx : ℕ)
  | nameTable
  | palette
  | subscribe (compIds : List UInt16)
  | unsubscribe (compIds : List UInt16)
  | readTags (compId : UInt16)
  | setTags (compId : UInt16) (tags : Json)
  | deleteTag (compId : UInt16) (key : String)
  | setFormat (format : String)

def numberField (msg : Json) (key : String) : Option UInt64 := (msg.get key).bind Json.asU64

def u16Field (msg : Json) (key : String) : Option UInt16 :=
  (numberField msg key).map UInt64.toUInt16

def u8Field (msg : Json) (key : String) : Option UInt8 :=
  (numberField msg key).map UInt64.toUInt8

def usizeField (msg : Json) (key : String) : Option ℕ :=
  (numberField msg key).map fun v => v.toNat % 2 ^ p.usizeBits

def strField (msg : Json) (key : String) : Option String := (msg.get key).bind Json.asStr

def compIdsField (msg : Json) : List UInt16 :=
  (((msg.get "compIds").bind Json.asArray).getD []).filterMap fun v =>
    v.asU64.map UInt64.toUInt16

def badRequest (message : String) : Except (String × String) RowsCmd :=
  .error ("BAD_REQUEST", message)

def missingCompId : Except (String × String) RowsCmd := badRequest "missing or invalid 'compId'"

def linkFields (msg : Json) : Option Link :=
  match u16Field msg "fromComp", u8Field msg "fromSlot", u16Field msg "toComp",
      u8Field msg "toSlot" with
  | some fc, some fs, some tc, some ts => some ⟨fc, fs, tc, ts⟩
  | _, _, _, _ => none

/-- The arms of `handle_client_msg`: the command of an operation, or its error. -/
def decode (msg : Json) : RowsOp → Except (String × String) RowsCmd
  | .ping => .ok .ping
  | .readTree => .ok .readTree
  | .readComp =>
    match u16Field msg "compId" with
    | some cid => .ok (.readComp cid)
    | none => missingCompId
  | .writeSlot =>
    match u16Field msg "compId", usizeField p msg "slotIdx", msg.get "value" with
    | some cid, some idx, some val => .ok (.writeSlot cid idx val)
    | _, _, _ => badRequest "missing compId, slotIdx, or value"
  | .addComp =>
    match u16Field msg "parentId", u8Field msg "kitId", u8Field msg "typeId",
        strField msg "name" with
    | some pid, some kid, some tid, some n => .ok (.addComp pid kid tid n)
    | _, _, _, _ => badRequest "missing parentId, kitId, typeId, or name"
  | .deleteComp =>
    match u16Field msg "compId" with
    | some cid => .ok (.deleteComp cid)
    | none => missingCompId
  | .rename =>
    match u16Field msg "compId", strField msg "name" with
    | some cid, some n => .ok (.rename cid n)
    | _, _ => badRequest "missing compId or name"
  | .addLink =>
    match linkFields msg with
    | some l => .ok (.addLink l)
    | none => badRequest "missing fromComp/fromSlot/toComp/toSlot"
  | .deleteLink =>
    match linkFields msg with
    | some l => .ok (.deleteLink l)
    | none => badRequest "missing fromComp/fromSlot/toComp/toSlot"
  | .updatePos =>
    match u16Field msg "compId", u8Field msg "x", u8Field msg "y" with
    | some cid, some x, some y => .ok (.updatePos cid x y)
    | _, _, _ => badRequest "missing compId, x, or y"
  | .invoke =>
    match u16Field msg "compId", usizeField p msg "slotIdx" with
    | some cid, some idx => .ok (.invoke cid idx)
    | _, _ => badRequest "missing compId or slotIdx"
  | .nameTable => .ok .nameTable
  | .palette => .ok .palette
  | .subscribe => .ok (.subscribe (compIdsField msg))
  | .unsubscribe => .ok (.unsubscribe (compIdsField msg))
  | .readTags =>
    match u16Field msg "compId" with
    | some cid => .ok (.readTags cid)
    | none => missingCompId
  | .setTags =>
    match u16Field msg "compId", msg.get "tags" with
    | some cid, some t => .ok (.setTags cid t)
    | _, _ => badRequest "missing compId or tags"
  | .deleteTag =>
    match u16Field msg "compId", strField msg "key" with
    | some cid, some k => .ok (.deleteTag cid k)
    | _, _ => badRequest "missing compId or key"
  | .setFormat =>
    let format := (strField msg "format").getD "json"
    if format = "json" ∨ format = "trio" then .ok (.setFormat format)
    else badRequest ("unsupported format: " ++ format)

inductive Answer
  | pong
  | tree (comps : List VirtualComponent)
  | comp (comp : VirtualComponent) (tags : Option (Table String TagJson))
  | ok
  | added (compId : UInt16)
  | names
  | palette
  | subscribed (compIds : List UInt16) (count : ℕ)
  | unsubscribed (compIds : List UInt16) (count : ℕ)
  | tags (tags : Table String TagJson)
  | removed (removed : Bool)
  | format (format : String)
  | error (code message : String)

def Answer.isError : Answer → Bool
  | .error _ _ => true
  | _ => false

structure Reply where
  id : Option String
  answer : Answer

def answerOf : RowsReply → Answer
  | .ok => .ok
  | .compId id => .added id
  | .error code message => .error code message

def handleReadTree (s : RowsState) : Answer :=
  .tree ((s.tree.components.keys.sort (· ≤ ·)).filterMap s.tree.get)

def handleReadComp (s : RowsState) (compId : UInt16) : Answer :=
  match s.tree.get compId with
  | none => .error "NOT_FOUND" (notFound compId)
  | some comp =>
    .comp comp (((s.dynStore.bind fun store => store.slots.get compId).filter
      fun tags => 0 < tags.size).map fun tags => tags.mapValues tagJson)

def noTags : Answer := .error "NOT_SUPPORTED" "dynamic tags not available"

def handleReadTags (s : RowsState) (compId : UInt16) : Answer :=
  match s.dynStore with
  | none => noTags
  | some store => .tags (currentTags store compId)

def setEach (store : DynSlotStore) (compId : UInt16) :
    List (String × Json) → DynSlotStore × Except String Unit
  | [] => (store, .ok ())
  | (key, val) :: rest =>
    match store.set compId key ((p.tagged val).getD (jsonToDynvalue p val)) with
    | (store, .error e) => (store, .error e)
    | (store, .ok _) => setEach store compId rest

def handleSetTags (s : RowsState) (compId : UInt16) (tags : Json) : RowsState × Answer :=
  match s.dynStore with
  | none => (s, noTags)
  | some store =>
    match tags.asObject with
    | none => (s, .error "BAD_REQUEST" "'tags' must be a JSON object")
    | some fields =>
      match setEach p store compId fields with
      | (store, .error e) => ({ s with dynStore := some store }, .error "LIMIT_EXCEEDED" e)
      | (store, .ok ()) => ({ s with dynStore := some store }, .ok)

/-- `none` where the count of tags would go below zero. -/
def handleDeleteTag (s : RowsState) (compId : UInt16) (key : String) :
    Option (RowsState × Answer) :=
  match s.dynStore with
  | none => some (s, noTags)
  | some store =>
    (store.remove compId key).map fun (store, removed) =>
      ({ s with dynStore := some store }, .removed removed.isSome)

def primeCache (tree : ComponentTree) (sess : Session) (compId : UInt16) : Session :=
  match tree.get compId with
  | none => sess
  | some comp =>
    { sess with
      covCache := sess.covCache.insert compId (slotValues comp)
      treeCache := sess.treeCache.insert compId comp.children }

def handleSubscribe (s : RowsState) (sess : Session) (compIds : List UInt16) : Session × Answer :=
  let subscribed := sess.subscribed ∪ compIds.toFinset
  (compIds.foldl (primeCache s.tree) { sess with subscribed }, .subscribed compIds subscribed.card)

def dropSubscription (sess : Session) (compId : UInt16) : Session :=
  { sess with
    subscribed := sess.subscribed.erase compId
    covCache := sess.covCache.erase compId
    treeCache := sess.treeCache.erase compId }

def handleUnsubscribe (sess : Session) (compIds : List UInt16) : Session × Answer :=
  let sess := compIds.foldl dropSubscription sess
  (sess, .unsubscribed compIds sess.subscribed.card)

def onTree (s : RowsState) (sess : Session) (r : ComponentTree × RowsReply) :
    Option (RowsState × Session × Answer) :=
  some ({ s with tree := r.1 }, sess, answerOf r.2)

def execute (s : RowsState) (sess : Session) : RowsCmd → Option (RowsState × Session × Answer)
  | .ping => some (s, sess, .pong)
  | .readTree => some (s, sess, handleReadTree s)
  | .readComp compId => some (s, sess, handleReadComp s compId)
  | .writeSlot compId slotIdx value =>
    onTree s sess (rowsWriteSlot s.tree compId slotIdx (jsonToSlotValue p value))
  | .addComp parentId kitId typeId name =>
    onTree s sess (rowsAddComp s.tree parentId kitId typeId name)
  | .deleteComp compId => onTree s sess (rowsDeleteComp s.tree compId)
  | .rename compId name => onTree s sess (rowsRename s.tree compId name)
  | .addLink l => onTree s sess (rowsAddLink s.tree l)
  | .deleteLink l => onTree s sess (rowsDeleteLink s.tree l)
  | .updatePos compId x y => onTree s sess (rowsUpdatePos s.tree compId x y)
  | .invoke compId slotIdx => onTree s sess (rowsInvoke s.tree compId slotIdx)
  | .nameTable => some (s, { sess with compactCov := true }, .names)
  | .palette => some (s, sess, .palette)
  | .subscribe compIds =>
    let (sess, answer) := handleSubscribe s sess compIds
    some (s, sess, answer)
  | .unsubscribe compIds =>
    let (sess, answer) := handleUnsubscribe sess compIds
    some (s, sess, answer)
  | .readTags compId => some (s, sess, handleReadTags s compId)
  | .setTags compId tags =>
    let (s, answer) := handleSetTags p s compId tags
    some (s, sess, answer)
  | .deleteTag compId key => (handleDeleteTag s compId key).map fun (s, answer) => (s, sess, answer)
  | .setFormat format => some (s, sess, .format format)

/-- The command of a message, or the code and the text of its error. -/
def dispatch (msg : Json) : Except (String × String) RowsCmd :=
  match strField msg "op" with
  | none => .error ("INVALID_MESSAGE", "missing 'op' field")
  | some op =>
    match RowsOp.ofString op with
    | none => .error ("UNKNOWN_OP", "unknown op: " ++ op)
    | some op => decode p msg op

/-- A text that is no JSON is `none`, and so is the outcome where the session panics. -/
def handleClientMsg (s : RowsState) (sess : Session) (text : Option Json) :
    Option (RowsState × Session × Reply) :=
  match text with
  | none => some (s, sess, ⟨none, .error "INVALID_MESSAGE" "invalid JSON"⟩)
  | some msg =>
    let id := strField msg "id"
    match dispatch p msg with
    | .error (code, message) => some (s, sess, ⟨id, .error code message⟩)
    | .ok cmd => (execute p s sess cmd).map fun (s, sess, answer) => (s, sess, ⟨id, answer⟩)

end Requests

structure CovSlot where
  index : ℕ
  name : Option String
  value : JsonScalar
deriving DecidableEq

inductive CovMsg
  | deleted (compId : UInt16)
  | childrenChanged (compId : UInt16) (children : List UInt16)
  | cov (compId : UInt16) (slots : List CovSlot)
  | tagsChanged (compId : UInt16) (tags : Table String TagJson)

/-- The order in which a set of ids is walked. -/
structure IdOrder where
  walk : Finset UInt16 → List UInt16
  nodup : ∀ ids, (walk ids).Nodup
  mem : ∀ ids id, id ∈ walk ids ↔ id ∈ ids

def childrenMessages (compId : UInt16) (cached : Option (List UInt16)) (children : List UInt16) :
    List CovMsg :=
  match cached with
  | some old => if old ≠ children then [.childrenChanged compId children] else []
  | none => []

def slotsChanged (cached : Option (List JsonScalar)) (current : List JsonScalar) : Bool :=
  match cached with
  | some old =>
    if old.length ≠ current.length then true
    else (old.zip current).any fun (a, b) => decide (a ≠ b)
  | none => true

def changedSlots (compact : Bool) (cached : Option (List JsonScalar)) (slots : List VirtualSlot) :
    List CovSlot :=
  slots.zipIdx.filterMap fun (slot, idx) =>
    let val := slotValueToJson slot.value
    if (cached.bind fun old => old[idx]?) = some val then none
    else some ⟨idx, if compact then none else some slot.name, val⟩

def slotMessages (compact : Bool) (compId : UInt16) (cached : Option (List JsonScalar))
    (comp : VirtualComponent) : List CovMsg :=
  if slotsChanged cached (slotValues comp) ∧ changedSlots compact cached comp.slots ≠ [] then
    [.cov compId (changedSlots compact cached comp.slots)]
  else []

/-- One turn of the first loop: a component that is gone, or its children and slots.
    Children that are as cached are put back as they are. -/
def covComponent (tree : ComponentTree) (sess : Session) (compId : UInt16) :
    Session × List CovMsg :=
  match tree.get compId with
  | none =>
    if (sess.treeCache.get compId).isSome then
      ({ sess with
          treeCache := sess.treeCache.erase compId
          covCache := sess.covCache.erase compId }, [.deleted compId])
    else (sess, [])
  | some comp =>
    let cached := sess.covCache.get compId
    ({ sess with
        treeCache := sess.treeCache.insert compId comp.children
        covCache :=
          if slotsChanged cached (slotValues comp) then sess.covCache.insert compId (slotValues comp)
          else sess.covCache },
      childrenMessages compId (sess.treeCache.get compId) comp.children ++
        slotMessages sess.compactCov compId cached comp)

def covTags (store : DynSlotStore) (sess : Session) (compId : UInt16) : Session × List CovMsg :=
  let tags := currentTags store compId
  if (sess.tagsCache.get compId).getD Table.empty ≠ tags then
    ({ sess with tagsCache := sess.tagsCache.insert compId tags }, [.tagsChanged compId tags])
  else (sess, [])

def eachId (turn : Session → UInt16 → Session × List CovMsg) :
    Session → List UInt16 → Session × List CovMsg
  | sess, [] => (sess, [])
  | sess, id :: ids =>
    let (sess, msgs) := turn sess id
    let (sess, rest) := eachId turn sess ids
    (sess, msgs ++ rest)

def buildCovMessages (order : IdOrder) (s : RowsState) (sess : Session) :
    Session × List CovMsg :=
  let ids := order.walk sess.subscribed
  let (sess, msgs) := eachId (covComponent s.tree) sess ids
  match s.dynStore with
  | none => (sess, msgs)
  | some store =>
    let (sess, tagMsgs) := eachId (covTags store) sess ids
    (sess, msgs ++ tagMsgs)

end Sandstar.Rows
