import Sandstar.WriteBack
import Sandstar.ComponentTick
import Sandstar.FreshIds

set_option autoImplicit false

/-!
# Which edits reach the file (sox/mod.rs, sox_handlers.rs, dyn_slots.rs)

Requests change the tree and the tags and raise their flags; ticks move values along;
the persist tick takes each flag down and writes the file, which may fail. The slots
whose value the dataflow changed last are remembered beside the tree: the file need not
know them. A file stands for what `serde_json` reads in it, and that is not always what
was written.
-/
namespace Sandstar.SavedEdits
open SoxProtocol SoxSlots ComponentTree TreeRequests TreeEdits WriteBack FreshIds Runs

/-- What `serde_json` reads where it has written a number. The digits of a finite one it
    reads with its best-effort precision; for any other it writes `null`, and no number
    is read there. -/
structure JsonNumbers where
  f32 : UInt32 → Option UInt32
  f64 : UInt64 → Option UInt64
  f32_null : ∀ bits, bits &&& 0x7F800000 = 0x7F800000 → f32 bits = none
  f64_null : ∀ bits, bits &&& 0x7FF0000000000000 = 0x7FF0000000000000 → f64 bits = none

section Reading

variable (n : JsonNumbers)

def readValue : SlotValue → Option SlotValue
  | .float bits => (n.f32 bits).map .float
  | .double bits => (n.f64 bits).map .double
  | v => some v

def readSlot (s : VirtualSlot) : Option VirtualSlot :=
  (readValue n s.value).map fun v => { s with value := v }

def readComponent (c : VirtualComponent) : Option VirtualComponent :=
  (c.slots.mapM (readSlot n)).map fun slots => { c with slots := slots }

/-- What `load_user_components` gets from the file of a record; one number that is not
    read fails the whole file. -/
def readFile (d : PersistData) : Option PersistData :=
  (d.components.mapM (readComponent n)).map fun components => { d with components := components }

def readTag : DynValue → Option DynValue
  | .float bits => (n.f64 bits).map .float
  | v => some v

def readTags (slots : Table UInt16 Tags) : Option (Table UInt16 Tags) :=
  slots.tryMapValues fun tags => tags.tryMapValues (readTag n)

end Reading

/-- The tree with its file, the tags with theirs, and the slots the dataflow changed last.
    For each file the record that was written is kept. -/
structure World where
  tree : ComponentTree
  flow : UInt16 → ℕ → Bool
  file : PersistData
  tags : Option DynSlotStore
  tagFile : Table UInt16 Tags

inductive TagEdit
  | set (compId : UInt16) (key : String) (value : DynValue)
  | remove (compId : UInt16) (key : String)
  | setAll (compId : UInt16) (tags : Tags) (names : List String)
  | removeAll (compId : UInt16)

def TagEdit.op : TagEdit → DynSlotStore.Op
  | .set compId key value => .set compId key value
  | .remove compId key => .remove compId key
  | .setAll compId tags names => .setAll compId tags names
  | .removeAll compId => .removeAll compId

/-- `written` is the order in which a save lists the set of ids, if the save succeeds. -/
inductive Event
  | request (op : TreeOp) (written : Option (List UInt16))
  | refresh (channels : List ChannelInfo)
  | links (order : List UInt16)
  | components (order : List UInt16)
  | tagEdit (e : TagEdit)
  | persist (written : Option (List UInt16)) (tagsWritten : Bool)

section Steps

def slotAt (t : ComponentTree) (id : UInt16) (idx : ℕ) : Option VirtualSlot :=
  (t.get id).bind fun c => c.slots[idx]?

/-- An edit takes over the slots that it changes. -/
def edited (flow : UInt16 → ℕ → Bool) (t t' : ComponentTree) (id : UInt16) (idx : ℕ) : Bool :=
  flow id idx && decide (slotAt t' id idx = slotAt t id idx)

/-- So does the dataflow. -/
def flowed (flow : UInt16 → ℕ → Bool) (t t' : ComponentTree) (id : UInt16) (idx : ℕ) : Bool :=
  flow id idx || decide (slotAt t' id idx ≠ slotAt t id idx)

/-- Whether a request invokes one of the actions that write the file. -/
def invokesSave (t : ComponentTree) : TreeOp → Bool
  | .sox req =>
    let r : SoxReader := ⟨req.payload⟩
    let slots := ((t.get (r.readU16.1.getD 0)).map VirtualComponent.slots).getD []
    let action :=
      (slots[(r.readU16.2.readU8.1.getD 0).toNat]?.map VirtualSlot.name).getD ""
    req.cmd = .invoke && (action = "save" || action = "hibernate")
  | _ => false

def savedFile (t : ComponentTree) (written : Option (List UInt16)) : Option PersistData :=
  written.map t.saveUserComponents

/-- The tree after the tick has taken the flag down. -/
def takeDirty (t : ComponentTree) : ComponentTree := { t with dirty := false }

def persistTree (w : World) (written : Option (List UInt16)) : World :=
  if w.tree.dirty then
    { w with tree := takeDirty w.tree, file := (savedFile w.tree written).getD w.file }
  else w

def persistTags (w : World) (written : Bool) : World :=
  match w.tags with
  | none => w
  | some s =>
    if s.dirty then
      { w with
        tags := some { s with dirty := false }
        tagFile := if written then s.slots else w.tagFile }
    else w

def withFlow (w : World) (t : ComponentTree) : World :=
  { w with tree := t, flow := flowed w.flow w.tree t }

def step (w : World) : Event → World
  | .request op written =>
    { w with
      tree := applyOp w.tree op
      flow := edited w.flow w.tree (applyOp w.tree op)
      file := if invokesSave w.tree op then (savedFile w.tree written).getD w.file else w.file
      tags := requestTags w.tags op }
  | .refresh channels => withFlow w (w.tree.updateFromChannels channels).1
  | .links order => withFlow w (w.tree.executeLinks order).1
  | .components order => withFlow w (w.tree.executeComponents order).1
  | .tagEdit e => { w with tags := DynSlotStore.step w.tags e.op }
  | .persist written tagsWritten => persistTags (persistTree w written) tagsWritten

/-- A tree without components of the user's, and no tags. -/
def start (channels : List ChannelInfo) (db : ManifestDb) (maxPerComp maxTotal : ℕ) : World where
  tree := fromChannelsWithManifest channels db
  flow := fun _ _ => false
  file := ⟨[], [], 0⟩
  tags := some (DynSlotStore.new maxPerComp maxTotal)
  tagFile := Table.empty

end Steps

section Property

/-- A component of the user's. -/
def userComp (t : ComponentTree) (id : UInt16) : Option VirtualComponent :=
  if t.isUserAdded id then t.get id else none

def inFile (d : PersistData) (id : UInt16) : Option VirtualComponent :=
  d.components.find? fun c => c.compId = id

/-- The saved component is the current one, but for the slots the dataflow changed last. -/
structure SavedAs (flow : ℕ → Bool) (c c' : VirtualComponent) : Prop where
  name : c'.name = c.name
  parentId : c'.parentId = c.parentId
  typeName : c'.typeName = c.typeName
  kitId : c'.kitId = c.kitId
  typeId : c'.typeId = c.typeId
  children : c'.children = c.children
  links : c'.links = c.links
  slots : ∀ idx, flow idx = false → c'.slots[idx]? = c.slots[idx]?

/-- What is read in the file describes the components of the user's, and no others. -/
def Describes (n : JsonNumbers) (d : (UInt16 → Option VirtualComponent) × (UInt16 → ℕ → Bool))
    (file : PersistData) : Prop :=
  ∃ saved, readFile n file = some saved ∧
    ∀ id, Option.Rel (SavedAs (d.2 id)) (d.1 id) (inFile saved id)

/-- The tags of a component; one without any may have an empty map. -/
def tagsOf (slots : Table UInt16 Tags) (id : UInt16) : Tags := (slots.get id).getD Table.empty

def DescribesTags (n : JsonNumbers) (slots file : Table UInt16 Tags) : Prop :=
  ∃ saved, readTags n file = some saved ∧ ∀ id, tagsOf saved id = tagsOf slots id

def treeStore (w : World) :
    Store ((UInt16 → Option VirtualComponent) × (UInt16 → ℕ → Bool)) PersistData :=
  ⟨(userComp w.tree, w.flow), w.tree.dirty, w.file⟩

def tagStore (s : DynSlotStore) (file : Table UInt16 Tags) :
    Store (Table UInt16 Tags) (Table UInt16 Tags) :=
  ⟨s.slots, s.dirty, file⟩

/-- Whatever is not announced by a flag is in the file. -/
structure Saved (n : JsonNumbers) (w : World) : Prop where
  tree : Synced (Describes n) (treeStore w)
  tags : ∀ s, w.tags = some s → Synced (DescribesTags n) (tagStore s w.tagFile)

end Property

section Conditions

/-- An edit that changes no component of the user's where its handler may leave the flag
    down: the SOX reorder, the SOX delete of another component, and the removal of a link
    of which only the source has a copy. -/
def HarmlessEdit (t : ComponentTree) : TreeEdit → Prop
  | .reorder id children => t.isUserAdded id = true → ∀ c, t.get id = some c → c.children = children
  | .drop id => t.isUserAdded id = false → ∀ c p, t.get id = some c → t.get c.parentId = some p →
      t.isUserAdded c.parentId = true → id ∉ p.children
  | .unlink l => (∃ c, t.get l.toComp = some c ∧ l ∈ c.links) ∨
      ∀ c, t.get l.fromComp = some c → t.isUserAdded l.fromComp = true → l ∉ c.links
  | _ => True

/-- The REST reorder raises the flag. -/
def HarmlessOp (t : ComponentTree) (op : TreeOp) : Prop :=
  match op with
  | .reorderChildren _ _ => True
  | op => HarmlessEdit t (edit t op)

/-- Every number in a slot of the user's is one that is read where it was written, as
    itself if an edit has put it there. -/
def Readable (n : JsonNumbers) (w : World) : Prop :=
  ∀ id c, userComp w.tree id = some c → ∀ idx s, c.slots[idx]? = some s →
    ∃ v, readValue n s.value = some v ∧ (w.flow id idx = false → v = s.value)

def ReadableTags (n : JsonNumbers) (slots : Table UInt16 Tags) : Prop :=
  ∀ id tags, slots.get id = some tags → ∀ key v, tags.get key = some v → readTag n v = some v

/-- The condition on one event. A request that the handlers do not announce changes no
    component of the user's unless the flag is up already, and does not write numbers that
    are not read back. A persist tick that takes a flag down writes a file that can be read
    back, or finds it as it should be. -/
def Harmless (n : JsonNumbers) (w : World) : Event → Prop
  | .request op written =>
      (w.tree.dirty = true ∨ HarmlessOp w.tree op ∧
        (invokesSave w.tree op = true → written.isSome = true → Readable n w)) ∧
      ∀ ids, written = some ids → ids.toFinset = w.tree.userAddedIds
  | .persist written tagsWritten =>
      (∀ ids, written = some ids → ids.toFinset = w.tree.userAddedIds) ∧
      (w.tree.dirty = true →
        if written.isSome then Readable n w
        else Describes n (userComp w.tree, w.flow) w.file) ∧
      ∀ s, w.tags = some s → s.dirty = true →
        if tagsWritten then ReadableTags n s.slots else DescribesTags n s.slots w.tagFile
  | _ => True

end Conditions
end Sandstar.SavedEdits
