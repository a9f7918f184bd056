import Sandstar.Table
import Sandstar.SoxProtocol

set_option autoImplicit false

/-!
# The virtual component tree (sox_handlers.rs)

Component ids are the source's 16-bit words. Arithmetic on them wraps, as it does
in the release profile the device runs. A component's place in the tree is stored
twice, as its own `parentId` and in its parent's `children`; a link is stored on
both of its endpoints.
-/
namespace Sandstar
open SoxProtocol

/-- Floats are kept as their IEEE 754 bit patterns. -/
inductive SlotValue where
  | bool (v : Bool)
  | int (v : Int32)
  | long (v : Int64)
  | float (bits : UInt32)
  | double (bits : UInt64)
  | str (s : String)
  | buf (b : List UInt8)
  | null
  deriving DecidableEq, Repr

def slotFlagProperty : UInt8 := 0x00
def slotFlagConfig : UInt8 := 0x01
def slotFlagAction : UInt8 := 0x02
def slotFlagRuntime : UInt8 := 0x04

structure Link where
  fromComp : UInt16
  fromSlot : UInt8
  toComp : UInt16
  toSlot : UInt8
  deriving DecidableEq, Repr

structure VirtualSlot where
  name : String
  typeId : UInt8
  flags : UInt8
  value : SlotValue
  deriving DecidableEq, Repr

structure VirtualComponent where
  compId : UInt16
  parentId : UInt16
  name : String
  typeName : String
  kitId : UInt8
  typeId : UInt8
  children : List UInt16
  slots : List VirtualSlot
  links : List Link
  deriving DecidableEq, Repr

structure ComponentState where
  counter : Int32
  direction : Int32
  prevBool : Bool
  deriving DecidableEq, Repr

structure ManifestSlot where
  name : String
  typeId : UInt8
  flags : UInt8
  defaultValue : SlotValue
  deriving DecidableEq, Repr

/-- The slot schemas of the kits. The database is immutable once loaded, so its
    name map is kept in the order in which it iterates. -/
structure ManifestDb where
  types : Table (UInt8 × UInt8) (List ManifestSlot)
  typeNameLookup : List ((UInt8 × String) × UInt8)

namespace ManifestDb

def new : ManifestDb := ⟨Table.empty, []⟩

def getSlots (db : ManifestDb) (kitId typeId : UInt8) : Option (List ManifestSlot) :=
  db.types.get (kitId, typeId)

def typeName (db : ManifestDb) (kitId typeId : UInt8) : Option String :=
  (db.typeNameLookup.find? fun e => e.1.1 = kitId ∧ e.2 = typeId).map fun e => e.1.2

def slotsToVirtual (slots : List ManifestSlot) : List VirtualSlot :=
  slots.map fun ms => ⟨ms.name, ms.typeId, ms.flags, ms.defaultValue⟩

end ManifestDb

def noParent : UInt16 := 0xFFFF

def channelCompBase : UInt16 := 100

structure ComponentTree where
  components : Table UInt16 VirtualComponent
  nextId : UInt16
  channelCompEnd : UInt16
  manifestDb : ManifestDb
  userAddedIds : Finset UInt16
  dirty : Bool
  componentState : Table UInt16 ComponentState
  outputChannelIds : Finset Int32
  nameToComp : Table String UInt16

namespace ComponentTree

def newWithManifest (db : ManifestDb) : ComponentTree where
  components := Table.empty
  nextId := 0
  channelCompEnd := channelCompBase
  manifestDb := db
  userAddedIds := ∅
  dirty := false
  componentState := Table.empty
  outputChannelIds := ∅
  nameToComp := Table.empty

def new : ComponentTree := newWithManifest ManifestDb.new

def get (t : ComponentTree) (compId : UInt16) : Option VirtualComponent :=
  t.components.get compId

def modify (t : ComponentTree) (compId : UInt16) (f : VirtualComponent → VirtualComponent) :
    ComponentTree :=
  { t with components := t.components.modify compId f }

def pushChild (compId : UInt16) (parent : VirtualComponent) : VirtualComponent :=
  if compId ∈ parent.children then parent
  else { parent with children := parent.children ++ [compId] }

def registerChild (components : Table UInt16 VirtualComponent) (parentId compId : UInt16) :
    Table UInt16 VirtualComponent :=
  if parentId ≠ noParent ∧ parentId ≠ compId then components.modify parentId (pushChild compId)
  else components

def indexName (index : Table String UInt16) (name : String) (compId : UInt16) :
    Table String UInt16 :=
  if name = "" then index else index.insert name compId

def unindexName (index : Table String UInt16) (name : String) (compId : UInt16) :
    Table String UInt16 :=
  if index.get name = some compId then index.erase name else index

def add (t : ComponentTree) (comp : VirtualComponent) : ComponentTree :=
  { t with
    nextId := if t.nextId ≤ comp.compId then comp.compId + 1 else t.nextId
    nameToComp := indexName t.nameToComp comp.name comp.compId
    components := registerChild (t.components.insert comp.compId comp) comp.parentId comp.compId }

def nextCompId (t : ComponentTree) : UInt16 :=
  UInt16.ofNat (t.components.keys.sup UInt16.toNat) + 1

def dropChild (compId : UInt16) (parent : VirtualComponent) : VirtualComponent :=
  { parent with children := parent.children.filter (· ≠ compId) }

def remove (t : ComponentTree) (compId : UInt16) : Option VirtualComponent × ComponentTree :=
  match t.get compId with
  | none => (none, t)
  | some comp =>
    (some comp,
      { t with
        components := (t.components.erase compId).modify comp.parentId (dropChild compId)
        nameToComp := unindexName t.nameToComp comp.name compId })

def rename (t : ComponentTree) (compId : UInt16) (newName : String) : Bool × ComponentTree :=
  match t.get compId with
  | none => (false, t)
  | some comp =>
    (true,
      { t with
        components := t.components.modify compId fun c => { c with name := newName }
        nameToComp := indexName (unindexName t.nameToComp comp.name compId) newName compId })

def lookupByName (t : ComponentTree) (name : String) : Option UInt16 := t.nameToComp.get name

def maxDepth : ℕ := 100

/-- Targets of the links stored on `current` that leave it, in storage order. -/
def outgoing (t : ComponentTree) (current : UInt16) (visited : Finset UInt16) : List UInt16 :=
  match t.get current with
  | some comp =>
    (comp.links.filter fun l => l.fromComp = current ∧ l.toComp ∉ visited).map Link.toComp
  | none => []

/-- Pops the stack to the first component not yet visited, expands it, and goes
    on with `next`. The head of the list is the top of the stack. -/
def visit (t : ComponentTree) (fromComp : UInt16)
    (next : List UInt16 → Finset UInt16 → Bool) : List UInt16 → Finset UInt16 → Bool
  | [], _ => false
  | current :: stack, visited =>
    if current = fromComp then true
    else if current ∈ visited then visit t fromComp next stack visited
    else next ((t.outgoing current (insert current visited)).reverse ++ stack)
      (insert current visited)

/-- The search loop with `budget` expansions left before `MAX_DEPTH`; with none
    left, any component still on the stack counts as a cycle. -/
def search (t : ComponentTree) (fromComp : UInt16) :
    ℕ → List UInt16 → Finset UInt16 → Bool
  | 0, stack, _ => !stack.isEmpty
  | budget + 1, stack, visited => visit t fromComp (search t fromComp budget) stack visited

def wouldCreateCycle (t : ComponentTree) (fromComp toComp : UInt16) : Bool :=
  if fromComp = toComp then false else search t fromComp maxDepth [toComp] ∅

def pushLink (link : Link) (comp : VirtualComponent) : VirtualComponent :=
  { comp with links := comp.links ++ [link] }

def pushLinkOnce (link : Link) (comp : VirtualComponent) : VirtualComponent :=
  if link ∈ comp.links then comp else pushLink link comp

def storeLink (t : ComponentTree) (link : Link) : ComponentTree :=
  let t := t.modify link.toComp (pushLink link)
  if link.fromComp ≠ link.toComp then t.modify link.fromComp (pushLinkOnce link) else t

def addLink (t : ComponentTree) (fromComp : UInt16) (fromSlot : UInt8) (toComp : UInt16)
    (toSlot : UInt8) : Bool × ComponentTree :=
  let link : Link := ⟨fromComp, fromSlot, toComp, toSlot⟩
  match t.get toComp with
  | none => (false, t)
  | some comp =>
    if link ∈ comp.links then (false, t)
    else if t.wouldCreateCycle fromComp toComp then (false, t)
    else (true, t.storeLink link)

def dropLink (link : Link) (comp : VirtualComponent) : VirtualComponent :=
  { comp with links := comp.links.filter (· ≠ link) }

def eraseLink (t : ComponentTree) (link : Link) : ComponentTree :=
  let t := t.modify link.toComp (dropLink link)
  if link.fromComp ≠ link.toComp then t.modify link.fromComp (dropLink link) else t

def removeLink (t : ComponentTree) (fromComp : UInt16) (fromSlot : UInt8) (toComp : UInt16)
    (toSlot : UInt8) : Bool × ComponentTree :=
  let link : Link := ⟨fromComp, fromSlot, toComp, toSlot⟩
  ((t.get toComp).any fun c => (c.links.filter (· ≠ link)).length < c.links.length,
    t.eraseLink link)

def reorderChildren (t : ComponentTree) (parentId : UInt16) (childIds : List UInt16) :
    Bool × ComponentTree :=
  match t.get parentId with
  | none => (false, t)
  | some parent =>
    if parent.children.mergeSort ≠ childIds.mergeSort then (false, t)
    else (true, t.modify parentId fun p => { p with children := childIds })

def isChannelComp (t : ComponentTree) (compId : UInt16) : Bool :=
  channelCompBase ≤ compId && compId < t.channelCompEnd

def isUserAdded (t : ComponentTree) (compId : UInt16) : Bool := compId ∈ t.userAddedIds

def markUserAdded (t : ComponentTree) (compId : UInt16) : ComponentTree :=
  { t with userAddedIds := insert compId t.userAddedIds, dirty := true }

def markDirty (t : ComponentTree) : ComponentTree := { t with dirty := true }

end ComponentTree
end Sandstar
