import Sandstar.SoxSlots

set_option autoImplicit false

/-!
# Saving, loading and executing links (sox_handlers.rs)

The JSON file is taken as the record it encodes. A hash map's iteration order is a
parameter wherever the result is a list: the order of the saved ids, and the order in
which `execute_links` meets the components.
-/
namespace Sandstar.ComponentTree

structure PersistData where
  components : List VirtualComponent
  userAddedIds : List UInt16
  nextCompId : UInt16
  deriving DecidableEq, Repr

def saveUserComponents (t : ComponentTree) (ids : List UInt16) : PersistData where
  components := ids.filterMap t.get
  userAddedIds := ids
  nextCompId := t.nextId

/-- One component of the file: as in `add`, but the id counter is left for later. -/
def restore (t : ComponentTree) (comp : VirtualComponent) : ComponentTree :=
  { t with
    nameToComp := indexName t.nameToComp comp.name comp.compId
    components := registerChild (t.components.insert comp.compId comp) comp.parentId comp.compId }

def restoreNextId (t : ComponentTree) (nextCompId : UInt16) : ComponentTree :=
  let nextId := if t.nextId < nextCompId then nextCompId else t.nextId
  let maxId := UInt16.ofNat (t.components.keys.sup UInt16.toNat)
  { t with
    nextId := if t.components.keys.Nonempty ∧ nextId ≤ maxId then maxId + 1 else nextId }

def loadUserComponents (t : ComponentTree) (data : PersistData) : ℕ × ComponentTree :=
  let t := { t with userAddedIds := t.userAddedIds ∪ data.userAddedIds.toFinset }
  (data.components.length, restoreNextId (data.components.foldl restore t) data.nextCompId)

def isNan32 (bits : UInt32) : Bool := 0x7F800000 < bits &&& 0x7FFFFFFF

def isNan64 (bits : UInt64) : Bool := 0x7FF0000000000000 < bits &&& 0x7FFFFFFFFFFFFFFF

/-- The derived `PartialEq`: floats compare by IEEE 754, where zeros are equal and no
    NaN is. -/
def slotValueEq : SlotValue → SlotValue → Bool
  | .float a, .float b =>
    !isNan32 a && !isNan32 b && (a = b || (a ||| b) &&& 0x7FFFFFFF = 0)
  | .double a, .double b =>
    !isNan64 a && !isNan64 b && (a = b || (a ||| b) &&& 0x7FFFFFFFFFFFFFFF = 0)
  | a, b => a = b

def sourceSlot (t : ComponentTree) (l : Link) : Option VirtualSlot :=
  (t.get l.fromComp).bind fun c => c.slots[l.fromSlot.toNat]?

def transfersOf (t : ComponentTree) (comp : VirtualComponent) :
    List (SlotValue × UInt16 × UInt8) :=
  comp.links.filterMap fun l =>
    if comp.compId ≠ l.toComp then none
    else (t.sourceSlot l).map fun s => (s.value, l.toComp, l.toSlot)

def collectTransfers (t : ComponentTree) (ids : List UInt16) :
    List (SlotValue × UInt16 × UInt8) :=
  (ids.filterMap t.get).flatMap t.transfersOf

def applyTransfer (state : ComponentTree × Finset UInt16)
    (transfer : SlotValue × UInt16 × UInt8) : ComponentTree × Finset UInt16 :=
  let (t, changed) := state
  let (value, toComp, toSlot) := transfer
  match (t.get toComp).bind fun c => c.slots[toSlot.toNat]? with
  | none => (t, changed)
  | some s =>
    if slotValueEq s.value value then (t, changed)
    else
      (t.modify toComp fun c =>
          { c with slots := c.slots.modify toSlot.toNat fun s => { s with value := value } },
        insert toComp changed)

/-- The tree after all transfers and the ids whose slots changed. -/
def executeLinks (t : ComponentTree) (ids : List UInt16) : ComponentTree × Finset UInt16 :=
  (t.collectTransfers ids).foldl applyTransfer (t, ∅)

end Sandstar.ComponentTree
