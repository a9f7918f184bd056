import Sandstar.TreeRequests
import Sandstar.Runs

set_option autoImplicit false

/-!
# What a request does to the tree

Every mutating request of every front end comes down to one of nine edits, or to
nothing. `edit` names it; `applyOp_clean` ties the handlers to it, up to the dirty
flag, so that an invariant of the tree is proved once per edit and not once per handler.
-/
namespace Sandstar.TreeEdits
open SoxProtocol SoxSlots ComponentTree TreeRequests

/-- One mutating request through SOX, REST or RoWS. -/
inductive TreeOp where
  | sox (req : SoxRequest)
  | addComp (parentId : UInt16) (kitId typeId : UInt8) (name : String)
  | deleteComp (id : UInt16)
  | renameComp (id : UInt16) (name : String)
  | writeSlot (id : UInt16) (idx : ℕ) (coerce : UInt8 → Option SlotValue)
  | invokeAction (id : UInt16) (slotName : String) (body : Option (UInt8 → Option SlotValue))
  | addLink (l : Link)
  | deleteLink (l : Link)
  | reorderChildren (id : UInt16) (children : List UInt16)
  | updatePos (id : UInt16) (x y : UInt8)
  | rowsAddComp (parentId : UInt16) (kitId typeId : UInt8) (name : String)
  | rowsDeleteComp (id : UInt16)
  | rowsRename (id : UInt16) (name : String)
  | rowsWriteSlot (id : UInt16) (idx : ℕ) (coerce : UInt8 → Option SlotValue)
  | rowsInvoke (id : UInt16) (idx : ℕ)
  | rowsAddLink (l : Link)
  | rowsDeleteLink (l : Link)
  | rowsUpdatePos (id : UInt16) (x y : UInt8)

def applyOp (t : ComponentTree) : TreeOp → ComponentTree
  | .sox req => handleSoxRequest req t
  | .addComp parentId kitId typeId name => (TreeRequests.addComp t parentId kitId typeId name).1
  | .deleteComp id => (TreeRequests.deleteComp t id).1
  | .renameComp id name => (TreeRequests.renameComp t id name).1
  | .writeSlot id idx coerce => (TreeRequests.writeSlot t id idx coerce).1
  | .invokeAction id slotName body => (TreeRequests.invokeAction t id slotName body).1
  | .addLink l => (restAddLink t l).1
  | .deleteLink l => (TreeRequests.deleteLink t l).1
  | .reorderChildren id children => (restReorderChildren t id children).1
  | .updatePos id x y => (TreeRequests.updatePos t id x y).1
  | .rowsAddComp parentId kitId typeId name =>
    (TreeRequests.rowsAddComp t parentId kitId typeId name).1
  | .rowsDeleteComp id => (TreeRequests.rowsDeleteComp t id).1
  | .rowsRename id name => (TreeRequests.rowsRename t id name).1
  | .rowsWriteSlot id idx coerce => (TreeRequests.rowsWriteSlot t id idx coerce).1
  | .rowsInvoke id idx => (TreeRequests.rowsInvoke t id idx).1
  | .rowsAddLink l => (TreeRequests.rowsAddLink t l).1
  | .rowsDeleteLink l => (TreeRequests.rowsDeleteLink t l).1
  | .rowsUpdatePos id x y => (TreeRequests.rowsUpdatePos t id x y).1

/-- `drop` is the SOX delete, which leaves the peers' copies of links in place;
    `dropLinked` is the REST and RoWS delete, which removes them first. -/
inductive TreeEdit where
  | keep
  | insert (comp : VirtualComponent)
  | drop (id : UInt16)
  | dropLinked (id : UInt16)
  | rename (id : UInt16) (name : String)
  | link (l : Link)
  | unlink (l : Link)
  | reorder (id : UInt16) (children : List UInt16)
  | slots (id : UInt16) (f : List VirtualSlot → List VirtualSlot)

def applyEdit (t : ComponentTree) : TreeEdit → ComponentTree
  | .keep => t
  | .insert comp => (t.add comp).markUserAdded comp.compId
  | .drop id =>
    match t.get id with
    | none => t
    | some _ => { (t.remove id).2 with userAddedIds := t.userAddedIds.erase id }
  | .dropLinked id => ((dropLinksOf t id).remove id).2
  | .rename id name => (t.rename id name).2
  | .link l => t.storeLink l
  | .unlink l => t.eraseLink l
  | .reorder id children => t.modify id fun p => { p with children := children }
  | .slots id f => withSlots t id f

def linkAccepted (t : ComponentTree) (l : Link) : Bool :=
  (t.get l.toComp).any (fun c => l ∉ c.links) && !t.wouldCreateCycle l.fromComp l.toComp

def reorderAccepted (t : ComponentTree) (id : UInt16) (children : List UInt16) : Bool :=
  (t.get id).any fun p => p.children.mergeSort = children.mergeSort

def linkEdit (t : ComponentTree) (l : Link) : TreeEdit :=
  if linkAccepted t l then .link l else .keep

def reorderEdit (t : ComponentTree) (id : UInt16) (children : List UInt16) : TreeEdit :=
  if reorderAccepted t id children then .reorder id children else .keep

def addEdit (t : ComponentTree) (parentId : UInt16) (kitId typeId : UInt8) (name : String) :
    TreeEdit :=
  if (validateName name).isNone ∧ (t.get parentId).isSome then
    .insert (manifestComponent t parentId kitId typeId name)
  else .keep

def deleteEdit (id : UInt16) : TreeEdit := if id < 7 then .keep else .dropLinked id

def renameEdit (id : UInt16) (name : String) : TreeEdit :=
  if (validateName name).isNone then .rename id name else .keep

def writeSlotEdit (t : ComponentTree) (id : UInt16) (idx : ℕ)
    (coerce : UInt8 → Option SlotValue) : TreeEdit :=
  match ((t.get id).bind fun c => c.slots[idx]?).bind fun s => coerce s.typeId with
  | some v => .slots id fun ss => ss.modify idx (setValue v)
  | none => .keep

def updatePosEdit (t : ComponentTree) (id : UInt16) (x y : UInt8) : TreeEdit :=
  if (t.get id).any fun c => !c.slots.isEmpty then
    .slots id (List.modifyHead (setValue (encodePosition x y)))
  else .keep

def boolActionEdit (id : UInt16) (name : String) (other : TreeEdit) : TreeEdit :=
  if name = "setTrue" then .slots id (updateFirst isBoolSlot (setValue (.bool true)))
  else if name = "setFalse" then .slots id (updateFirst isBoolSlot (setValue (.bool false)))
  else other

def invokeActionEdit (t : ComponentTree) (id : UInt16) (slotName : String)
    (body : Option (UInt8 → Option SlotValue)) : TreeEdit :=
  match (t.get id).bind fun c => c.slots.find? (·.name = slotName) with
  | none => .keep
  | some s =>
    boolActionEdit id slotName
      (match body.bind fun coerce => coerce s.typeId with
        | some v => .slots id (updateFirst (·.name = slotName) (setValue v))
        | none => .keep)

def rowsInvokeEdit (t : ComponentTree) (id : UInt16) (idx : ℕ) : TreeEdit :=
  match (t.get id).bind fun c => c.slots[idx]? with
  | none => .keep
  | some s => if isAction s then boolActionEdit id s.name .keep else .keep

def soxInvokeEdit (t : ComponentTree) (req : SoxRequest) : TreeEdit :=
  let r : SoxReader := ⟨req.payload⟩
  let compId := r.readU16.1.getD 0
  let slotId := r.readU16.2.readU8.1.getD 0
  let slots := ((t.get compId).map VirtualComponent.slots).getD []
  let target := invokeTarget slots
  match invokeValue ((slots[slotId.toNat]?.map VirtualSlot.name).getD "")
      ((target.map VirtualSlot.typeId).getD SoxValueType.float.code) r.readU16.2.readU8.2 with
  | some v =>
    .slots compId (updateFirst (·.name = (target.map VirtualSlot.name).getD "") (setValue v))
  | none => .keep

def soxWriteEdit (t : ComponentTree) (req : SoxRequest) : TreeEdit :=
  match (SoxReader.mk req.payload).readU16 with
  | (none, _) => .keep
  | (some compId, r) =>
    match r.readU8 with
    | (none, _) => .keep
    | (some slotId, r) =>
      let typeId := slotTypeAt t compId slotId.toNat
      match (decodeSlotValue r typeId).1 with
      | none => .keep
      | some v => .slots compId (writeSlotAt typeId slotId.toNat v)

def soxEdit (t : ComponentTree) (req : SoxRequest) : TreeEdit :=
  match req.cmd with
  | .add => match decodeAdd req t with
    | .ok comp => .insert comp
    | .error _ => .keep
  | .delete => match decodeDelete req with
    | .ok id => .drop id
    | .error _ => .keep
  | .rename => match decodeRename req with
    | .ok (id, name) => .rename id name
    | .error _ => .keep
  | .link => match decodeLink req with
    | .ok (subcmd, l) =>
      if subcmd = 97 then linkEdit t l else if subcmd = 100 then .unlink l else .keep
    | .error _ => .keep
  | .reorder => match decodeReorder req with
    | .ok (id, children) => reorderEdit t id children
    | .error _ => .keep
  | .invoke => soxInvokeEdit t req
  | .write => soxWriteEdit t req
  | _ => .keep

def edit (t : ComponentTree) : TreeOp → TreeEdit
  | .sox req => soxEdit t req
  | .addComp parentId kitId typeId name | .rowsAddComp parentId kitId typeId name =>
    addEdit t parentId kitId typeId name
  | .deleteComp id | .rowsDeleteComp id => deleteEdit id
  | .renameComp id name | .rowsRename id name => renameEdit id name
  | .writeSlot id idx coerce | .rowsWriteSlot id idx coerce => writeSlotEdit t id idx coerce
  | .invokeAction id slotName body => invokeActionEdit t id slotName body
  | .rowsInvoke id idx => rowsInvokeEdit t id idx
  | .addLink l | .rowsAddLink l => linkEdit t l
  | .deleteLink l | .rowsDeleteLink l => .unlink l
  | .reorderChildren id children => reorderEdit t id children
  | .updatePos id x y | .rowsUpdatePos id x y => updatePosEdit t id x y

def clean (t : ComponentTree) : ComponentTree := { t with dirty := false }

@[simp] theorem clean_markDirty (t : ComponentTree) : clean t.markDirty = clean t := rfl

@[simp] theorem clean_markLinkDirty (t : ComponentTree) (l : Link) :
    clean (markLinkDirty t l) = clean t := by
  unfold markLinkDirty
  split_ifs <;> rfl

@[simp] theorem clean_markIfUserAdded (t : ComponentTree) (id : UInt16) :
    clean (markIfUserAdded t id) = clean t := by
  unfold markIfUserAdded
  split_ifs <;> rfl

theorem withSlots_absent (t : ComponentTree) (id : UInt16)
    (f : List VirtualSlot → List VirtualSlot) (h : t.get id = none) : withSlots t id f = t := by
  unfold withSlots ComponentTree.modify
  rw [Table.modify_absent _ _ h]

theorem addLink_eq (t : ComponentTree) (l : Link) :
    t.addLink l.fromComp l.fromSlot l.toComp l.toSlot =
      if linkAccepted t l then (true, t.storeLink l) else (false, t) := by
  unfold ComponentTree.addLink linkAccepted
  cases h : t.get l.toComp with
  | none => simp
  | some comp =>
    by_cases hm : l ∈ comp.links
    · simp [hm]
    · by_cases hc : t.wouldCreateCycle l.fromComp l.toComp = true <;> simp [hm, hc]

theorem reorderChildren_eq (t : ComponentTree) (id : UInt16) (children : List UInt16) :
    t.reorderChildren id children =
      if reorderAccepted t id children then
        (true, t.modify id fun p => { p with children := children })
      else (false, t) := by
  unfold ComponentTree.reorderChildren reorderAccepted
  cases h : t.get id with
  | none => simp
  | some p => by_cases hp : p.children.mergeSort = children.mergeSort <;> simp [hp]

theorem handleAdd_clean (req : SoxRequest) (t : ComponentTree) :
    clean (handleAdd req t).1 = clean (applyEdit t (match decodeAdd req t with
      | .ok comp => .insert comp
      | .error _ => .keep)) := by
  unfold handleAdd
  cases decodeAdd req t <;> rfl

theorem remove_eq_none {t : ComponentTree} {id : UInt16} (h : t.get id = none) :
    t.remove id = (none, t) := by
  simp [ComponentTree.remove, h]

theorem handleDelete_clean (req : SoxRequest) (t : ComponentTree) :
    clean (handleDelete req t).1 = clean (applyEdit t (match decodeDelete req with
      | .ok id => .drop id
      | .error _ => .keep)) := by
  unfold handleDelete
  cases decodeDelete req with
  | error msg => rfl
  | ok id =>
    cases h : t.get id with
    | none => simp [applyEdit, remove_eq_none h, h]
    | some comp =>
      simp only [applyEdit, h, ComponentTree.remove, ComponentTree.isUserAdded, decide_eq_true_eq]
      split_ifs with hu
      · rfl
      · rw [Finset.erase_eq_of_notMem hu]

theorem rename_eq_none {t : ComponentTree} {id : UInt16} (name : String) (h : t.get id = none) :
    t.rename id name = (false, t) := by
  simp [ComponentTree.rename, h]

theorem handleRename_clean (req : SoxRequest) (t : ComponentTree) :
    clean (handleRename req t).1 = clean (applyEdit t (match decodeRename req with
      | .ok (id, name) => .rename id name
      | .error _ => .keep)) := by
  unfold handleRename
  cases decodeRename req with
  | error msg => rfl
  | ok e =>
    obtain ⟨id, name⟩ := e
    cases h : t.get id with
    | none => simp [applyEdit, rename_eq_none name h]
    | some comp =>
      simp only [applyEdit, ComponentTree.rename, h]
      split_ifs <;> rfl

theorem handleLink_clean (req : SoxRequest) (t : ComponentTree) :
    clean (handleLink req t).1 = clean (applyEdit t (match decodeLink req with
      | .ok (subcmd, l) =>
        if subcmd = 97 then linkEdit t l else if subcmd = 100 then .unlink l else .keep
      | .error _ => .keep)) := by
  unfold handleLink
  cases decodeLink req with
  | error msg => rfl
  | ok e =>
    obtain ⟨subcmd, l⟩ := e
    simp only [addLink_eq, linkEdit]
    split_ifs with ha hc hl hd
    · simp [linkAccepted, hc] at hl
    · rfl
    · simp [applyEdit]
    · rfl
    · cases h : t.removeLink l.fromComp l.fromSlot l.toComp l.toSlot with
      | mk removed t' =>
        have ht : t' = t.eraseLink l := congrArg Prod.snd h.symm
        cases removed <;> simp [applyEdit, ht]
    · rfl

theorem handleReorder_clean (req : SoxRequest) (t : ComponentTree) :
    clean (handleReorder req t).1 = clean (applyEdit t (match decodeReorder req with
      | .ok (id, children) => reorderEdit t id children
      | .error _ => .keep)) := by
  unfold handleReorder
  cases decodeReorder req with
  | error msg => rfl
  | ok e =>
    obtain ⟨id, children⟩ := e
    simp only [reorderChildren_eq, reorderEdit]
    split_ifs <;> rfl

theorem handleInvoke_clean (req : SoxRequest) (t : ComponentTree) :
    clean (handleInvoke req t).1 = clean (applyEdit t (soxInvokeEdit t req)) := by
  unfold handleInvoke soxInvokeEdit
  dsimp only
  generalize invokeValue _ _ _ = value
  cases value with
  | none => rfl
  | some v => exact clean_markIfUserAdded _ _

theorem handleWrite_clean (req : SoxRequest) (t : ComponentTree) :
    clean (handleWrite req t).1 = clean (applyEdit t (soxWriteEdit t req)) := by
  unfold handleWrite soxWriteEdit
  generalize (SoxReader.mk req.payload).readU16 = e
  obtain ⟨_ | compId, r⟩ := e
  · rfl
  dsimp only
  generalize r.readU8 = e
  obtain ⟨_ | slotId, r⟩ := e
  · rfl
  dsimp only
  generalize (decodeSlotValue r (slotTypeAt t compId slotId.toNat)).1 = value
  cases value with
  | none => rfl
  | some v =>
    dsimp only
    split_ifs with hn
    · rw [Option.isNone_iff_eq_none] at hn
      change _ = clean (withSlots t compId _)
      rw [withSlots_absent _ _ _ hn]
    · exact clean_markIfUserAdded _ _

theorem handleSoxRequest_clean (req : SoxRequest) (t : ComponentTree) :
    clean (handleSoxRequest req t) = clean (applyEdit t (soxEdit t req)) := by
  unfold handleSoxRequest soxEdit
  cases req.cmd with
  | add => exact handleAdd_clean req t
  | delete => exact handleDelete_clean req t
  | rename => exact handleRename_clean req t
  | link => exact handleLink_clean req t
  | reorder => exact handleReorder_clean req t
  | invoke => exact handleInvoke_clean req t
  | write => exact handleWrite_clean req t
  | _ => rfl

theorem addComp_clean (t : ComponentTree) (parentId : UInt16) (kitId typeId : UInt8)
    (name : String) :
    clean (addComp t parentId kitId typeId name).1 =
      clean (applyEdit t (addEdit t parentId kitId typeId name)) := by
  unfold addComp addEdit
  cases hv : validateName name with
  | some err => simp [applyEdit]
  | none =>
    cases hp : t.get parentId with
    | none => simp [applyEdit]
    | some parent => simp [applyEdit]

theorem rowsAddComp_fst (t : ComponentTree) (parentId : UInt16) (kitId typeId : UInt8)
    (name : String) :
    (rowsAddComp t parentId kitId typeId name).1 = (addComp t parentId kitId typeId name).1 := by
  unfold rowsAddComp addComp
  cases validateName name with
  | some err => rfl
  | none => dsimp only; split_ifs <;> rfl

theorem deleteComp_clean (t : ComponentTree) (id : UInt16) :
    clean (deleteComp t id).1 = clean (applyEdit t (deleteEdit id)) := by
  unfold deleteComp deleteEdit
  split_ifs
  · rfl
  · change _ = clean ((dropLinksOf t id).remove id).2
    cases (dropLinksOf t id).remove id with
    | mk removed t' => cases removed <;> rfl

theorem rowsDeleteComp_fst (t : ComponentTree) (id : UInt16) :
    (rowsDeleteComp t id).1 = (deleteComp t id).1 := by
  unfold rowsDeleteComp deleteComp
  split_ifs
  · rfl
  · cases (dropLinksOf t id).remove id with
    | mk removed t' => cases removed <;> rfl

theorem renameComp_clean (t : ComponentTree) (id : UInt16) (name : String) :
    clean (renameComp t id name).1 = clean (applyEdit t (renameEdit id name)) := by
  unfold renameComp renameEdit
  cases validateName name with
  | some err => rfl
  | none =>
    change _ = clean (t.rename id name).2
    cases h : t.get id with
    | none => simp [rename_eq_none name h]
    | some comp => simp [ComponentTree.rename, h]

theorem rowsRename_fst (t : ComponentTree) (id : UInt16) (name : String) :
    (rowsRename t id name).1 = (renameComp t id name).1 := by
  unfold rowsRename renameComp
  cases validateName name with
  | some err => rfl
  | none =>
    dsimp only
    cases t.rename id name with
    | mk found t' => cases found <;> rfl

theorem writeSlot_clean (t : ComponentTree) (id : UInt16) (idx : ℕ)
    (coerce : UInt8 → Option SlotValue) :
    clean (writeSlot t id idx coerce).1 = clean (applyEdit t (writeSlotEdit t id idx coerce)) := by
  unfold writeSlot writeSlotEdit
  cases t.get id with
  | none => rfl
  | some comp =>
    dsimp only [Option.bind_some]
    cases comp.slots[idx]? with
    | none => rfl
    | some s =>
      dsimp only [Option.bind_some]
      cases coerce s.typeId <;> rfl

theorem rowsWriteSlot_fst (t : ComponentTree) (id : UInt16) (idx : ℕ)
    (coerce : UInt8 → Option SlotValue) :
    (rowsWriteSlot t id idx coerce).1 = (writeSlot t id idx coerce).1 := by
  unfold rowsWriteSlot writeSlot
  cases t.get id with
  | none => rfl
  | some comp =>
    dsimp only
    cases comp.slots[idx]? with
    | none => rfl
    | some s =>
      dsimp only
      cases coerce s.typeId <;> rfl

theorem invokeAction_clean (t : ComponentTree) (id : UInt16) (slotName : String)
    (body : Option (UInt8 → Option SlotValue)) :
    clean (invokeAction t id slotName body).1 =
      clean (applyEdit t (invokeActionEdit t id slotName body)) := by
  unfold invokeAction invokeActionEdit boolActionEdit
  cases t.get id with
  | none => rfl
  | some comp =>
    dsimp only [Option.bind_some]
    cases comp.slots.find? (·.name = slotName) with
    | none => rfl
    | some s =>
      dsimp only
      rw [clean_markDirty]
      split_ifs
      · rfl
      · rfl
      · cases body.bind fun coerce => coerce s.typeId <;> rfl

theorem rowsInvoke_clean (t : ComponentTree) (id : UInt16) (idx : ℕ) :
    clean (rowsInvoke t id idx).1 = clean (applyEdit t (rowsInvokeEdit t id idx)) := by
  unfold rowsInvoke rowsInvokeEdit boolActionEdit
  cases t.get id with
  | none => rfl
  | some comp =>
    dsimp only [Option.bind_some]
    cases comp.slots[idx]? with
    | none => rfl
    | some s =>
      cases ha : isAction s with
      | false => simp [ha, applyEdit]
      | true =>
        simp only [ha, Bool.not_true, Bool.false_eq_true, if_false, if_true, clean_markDirty]
        split_ifs <;> rfl

theorem restAddLink_clean (t : ComponentTree) (l : Link) :
    clean (restAddLink t l).1 = clean (applyEdit t (linkEdit t l)) := by
  unfold restAddLink linkEdit
  rw [addLink_eq]
  split_ifs <;> rfl

theorem rowsAddLink_fst (t : ComponentTree) (l : Link) :
    (rowsAddLink t l).1 = (restAddLink t l).1 := by
  unfold rowsAddLink restAddLink
  rw [addLink_eq]
  split_ifs <;> rfl

theorem deleteLink_clean (t : ComponentTree) (l : Link) :
    clean (deleteLink t l).1 = clean (applyEdit t (.unlink l)) := by
  unfold deleteLink
  change _ = clean (t.removeLink l.fromComp l.fromSlot l.toComp l.toSlot).2
  cases t.removeLink l.fromComp l.fromSlot l.toComp l.toSlot with
  | mk removed t' => cases removed <;> rfl

theorem rowsDeleteLink_fst (t : ComponentTree) (l : Link) :
    (rowsDeleteLink t l).1 = (deleteLink t l).1 := by
  unfold rowsDeleteLink deleteLink
  cases t.removeLink l.fromComp l.fromSlot l.toComp l.toSlot with
  | mk removed t' => cases removed <;> rfl

theorem restReorderChildren_clean (t : ComponentTree) (id : UInt16) (children : List UInt16) :
    clean (restReorderChildren t id children).1 =
      clean (applyEdit t (reorderEdit t id children)) := by
  unfold restReorderChildren reorderEdit
  rw [reorderChildren_eq]
  cases h : t.get id with
  | none => simp [reorderAccepted, h, applyEdit]
  | some p =>
    simp only [Option.isNone_some, Bool.false_eq_true, if_false]
    split_ifs <;> rfl

theorem updatePos_clean (t : ComponentTree) (id : UInt16) (x y : UInt8) :
    clean (updatePos t id x y).1 = clean (applyEdit t (updatePosEdit t id x y)) := by
  unfold updatePos updatePosEdit
  cases t.get id with
  | none => rfl
  | some comp => cases h : comp.slots.isEmpty <;> simp [h, applyEdit]

theorem rowsUpdatePos_fst (t : ComponentTree) (id : UInt16) (x y : UInt8) :
    (rowsUpdatePos t id x y).1 = (updatePos t id x y).1 := by
  unfold rowsUpdatePos updatePos
  cases t.get id with
  | none => rfl
  | some comp => dsimp only; split_ifs <;> rfl

theorem applyOp_clean (t : ComponentTree) (op : TreeOp) :
    clean (applyOp t op) = clean (applyEdit t (edit t op)) := by
  cases op with
  | sox req => exact handleSoxRequest_clean req t
  | addComp parentId kitId typeId name => exact addComp_clean t parentId kitId typeId name
  | deleteComp id => exact deleteComp_clean t id
  | renameComp id name => exact renameComp_clean t id name
  | writeSlot id idx coerce => exact writeSlot_clean t id idx coerce
  | invokeAction id slotName body => exact invokeAction_clean t id slotName body
  | addLink l => exact restAddLink_clean t l
  | deleteLink l => exact deleteLink_clean t l
  | reorderChildren id children => exact restReorderChildren_clean t id children
  | updatePos id x y => exact updatePos_clean t id x y
  | rowsAddComp parentId kitId typeId name =>
    exact (congrArg clean (rowsAddComp_fst t parentId kitId typeId name)).trans
      (addComp_clean t parentId kitId typeId name)
  | rowsDeleteComp id =>
    exact (congrArg clean (rowsDeleteComp_fst t id)).trans (deleteComp_clean t id)
  | rowsRename id name =>
    exact (congrArg clean (rowsRename_fst t id name)).trans (renameComp_clean t id name)
  | rowsWriteSlot id idx coerce =>
    exact (congrArg clean (rowsWriteSlot_fst t id idx coerce)).trans
      (writeSlot_clean t id idx coerce)
  | rowsInvoke id idx => exact rowsInvoke_clean t id idx
  | rowsAddLink l => exact (congrArg clean (rowsAddLink_fst t l)).trans (restAddLink_clean t l)
  | rowsDeleteLink l => exact (congrArg clean (rowsDeleteLink_fst t l)).trans (deleteLink_clean t l)
  | rowsUpdatePos id x y =>
    exact (congrArg clean (rowsUpdatePos_fst t id x y)).trans (updatePos_clean t id x y)

def Admissible (t : ComponentTree) : TreeEdit → Prop
  | .insert comp => comp.compId = t.nextCompId ∧ (t.get comp.parentId).isSome ∧
      comp.children = [] ∧ comp.links = []
  | .drop id | .dropLinked id => 7 ≤ id
  | .link l => linkAccepted t l
  | .reorder id children => reorderAccepted t id children
  | _ => True

theorem decodeAdd_admissible {req : SoxRequest} {t : ComponentTree} {comp : VirtualComponent}
    (h : decodeAdd req t = .ok comp) : Admissible t (.insert comp) := by
  unfold decodeAdd at h
  dsimp only at h
  split at h
  · cases h
  · split at h
    · cases h
    · split_ifs at h with hp
      rw [Option.isNone_iff_eq_none] at hp
      cases h
      exact ⟨rfl, Option.isSome_iff_ne_none.2 hp, rfl, rfl⟩

theorem decodeDelete_admissible {req : SoxRequest} {id : UInt16} (t : ComponentTree)
    (h : decodeDelete req = .ok id) : Admissible t (.drop id) := by
  unfold decodeDelete at h
  split at h
  · cases h
  · split_ifs at h with hs
    cases h
    exact UInt16.not_lt.1 hs

theorem linkEdit_admissible (t : ComponentTree) (l : Link) : Admissible t (linkEdit t l) := by
  unfold linkEdit
  split_ifs with h
  · exact h
  · trivial

theorem reorderEdit_admissible (t : ComponentTree) (id : UInt16) (children : List UInt16) :
    Admissible t (reorderEdit t id children) := by
  unfold reorderEdit
  split_ifs with h
  · exact h
  · trivial

theorem boolActionEdit_admissible (t : ComponentTree) (id : UInt16) (name : String)
    {other : TreeEdit} (h : Admissible t other) : Admissible t (boolActionEdit id name other) := by
  unfold boolActionEdit
  split_ifs
  · trivial
  · trivial
  · exact h

theorem soxEdit_admissible (t : ComponentTree) (req : SoxRequest) :
    Admissible t (soxEdit t req) := by
  unfold soxEdit
  cases req.cmd with
  | add =>
    dsimp only
    split
    · rename_i h; exact decodeAdd_admissible h
    · trivial
  | delete =>
    dsimp only
    split
    · rename_i h; exact decodeDelete_admissible t h
    · trivial
  | rename => dsimp only; split <;> trivial
  | link =>
    dsimp only
    split
    · split_ifs
      · exact linkEdit_admissible t _
      · trivial
      · trivial
    · trivial
  | reorder =>
    dsimp only
    split
    · exact reorderEdit_admissible t _ _
    · trivial
  | invoke => dsimp only [soxInvokeEdit]; split <;> trivial
  | write =>
    dsimp only [soxWriteEdit]
    split
    · trivial
    · split
      · trivial
      · split <;> trivial
  | _ => trivial

theorem addEdit_admissible (t : ComponentTree) (parentId : UInt16) (kitId typeId : UInt8)
    (name : String) : Admissible t (addEdit t parentId kitId typeId name) := by
  unfold addEdit
  split_ifs with h
  · exact ⟨rfl, h.2, rfl, rfl⟩
  · trivial

theorem deleteEdit_admissible (t : ComponentTree) (id : UInt16) :
    Admissible t (deleteEdit id) := by
  unfold deleteEdit
  split_ifs with h
  · trivial
  · exact UInt16.not_lt.1 h

theorem edit_admissible (t : ComponentTree) (op : TreeOp) : Admissible t (edit t op) := by
  cases op with
  | sox req => exact soxEdit_admissible t req
  | addComp parentId kitId typeId name => exact addEdit_admissible t parentId kitId typeId name
  | rowsAddComp parentId kitId typeId name =>
    exact addEdit_admissible t parentId kitId typeId name
  | deleteComp id => exact deleteEdit_admissible t id
  | rowsDeleteComp id => exact deleteEdit_admissible t id
  | renameComp id name | rowsRename id name =>
    change Admissible t (renameEdit id name)
    unfold renameEdit
    split_ifs <;> trivial
  | writeSlot id idx coerce | rowsWriteSlot id idx coerce =>
    change Admissible t (writeSlotEdit t id idx coerce)
    unfold writeSlotEdit
    split <;> trivial
  | invokeAction id slotName body =>
    change Admissible t (invokeActionEdit t id slotName body)
    unfold invokeActionEdit
    split
    · trivial
    · refine boolActionEdit_admissible t id slotName ?_
      split <;> trivial
  | rowsInvoke id idx =>
    change Admissible t (rowsInvokeEdit t id idx)
    unfold rowsInvokeEdit
    split
    · trivial
    · split_ifs
      · exact boolActionEdit_admissible t id _ trivial
      · trivial
  | addLink l | rowsAddLink l => exact linkEdit_admissible t l
  | deleteLink l | rowsDeleteLink l => trivial
  | reorderChildren id children => exact reorderEdit_admissible t id children
  | updatePos id x y | rowsUpdatePos id x y =>
    change Admissible t (updatePosEdit t id x y)
    unfold updatePosEdit
    split_ifs <;> trivial

section Runs

variable {ok : ComponentTree → TreeEdit → Prop} {I P : ComponentTree → Prop}

theorem applyOp_iff (hP : ∀ t, P (clean t) ↔ P t) (t : ComponentTree) (op : TreeOp) :
    P (applyOp t op) ↔ P (applyEdit t (edit t op)) := by
  rw [← hP (applyOp t op), applyOp_clean, hP]

/-- Every request of the run performs an edit that meets `ok`. -/
def AlongEdits (ok : ComponentTree → TreeEdit → Prop) (t : ComponentTree) (ops : List TreeOp) :
    Prop :=
  Runs.Along applyOp (fun t op => ok t (edit t op)) t ops

theorem requests_invariant (hI : ∀ t, I (clean t) ↔ I t)
    (hstep : ∀ t e, I t → Admissible t e → ok t e → I (applyEdit t e))
    {t : ComponentTree} {ops : List TreeOp} (ht : I t) (hok : AlongEdits ok t ops) :
    ∀ u ∈ Runs.states applyOp t ops, I u :=
  Runs.states_invariant applyOp
    (fun s op hs ho => (applyOp_iff hI s op).2 (hstep s _ hs (edit_admissible s op) ho)) ht hok

/-- If an edit outside `ok` breaks `P` at once, then `P` holds along a run of
    requests exactly when all of its edits meet `ok`. -/
theorem requests_iff (hI : ∀ t, I (clean t) ↔ I t) (hP : ∀ t, P (clean t) ↔ P t)
    (hIP : ∀ t, I t → P t)
    (hstep : ∀ t e, I t → Admissible t e → ok t e → I (applyEdit t e))
    (hbad : ∀ t e, I t → Admissible t e → ¬ ok t e → ¬ P (applyEdit t e))
    {t : ComponentTree} {ops : List TreeOp} (ht : I t) :
    (∀ u ∈ Runs.states applyOp t ops, P u) ↔ AlongEdits ok t ops :=
  Runs.states_iff_along applyOp hIP
    (fun s op hs ho => (applyOp_iff hI s op).2 (hstep s _ hs (edit_admissible s op) ho))
    (fun s op hs ho => fun hp => hbad s _ hs (edit_admissible s op) ho ((applyOp_iff hP s op).1 hp))
    ht

end Runs

end Sandstar.TreeEdits
