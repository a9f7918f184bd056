import Sandstar.SavedEdits

set_option autoImplicit false

namespace Sandstar.SavedEdits
open SoxProtocol SoxSlots ComponentTree TreeRequests TreeEdits WriteBack FreshIds Runs

section Marks

variable {t : ComponentTree} {req : SoxRequest}

def QuietEdit (t : ComponentTree) : TreeEdit → Prop
  | .keep | .reorder _ _ => True
  | .insert _ => False
  | .dropLinked id => t.get id = none
  | .drop id | .rename id _ | .slots id _ => t.get id = none ∨ t.isUserAdded id = false
  | .link l => t.isUserAdded l.fromComp = false ∧ t.isUserAdded l.toComp = false
  | .unlink l => (¬ ∃ c, t.get l.toComp = some c ∧ l ∈ c.links) ∨
      t.isUserAdded l.fromComp = false ∧ t.isUserAdded l.toComp = false

def Unmarked (t t' : ComponentTree) (e : TreeEdit) : Prop :=
  t'.dirty = false → t.dirty = false ∧ QuietEdit t e

theorem unmarked_keep : Unmarked t t .keep := fun h => ⟨h, trivial⟩

theorem unmarked_dirty {t' : ComponentTree} {e : TreeEdit} (h : t'.dirty = true) :
    Unmarked t t' e := by
  intro hclean
  rw [h] at hclean
  cases hclean

theorem Unmarked.of_eq {t' u : ComponentTree} {e : TreeEdit} (h : Unmarked t t' e) (hu : u = t') :
    Unmarked t u e := by
  rw [hu]
  exact h

theorem unmarked_markIfUserAdded {t' : ComponentTree} {e : TreeEdit} {id : UInt16}
    (hdirty : t'.dirty = t.dirty) (husers : t'.userAddedIds = t.userAddedIds)
    (he : t.isUserAdded id = false → QuietEdit t e) :
    Unmarked t (markIfUserAdded t' id) e := by
  unfold markIfUserAdded
  split_ifs with huser
  · exact unmarked_dirty rfl
  · intro hclean
    unfold isUserAdded at huser
    rw [husers] at huser
    exact ⟨hdirty ▸ hclean, he (by simpa [isUserAdded] using huser)⟩

theorem unmarked_markLinkDirty {t' : ComponentTree} {e : TreeEdit} {l : Link}
    (hdirty : t'.dirty = t.dirty) (husers : t'.userAddedIds = t.userAddedIds)
    (he : t.isUserAdded l.fromComp = false ∧ t.isUserAdded l.toComp = false → QuietEdit t e) :
    Unmarked t (markLinkDirty t' l) e := by
  unfold markLinkDirty
  split_ifs with huser
  · exact unmarked_dirty rfl
  · intro hclean
    unfold isUserAdded at huser
    rw [husers] at huser
    exact ⟨hdirty ▸ hclean, he (by simpa [isUserAdded] using huser)⟩

theorem handleAdd_unmarked (req : SoxRequest) (t : ComponentTree) :
    Unmarked t (handleAdd req t).1 (match decodeAdd req t with
      | .ok comp => .insert comp
      | .error _ => .keep) := by
  unfold handleAdd
  cases decodeAdd req t with
  | error msg => exact unmarked_keep
  | ok comp => exact unmarked_dirty rfl

theorem handleDelete_unmarked (req : SoxRequest) (t : ComponentTree) :
    Unmarked t (handleDelete req t).1 (match decodeDelete req with
      | .ok id => .drop id
      | .error _ => .keep) := by
  unfold handleDelete
  cases decodeDelete req with
  | error msg => exact unmarked_keep
  | ok id =>
    cases hget : t.get id with
    | none =>
      simp only [remove_eq_none hget]
      exact fun hclean => ⟨hclean, .inl hget⟩
    | some comp =>
      simp only [ComponentTree.remove, hget]
      split_ifs with huser
      · exact unmarked_dirty rfl
      · exact fun hclean => ⟨hclean, .inr (by simpa using huser)⟩

theorem handleRename_unmarked (req : SoxRequest) (t : ComponentTree) :
    Unmarked t (handleRename req t).1 (match decodeRename req with
      | .ok (id, name) => .rename id name
      | .error _ => .keep) := by
  unfold handleRename
  cases decodeRename req with
  | error msg => exact unmarked_keep
  | ok e =>
    obtain ⟨id, name⟩ := e
    cases hget : t.get id with
    | none =>
      simp only [rename_eq_none name hget]
      exact fun hclean => ⟨hclean, .inl hget⟩
    | some comp =>
      simp only [ComponentTree.rename, hget]
      split_ifs with huser
      · exact unmarked_dirty rfl
      · exact fun hclean => ⟨hclean, .inr (by simpa [isUserAdded] using huser)⟩

theorem eraseLink_dirty (t : ComponentTree) (l : Link) : (t.eraseLink l).dirty = t.dirty := by
  unfold ComponentTree.eraseLink
  dsimp only
  split_ifs <;> rfl

theorem storeLink_dirty (t : ComponentTree) (l : Link) : (t.storeLink l).dirty = t.dirty := by
  unfold ComponentTree.storeLink
  dsimp only
  split_ifs <;> rfl

theorem storeLink_userAddedIds (t : ComponentTree) (l : Link) :
    (t.storeLink l).userAddedIds = t.userAddedIds := by
  unfold ComponentTree.storeLink
  dsimp only
  split_ifs <;> rfl

theorem removeLink_reports (t : ComponentTree) (l : Link) :
    (t.removeLink l.fromComp l.fromSlot l.toComp l.toSlot).1 = false →
      ¬ ∃ c, t.get l.toComp = some c ∧ l ∈ c.links := by
  rintro h ⟨c, hget, hmem⟩
  unfold ComponentTree.removeLink at h
  dsimp only at h
  rw [hget, Option.any_some, decide_eq_false_iff_not] at h
  exact h (List.length_filter_lt_length_iff_exists.2 ⟨l, hmem, by simp⟩)

theorem removeLink_quiet (t : ComponentTree) (l : Link) : ∃ removed,
    t.removeLink l.fromComp l.fromSlot l.toComp l.toSlot = (removed, t.eraseLink l) ∧
      (removed = false → Unmarked t (t.eraseLink l) (.unlink l)) := by
  refine ⟨_, rfl, fun hremoved hclean => ⟨?_, .inl (removeLink_reports t l hremoved)⟩⟩
  rwa [eraseLink_dirty] at hclean

theorem handleLink_unmarked (req : SoxRequest) (t : ComponentTree) :
    Unmarked t (handleLink req t).1 (match decodeLink req with
      | .ok (subcmd, l) =>
        if subcmd = 97 then linkEdit t l else if subcmd = 100 then .unlink l else .keep
      | .error _ => .keep) := by
  unfold handleLink
  cases decodeLink req with
  | error msg => exact unmarked_keep
  | ok e =>
    obtain ⟨subcmd, l⟩ := e
    simp only [addLink_eq, linkEdit]
    split_ifs with ha hc hl hd
    · simp [linkAccepted, hc] at hl
    · exact unmarked_keep
    · exact unmarked_markLinkDirty (storeLink_dirty t l) (storeLink_userAddedIds t l) id
    · exact unmarked_keep
    · obtain ⟨removed, hremove, hquiet⟩ := removeLink_quiet t l
      rw [hremove]
      cases removed with
      | true =>
        exact unmarked_markLinkDirty (eraseLink_dirty t l)
          (TreePersistence.eraseLink_userAddedIds t l) .inr
      | false => exact hquiet rfl
    · exact unmarked_keep

theorem reorderEdit_quiet (t : ComponentTree) (id : UInt16) (children : List UInt16) :
    QuietEdit t (reorderEdit t id children) := by
  unfold reorderEdit
  split_ifs <;> trivial

/-- The SOX reorder never raises the flag. -/
theorem handleReorder_dirty (req : SoxRequest) (t : ComponentTree) :
    (handleReorder req t).1.dirty = t.dirty := by
  unfold handleReorder
  cases decodeReorder req with
  | error msg => rfl
  | ok e =>
    simp only [reorderChildren_eq]
    split_ifs <;> rfl

theorem handleReorder_accepted {req : SoxRequest} {t : ComponentTree} {parentId : UInt16}
    {childIds : List UInt16} (hreq : decodeReorder req = .ok (parentId, childIds))
    (haccepted : reorderAccepted t parentId childIds = true) :
    (handleReorder req t).1 = t.modify parentId fun p => { p with children := childIds } := by
  unfold handleReorder
  rw [hreq]
  simp only [reorderChildren_eq, haccepted, if_true]

theorem handleReorder_unmarked (req : SoxRequest) (t : ComponentTree) :
    Unmarked t (handleReorder req t).1 (match decodeReorder req with
      | .ok (id, children) => reorderEdit t id children
      | .error _ => .keep) := by
  intro hclean
  rw [handleReorder_dirty] at hclean
  refine ⟨hclean, ?_⟩
  split
  · exact reorderEdit_quiet t _ _
  · trivial

theorem withSlots_unmarked (t : ComponentTree) (id : UInt16)
    (f : List VirtualSlot → List VirtualSlot) :
    Unmarked t (markIfUserAdded (withSlots t id f) id) (.slots id f) :=
  unmarked_markIfUserAdded rfl rfl .inr

theorem handleInvoke_unmarked (req : SoxRequest) (t : ComponentTree) :
    Unmarked t (handleInvoke req t).1 (soxInvokeEdit t req) := by
  unfold handleInvoke soxInvokeEdit
  dsimp only
  generalize invokeValue _ _ _ = value
  cases value with
  | none => exact unmarked_keep
  | some v => exact withSlots_unmarked t _ _

theorem handleWrite_unmarked (req : SoxRequest) (t : ComponentTree) :
    Unmarked t (handleWrite req t).1 (soxWriteEdit t req) := by
  unfold handleWrite soxWriteEdit
  generalize (SoxReader.mk req.payload).readU16 = e
  obtain ⟨_ | compId, r⟩ := e
  · exact unmarked_keep
  dsimp only
  generalize r.readU8 = e
  obtain ⟨_ | slotId, r⟩ := e
  · exact unmarked_keep
  dsimp only
  generalize (decodeSlotValue r (slotTypeAt t compId slotId.toNat)).1 = value
  cases value with
  | none => exact unmarked_keep
  | some v =>
    dsimp only
    split_ifs with habsent
    · exact fun hclean => ⟨hclean, .inl (Option.isNone_iff_eq_none.1 habsent)⟩
    · exact withSlots_unmarked t compId _

theorem handleSoxRequest_unmarked (req : SoxRequest) (t : ComponentTree) :
    Unmarked t (handleSoxRequest req t) (soxEdit t req) := by
  unfold handleSoxRequest soxEdit
  cases req.cmd with
  | add => exact handleAdd_unmarked req t
  | delete => exact handleDelete_unmarked req t
  | rename => exact handleRename_unmarked req t
  | link => exact handleLink_unmarked req t
  | reorder => exact handleReorder_unmarked req t
  | invoke => exact handleInvoke_unmarked req t
  | write => exact handleWrite_unmarked req t
  | _ => exact unmarked_keep

/-! The handlers of REST and RoWS raise the flag on every success. -/

theorem addComp_unmarked (t : ComponentTree) (parentId : UInt16) (kitId typeId : UInt8)
    (name : String) :
    Unmarked t (addComp t parentId kitId typeId name).1 (addEdit t parentId kitId typeId name) := by
  unfold addComp addEdit
  cases validateName name with
  | some err => simpa using unmarked_keep
  | none =>
    cases t.get parentId with
    | none => simpa using unmarked_keep
    | some parent => simpa using unmarked_dirty rfl

theorem deleteComp_unmarked (t : ComponentTree) (id : UInt16) :
    Unmarked t (deleteComp t id).1 (deleteEdit id) := by
  unfold deleteComp deleteEdit
  split_ifs with hsystem
  · exact unmarked_keep
  · cases hget : t.get id with
    | none =>
      have hsame : dropLinksOf t id = t := by simp [dropLinksOf, hget]
      simp only [hsame, remove_eq_none hget]
      exact fun hclean => ⟨hclean, hget⟩
    | some comp =>
      have hthere : ((dropLinksOf t id).get id).isSome := by
        simp [get_dropLinksOf, hget]
      obtain ⟨c, hc⟩ := Option.isSome_iff_exists.1 hthere
      simp only [ComponentTree.remove, hc]
      exact unmarked_dirty rfl

theorem renameComp_unmarked (t : ComponentTree) (id : UInt16) (name : String) :
    Unmarked t (renameComp t id name).1 (renameEdit id name) := by
  unfold renameComp renameEdit
  cases validateName name with
  | some err => exact unmarked_keep
  | none =>
    cases hget : t.get id with
    | none =>
      simp only [rename_eq_none name hget]
      exact fun hclean => ⟨hclean, .inl hget⟩
    | some comp =>
      simp only [ComponentTree.rename, hget]
      exact unmarked_dirty rfl

theorem writeSlot_unmarked (t : ComponentTree) (id : UInt16) (idx : ℕ)
    (coerce : UInt8 → Option SlotValue) :
    Unmarked t (writeSlot t id idx coerce).1 (writeSlotEdit t id idx coerce) := by
  unfold writeSlot writeSlotEdit
  cases t.get id with
  | none => exact unmarked_keep
  | some comp =>
    dsimp only [Option.bind_some]
    cases comp.slots[idx]? with
    | none => exact unmarked_keep
    | some s =>
      dsimp only [Option.bind_some]
      cases coerce s.typeId with
      | none => exact unmarked_keep
      | some v => exact unmarked_dirty rfl

theorem invokeAction_unmarked (t : ComponentTree) (id : UInt16) (slotName : String)
    (body : Option (UInt8 → Option SlotValue)) :
    Unmarked t (invokeAction t id slotName body).1 (invokeActionEdit t id slotName body) := by
  unfold invokeAction invokeActionEdit
  cases t.get id with
  | none => exact unmarked_keep
  | some comp =>
    dsimp only [Option.bind_some]
    cases comp.slots.find? (·.name = slotName) with
    | none => exact unmarked_keep
    | some s => exact unmarked_dirty rfl

theorem rowsInvoke_unmarked (t : ComponentTree) (id : UInt16) (idx : ℕ) :
    Unmarked t (rowsInvoke t id idx).1 (rowsInvokeEdit t id idx) := by
  unfold rowsInvoke rowsInvokeEdit
  cases t.get id with
  | none => exact unmarked_keep
  | some comp =>
    dsimp only [Option.bind_some]
    cases comp.slots[idx]? with
    | none => exact unmarked_keep
    | some s =>
      cases haction : isAction s with
      | false => simpa [haction] using unmarked_keep
      | true =>
        simp only [haction, Bool.not_true, Bool.false_eq_true, if_false]
        exact unmarked_dirty rfl

theorem restAddLink_unmarked (t : ComponentTree) (l : Link) :
    Unmarked t (restAddLink t l).1 (linkEdit t l) := by
  unfold restAddLink linkEdit
  rw [addLink_eq]
  split_ifs
  · exact unmarked_dirty rfl
  · exact unmarked_keep

theorem deleteLink_unmarked (t : ComponentTree) (l : Link) :
    Unmarked t (deleteLink t l).1 (.unlink l) := by
  unfold deleteLink
  obtain ⟨removed, hremove, hquiet⟩ := removeLink_quiet t l
  rw [hremove]
  cases removed with
  | true => exact unmarked_dirty rfl
  | false => exact hquiet rfl

theorem restReorderChildren_unmarked (t : ComponentTree) (id : UInt16) (children : List UInt16)
    (h : (restReorderChildren t id children).1.dirty = false) :
    t.dirty = false ∧ reorderEdit t id children = .keep := by
  unfold restReorderChildren at h
  unfold reorderEdit
  rw [reorderChildren_eq] at h
  cases hget : t.get id with
  | none =>
    simp only [hget, Option.isNone_none, if_true] at h
    simpa [reorderAccepted, hget] using h
  | some p =>
    simp only [hget, Option.isNone_some, Bool.false_eq_true, if_false] at h
    split_ifs at h ⊢ with haccept
    · cases h
    · exact ⟨h, rfl⟩

theorem updatePos_unmarked (t : ComponentTree) (id : UInt16) (x y : UInt8) :
    Unmarked t (updatePos t id x y).1 (updatePosEdit t id x y) := by
  unfold updatePos updatePosEdit
  cases t.get id with
  | none => exact unmarked_keep
  | some comp =>
    cases hempty : comp.slots.isEmpty with
    | true => simpa [hempty] using unmarked_keep
    | false => simpa [hempty] using unmarked_dirty rfl

/-- A request that leaves the flag down performs a quiet edit. -/
theorem applyOp_unmarked (t : ComponentTree) (op : TreeOp) :
    Unmarked t (applyOp t op) (edit t op) := by
  cases op with
  | sox req => exact handleSoxRequest_unmarked req t
  | addComp parentId kitId typeId name => exact addComp_unmarked t parentId kitId typeId name
  | deleteComp id => exact deleteComp_unmarked t id
  | renameComp id name => exact renameComp_unmarked t id name
  | writeSlot id idx coerce => exact writeSlot_unmarked t id idx coerce
  | invokeAction id slotName body => exact invokeAction_unmarked t id slotName body
  | addLink l => exact restAddLink_unmarked t l
  | deleteLink l => exact deleteLink_unmarked t l
  | reorderChildren id children =>
    exact fun h => ⟨(restReorderChildren_unmarked t id children h).1, reorderEdit_quiet t id children⟩
  | updatePos id x y => exact updatePos_unmarked t id x y
  | rowsAddComp parentId kitId typeId name =>
    exact (addComp_unmarked t parentId kitId typeId name).of_eq
      (rowsAddComp_fst t parentId kitId typeId name)
  | rowsDeleteComp id => exact (deleteComp_unmarked t id).of_eq (rowsDeleteComp_fst t id)
  | rowsRename id name => exact (renameComp_unmarked t id name).of_eq (rowsRename_fst t id name)
  | rowsWriteSlot id idx coerce =>
    exact (writeSlot_unmarked t id idx coerce).of_eq (rowsWriteSlot_fst t id idx coerce)
  | rowsInvoke id idx => exact rowsInvoke_unmarked t id idx
  | rowsAddLink l => exact (restAddLink_unmarked t l).of_eq (rowsAddLink_fst t l)
  | rowsDeleteLink l => exact (deleteLink_unmarked t l).of_eq (rowsDeleteLink_fst t l)
  | rowsUpdatePos id x y => exact (updatePos_unmarked t id x y).of_eq (rowsUpdatePos_fst t id x y)

/-- The REST reorder raises the flag unless it is refused. -/
theorem harmlessEdit_of_unmarked {op : TreeOp} (h : (applyOp t op).dirty = false)
    (hop : HarmlessOp t op) : HarmlessEdit t (edit t op) := by
  cases op with
  | reorderChildren id children =>
    change HarmlessEdit t (reorderEdit t id children)
    rw [(restReorderChildren_unmarked t id children h).2]
    trivial
  | _ => exact hop

end Marks

section Edits

variable {t t' : ComponentTree}

theorem userComp_congr (husers : t'.userAddedIds = t.userAddedIds)
    (hget : ∀ a, t.isUserAdded a = true → t'.get a = t.get a) : userComp t' = userComp t := by
  funext a
  have huser : t'.isUserAdded a = t.isUserAdded a := by
    unfold isUserAdded
    rw [husers]
  unfold userComp
  rw [huser]
  split_ifs with h
  · exact hget a h
  · rfl

theorem map_user {id a : UInt16} (hid : t.get id = none ∨ t.isUserAdded id = false)
    (ha : t.isUserAdded a = true) (f : VirtualComponent → VirtualComponent) :
    (if a = id then (t.get a).map f else t.get a) = t.get a := by
  split_ifs with heq
  · subst heq
    rcases hid with hnone | huser
    · rw [hnone]
      rfl
    · rw [huser] at ha
      cases ha
  · rfl

theorem map_self {a : UInt16} {f : VirtualComponent → VirtualComponent}
    (hf : ∀ c, t.get a = some c → f c = c) : (t.get a).map f = t.get a := by
  cases hget : t.get a with
  | none => rfl
  | some c => rw [Option.map_some, hf c hget]

theorem rename_userAddedIds (t : ComponentTree) (id : UInt16) (name : String) :
    (t.rename id name).2.userAddedIds = t.userAddedIds := by
  unfold ComponentTree.rename
  cases t.get id <;> rfl

theorem drop_user {id : UInt16} (hquiet : QuietEdit t (.drop id))
    (hok : HarmlessEdit t (.drop id)) : userComp (applyEdit t (.drop id)) = userComp t := by
  cases hget : t.get id with
  | none => rw [drop_absent hget]
  | some c =>
    have huser : t.isUserAdded id = false := by simpa [QuietEdit, hget] using hquiet
    have hmem : id ∉ t.userAddedIds := by simpa [isUserAdded] using huser
    have htree : applyEdit t (.drop id) =
        { (t.remove id).2 with userAddedIds := t.userAddedIds.erase id } := by
      simp only [applyEdit, hget]
    rw [htree]
    refine userComp_congr (Finset.erase_eq_of_notMem hmem) fun a ha => ?_
    change (t.remove id).2.get a = _
    rw [get_remove hget]
    split_ifs with heq hparent
    · rw [← heq, ha] at huser
      cases huser
    · subst hparent
      refine map_self fun p hp => ?_
      have hout := hok huser c p hget hp ha
      have hfilter : p.children.filter (· ≠ id) = p.children :=
        List.filter_eq_self.2 fun b hb => by
          simpa using fun heq : b = id => hout (heq ▸ hb)
      unfold dropChild
      rw [hfilter]
    · rfl

theorem link_user {l : Link} (hquiet : QuietEdit t (.link l)) :
    userComp (applyEdit t (.link l)) = userComp t := by
  refine userComp_congr (storeLink_userAddedIds t l) fun a ha => ?_
  change (t.storeLink l).get a = _
  rw [get_storeLink]
  obtain ⟨hfrom, hto⟩ := hquiet
  split_ifs with hl hl'
  · rw [hl, hto] at ha
    cases ha
  · rw [hl', hfrom] at ha
    cases ha
  · rfl

theorem unlink_user {l : Link} (hquiet : QuietEdit t (.unlink l))
    (hok : HarmlessEdit t (.unlink l)) : userComp (applyEdit t (.unlink l)) = userComp t := by
  refine userComp_congr (TreePersistence.eraseLink_userAddedIds t l) fun a ha => ?_
  change (t.eraseLink l).get a = _
  rw [get_eraseLink]
  split_ifs with hend
  · refine map_self fun c hc => dropLink_eq_self.2 fun hmem => ?_
    rcases hquiet with hcopy | ⟨hfrom, hto⟩
    · rcases hend with rfl | rfl
      · rcases hok with hat | hfrom
        · exact hcopy hat
        · exact hfrom c hc ha hmem
      · exact hcopy ⟨c, hc, hmem⟩
    · rcases hend with rfl | rfl
      · rw [hfrom] at ha
        cases ha
      · rw [hto] at ha
        cases ha
  · rfl

theorem quiet_keeps {e : TreeEdit} (hquiet : QuietEdit t e) (hok : HarmlessEdit t e) :
    userComp (applyEdit t e) = userComp t := by
  cases e with
  | keep => rfl
  | insert comp => exact hquiet.elim
  | drop id => exact drop_user hquiet hok
  | dropLinked id => rw [dropLinked_absent hquiet]
  | rename id name =>
    refine userComp_congr (rename_userAddedIds t id name) fun a ha => ?_
    change (t.rename id name).2.get a = _
    rw [get_rename]
    exact map_user hquiet ha _
  | link l => exact link_user hquiet
  | unlink l => exact unlink_user hquiet hok
  | reorder id children =>
    refine userComp_congr rfl fun a ha => ?_
    change (t.modify id _).get a = _
    rw [get_modify]
    split_ifs with heq
    · subst heq
      exact map_self fun c hc => by rw [← hok ha c hc]
    · rfl
  | slots id f =>
    refine userComp_congr rfl fun a ha => ?_
    change (t.modify id _).get a = _
    rw [get_modify]
    exact map_user hquiet ha _

theorem userComp_clean (t : ComponentTree) : userComp (clean t) = userComp t := rfl

theorem userComp_applyOp (t : ComponentTree) (op : TreeOp) :
    userComp (applyOp t op) = userComp (applyEdit t (edit t op)) := by
  rw [← userComp_clean (applyOp t op), applyOp_clean, userComp_clean]

/-! Every component stays under its own id. -/

theorem keyed_of_view (h : Keyed t)
    (hview : view VirtualComponent.compId t' = view VirtualComponent.compId t) : Keyed t' := by
  intro id c hget
  have hsame := congrFun hview id
  rw [view_of_get hget] at hsame
  obtain ⟨c', hget', hid⟩ := view_eq_some.1 hsame.symm
  rw [← hid]
  exact h id c' hget'

theorem keyed_remove (h : Keyed t) {id : UInt16} : Keyed (t.remove id).2 := by
  cases hget : t.get id with
  | none => rwa [remove_eq_none hget]
  | some comp =>
    intro a c hc
    rw [get_remove hget] at hc
    split_ifs at hc with heq hparent
    · obtain ⟨c', hc', rfl⟩ := Option.map_eq_some_iff.1 hc
      exact h a c' hc'
    · exact h a c hc

theorem keyed_add (h : Keyed t) (comp : VirtualComponent) : Keyed (t.add comp) := fun id c hc =>
  TreePersistence.foldl_restore_keyed [comp] h id c hc

theorem keyed_applyEdit (h : Keyed t) (e : TreeEdit) : Keyed (applyEdit t e) := by
  cases e with
  | keep => exact h
  | insert comp => exact keyed_add h comp
  | drop id =>
    cases hget : t.get id with
    | none => rwa [drop_absent hget]
    | some c => exact keyed_of_view (keyed_remove h) (view_drop hget)
  | dropLinked id =>
    have hlinks : Keyed (dropLinksOf t id) :=
      keyed_of_view h (view_dropLinksOf t id fun _ _ => rfl)
    exact keyed_remove hlinks
  | rename id name => exact keyed_of_view h (view_rename t id name fun _ => rfl)
  | link l => exact keyed_of_view h (view_storeLink t l fun _ => rfl)
  | unlink l => exact keyed_of_view h (view_eraseLink t l fun _ => rfl)
  | reorder id children => exact keyed_of_view h (view_modify t id fun _ => rfl)
  | slots id f => exact keyed_of_view h (view_modify t id fun _ => rfl)

theorem keyed_applyOp (h : Keyed t) (op : TreeOp) : Keyed (applyOp t op) :=
  (applyOp_iff (P := Keyed) (fun _ => Iff.rfl) t op).2 (keyed_applyEdit h (edit t op))

end Edits
end Sandstar.SavedEdits
