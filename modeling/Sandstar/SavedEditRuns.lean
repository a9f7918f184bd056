import Sandstar.QuietEdits
import Sandstar.BridgeTicks

set_option autoImplicit false

namespace Sandstar.SavedEdits
open SoxProtocol SoxSlots ComponentTree TreeRequests TreeEdits WriteBack FreshIds Runs
open BridgeTicks (shell)
open ChannelOwners (SlotBlind)
open SoxServerLoop (clearTags)

section Files

variable {n : JsonNumbers} {t t' : ComponentTree} {flow : UInt16 → ℕ → Bool}
variable {file : PersistData}

theorem rel_none {α β : Type} {R R' : α → β → Prop} {b : Option β} (h : Option.Rel R none b) :
    Option.Rel R' none b := by
  cases b with
  | none => exact .none
  | some b => cases h

theorem mapM_rel {α β : Type} {f : α → Option β} {R : ℕ → α → β → Prop} {l : List α}
    (h : ∀ i a, l[i]? = some a → ∃ b, f a = some b ∧ R i a b) :
    ∃ l', l.mapM f = some l' ∧ ∀ i, Option.Rel (R i) l[i]? l'[i]? := by
  induction l generalizing R with
  | nil => exact ⟨[], rfl, fun i => .none⟩
  | cons a l ih =>
    obtain ⟨b, hb, hab⟩ := h 0 a rfl
    obtain ⟨l', hl', hrel⟩ := ih (R := fun i => R (i + 1)) fun i c hc => h (i + 1) c hc
    refine ⟨b :: l', ?_, fun i => ?_⟩
    · rw [List.mapM_cons, hb, hl']
      rfl
    · cases i with
      | zero => exact .some hab
      | succ i => exact hrel i

theorem find_rel {α β : Type} {R : α → β → Prop} {p : α → Bool} {q : β → Bool}
    (hpq : ∀ a b, R a b → p a = q b) {l : List α} {l' : List β}
    (h : ∀ i : ℕ, Option.Rel R l[i]? l'[i]?) : Option.Rel R (l.find? p) (l'.find? q) := by
  induction l generalizing l' with
  | nil =>
    cases l' with
    | nil => exact .none
    | cons b l' => cases h 0
  | cons a l ih =>
    cases l' with
    | nil => cases h 0
    | cons b l' =>
      have hab : R a b := by
        cases h 0 with
        | some hab => exact hab
      have hrest := ih fun i => h (i + 1)
      rw [List.find?_cons, List.find?_cons, ← hpq a b hab]
      cases p a with
      | true => exact .some hab
      | false => exact hrest

theorem inFile_save (h : Keyed t) {ids : List UInt16} (hids : ids.toFinset = t.userAddedIds)
    (id : UInt16) : inFile (t.saveUserComponents ids) id = userComp t id := by
  have hmem : ∀ a, a ∈ ids ↔ t.isUserAdded a = true := by
    intro a
    rw [← List.mem_toFinset, hids]
    simp [isUserAdded]
  have hfound : ∀ c, inFile (t.saveUserComponents ids) id = some c → userComp t id = some c := by
    intro c hc
    have hid : c.compId = id := by simpa using List.find?_some hc
    obtain ⟨a, ha, hget⟩ := List.mem_filterMap.1 (List.mem_of_find?_eq_some hc)
    have hkey := h a c hget
    rw [hid] at hkey
    subst hkey
    unfold userComp
    rw [if_pos ((hmem _).1 ha), hget]
  cases hfile : inFile (t.saveUserComponents ids) id with
  | some c => exact (hfound c hfile).symm
  | none =>
    cases huser : userComp t id with
    | none => rfl
    | some c =>
      unfold userComp at huser
      split_ifs at huser with hadded
      have hc : c ∈ (t.saveUserComponents ids).components :=
        List.mem_filterMap.2 ⟨id, (hmem id).2 hadded, huser⟩
      have hnone := List.find?_eq_none.1 hfile c hc
      rw [h id c huser] at hnone
      simp at hnone

theorem get_of_userComp {id : UInt16} {c : VirtualComponent} (h : userComp t id = some c) :
    t.get id = some c := by
  unfold userComp at h
  split_ifs at h
  exact h

theorem readComponent_savedAs {flow : ℕ → Bool} {c : VirtualComponent}
    (h : ∀ idx s, c.slots[idx]? = some s →
      ∃ v, readValue n s.value = some v ∧ (flow idx = false → v = s.value)) :
    ∃ c', readComponent n c = some c' ∧ SavedAs flow c c' ∧ c'.compId = c.compId := by
  have hslot : ∀ idx s, c.slots[idx]? = some s →
      ∃ s', readSlot n s = some s' ∧ (flow idx = false → s' = s) := by
    intro idx s hs
    obtain ⟨v, hv, hsame⟩ := h idx s hs
    refine ⟨{ s with value := v }, ?_, fun hflow => by rw [hsame hflow]⟩
    unfold readSlot
    rw [hv]
    rfl
  obtain ⟨slots, hslots, hrel⟩ := mapM_rel hslot
  refine ⟨{ c with slots := slots }, ?_, ⟨rfl, rfl, rfl, rfl, rfl, rfl, rfl, fun idx hflow => ?_⟩, rfl⟩
  · unfold readComponent
    rw [hslots]
    rfl
  · have hidx := hrel idx
    dsimp only
    cases hs : c.slots[idx]? with
    | none =>
      rw [hs] at hidx
      cases hs' : slots[idx]? with
      | none => rfl
      | some s' =>
        rw [hs'] at hidx
        cases hidx
    | some s =>
      rw [hs] at hidx
      cases hs' : slots[idx]? with
      | none =>
        rw [hs'] at hidx
        cases hidx
      | some s' =>
        rw [hs'] at hidx
        cases hidx with
        | some hsame => rw [hsame hflow]

theorem describes_save {w : World} (h : Keyed w.tree) {ids : List UInt16}
    (hids : ids.toFinset = w.tree.userAddedIds) (hread : Readable n w) :
    Describes n (userComp w.tree, w.flow) (w.tree.saveUserComponents ids) := by
  have huser : ∀ c ∈ (w.tree.saveUserComponents ids).components,
      userComp w.tree c.compId = some c := by
    intro c hc
    obtain ⟨a, ha, hget⟩ := List.mem_filterMap.1 hc
    rw [← List.mem_toFinset, hids] at ha
    unfold userComp isUserAdded
    rw [h a c hget, if_pos (decide_eq_true ha), hget]
  have hcomponent : ∀ i c, (w.tree.saveUserComponents ids).components[i]? = some c →
      ∃ c', readComponent n c = some c' ∧ SavedAs (w.flow c.compId) c c' ∧
        c'.compId = c.compId := fun i c hc =>
    readComponent_savedAs (hread c.compId c (huser c (List.mem_of_getElem? hc)))
  obtain ⟨components, hcomponents, hrel⟩ := mapM_rel hcomponent
  refine ⟨{ w.tree.saveUserComponents ids with components := components }, ?_, fun id => ?_⟩
  · unfold readFile
    rw [hcomponents]
    rfl
  · have hfound := find_rel (p := fun c => decide (c.compId = id))
      (q := fun c => decide (c.compId = id)) (fun c c' hc => by rw [hc.2]) hrel
    dsimp only
    rw [← inFile_save h hids id]
    cases hid : inFile (w.tree.saveUserComponents ids) id with
    | none =>
      unfold inFile at hid ⊢
      rw [hid] at hfound
      exact rel_none hfound
    | some c =>
      have hcid : c.compId = id := by simpa using List.find?_some hid
      unfold inFile at hid ⊢
      rw [hid] at hfound
      subst hcid
      cases hfile : components.find? fun c' => decide (c'.compId = c.compId) with
      | none =>
        rw [hfile] at hfound
        cases hfound
      | some c' =>
        rw [hfile] at hfound
        cases hfound with
        | some hc => exact .some hc.1

theorem Describes.edited (h : Describes n (userComp t, flow) file)
    (hsame : userComp t' = userComp t) : Describes n (userComp t', edited flow t t') file := by
  obtain ⟨saved, hread, h⟩ := h
  refine ⟨saved, hread, fun id => ?_⟩
  have hrel := h id
  dsimp only at hrel ⊢
  rw [hsame]
  cases huser : userComp t id with
  | none =>
    rw [huser] at hrel
    exact rel_none hrel
  | some c =>
    rw [huser] at hrel
    have hget := get_of_userComp huser
    have hget' := get_of_userComp ((congrFun hsame id).trans huser)
    have hflow : SavedEdits.edited flow t t' id = flow id := by
      funext idx
      simp [SavedEdits.edited, slotAt, hget, hget']
    rwa [hflow]

/-- The slots that the dataflow changes are remembered, and it changes nothing else. -/
theorem Describes.flowed (h : Describes n (userComp t, flow) file)
    (husers : t'.userAddedIds = t.userAddedIds)
    (hshell : ∀ a, (t'.get a).map shell = (t.get a).map shell) :
    Describes n (userComp t', flowed flow t t') file := by
  obtain ⟨record, hread, h⟩ := h
  refine ⟨record, hread, fun id => ?_⟩
  have hrel := h id
  have hsame := hshell id
  have huser : t'.isUserAdded id = t.isUserAdded id := by
    unfold isUserAdded
    rw [husers]
  dsimp only [userComp] at hrel ⊢
  rw [huser]
  split_ifs at hrel ⊢ with hadded
  · cases hget : t.get id with
    | none =>
      rw [hget, Option.map_none, Option.map_eq_none_iff] at hsame
      rw [hget] at hrel
      rw [hsame]
      exact rel_none hrel
    | some c =>
      rw [hget, Option.map_some, Option.map_eq_some_iff] at hsame
      obtain ⟨c', hget', hc⟩ := hsame
      rw [hget] at hrel
      rw [hget']
      cases hfile : inFile record id with
      | none =>
        rw [hfile] at hrel
        cases hrel
      | some saved =>
        rw [hfile] at hrel
        cases hrel with
        | some hsaved =>
          refine .some ⟨hsaved.name.trans ?_, hsaved.parentId.trans ?_, hsaved.typeName.trans ?_,
            hsaved.kitId.trans ?_, hsaved.typeId.trans ?_, hsaved.children.trans ?_,
            hsaved.links.trans ?_, fun idx hidx => ?_⟩
          · exact (congrArg VirtualComponent.name hc).symm
          · exact (congrArg VirtualComponent.parentId hc).symm
          · exact (congrArg VirtualComponent.typeName hc).symm
          · exact (congrArg VirtualComponent.kitId hc).symm
          · exact (congrArg VirtualComponent.typeId hc).symm
          · exact (congrArg VirtualComponent.children hc).symm
          · exact (congrArg VirtualComponent.links hc).symm
          · simp only [SavedEdits.flowed, slotAt, hget, hget', Option.bind_some,
              Bool.or_eq_false_iff, decide_eq_false_iff_not, not_not] at hidx
            rw [hsaved.slots idx hidx.1, hidx.2]
  · exact rel_none hrel

end Files

section Dataflow

variable {t t' : ComponentTree}

def unflowed (t : ComponentTree) : Bool × Finset UInt16 × (UInt16 → Option VirtualComponent) :=
  (t.dirty, t.userAddedIds, view shell t)

theorem unflowed_slotBlind : SlotBlind unflowed := by
  intro t id f
  have hview := view_modify (π := shell) t id (f := fun c => { c with slots := f c.slots })
    fun _ => rfl
  exact congrArg (fun v => (t.dirty, t.userAddedIds, v)) hview

theorem keyed_of_unflowed (h : Keyed t) (hsame : unflowed t' = unflowed t) : Keyed t' := by
  refine keyed_of_view h (funext fun a => ?_)
  have hshell : (t'.get a).map shell = (t.get a).map shell :=
    congrFun (congrArg (fun u => u.2.2) hsame) a
  have hids := congrArg (Option.map VirtualComponent.compId) hshell
  rwa [Option.map_map, Option.map_map] at hids

end Dataflow

section Tags

variable {s s' : DynSlotStore}

def TagsKept (s s' : DynSlotStore) : Prop :=
  s'.dirty = false → s.dirty = false ∧ ∀ a, tagsOf s'.slots a = tagsOf s.slots a

theorem tagsKept_refl (s : DynSlotStore) : TagsKept s s := fun h => ⟨h, fun _ => rfl⟩

theorem tagsKept_dirty (h : s'.dirty = true) : TagsKept s s' := by
  intro hclean
  rw [h] at hclean
  cases hclean

theorem set_tagsKept (s : DynSlotStore) (compId : UInt16) (key : String) (value : DynValue) :
    TagsKept s (s.set compId key value).1 := by
  -- a rejected tag leaves an empty map behind
  have hentry : ∀ a, tagsOf (s.slots.insert compId ((s.slots.get compId).getD Table.empty)) a =
      tagsOf s.slots a := by
    intro a
    unfold tagsOf
    by_cases ha : a = compId
    · subst ha
      rw [Table.get_insert_self, Option.getD_some]
    · rw [Table.get_insert_ne _ _ ha]
  unfold DynSlotStore.set
  dsimp only
  split
  · exact tagsKept_dirty rfl
  · split_ifs
    · exact fun h => ⟨h, hentry⟩
    · exact fun h => ⟨h, hentry⟩
    · exact tagsKept_dirty rfl

theorem remove_tagsKept {compId : UInt16} {key : String} {r : Option DynValue}
    (h : s.remove compId key = some (s', r)) : TagsKept s s' := by
  unfold DynSlotStore.remove at h
  cases hget : s.slots.get compId with
  | none =>
    rw [hget] at h
    cases h
    exact tagsKept_refl s
  | some tags =>
    rw [hget] at h
    dsimp only at h
    cases htag : tags.get key with
    | none =>
      rw [htag] at h
      cases h
      exact tagsKept_refl s
    | some value =>
      rw [htag] at h
      dsimp only at h
      split at h
      · cases h
      · cases h
        exact tagsKept_dirty rfl

theorem setAll_tagsKept {compId : UInt16} {tags : Tags} {names : List String}
    {r : Except String Unit} (h : s.setAll compId tags names = some (s', r)) : TagsKept s s' := by
  unfold DynSlotStore.setAll at h
  by_cases hper : s.maxPerComp < tags.size
  · rw [if_pos hper] at h
    cases h
    exact tagsKept_refl s
  · rw [if_neg hper] at h
    split at h
    · cases h
    · rename_i others _
      dsimp only at h
      by_cases htotal : s.maxTotal < others + tags.size
      · rw [if_pos htotal] at h
        cases h
        exact tagsKept_refl s
      · rw [if_neg htotal] at h
        cases h
        exact tagsKept_dirty rfl

theorem removeAll_tagsKept {compId : UInt16} (h : s.removeAll compId = some s') :
    TagsKept s s' := by
  unfold DynSlotStore.removeAll at h
  cases hget : s.slots.get compId with
  | none =>
    rw [hget] at h
    cases h
    exact fun hclean => ⟨hclean, fun _ => rfl⟩
  | some tags =>
    rw [hget] at h
    dsimp only at h
    split at h
    · cases h
    · cases h
      exact tagsKept_dirty rfl

theorem tagEdit_tagsKept {tags : Option DynSlotStore} {e : TagEdit}
    (h : DynSlotStore.step tags e.op = some s') : ∃ s, tags = some s ∧ TagsKept s s' := by
  cases tags with
  | none => cases h
  | some s =>
    refine ⟨s, rfl, ?_⟩
    cases e with
    | set compId key value =>
      cases h
      exact set_tagsKept s compId key value
    | remove compId key =>
      obtain ⟨⟨_, r⟩, hremove, rfl⟩ := Option.map_eq_some_iff.1 h
      exact remove_tagsKept hremove
    | setAll compId tags names =>
      obtain ⟨⟨_, r⟩, hset, rfl⟩ := Option.map_eq_some_iff.1 h
      exact setAll_tagsKept hset
    | removeAll compId => exact removeAll_tagsKept h

theorem requestTags_tagsKept {tags : Option DynSlotStore} {op : TreeOp}
    (h : requestTags tags op = some s') : ∃ s, tags = some s ∧ TagsKept s s' := by
  cases op with
  | sox req =>
    obtain ⟨s, rfl, hclear⟩ := Option.bind_eq_some_iff.1 h
    refine ⟨s, rfl, ?_⟩
    unfold clearTags at hclear
    split at hclear
    · cases hclear
      exact tagsKept_refl _
    · split_ifs at hclear
      · exact removeAll_tagsKept hclear
      · cases hclear
        exact tagsKept_refl _
  | _ => exact ⟨s', h, tagsKept_refl s'⟩

end Tags

section Runs

variable {n : JsonNumbers} {w : World}

theorem saved_tags (h : Saved n w) {s' : DynSlotStore} {file : Table UInt16 Tags}
    (hfile : file = w.tagFile) (hkept : ∃ s, w.tags = some s ∧ TagsKept s s') :
    Synced (DescribesTags n) (tagStore s' file) := by
  obtain ⟨s, htags, hkept⟩ := hkept
  refine (h.tags s htags).change hfile fun hclean => ?_
  obtain ⟨hbefore, hsame⟩ := hkept hclean
  refine ⟨hbefore, ?_⟩
  rintro ⟨saved, hread, hagrees⟩
  exact ⟨saved, hread, fun a => (hagrees a).trans (hsame a).symm⟩

theorem saved_request (hkeyed : Keyed w.tree) (h : Saved n w) {op : TreeOp}
    {written : Option (List UInt16)} (hok : Harmless n w (.request op written)) :
    Saved n (step w (.request op written)) := by
  refine ⟨fun hclean => ?_, fun s' hs' => saved_tags h rfl (requestTags_tagsKept hs')⟩
  obtain ⟨hdown, hquiet⟩ := applyOp_unmarked w.tree op hclean
  obtain ⟨hop, hread⟩ : HarmlessOp w.tree op ∧
      (invokesSave w.tree op = true → written.isSome = true → Readable n w) := by
    simpa [hdown] using hok.1
  have hsame : userComp (applyOp w.tree op) = userComp w.tree :=
    (userComp_applyOp w.tree op).trans
      (quiet_keeps hquiet (harmlessEdit_of_unmarked hclean hop))
  refine Describes.edited ?_ hsame
  dsimp only [step, treeStore]
  split_ifs with hsave
  · cases written with
    | none => exact h.tree hdown
    | some ids => exact describes_save hkeyed (hok.2 ids rfl) (hread hsave rfl)
  · exact h.tree hdown

theorem saved_flow (h : Saved n w) {t : ComponentTree} (hsame : unflowed t = unflowed w.tree) :
    Saved n (withFlow w t) := by
  refine ⟨h.tree.change rfl fun hclean => ?_, h.tags⟩
  have hdirty : t.dirty = w.tree.dirty := congrArg Prod.fst hsame
  refine ⟨hdirty.symm.trans hclean, fun hagrees => ?_⟩
  exact hagrees.flowed (congrArg (fun u => u.2.1) hsame)
    (congrFun (congrArg (fun u => u.2.2) hsame))

theorem treeStore_persist (w : World) (written : Option (List UInt16)) :
    treeStore (persistTree w written) = flush (savedFile w.tree written) (treeStore w) := by
  unfold persistTree flush
  cases h : w.tree.dirty with
  | false => simp [treeStore, h]
  | true =>
    simp only [treeStore, h, if_true]
    rfl

theorem describesTags_save {slots : Table UInt16 Tags} (h : ReadableTags n slots) :
    DescribesTags n slots slots :=
  ⟨slots, Table.tryMapValues_self fun id tags hid => Table.tryMapValues_self (h id tags hid),
    fun _ => rfl⟩

theorem saved_persist (hkeyed : Keyed w.tree) (h : Saved n w) {written : Option (List UInt16)}
    {tagsWritten : Bool} (hok : Harmless n w (.persist written tagsWritten)) :
    Saved n (persistTags (persistTree w written) tagsWritten) := by
  obtain ⟨hids, htree, htags⟩ := hok
  have hflushed : Synced (Describes n) (treeStore (persistTree w written)) := by
    rw [treeStore_persist, synced_flush_iff]
    refine ⟨h.tree, fun hdirty => ?_⟩
    have hwrite := htree hdirty
    cases written with
    | none => exact hwrite
    | some ids => exact describes_save hkeyed (hids ids rfl) hwrite
  have hkept : (persistTree w written).tags = w.tags ∧
      (persistTree w written).tagFile = w.tagFile := by
    unfold persistTree
    split_ifs <;> exact ⟨rfl, rfl⟩
  unfold persistTags
  rw [hkept.1]
  cases hstore : w.tags with
  | none => exact ⟨hflushed, fun s hs => by rw [hkept.1, hstore] at hs; cases hs⟩
  | some s =>
    dsimp only
    by_cases hdirty : s.dirty = true
    · rw [if_pos hdirty]
      refine ⟨hflushed, fun s' hs' _ => ?_⟩
      cases hs'
      have hwrite := htags s hstore hdirty
      cases tagsWritten with
      | true => exact describesTags_save hwrite
      | false =>
        dsimp only [tagStore]
        rw [hkept.2]
        exact hwrite
    · rw [if_neg hdirty]
      refine ⟨hflushed, fun s' hs' => ?_⟩
      rw [hkept.1] at hs'
      rw [hkept.2]
      exact h.tags s' hs'

theorem keyed_persist (h : Keyed w.tree) (written : Option (List UInt16)) (tagsWritten : Bool) :
    Keyed (persistTags (persistTree w written) tagsWritten).tree := by
  have htree : Keyed (persistTree w written).tree := by
    unfold persistTree
    split_ifs <;> exact h
  unfold persistTags
  split
  · exact htree
  · split_ifs <;> exact htree

theorem unflowed_event (t : ComponentTree) (channels : List ChannelInfo) (order : List UInt16) :
    unflowed (t.updateFromChannels channels).1 = unflowed t ∧
      unflowed (t.executeLinks order).1 = unflowed t ∧
      unflowed (t.executeComponents order).1 = unflowed t :=
  ⟨unflowed_slotBlind.updateFromChannels t channels, unflowed_slotBlind.executeLinks t order,
    unflowed_slotBlind.executeComponents (fun _ _ => rfl) t order⟩

theorem saved_step {e : Event} (h : Keyed w.tree ∧ Saved n w) (hok : Harmless n w e) :
    Keyed (step w e).tree ∧ Saved n (step w e) := by
  obtain ⟨hkeyed, hsaved⟩ := h
  cases e with
  | request op written => exact ⟨keyed_applyOp hkeyed op, saved_request hkeyed hsaved hok⟩
  | refresh channels =>
    have hsame := (unflowed_event w.tree channels []).1
    exact ⟨keyed_of_unflowed hkeyed hsame, saved_flow hsaved hsame⟩
  | links order =>
    have hsame := (unflowed_event w.tree [] order).2.1
    exact ⟨keyed_of_unflowed hkeyed hsame, saved_flow hsaved hsame⟩
  | components order =>
    have hsame := (unflowed_event w.tree [] order).2.2
    exact ⟨keyed_of_unflowed hkeyed hsame, saved_flow hsaved hsame⟩
  | tagEdit e =>
    exact ⟨hkeyed, hsaved.tree, fun s' hs' => saved_tags hsaved rfl (tagEdit_tagsKept hs')⟩
  | persist written tagsWritten =>
    exact ⟨keyed_persist hkeyed written tagsWritten, saved_persist hkeyed hsaved hok⟩

/-- Along a run of harmless events, whatever no flag announces is in the files. -/
theorem edits_reach_files (n : JsonNumbers) (w : World) (hkeyed : Keyed w.tree)
    (hsaved : Saved n w) (events : List Event) (hok : Along step (Harmless n) w events) :
    ∀ w' ∈ states step w events, Saved n w' := fun w' hw' =>
  (states_invariant (I := fun w => Keyed w.tree ∧ Saved n w) step (fun _ _ => saved_step)
    ⟨hkeyed, hsaved⟩ hok w' hw').2

theorem start_keyed (channels : List ChannelInfo) (db : ManifestDb) (maxPerComp maxTotal : ℕ) :
    Keyed (start channels db maxPerComp maxTotal).tree :=
  (TreePersistence.fromChannels_fresh channels db).keyed

theorem start_saved (n : JsonNumbers) (channels : List ChannelInfo) (db : ManifestDb)
    (maxPerComp maxTotal : ℕ) : Saved n (start channels db maxPerComp maxTotal) := by
  have husers := (TreePersistence.fromChannels_fresh channels db).users
  refine ⟨fun _ => ⟨_, rfl, fun id => ?_⟩, fun s hs _ => ?_⟩
  · have hnone : userComp (start channels db maxPerComp maxTotal).tree id = none := by
      unfold userComp isUserAdded start
      rw [husers]
      rfl
    dsimp only [treeStore]
    rw [hnone]
    exact .none
  · cases hs
    exact describesTags_save fun id tags hid => nomatch hid

def preciseNumbers : JsonNumbers where
  f32 bits := if bits &&& 0x7F800000 = 0x7F800000 then none else some bits
  f64 bits := if bits &&& 0x7FF0000000000000 = 0x7FF0000000000000 then none else some bits
  f32_null _ h := if_pos h
  f64_null _ h := if_pos h

theorem readable_of_slots (h : ∀ id ∈ w.tree.userAddedIds,
    (((w.tree.get id).map VirtualComponent.slots).getD []).all
      (fun s => decide (readValue n s.value = some s.value)) = true) : Readable n w := by
  intro id c hc idx s hs
  have hadded : id ∈ w.tree.userAddedIds := by
    by_contra hnot
    unfold userComp isUserAdded at hc
    rw [if_neg (by simpa using hnot)] at hc
    cases hc
  have hall := h id hadded
  rw [get_of_userComp hc, Option.map_some, Option.getD_some, List.all_eq_true] at hall
  exact ⟨s.value, of_decide_eq_true (hall s (List.mem_of_getElem? hs)), fun _ => rfl⟩

def constants : ManifestDb :=
  ⟨Table.empty.insert (2, 14) [⟨"meta", SoxValueType.int.code, slotFlagConfig, .int 1⟩,
    ⟨"out", SoxValueType.float.code, slotFlagConfig, .float 0⟩], []⟩

/-- The event that sets the constant 7 to the float with the given bytes. -/
def setConstant (bytes : List UInt8) : Event :=
  .request (.sox ⟨.write, 1, [0, 7, 1] ++ bytes⟩) none

/-- A constant added and set to 1.5 is in the file after the next tick. -/
theorem set_constant_saved :
    Saved preciseNumbers (run step (start [] constants 4 4)
      [.request (.addComp 0 2 14 "fan") none, setConstant [63, 192, 0, 0],
        .persist (some [7]) true]) := by
  have hadded : (run step (start [] constants 4 4) [.request (.addComp 0 2 14 "fan") none,
      setConstant [63, 192, 0, 0]]).tree.userAddedIds = {7} := by decide +kernel
  have hok : Along step (Harmless preciseNumbers) (start [] constants 4 4)
      [.request (.addComp 0 2 14 "fan") none, setConstant [63, 192, 0, 0],
        .persist (some [7]) true] := by
    refine ⟨⟨.inr ⟨?_, fun _ h => nomatch h⟩, fun _ h => nomatch h⟩,
      ⟨.inl (by decide +kernel), fun _ h => nomatch h⟩, ⟨?_, fun _ => ?_, fun s hs hdirty => ?_⟩,
      trivial⟩
    · unfold HarmlessOp TreeEdits.edit addEdit
      dsimp only
      split_ifs <;> trivial
    · intro ids hids
      cases hids
      exact hadded.symm
    · refine readable_of_slots fun id hid => ?_
      obtain rfl : id = 7 := Finset.mem_singleton.1 (hadded ▸ hid)
      decide +kernel
    · cases hs
      cases hdirty
  exact edits_reach_files _ _ (start_keyed _ _ _ _) (start_saved _ _ _ _ _) _ hok _
    (run_mem_states step _ _)

theorem Describes.children {t : ComponentTree} {flow : UInt16 → ℕ → Bool}
    {file saved : PersistData} (h : Describes n (userComp t, flow) file)
    (hread : readFile n file = some saved) (id : UInt16) :
    (inFile saved id).map VirtualComponent.children =
      (userComp t id).map VirtualComponent.children := by
  obtain ⟨saved', hread', h⟩ := h
  rw [hread] at hread'
  cases hread'
  have hrel := h id
  dsimp only at hrel
  cases huser : userComp t id with
  | none =>
    rw [huser] at hrel
    cases hfile : inFile saved id with
    | none => rfl
    | some c =>
      rw [hfile] at hrel
      cases hrel
  | some c =>
    rw [huser] at hrel
    cases hfile : inFile saved id with
    | none =>
      rw [hfile] at hrel
      cases hrel
    | some c' =>
      rw [hfile] at hrel
      cases hrel with
      | some hsaved => exact congrArg some hsaved.children

def ordered : World :=
  run step (start [] ManifestDb.new 4 4)
    [.request (.addComp 0 2 15 "fan") none, .request (.addComp 7 2 15 "low") none,
      .request (.addComp 7 2 15 "high") none, .persist (some [7, 8, 9]) true]

theorem reorder_unannounced :
    ¬ Saved preciseNumbers
      (step ordered (.request (.sox ⟨.reorder, 1, [0, 7, 2, 0, 9, 0, 8]⟩) none)) := by
  intro h
  have haccepted : reorderAccepted ordered.tree 7 [9, 8] = true := by
    have hchildren : ∃ p, ordered.tree.get 7 = some p ∧ p.children = [8, 9] := by
      refine ⟨_, rfl, ?_⟩
      decide +kernel
    obtain ⟨p, hget, hp⟩ := hchildren
    unfold reorderAccepted
    rw [hget, Option.any_some, hp]
    simp [List.mergeSort, List.MergeSort.Internal.splitInTwo]
  have hreq : decodeReorder ⟨.reorder, 1, [0, 7, 2, 0, 9, 0, 8]⟩ = .ok (7, [9, 8]) := rfl
  have htree := handleReorder_accepted hreq haccepted
  have hdirty := handleReorder_dirty ⟨.reorder, 1, [0, 7, 2, 0, 9, 0, 8]⟩ ordered.tree
  have hread : readFile preciseNumbers ordered.file = some ordered.file := by decide +kernel
  have hlost := Describes.children (h.tree (hdirty.trans (by decide +kernel))) hread 7
  change _ = (userComp (handleReorder ⟨.reorder, 1, [0, 7, 2, 0, 9, 0, 8]⟩ ordered.tree).1 7).map _
    at hlost
  rw [htree] at hlost
  revert hlost
  decide +kernel

/-- A save that fails loses an addition, and a tag as well; no save is due after a SOX
    reorder, and one that succeeds does not keep a NaN. -/
theorem announced_edits_lost :
    ¬ Saved preciseNumbers (run step (start [] ManifestDb.new 4 4)
        [.request (.addComp 0 2 15 "fan") none, .persist (some [7]) true,
          .request (.addComp 0 2 15 "pump") none, .persist none true]) ∧
      ¬ Saved preciseNumbers (run step (start [] ManifestDb.new 4 4)
        [.tagEdit (.set 0 "dis" .marker), .persist none false]) ∧
      ¬ Saved preciseNumbers (run step (start [] ManifestDb.new 4 4)
        [.request (.addComp 0 2 15 "fan") none, .request (.addComp 7 2 15 "low") none,
          .request (.addComp 7 2 15 "high") none, .persist (some [7, 8, 9]) true,
          .request (.sox ⟨.reorder, 1, [0, 7, 2, 0, 9, 0, 8]⟩) none]) ∧
      ¬ Saved preciseNumbers (run step (start [] constants 4 4)
        [.request (.addComp 0 2 14 "fan") none, setConstant [127, 192, 0, 0],
          .persist (some [7]) true]) := by
  refine ⟨fun h => ?_, fun h => ?_, reorder_unannounced, fun h => ?_⟩
  · have hread : readFile preciseNumbers (run step (start [] ManifestDb.new 4 4)
        [.request (.addComp 0 2 15 "fan") none, .persist (some [7]) true,
          .request (.addComp 0 2 15 "pump") none, .persist none true]).file =
        some (run step (start [] ManifestDb.new 4 4)
          [.request (.addComp 0 2 15 "fan") none, .persist (some [7]) true]).file := by
      decide +kernel
    have hlost := Describes.children (h.tree (by decide +kernel)) hread 8
    revert hlost
    decide +kernel
  · obtain ⟨saved, hread, hlost⟩ := h.tags _ rfl rfl
    have hempty : readTags preciseNumbers Table.empty = some Table.empty :=
      Table.tryMapValues_self fun _ _ hid => nomatch hid
    cases hempty.symm.trans hread
    have hdis := congrArg (Table.get · "dis") (hlost 0)
    revert hdis
    decide +kernel
  · obtain ⟨saved, hread, -⟩ := h.tree (by decide +kernel)
    revert hread
    have hnone : readFile preciseNumbers (run step (start [] constants 4 4)
        [.request (.addComp 0 2 14 "fan") none, setConstant [127, 192, 0, 0],
          .persist (some [7]) true]).file = none := by decide +kernel
    dsimp only [treeStore]
    rw [hnone]
    exact fun h => nomatch h

end Runs
end Sandstar.SavedEdits
