import Sandstar.TreeLookup

set_option autoImplicit false

/-!
# Deletion through the three front ends

REST and RoWS delete a component in the same way. SOX differs from them twice: it
leaves the peers' copies of the component's links where they are, and it forgets the
id as a user-added one, marking the tree dirty only then.
-/
namespace Sandstar.TreeDeletions
open SoxProtocol ComponentTree TreeRequests TreeEdits

/-- A SOX delete request; what follows the component id is not read. -/
def deleteRequest (reqId : UInt8) (id : UInt16) (rest : List UInt8) : SoxRequest :=
  ⟨.delete, reqId, beBytes16 id ++ rest⟩

/-- The trees agree in their components with parents, children and links, in the
    user-added ids and in whether they are to be saved. -/
structure SameTree (t u : ComponentTree) : Prop where
  components : t.components = u.components
  userAddedIds : t.userAddedIds = u.userAddedIds
  dirty : t.dirty = u.dirty

theorem SameTree.refl (t : ComponentTree) : SameTree t t := ⟨rfl, rfl, rfl⟩

theorem decodeDelete_deleteRequest (reqId : UInt8) (id : UInt16) (rest : List UInt8) :
    decodeDelete (deleteRequest reqId id rest) =
      if id < 7 then .error "cannot delete system component" else .ok id := by
  unfold decodeDelete deleteRequest
  dsimp only
  rw [readU16_beBytes16]

section Deleted

variable {t : ComponentTree} {id : UInt16} {c : VirtualComponent}

theorem remove_present (h : t.get id = some c) : (t.remove id).1 = some c := by
  unfold ComponentTree.remove
  rw [h]

theorem get_dropLinksOf_self (h : t.get id = some c) :
    (dropLinksOf t id).get id = some (withoutLinks c.links id c) := by
  rw [get_dropLinksOf, h]
  rfl

theorem sox_deleted (h : t.get id = some c) (hid : ¬ id < 7) (reqId : UInt8) (rest : List UInt8) :
    handleSoxRequest (deleteRequest reqId id rest) t =
      if id ∈ t.userAddedIds then
        { (t.remove id).2 with userAddedIds := (t.remove id).2.userAddedIds.erase id, dirty := true }
      else (t.remove id).2 := by
  have hremove : t.remove id = (some c, (t.remove id).2) :=
    Prod.ext (remove_present h) rfl
  change (handleDelete (deleteRequest reqId id rest) t).1 = _
  unfold handleDelete
  rw [decodeDelete_deleteRequest, if_neg hid]
  dsimp only
  rw [hremove]
  simp only [isUserAdded, decide_eq_true_eq]

theorem rest_deleted (h : t.get id = some c) (hid : ¬ id < 7) :
    (deleteComp t id).1 = ((dropLinksOf t id).remove id).2.markDirty := by
  have hremove : (dropLinksOf t id).remove id =
      (some (withoutLinks c.links id c), ((dropLinksOf t id).remove id).2) :=
    Prod.ext (remove_present (get_dropLinksOf_self h)) rfl
  unfold deleteComp
  rw [if_neg hid, hremove]

theorem rows_deleted (t : ComponentTree) (id : UInt16) :
    (rowsDeleteComp t id).1 = (deleteComp t id).1 := by
  unfold rowsDeleteComp deleteComp
  split_ifs
  · rfl
  · rcases (dropLinksOf t id).remove id with ⟨_ | _, _⟩ <;> rfl

theorem remove_userAddedIds (t : ComponentTree) (id : UInt16) :
    (t.remove id).2.userAddedIds = t.userAddedIds := by
  unfold ComponentTree.remove
  split <;> rfl

theorem remove_dirty (t : ComponentTree) (id : UInt16) : (t.remove id).2.dirty = t.dirty := by
  unfold ComponentTree.remove
  split <;> rfl

theorem dropLinksOf_userAddedIds (t : ComponentTree) (id : UInt16) :
    (dropLinksOf t id).userAddedIds = t.userAddedIds := by
  refine dropLinksOf_keeps t id fun t l => ?_
  unfold eraseLink
  dsimp only
  split_ifs <;> rfl

end Deleted

def Unlinked (t : ComponentTree) (id : UInt16) (c : VirtualComponent) : Prop :=
  ∀ l ∈ c.links, ∀ peer d, peer ≠ id → (peer = l.fromComp ∨ peer = l.toComp) →
    t.get peer = some d → l ∉ d.links

theorem withoutLinks_links_iff (ls : List Link) (a : UInt16) (d : VirtualComponent) :
    (withoutLinks ls a d).links = d.links ↔
      ∀ l ∈ ls, (a = l.fromComp ∨ a = l.toComp) → l ∉ d.links := by
  unfold withoutLinks
  dsimp only
  rw [List.filter_eq_self]
  constructor
  · intro h l hl ha hd
    have := h l hd
    simp [hl, ha] at this
  · intro h l hd
    have hn : ¬ (l ∈ ls ∧ (a = l.fromComp ∨ a = l.toComp)) := fun hl => h l hl.1 hl.2 hd
    exact decide_eq_true hn

theorem withoutLinks_eq_self {ls : List Link} {a : UInt16} {d : VirtualComponent}
    (h : (withoutLinks ls a d).links = d.links) : withoutLinks ls a d = d := by
  have hd : withoutLinks ls a d = { d with links := (withoutLinks ls a d).links } := rfl
  rw [hd, h]

/-- Removing a component with its links first leaves the components that removing
    it alone leaves exactly when the peers store none of them. -/
theorem removed_components_iff {t : ComponentTree} {id : UInt16} {c : VirtualComponent}
    (h : t.get id = some c) :
    (t.remove id).2.components = ((dropLinksOf t id).remove id).2.components ↔
      Unlinked t id c := by
  have hdrop : ∀ a, (dropLinksOf t id).get a = (t.get a).map (withoutLinks c.links a) := by
    intro a
    rw [get_dropLinksOf, h]
    rfl
  have hleft : ∀ a, (t.remove id).2.get a = _ := get_remove h
  have hright : ∀ a, ((dropLinksOf t id).remove id).2.get a = _ :=
    get_remove (get_dropLinksOf_self h)
  have hparent : (withoutLinks c.links id c).parentId = c.parentId := rfl
  constructor
  · intro heq l hl peer d hpeer hend hd
    have hget : (t.remove id).2.get peer = ((dropLinksOf t id).remove id).2.get peer :=
      congrArg (Table.get · peer) heq
    rw [hleft, hright, if_neg hpeer, if_neg hpeer, hparent, hdrop, hd] at hget
    have hlinks : d.links = (withoutLinks c.links peer d).links := by
      rw [Option.map_some] at hget
      split_ifs at hget
      · -- forgetting the child leaves the parent's links as they are
        rw [Option.map_some, Option.map_some] at hget
        have hparent := congrArg VirtualComponent.links (Option.some.inj hget)
        exact hparent
      · exact congrArg VirtualComponent.links (Option.some.inj hget)
    exact (withoutLinks_links_iff _ _ _).1 hlinks.symm l hl hend
  · intro hun
    refine Table.ext fun a => ?_
    change (t.remove id).2.get a = ((dropLinksOf t id).remove id).2.get a
    rw [hleft, hright, hparent, hdrop]
    by_cases ha : a = id
    · rw [if_pos ha, if_pos ha]
    · have hsame : (t.get a).map (withoutLinks c.links a) = t.get a := by
        cases hd : t.get a with
        | none => rfl
        | some d =>
          refine congrArg some (withoutLinks_eq_self ((withoutLinks_links_iff _ _ _).2 ?_))
          exact fun l hl hend => hun l hl a d ha hend hd
      rw [hsame]

/-- A component that can be deleted is not user-added, its tree is already to be
    saved, and no peer stores one of its links. -/
def DeletesAlike (t : ComponentTree) (id : UInt16) : Prop :=
  ¬ id < 7 → ∀ c, t.get id = some c → id ∉ t.userAddedIds ∧ t.dirty = true ∧ Unlinked t id c

theorem sox_sameTree_rest_iff {t : ComponentTree} {id : UInt16} {c : VirtualComponent}
    (h : t.get id = some c) (hid : ¬ id < 7) (reqId : UInt8) (rest : List UInt8) :
    SameTree (handleSoxRequest (deleteRequest reqId id rest) t) (deleteComp t id).1 ↔
      id ∉ t.userAddedIds ∧ t.dirty = true ∧ Unlinked t id c := by
  have huser : ((dropLinksOf t id).remove id).2.markDirty.userAddedIds = t.userAddedIds :=
    (remove_userAddedIds _ _).trans (dropLinksOf_userAddedIds t id)
  rw [sox_deleted h hid, rest_deleted h hid, ← removed_components_iff h]
  by_cases hmem : id ∈ t.userAddedIds
  · rw [if_pos hmem]
    constructor
    · intro hsame
      have hids := hsame.userAddedIds
      rw [huser] at hids
      rw [← hids] at hmem
      exact absurd hmem (Finset.notMem_erase id _)
    · exact fun hn => absurd hmem hn.1
  · rw [if_neg hmem]
    constructor
    · intro hsame
      exact ⟨hmem, (remove_dirty t id).symm.trans hsame.dirty, hsame.components⟩
    · rintro ⟨-, hdirty, hcomps⟩
      exact ⟨hcomps, (remove_userAddedIds t id).trans huser.symm, (remove_dirty t id).trans hdirty⟩

/-- In every tree, the three deletions of a component leave the same tree exactly
    when the component deletes alike; one that cannot be deleted always does. -/
theorem deletions_agree_iff (t : ComponentTree) (id : UInt16) (reqId : UInt8) (rest : List UInt8) :
    (SameTree (handleSoxRequest (deleteRequest reqId id rest) t) (deleteComp t id).1 ∧
      SameTree (deleteComp t id).1 (rowsDeleteComp t id).1) ↔ DeletesAlike t id := by
  rw [rows_deleted, and_iff_left (SameTree.refl _)]
  by_cases hid : id < 7
  · have hsox : handleSoxRequest (deleteRequest reqId id rest) t = t := by
      change (handleDelete (deleteRequest reqId id rest) t).1 = t
      unfold handleDelete
      rw [decodeDelete_deleteRequest, if_pos hid]
    have hrest : (deleteComp t id).1 = t := by
      unfold deleteComp
      rw [if_pos hid]
    rw [hsox, hrest]
    exact ⟨fun _ hn => absurd hid hn, fun _ => SameTree.refl t⟩
  · cases hc : t.get id with
    | none =>
      have hsox : handleSoxRequest (deleteRequest reqId id rest) t = t := by
        change (handleDelete (deleteRequest reqId id rest) t).1 = t
        unfold handleDelete
        rw [decodeDelete_deleteRequest, if_neg hid]
        dsimp only
        rw [remove_eq_none hc]
      have hdrop : dropLinksOf t id = t := by
        unfold dropLinksOf
        rw [hc]
        rfl
      have hrest : (deleteComp t id).1 = t := by
        unfold deleteComp
        rw [if_neg hid, hdrop, remove_eq_none hc]
      rw [hsox, hrest]
      refine ⟨fun _ _ c h => ?_, fun _ => SameTree.refl t⟩
      rw [hc] at h
      cases h
    | some c =>
      rw [sox_sameTree_rest_iff hc hid]
      constructor
      · intro h _ c' hc'
        rw [hc] at hc'
        cases hc'
        exact h
      · exact fun h => h hid c hc

/-- Two components added over REST and a link from the first to the second. -/
def linkedRun : List TreeOp := [.addComp 6 2 14 "a", .addComp 6 2 3 "b", .addLink ⟨7, 1, 8, 2⟩]

theorem linked_deletions_differ :
    ¬ SameTree
      (handleSoxRequest (deleteRequest 1 7 []) (Runs.run applyOp (fromChannels []) linkedRun))
      (deleteComp (Runs.run applyOp (fromChannels []) linkedRun) 7).1 := by
  intro h
  have hids := h.userAddedIds
  have hsox : 7 ∉ (handleSoxRequest (deleteRequest 1 7 [])
      (Runs.run applyOp (fromChannels []) linkedRun)).userAddedIds := by decide
  have hrest : 7 ∈ (deleteComp (Runs.run applyOp (fromChannels []) linkedRun) 7).1.userAddedIds := by
    decide
  rw [hids] at hsox
  exact hsox hrest

end Sandstar.TreeDeletions
