import Sandstar.LinkStore
import Sandstar.TreeLookup

set_option autoImplicit false

/-!
# Links over whole runs

The tree's links as a store over component ids. Three requests break its symmetry:
a link from a component that does not exist, a SOX delete of a linked component, and
an addition that wraps onto a linked component. The REST and RoWS delete removes the
peers' copies first.
-/
namespace Sandstar.TreeLinks
open ComponentTree SoxSlots TreeRequests TreeEdits LinkStore

def linkStore (t : ComponentTree) : LinkStore UInt16 Link := view VirtualComponent.links t

theorem linkStore_exists {t : ComponentTree} {k : UInt16} {P : List Link → Prop} :
    (∃ ls, linkStore t k = some ls ∧ P ls) ↔ ∃ c, t.get k = some c ∧ P c.links := by
  constructor
  · rintro ⟨ls, hls, hl⟩
    obtain ⟨c, hc, rfl⟩ := view_eq_some.1 hls
    exact ⟨c, hc, hl⟩
  · rintro ⟨c, hc, hl⟩
    exact ⟨c.links, view_of_get hc, hl⟩

theorem stored_iff {t : ComponentTree} {k : UInt16} {l : Link} :
    Stored (linkStore t) k l ↔ ∃ c, t.get k = some c ∧ l ∈ c.links :=
  linkStore_exists

theorem storedOnce_iff {t : ComponentTree} {k : UInt16} {l : Link} :
    StoredOnce (linkStore t) k l ↔ ∃ c, t.get k = some c ∧ c.links.count l = 1 :=
  linkStore_exists

theorem linkStore_add {t : ComponentTree} {comp : VirtualComponent} (h : comp.links = []) :
    linkStore (t.add comp) = clear (linkStore t) comp.compId := by
  have hpush : ∀ c, (pushChild comp.compId c).links = c.links := by
    intro c
    unfold pushChild
    split_ifs <;> rfl
  funext a
  unfold linkStore view clear
  rw [get_add]
  split_ifs
  · exact congrArg some h
  · rw [Option.map_map]
    exact congrArg (fun g => (t.get a).map g) (funext hpush)
  · rfl

theorem linkStore_insert {t : ComponentTree} {comp : VirtualComponent} (h : comp.links = []) :
    linkStore (applyEdit t (.insert comp)) = clear (linkStore t) comp.compId :=
  linkStore_add h

theorem linkStore_remove {t : ComponentTree} {id : UInt16} {c : VirtualComponent}
    (h : t.get id = some c) : linkStore (t.remove id).2 = delete (linkStore t) id := by
  funext a
  unfold linkStore view delete
  rw [get_remove h]
  split_ifs
  · rfl
  · rw [Option.map_map]
    rfl
  · rfl

theorem linkStore_drop {t : ComponentTree} {id : UInt16} {c : VirtualComponent}
    (h : t.get id = some c) :
    linkStore (applyEdit t (.drop id)) = delete (linkStore t) id :=
  (view_drop h).trans (linkStore_remove h)

theorem linkStore_storeLink (t : ComponentTree) (l : Link) :
    linkStore (t.storeLink l) = store Link.fromComp Link.toComp (linkStore t) l := by
  have honce : ∀ c, (pushLinkOnce l c).links = pushOnce l c.links := by
    intro c
    unfold pushLinkOnce pushOnce
    split_ifs <;> rfl
  funext a
  unfold linkStore view store
  rw [get_storeLink]
  split_ifs
  · rw [Option.map_map, Option.map_map]
    rfl
  · rw [Option.map_map, Option.map_map]
    exact congrArg (fun g => (t.get a).map g) (funext honce)
  · rfl

theorem linkStore_eraseLink (t : ComponentTree) (l : Link) :
    linkStore (t.eraseLink l) = LinkStore.erase Link.fromComp Link.toComp (linkStore t) l := by
  funext a
  unfold linkStore view LinkStore.erase
  rw [get_eraseLink]
  split_ifs
  · rw [Option.map_map, Option.map_map]
    rfl
  · rfl

theorem linkStore_dropLinked {t : ComponentTree} {id : UInt16} {c : VirtualComponent}
    (h : t.get id = some c) :
    linkStore (applyEdit t (.dropLinked id)) =
      delete (detach Link.fromComp Link.toComp (linkStore t) c.links) id := by
  have hdrop : ∀ a, (dropLinksOf t id).get a = (t.get a).map (withoutLinks c.links a) := by
    intro a
    rw [get_dropLinksOf, h]
    rfl
  have hid := hdrop id
  rw [h] at hid
  change linkStore ((dropLinksOf t id).remove id).2 = _
  rw [linkStore_remove hid]
  refine congrArg (delete · id) ?_
  funext a
  unfold linkStore view detach
  rw [hdrop, Option.map_map, Option.map_map]
  rfl

theorem linkStore_rename (t : ComponentTree) (id : UInt16) (name : String) :
    linkStore (applyEdit t (.rename id name)) = linkStore t :=
  view_rename t id name fun _ => rfl

theorem linkStore_reorder (t : ComponentTree) (id : UInt16) (children : List UInt16) :
    linkStore (applyEdit t (.reorder id children)) = linkStore t :=
  view_modify t id fun _ => rfl

theorem linkStore_slots (t : ComponentTree) (id : UInt16)
    (f : List VirtualSlot → List VirtualSlot) :
    linkStore (applyEdit t (.slots id f)) = linkStore t :=
  view_modify t id fun _ => rfl

theorem foldl_add_unlinked (comps : List VirtualComponent) {t : ComponentTree}
    (hc : ∀ c ∈ comps, c.links = []) (ht : ∀ k l, ¬ Stored (linkStore t) k l) :
    ∀ k l, ¬ Stored (linkStore (comps.foldl add t)) k l := by
  induction comps generalizing t with
  | nil => exact ht
  | cons c comps ih =>
    refine ih (fun d hd => hc d (List.mem_cons_of_mem _ hd)) fun k l hl => ?_
    rw [linkStore_add (hc c List.mem_cons_self), stored_clear] at hl
    exact ht k l hl.2

theorem fromChannels_unlinked (chs : List ChannelInfo) (db : ManifestDb) (k : UInt16) (l : Link) :
    ¬ Stored (linkStore (fromChannelsWithManifest chs db)) k l := by
  have hsystem : ∀ k l, ¬ Stored (linkStore (systemTree db)) k l := by
    refine foldl_add_unlinked _ ?_ ?_
    · decide
    · rintro k l ⟨ls, hls, -⟩
      cases hls
  refine foldl_add_unlinked _ (fun c hc => ?_) hsystem k l
  obtain ⟨e, -, rfl⟩ := List.mem_map.1 hc
  rfl

/-- Both endpoints of every stored link exist, and each of them stores it once. -/
def LinksMirrored (t : ComponentTree) : Prop :=
  ∀ id c, t.get id = some c → ∀ l ∈ c.links,
    (∃ a, t.get l.fromComp = some a ∧ a.links.count l = 1) ∧
      ∃ b, t.get l.toComp = some b ∧ b.links.count l = 1

theorem linksMirrored_iff (t : ComponentTree) :
    LinksMirrored t ↔ Symmetric Link.fromComp Link.toComp (linkStore t) := by
  constructor
  · intro h k l hl
    obtain ⟨c, hc, hm⟩ := stored_iff.1 hl
    exact ⟨storedOnce_iff.2 (h k c hc l hm).1, storedOnce_iff.2 (h k c hc l hm).2⟩
  · intro h id c hc l hl
    obtain ⟨hs, ht⟩ := h id l (stored_iff.2 ⟨c, hc, hl⟩)
    exact ⟨storedOnce_iff.1 hs, storedOnce_iff.1 ht⟩

def OnlyLoops (t : ComponentTree) (id : UInt16) : Prop :=
  ∀ c, t.get id = some c → ∀ l ∈ c.links, l.fromComp = l.toComp

/-- The source of a new link exists, and neither a SOX delete nor a wrapped id
    takes away one end of a link. -/
def MirroringEdit (t : ComponentTree) : TreeEdit → Prop
  | .insert comp => OnlyLoops t comp.compId
  | .drop id => OnlyLoops t id
  | .link l => (t.get l.fromComp).isSome
  | _ => True

theorem onlyLoops_iff (t : ComponentTree) (id : UInt16) :
    OnlyLoops t id ↔ ∀ l, Stored (linkStore t) id l → l.fromComp = l.toComp := by
  constructor
  · intro h l hl
    obtain ⟨c, hc, hm⟩ := stored_iff.1 hl
    exact h c hc l hm
  · intro h c hc l hl
    exact h l (stored_iff.2 ⟨c, hc, hl⟩)

structure Mirrored (f : LinkStore UInt16 Link) : Prop where
  symm : Symmetric Link.fromComp Link.toComp f
  loc : Local Link.fromComp Link.toComp f

theorem linkAccepted_target {t : ComponentTree} {l : Link} (h : linkAccepted t l) :
    (linkStore t l.toComp).isSome ∧ ¬ Stored (linkStore t) l.toComp l := by
  have hany : (t.get l.toComp).any (fun c => l ∉ c.links) = true := (Bool.and_eq_true_iff.1 h).1
  cases hc : t.get l.toComp with
  | none =>
    rw [hc] at hany
    cases hany
  | some c =>
    rw [hc] at hany
    refine ⟨?_, fun hs => ?_⟩
    · unfold linkStore view
      rw [hc]
      rfl
    · obtain ⟨d, hd, hm⟩ := stored_iff.1 hs
      rw [hc] at hd
      cases hd
      exact of_decide_eq_true hany hm

theorem linkStore_isSome (t : ComponentTree) (id : UInt16) :
    (linkStore t id).isSome = (t.get id).isSome :=
  Option.isSome_map

theorem applyEdit_mirrored (t : ComponentTree) (e : TreeEdit) (h : Mirrored (linkStore t))
    (hadm : Admissible t e) (hok : MirroringEdit t e) : Mirrored (linkStore (applyEdit t e)) := by
  cases e with
  | keep => exact h
  | insert comp =>
    rw [linkStore_insert hadm.2.2.2]
    exact ⟨clear_symmetric h.symm h.loc ((onlyLoops_iff t _).1 hok),
      h.loc.mono fun k l hl => (stored_clear.1 hl).2⟩
  | drop id =>
    cases hc : t.get id with
    | none =>
      rw [drop_absent hc]
      exact h
    | some c =>
      rw [linkStore_drop hc]
      exact ⟨delete_symmetric h.symm h.loc ((onlyLoops_iff t _).1 hok),
        h.loc.mono fun k l hl => (stored_delete.1 hl).2⟩
  | dropLinked id =>
    cases hc : t.get id with
    | none =>
      rw [dropLinked_absent hc]
      exact h
    | some c =>
      have hloc := detach_local h.loc c.links
      rw [linkStore_dropLinked hc]
      refine ⟨delete_symmetric (detach_symmetric h.symm h.loc c.links) hloc fun l hl => ?_,
        hloc.mono fun k l hl => (stored_delete.1 hl).2⟩
      exact absurd hl (not_stored_detach (h.loc id) (view_of_get hc))
  | rename id name => rw [linkStore_rename]; exact h
  | link l =>
    obtain ⟨ht, hnew⟩ := linkAccepted_target hadm
    change Mirrored (linkStore (t.storeLink l))
    rw [linkStore_storeLink]
    refine ⟨store_symmetric h.symm hnew ?_ ht, store_local h.loc⟩
    rw [linkStore_isSome]
    exact hok
  | unlink l =>
    change Mirrored (linkStore (t.eraseLink l))
    rw [linkStore_eraseLink]
    exact ⟨erase_symmetric h.symm h.loc, h.loc.mono fun k m hm => (stored_erase.1 hm).1⟩
  | reorder id children => rw [linkStore_reorder]; exact h
  | slots id f => rw [linkStore_slots]; exact h

/-- Emptying the component at `id` while it stores a link to another component. -/
theorem not_symmetric_of_not_onlyLoops {t : ComponentTree} {id : UInt16}
    (h : Mirrored (linkStore t)) (hbad : ¬ OnlyLoops t id) {g : LinkStore UInt16 Link}
    (hg : ∀ k l, Stored g k l ↔ k ≠ id ∧ Stored (linkStore t) k l) :
    ¬ Symmetric Link.fromComp Link.toComp g := by
  obtain ⟨l, hl, hne⟩ : ∃ l, Stored (linkStore t) id l ∧ l.fromComp ≠ l.toComp := by
    simpa [onlyLoops_iff] using hbad
  exact not_symmetric_of_emptied h.symm h.loc hl hne (fun hs => ((hg id l).1 hs).1 rfl)
    fun k hk hs => (hg k l).2 ⟨hk, hs⟩

theorem applyEdit_not_mirrored (t : ComponentTree) (e : TreeEdit) (h : Mirrored (linkStore t))
    (hadm : Admissible t e) (hbad : ¬ MirroringEdit t e) : ¬ LinksMirrored (applyEdit t e) := by
  rw [linksMirrored_iff]
  cases e with
  | insert comp =>
    rw [linkStore_insert hadm.2.2.2]
    exact not_symmetric_of_not_onlyLoops h hbad fun k l => stored_clear
  | drop id =>
    cases hc : t.get id with
    | none => exact absurd (fun c hc' => by rw [hc] at hc'; cases hc') hbad
    | some c =>
      rw [linkStore_drop hc]
      exact not_symmetric_of_not_onlyLoops h hbad fun k l => stored_delete
  | link l =>
    obtain ⟨ht, hnew⟩ := linkAccepted_target hadm
    have hs : linkStore t l.fromComp = none := by
      rw [← Option.not_isSome_iff_eq_none, linkStore_isSome]
      exact hbad
    change ¬ Symmetric _ _ (linkStore (t.storeLink l))
    rw [linkStore_storeLink]
    refine not_symmetric_of_absent (k := l.toComp) (l := l)
      (stored_store.2 (Or.inr ⟨rfl, Or.inr rfl, ht⟩)) (Or.inl fun hst => ?_)
    rcases stored_store.1 hst with ⟨ls, hls, -⟩ | ⟨-, -, hsome⟩
    · rw [hs] at hls
      cases hls
    · rw [hs] at hsome
      cases hsome
  | keep => exact absurd trivial hbad
  | dropLinked id => exact absurd trivial hbad
  | rename id name => exact absurd trivial hbad
  | unlink l => exact absurd trivial hbad
  | reorder id children => exact absurd trivial hbad
  | slots id f => exact absurd trivial hbad

/-- Over every run of requests from a fresh tree, every stored link is mirrored in
    every state exactly when no request strands one end of a link. -/
theorem requests_linksMirrored_iff (chs : List ChannelInfo) (db : ManifestDb)
    (ops : List TreeOp) :
    (∀ t ∈ Runs.states applyOp (fromChannelsWithManifest chs db) ops, LinksMirrored t) ↔
      AlongEdits MirroringEdit (fromChannelsWithManifest chs db) ops := by
  refine requests_iff (I := fun t => Mirrored (linkStore t)) (fun t => Iff.rfl)
    (fun t => Iff.rfl) (fun t ht => (linksMirrored_iff t).2 ht.symm)
    applyEdit_mirrored applyEdit_not_mirrored ⟨?_, ?_⟩
  · exact fun k l hl => absurd hl (fromChannels_unlinked chs db k l)
  · exact fun k l hl => absurd hl (fromChannels_unlinked chs db k l)

/-- Two components, a link between them, and the SOX deletion of its source. -/
def strandingRun : List TreeOp :=
  [.addComp 6 2 14 "a", .addComp 6 2 3 "b", .addLink ⟨7, 1, 8, 2⟩, .sox ⟨.delete, 1, [0, 7]⟩]

theorem strandingRun_not_linksMirrored :
    ¬ ∀ t ∈ Runs.states applyOp (fromChannels []) strandingRun, LinksMirrored t := by
  intro h
  have hm := h _ (Runs.run_mem_states applyOp (fromChannels []) strandingRun)
  have hpeer : ∃ c, (Runs.run applyOp (fromChannels []) strandingRun).get 8 = some c ∧
      (⟨7, 1, 8, 2⟩ : Link) ∈ c.links := ⟨_, rfl, by decide⟩
  have hgone : (Runs.run applyOp (fromChannels []) strandingRun).get 7 = none := rfl
  obtain ⟨c, hc, hl⟩ := hpeer
  obtain ⟨⟨a, ha, -⟩, -⟩ := hm 8 c hc _ hl
  rw [hgone] at ha
  cases ha

end Sandstar.TreeLinks
