import Sandstar.Persistence
import Sandstar.TreeLinks

set_option autoImplicit false

/-!
# Dataflow across a restart

Only user-added components are saved, and a link is executed from the copy on its
target. A link into a user-added component therefore survives a restart with either
kind of source; a link into a channel or system component loses the copy that counts.
-/
namespace Sandstar.TreePersistence
open ComponentTree SoxSlots TreeRequests TreeEdits TreeLinks LinkStore

def HasLink (t : ComponentTree) (l : Link) : Prop := ∃ id c, t.get id = some c ∧ l ∈ c.links

/-- A link that `execute_links` transfers along: its target holds it, and its source
    slot exists. -/
def Followed (t : ComponentTree) (l : Link) : Prop :=
  ∃ id c, t.get id = some c ∧ l ∈ c.links ∧ c.compId = l.toComp ∧ (t.sourceSlot l).isSome

/-- Saving `t` and loading the file into `fresh`, whatever the order of the saved ids. -/
def reload (fresh t : ComponentTree) (ids : List UInt16) : ComponentTree :=
  (fresh.loadUserComponents (t.saveUserComponents ids)).2

structure ReloadKeeps (t r : ComponentTree) : Prop where
  ids : r.userAddedIds = t.userAddedIds
  comps : ∀ id ∈ t.userAddedIds, r.get id = t.get id
  links : ∀ l, HasLink r l ↔ HasLink t l
  transfers : ∀ l, Followed r l ↔ Followed t l

def Persists (fresh t : ComponentTree) : Prop :=
  ∀ ids : List UInt16, ids.toFinset = t.userAddedIds → ReloadKeeps t (reload fresh t ids)

/-- What a restart keeps of a component that is not in the file. -/
def core (c : VirtualComponent) : UInt16 × List VirtualSlot × List Link :=
  (c.compId, c.slots, c.links)

theorem core_pushChild (id : UInt16) (c : VirtualComponent) : core (pushChild id c) = core c := by
  unfold pushChild
  split_ifs <;> rfl

/-- The user-managed components stand beside those of the fresh tree, and each is
    listed by its parent as long as it has one. -/
structure Grounded (fresh t : ComponentTree) : Prop where
  keyed : ∀ id c, t.get id = some c → c.compId = id
  added : ∀ id ∈ t.userAddedIds, fresh.get id = none
  base : ∀ id, id ∉ t.userAddedIds →
    view (fun c => c.slots.length) t id = view (fun c => c.slots.length) fresh id
  parent : ∀ id ∈ t.userAddedIds, ∀ c, t.get id = some c →
    c.parentId < id ∧ ∀ p, t.get c.parentId = some p → id ∈ p.children

/-- A link found outside the user-managed components leads into one of them, which
    has its own copy. -/
structure Targeted (users : Finset UInt16) (f : LinkStore UInt16 Link) : Prop where
  loc : Local Link.fromComp Link.toComp f
  target : ∀ id, id ∉ users → ∀ l, Stored f id l → l.toComp ∈ users ∧ Stored f l.toComp l

structure Persistable (fresh t : ComponentTree) : Prop extends Grounded fresh t where
  targeted : Targeted t.userAddedIds (linkStore t)

theorem get_restore (t : ComponentTree) (comp : VirtualComponent) (a : UInt16) :
    (t.restore comp).get a =
      if a = comp.compId then some comp
      else if a = comp.parentId ∧ comp.parentId ≠ noParent then
        (t.get a).map (pushChild comp.compId)
      else t.get a :=
  get_add t comp a

/-- After the ids in `seen`: those are as saved, the others as in the fresh tree. -/
def Restored (fresh t : ComponentTree) (seen : Finset UInt16) (r : ComponentTree) : Prop :=
  ∀ a, (a ∈ seen → r.get a = t.get a) ∧ (a ∉ seen → view core r a = view core fresh a)

theorem restore_restored {fresh t r : ComponentTree} (h : Persistable fresh t) {id : UInt16}
    (hid : id ∈ t.userAddedIds) {c : VirtualComponent} (hc : t.get id = some c)
    {seen : Finset UInt16} (hr : Restored fresh t seen r) :
    Restored fresh t (insert id seen) (r.restore c) := by
  have hkey := h.keyed id c hc
  obtain ⟨-, hlisted⟩ := h.parent id hid c hc
  intro a
  rw [Finset.mem_insert]
  by_cases ha : a = id
  · subst a
    refine ⟨fun _ => ?_, fun hn => absurd (Or.inl rfl) hn⟩
    rw [get_restore, if_pos hkey.symm, hc]
  · have hne : a ≠ c.compId := fun e => ha (e.trans hkey)
    refine ⟨fun hs => ?_, fun hs => ?_⟩
    · have hget := (hr a).1 (hs.resolve_left ha)
      rw [get_restore, if_neg hne, hget]
      split_ifs with hp
      · cases hp' : t.get a with
        | none => rfl
        | some p =>
          have hmem : c.compId ∈ p.children := by
            rw [hkey]
            exact hlisted p (hp.1 ▸ hp')
          exact congrArg some (if_pos hmem)
      · rfl
    · rw [← (hr a).2 fun hn => hs (Or.inr hn)]
      unfold view
      rw [get_restore, if_neg hne]
      split_ifs
      · rw [Option.map_map]
        exact congrArg (fun g => (r.get a).map g) (funext (core_pushChild c.compId))
      · rfl

def present (t : ComponentTree) (ids : List UInt16) : Finset UInt16 :=
  ids.toFinset.filter fun id => (t.get id).isSome

theorem foldl_restored {fresh t : ComponentTree} (h : Persistable fresh t) (ids : List UInt16)
    (hids : ∀ id ∈ ids, id ∈ t.userAddedIds) {seen : Finset UInt16} {r : ComponentTree}
    (hr : Restored fresh t seen r) :
    Restored fresh t (seen ∪ present t ids) ((ids.filterMap t.get).foldl restore r) := by
  induction ids generalizing seen r with
  | nil =>
    unfold present
    simpa using hr
  | cons id ids ih =>
    have hrest := fun id' (hm : id' ∈ ids) => hids id' (List.mem_cons_of_mem _ hm)
    cases hc : t.get id with
    | none =>
      rw [List.filterMap_cons_none hc]
      have hp : present t (id :: ids) = present t ids := by
        unfold present
        ext a
        simp only [List.toFinset_cons, Finset.mem_filter, Finset.mem_insert]
        constructor
        · rintro ⟨rfl | ha, hs⟩
          · rw [hc] at hs
            cases hs
          · exact ⟨ha, hs⟩
        · exact fun ha => ⟨Or.inr ha.1, ha.2⟩
      rw [hp]
      exact ih hrest hr
    | some c =>
      rw [List.filterMap_cons_some hc, List.foldl_cons]
      have hp : seen ∪ present t (id :: ids) = insert id seen ∪ present t ids := by
        unfold present
        ext a
        simp only [List.toFinset_cons, Finset.mem_union, Finset.mem_filter, Finset.mem_insert]
        constructor
        · rintro (ha | ⟨rfl | ha, hs⟩)
          · exact Or.inl (Or.inr ha)
          · exact Or.inl (Or.inl rfl)
          · exact Or.inr ⟨ha, hs⟩
        · rintro ((rfl | ha) | ha)
          · exact Or.inr ⟨Or.inl rfl, by rw [hc]; rfl⟩
          · exact Or.inl ha
          · exact Or.inr ⟨Or.inr ha.1, ha.2⟩
      rw [hp]
      exact ih hrest (restore_restored h (hids id List.mem_cons_self) hc hr)

theorem foldl_restore_userAddedIds (comps : List VirtualComponent) (t : ComponentTree) :
    (comps.foldl restore t).userAddedIds = t.userAddedIds := by
  induction comps generalizing t with
  | nil => rfl
  | cons c comps ih => exact ih (t.restore c)

theorem foldl_restore_keyed (comps : List VirtualComponent) {t : ComponentTree}
    (h : ∀ id c, t.get id = some c → c.compId = id) :
    ∀ id c, (comps.foldl restore t).get id = some c → c.compId = id := by
  induction comps generalizing t with
  | nil => exact h
  | cons comp comps ih =>
    refine ih fun id c hc => ?_
    rw [get_restore] at hc
    split_ifs at hc with hid
    · cases hc
      exact hid.symm
    · obtain ⟨d, hd, rfl⟩ := Option.map_eq_some_iff.1 hc
      exact (congrArg Prod.fst (core_pushChild _ d)).trans (h id d hd)
    · exact h id c hc

theorem reload_keyed {fresh : ComponentTree} (h : ∀ id c, fresh.get id = some c → c.compId = id)
    (t : ComponentTree) (ids : List UInt16) :
    ∀ id c, (reload fresh t ids).get id = some c → c.compId = id :=
  foldl_restore_keyed _ h

section Reload

variable {fresh t : ComponentTree} {ids : List UInt16}

theorem reload_restored (h : Persistable fresh t) (hids : ids.toFinset = t.userAddedIds) :
    Restored fresh t (present t ids) (reload fresh t ids) := by
  have hmem : ∀ id ∈ ids, id ∈ t.userAddedIds := by
    intro id hid
    rw [← hids]
    exact List.mem_toFinset.2 hid
  have hstart : Restored fresh t ∅
      { fresh with userAddedIds := fresh.userAddedIds ∪ ids.toFinset } :=
    fun a => ⟨fun ha => absurd ha (Finset.notMem_empty a), fun _ => rfl⟩
  have hall := foldl_restored h ids hmem hstart
  rw [Finset.empty_union] at hall
  exact hall

theorem reload_user (h : Persistable fresh t) (hids : ids.toFinset = t.userAddedIds)
    {id : UInt16} (hid : id ∈ t.userAddedIds) : (reload fresh t ids).get id = t.get id := by
  have hr := reload_restored h hids id
  by_cases hp : id ∈ present t ids
  · exact hr.1 hp
  · have hnone : t.get id = none := by
      rw [← Option.not_isSome_iff_eq_none]
      intro hs
      refine hp (Finset.mem_filter.2 ⟨?_, hs⟩)
      rw [hids]
      exact hid
    have hview := hr.2 hp
    rw [view_eq_none.2 (h.added id hid)] at hview
    rw [hnone, view_eq_none.1 hview]

theorem reload_other (h : Persistable fresh t) (hids : ids.toFinset = t.userAddedIds)
    {id : UInt16} (hid : id ∉ t.userAddedIds) :
    view core (reload fresh t ids) id = view core fresh id := by
  refine (reload_restored h hids id).2 fun hp => hid ?_
  rw [← hids]
  exact (Finset.mem_filter.1 hp).1

theorem hasLink_iff (t : ComponentTree) (l : Link) :
    HasLink t l ↔ ∃ id, Stored (linkStore t) id l := by
  constructor
  · rintro ⟨id, c, hc, hl⟩
    exact ⟨id, stored_iff.2 ⟨c, hc, hl⟩⟩
  · rintro ⟨id, hl⟩
    obtain ⟨c, hc, hm⟩ := stored_iff.1 hl
    exact ⟨id, c, hc, hm⟩

theorem reload_stored (h : Persistable fresh t) (hids : ids.toFinset = t.userAddedIds)
    (hfresh : ∀ k l, ¬ Stored (linkStore fresh) k l) {id : UInt16} {l : Link} :
    Stored (linkStore (reload fresh t ids)) id l ↔
      id ∈ t.userAddedIds ∧ Stored (linkStore t) id l := by
  by_cases hid : id ∈ t.userAddedIds
  · rw [stored_iff, stored_iff, reload_user h hids hid]
    exact ⟨fun hs => ⟨hid, hs⟩, fun hs => hs.2⟩
  · refine ⟨fun hs => ?_, fun hs => absurd hs.1 hid⟩
    obtain ⟨c, hc, hl⟩ := stored_iff.1 hs
    have hview := reload_other h hids hid
    rw [view_of_get hc] at hview
    obtain ⟨d, hd, hcore⟩ := view_eq_some.1 hview.symm
    have hlinks : d.links = c.links := congrArg (fun x => x.2.2) hcore
    exact absurd (stored_iff.2 ⟨d, hd, hlinks ▸ hl⟩) (hfresh id l)

theorem sourceSlot_isSome (t : ComponentTree) (l : Link) :
    (t.sourceSlot l).isSome ↔
      ∃ n, view (fun c => c.slots.length) t l.fromComp = some n ∧ l.fromSlot.toNat < n := by
  unfold sourceSlot view
  cases t.get l.fromComp with
  | none => simp
  | some c => simp

theorem reload_sourceSlot (h : Persistable fresh t) (hids : ids.toFinset = t.userAddedIds)
    (l : Link) : ((reload fresh t ids).sourceSlot l).isSome ↔ (t.sourceSlot l).isSome := by
  rw [sourceSlot_isSome, sourceSlot_isSome]
  have hview : view (fun c => c.slots.length) (reload fresh t ids) l.fromComp =
      view (fun c => c.slots.length) t l.fromComp := by
    by_cases hid : l.fromComp ∈ t.userAddedIds
    · unfold view
      rw [reload_user h hids hid]
    · rw [h.base _ hid]
      have hcore := congrArg (Option.map fun x => x.2.1.length) (reload_other h hids hid)
      unfold view at hcore
      rw [Option.map_map, Option.map_map] at hcore
      exact hcore
  rw [hview]

theorem followed_iff (hkey : ∀ id c, t.get id = some c → c.compId = id) (l : Link) :
    Followed t l ↔ Stored (linkStore t) l.toComp l ∧ (t.sourceSlot l).isSome := by
  constructor
  · rintro ⟨id, c, hc, hl, hto, hs⟩
    have hid : id = l.toComp := (hkey id c hc).symm.trans hto
    exact ⟨stored_iff.2 ⟨c, hid ▸ hc, hl⟩, hs⟩
  · rintro ⟨hst, hs⟩
    obtain ⟨c, hc, hl⟩ := stored_iff.1 hst
    exact ⟨l.toComp, c, hc, hl, hkey _ c hc, hs⟩

theorem Persistable.keeps (h : Persistable fresh t) (hids : ids.toFinset = t.userAddedIds)
    (hun : ∀ k l, ¬ Stored (linkStore fresh) k l) (huser : fresh.userAddedIds = ∅)
    (hkey : ∀ id c, fresh.get id = some c → c.compId = id) :
    ReloadKeeps t (reload fresh t ids) where
  ids := by
    change ((ids.filterMap t.get).foldl restore
      { fresh with userAddedIds := fresh.userAddedIds ∪ ids.toFinset }).userAddedIds = _
    rw [foldl_restore_userAddedIds, huser, Finset.empty_union]
    exact hids
  comps _ hid := reload_user h hids hid
  links := by
    intro l
    rw [hasLink_iff, hasLink_iff]
    constructor
    · rintro ⟨id, hs⟩
      exact ⟨id, ((reload_stored h hids hun).1 hs).2⟩
    · rintro ⟨id, hs⟩
      by_cases hid : id ∈ t.userAddedIds
      · exact ⟨id, (reload_stored h hids hun).2 ⟨hid, hs⟩⟩
      · exact ⟨l.toComp, (reload_stored h hids hun).2 (h.targeted.target id hid l hs)⟩
  transfers := by
    intro l
    rw [followed_iff (reload_keyed hkey t ids), followed_iff h.keyed, reload_sourceSlot h hids,
      reload_stored h hids hun]
    constructor
    · exact fun hl => ⟨hl.1.2, hl.2⟩
    · intro hl
      refine ⟨⟨?_, hl.1⟩, hl.2⟩
      by_contra hid
      exact hid (h.targeted.target _ hid l hl.1).1

end Reload

section Targeted

variable {users : Finset UInt16} {f : LinkStore UInt16 Link} {id : UInt16} {l : Link}

theorem store_targeted (h : Targeted users f) (hto : l.toComp ∈ users)
    (hsome : (f l.toComp).isSome) : Targeted users (store Link.fromComp Link.toComp f l) := by
  refine ⟨store_local h.loc, fun k hk m hm => ?_⟩
  rcases stored_store.1 hm with hold | ⟨rfl, -, -⟩
  · obtain ⟨hu, hs⟩ := h.target k hk m hold
    exact ⟨hu, stored_store.2 (Or.inl hs)⟩
  · exact ⟨hto, stored_store.2 (Or.inr ⟨rfl, Or.inr rfl, hsome⟩)⟩

theorem erase_targeted (h : Targeted users f) :
    Targeted users (LinkStore.erase Link.fromComp Link.toComp f l) := by
  refine ⟨h.loc.mono fun k m hm => (stored_erase.1 hm).1, fun k hk m hm => ?_⟩
  obtain ⟨hold, hn⟩ := stored_erase.1 hm
  obtain ⟨hu, hs⟩ := h.target k hk m hold
  refine ⟨hu, stored_erase.2 ⟨hs, ?_⟩⟩
  rintro ⟨rfl, -⟩
  exact hn ⟨rfl, h.loc k m hold⟩

theorem detach_targeted (h : Targeted users f) (ls : List Link) :
    Targeted users (detach Link.fromComp Link.toComp f ls) := by
  refine ⟨detach_local h.loc ls, fun k hk m hm => ?_⟩
  obtain ⟨hold, hn⟩ := stored_detach.1 hm
  obtain ⟨hu, hs⟩ := h.target k hk m hold
  exact ⟨hu, stored_detach.2 ⟨hs, fun hm => hn ⟨hm.1, h.loc k m hold⟩⟩⟩

theorem delete_targeted (h : Targeted users f)
    (hno : ∀ k m, k ∉ users → Stored f k m → m.toComp ≠ id) :
    Targeted users (delete f id) := by
  refine ⟨h.loc.mono fun k m hm => (stored_delete.1 hm).2, fun k hk m hm => ?_⟩
  obtain ⟨-, hold⟩ := stored_delete.1 hm
  obtain ⟨hu, hs⟩ := h.target k hk m hold
  exact ⟨hu, stored_delete.2 ⟨hno k m hk hold, hs⟩⟩

/-- The deleted id itself leaves the user-managed set. -/
theorem forget_targeted (h : Targeted users (delete f id))
    (hno : ∀ k m, k ∉ users → Stored f k m → m.toComp ≠ id) :
    Targeted (users.erase id) (delete f id) := by
  refine ⟨h.loc, fun k hk m hm => ?_⟩
  obtain ⟨hne, hold⟩ := stored_delete.1 hm
  have hk' : k ∉ users := fun hu => hk (Finset.mem_erase.2 ⟨hne, hu⟩)
  obtain ⟨hu, hs⟩ := h.target k hk' m hm
  exact ⟨Finset.mem_erase.2 ⟨hno k m hk' hold, hu⟩, hs⟩

theorem clear_targeted (h : Targeted users f) (hfree : f id = none) :
    Targeted (insert id users) (clear f id) := by
  refine ⟨h.loc.mono fun k m hm => (stored_clear.1 hm).2, fun k hk m hm => ?_⟩
  obtain ⟨-, hold⟩ := stored_clear.1 hm
  obtain ⟨hu, hs⟩ := h.target k (fun hu => hk (Finset.mem_insert_of_mem hu)) m hold
  refine ⟨Finset.mem_insert_of_mem hu, stored_clear.2 ⟨?_, hs⟩⟩
  rintro e
  obtain ⟨ls, hls, -⟩ := hs
  rw [e, hfree] at hls
  cases hls

end Targeted

section Grounded

variable {fresh t u : ComponentTree}

/-- A change that keeps the ids, the parents, the listed children that remain, and the
    number of slots outside the user-managed components. -/
theorem Grounded.transfer (h : Grounded fresh t) (hu : u.userAddedIds = t.userAddedIds)
    (hget : ∀ id c, u.get id = some c → ∃ d, t.get id = some d ∧ c.compId = d.compId ∧
      c.parentId = d.parentId ∧ (id ∉ t.userAddedIds → c.slots.length = d.slots.length) ∧
      ∀ k ∈ d.children, (u.get k).isSome → k ∈ c.children)
    (hkeep : ∀ id, id ∉ t.userAddedIds → u.get id = none → t.get id = none) :
    Grounded fresh u where
  keyed := by
    intro id c hc
    obtain ⟨d, hd, hcomp, -⟩ := hget id c hc
    exact hcomp.trans (h.keyed id d hd)
  added := by
    rw [hu]
    exact h.added
  base := by
    intro id hid
    rw [hu] at hid
    rw [← h.base id hid]
    unfold view
    cases hc : u.get id with
    | none => rw [hkeep id hid hc]
    | some c =>
      obtain ⟨d, hd, -, -, hlen, -⟩ := hget id c hc
      rw [hd]
      exact congrArg some (hlen hid)
  parent := by
    intro id hid c hc
    rw [hu] at hid
    obtain ⟨d, hd, -, hpar, -, -⟩ := hget id c hc
    obtain ⟨hlt, hlisted⟩ := h.parent id hid d hd
    rw [hpar]
    refine ⟨hlt, fun p hp => ?_⟩
    obtain ⟨q, hq, -, -, -, hch⟩ := hget _ p hp
    refine hch id (hlisted q hq) ?_
    rw [hc]
    rfl

theorem Grounded.modify {id : UInt16} {f : VirtualComponent → VirtualComponent}
    (h : Grounded fresh t)
    (hf : ∀ c, t.get id = some c → (f c).compId = c.compId ∧ (f c).parentId = c.parentId ∧
      (id ∉ t.userAddedIds → (f c).slots.length = c.slots.length) ∧
      ∀ k ∈ c.children, k ∈ (f c).children) : Grounded fresh (t.modify id f) := by
  refine h.transfer rfl (fun a c hc => ?_) fun a _ hn => ?_
  · rw [get_modify] at hc
    split_ifs at hc with ha
    · obtain ⟨d, hd, rfl⟩ := Option.map_eq_some_iff.1 hc
      subst a
      obtain ⟨hcomp, hpar, hlen, hch⟩ := hf d hd
      exact ⟨d, hd, hcomp, hpar, hlen, fun k hk _ => hch k hk⟩
    · exact ⟨c, hc, rfl, rfl, fun _ => rfl, fun k hk _ => hk⟩
  · rw [get_modify] at hn
    split_ifs at hn
    · exact Option.map_eq_none_iff.1 hn
    · exact hn

theorem Grounded.relink (h : Grounded fresh t) (hu : u.userAddedIds = t.userAddedIds)
    (hview : view (fun c => (c.compId, c.parentId, c.slots, c.children)) u =
      view (fun c => (c.compId, c.parentId, c.slots, c.children)) t) : Grounded fresh u := by
  refine h.transfer hu (fun a c hc => ?_) fun a _ hn => ?_
  · have ha := congrFun hview a
    rw [view_of_get hc] at ha
    obtain ⟨d, hd, he⟩ := view_eq_some.1 ha.symm
    simp only [Prod.mk.injEq] at he
    obtain ⟨hcomp, hpar, hslots, hch⟩ := he
    exact ⟨d, hd, hcomp.symm, hpar.symm, fun _ => by rw [hslots], fun k hk _ => hch ▸ hk⟩
  · have ha := congrFun hview a
    rw [view_eq_none.2 hn] at ha
    exact view_eq_none.1 ha.symm

theorem Grounded.remove {id : UInt16} {c : VirtualComponent} (h : Grounded fresh t)
    (hc : t.get id = some c) (hid : id ∈ t.userAddedIds) : Grounded fresh (t.remove id).2 := by
  have husers : (t.remove id).2.userAddedIds = t.userAddedIds := by
    unfold ComponentTree.remove
    rw [hc]
  have hgone : (t.remove id).2.get id = none := by
    rw [get_remove hc, if_pos rfl]
  refine h.transfer husers (fun a d hd => ?_) fun a ha hn => ?_
  · rw [get_remove hc] at hd
    split_ifs at hd with hne hp
    · obtain ⟨e, he, rfl⟩ := Option.map_eq_some_iff.1 hd
      refine ⟨e, he, rfl, rfl, fun _ => rfl, fun k hk hs => ?_⟩
      have hkid : k ≠ id := by
        rintro rfl
        rw [hgone] at hs
        cases hs
      exact List.mem_filter.2 ⟨hk, decide_eq_true hkid⟩
    · exact ⟨d, hd, rfl, rfl, fun _ => rfl, fun k hk _ => hk⟩
  · have hne : a ≠ id := by
      rintro rfl
      exact ha hid
    rw [get_remove hc, if_neg hne] at hn
    split_ifs at hn
    · exact Option.map_eq_none_iff.1 hn
    · exact hn

/-- An id without a component may leave the user-added set. -/
theorem Grounded.forget {id : UInt16} (h : Grounded fresh t) (hid : t.get id = none)
    (hf : fresh.get id = none) :
    Grounded fresh { t with userAddedIds := t.userAddedIds.erase id } where
  keyed := h.keyed
  added := fun a ha => h.added a (Finset.mem_of_mem_erase ha)
  base := by
    intro a ha
    by_cases hne : a = id
    · subst a
      exact (view_eq_none.2 hid).trans (view_eq_none.2 hf).symm
    · exact h.base a fun hu => ha (Finset.mem_erase.2 ⟨hne, hu⟩)
  parent := fun a ha => h.parent a (Finset.mem_of_mem_erase ha)

theorem lt_nextCompId_of_free (hroot : (t.get 0).isSome) (hfree : t.get t.nextCompId = none)
    {id : UInt16} {c : VirtualComponent} (hc : t.get id = some c) : id < t.nextCompId := by
  rcases nextCompId_cases t with hlt | ⟨hz, -⟩
  · exact hlt id c hc
  · rw [hz] at hfree
    rw [hfree] at hroot
    cases hroot

theorem get_add_other {comp : VirtualComponent} (hnp : comp.parentId ≠ noParent) {a : UInt16}
    (ha : a ≠ comp.compId) {c : VirtualComponent} (hc : (t.add comp).get a = some c) :
    ∃ d, t.get a = some d ∧ c.compId = d.compId ∧ c.parentId = d.parentId ∧
      c.slots = d.slots ∧ (∀ k ∈ d.children, k ∈ c.children) ∧
      (a = comp.parentId → comp.compId ∈ c.children) := by
  rw [get_add, if_neg ha] at hc
  split_ifs at hc with hp
  · obtain ⟨d, hd, rfl⟩ := Option.map_eq_some_iff.1 hc
    unfold pushChild
    split_ifs with hm
    · exact ⟨d, hd, rfl, rfl, rfl, fun k hk => hk, fun _ => hm⟩
    · exact ⟨d, hd, rfl, rfl, rfl, fun k hk => List.mem_append_left _ hk,
        fun _ => List.mem_append_right _ (List.mem_singleton.2 rfl)⟩
  · exact ⟨c, hc, rfl, rfl, rfl, fun k hk => hk, fun e => absurd ⟨e, hnp⟩ hp⟩

theorem view_slots_add {comp : VirtualComponent} {a : UInt16} (ha : a ≠ comp.compId) :
    view (fun c => c.slots.length) (t.add comp) a = view (fun c => c.slots.length) t a := by
  unfold view
  rw [get_add, if_neg ha]
  split_ifs
  · rw [Option.map_map]
    refine congrArg (fun g => (t.get a).map g) (funext fun c => ?_)
    change (pushChild comp.compId c).slots.length = c.slots.length
    unfold pushChild
    split_ifs <;> rfl
  · rfl

theorem Grounded.add {comp : VirtualComponent} (h : Grounded fresh t)
    (hid : comp.compId = t.nextCompId) (hfree : t.get comp.compId = none)
    (hpar : (t.get comp.parentId).isSome) (hroot : (t.get 0).isSome) :
    Grounded fresh ((t.add comp).markUserAdded comp.compId) := by
  have hnp : comp.parentId ≠ noParent := parent_ne_noParent hroot (hid ▸ hfree) hpar
  have hlt : ∀ id c, t.get id = some c → id < comp.compId := by
    intro id c hc
    rw [hid]
    exact lt_nextCompId_of_free hroot (hid ▸ hfree) hc
  have hself : (t.add comp).get comp.compId = some comp := by
    rw [get_add, if_pos rfl]
  refine ⟨fun a c hc => ?_, fun a ha => ?_, fun a ha => ?_, fun a ha c hc => ?_⟩
  · change (t.add comp).get a = some c at hc
    by_cases he : a = comp.compId
    · subst a
      rw [hself] at hc
      cases hc
      rfl
    · obtain ⟨d, hd, hcomp, -⟩ := get_add_other hnp he hc
      exact hcomp.trans (h.keyed a d hd)
  · rcases Finset.mem_insert.1 ha with rfl | ha
    · by_cases hu : comp.compId ∈ t.userAddedIds
      · exact h.added _ hu
      · have hb := h.base _ hu
        rw [view_eq_none.2 hfree] at hb
        exact view_eq_none.1 hb.symm
    · exact h.added a ha
  · have hne : a ≠ comp.compId := fun e => ha (Finset.mem_insert.2 (Or.inl e))
    rw [← h.base a fun hu => ha (Finset.mem_insert_of_mem hu)]
    exact view_slots_add hne
  · change (t.add comp).get a = some c at hc
    change c.parentId < a ∧ ∀ p, (t.add comp).get c.parentId = some p → a ∈ p.children
    by_cases he : a = comp.compId
    · subst a
      rw [hself] at hc
      cases hc
      obtain ⟨q, hq⟩ := Option.isSome_iff_exists.1 hpar
      have hless := hlt _ _ hq
      refine ⟨hless, fun p hp => ?_⟩
      obtain ⟨-, -, -, -, -, -, hnew⟩ := get_add_other hnp (UInt16.ne_of_lt hless) hp
      exact hnew rfl
    · obtain ⟨d, hd, -, hpe, -⟩ := get_add_other hnp he hc
      have hu : a ∈ t.userAddedIds := (Finset.mem_insert.1 ha).resolve_left he
      obtain ⟨hless, hlisted⟩ := h.parent a hu d hd
      rw [hpe]
      refine ⟨hless, fun p hp => ?_⟩
      have hne : d.parentId ≠ comp.compId :=
        UInt16.ne_of_lt (UInt16.lt_trans hless (hlt a d hd))
      obtain ⟨q, hq, -, -, -, hch, -⟩ := get_add_other hnp hne hp
      exact hch a (hlisted q hq)

end Grounded

theorem eraseLink_userAddedIds (t : ComponentTree) (l : Link) :
    (t.eraseLink l).userAddedIds = t.userAddedIds := by
  unfold eraseLink
  dsimp only
  split_ifs <;> rfl

theorem dropLinksOf_userAddedIds (t : ComponentTree) (id : UInt16) :
    (dropLinksOf t id).userAddedIds = t.userAddedIds :=
  dropLinksOf_keeps (g := ComponentTree.userAddedIds) t id eraseLink_userAddedIds

structure Fresh (t : ComponentTree) : Prop where
  keyed : ∀ id c, t.get id = some c → c.compId = id
  users : t.userAddedIds = ∅
  root : (t.get 0).isSome

theorem add_fresh {t : ComponentTree} (h : Fresh t) (comp : VirtualComponent) :
    Fresh (t.add comp) := by
  refine ⟨fun id c hc => ?_, h.users, ?_⟩
  · exact foldl_restore_keyed [comp] h.keyed id c hc
  · rw [get_add]
    split_ifs
    · rfl
    · rw [Option.isSome_map]
      exact h.root
    · exact h.root

theorem foldl_add_fresh (comps : List VirtualComponent) {t : ComponentTree} (h : Fresh t) :
    Fresh (comps.foldl add t) := by
  induction comps generalizing t with
  | nil => exact h
  | cons c comps ih => exact ih (add_fresh h c)

theorem systemTree_fresh (db : ManifestDb) : Fresh (systemTree db) := by
  have happ : Fresh ((newWithManifest db).add app) := by
    refine ⟨fun id c hc => ?_, rfl, rfl⟩
    rw [get_add] at hc
    split_ifs at hc with hid
    · cases hc
      exact hid.symm
    · cases hc
    · cases hc
  unfold systemTree
  rw [List.foldl_cons]
  exact foldl_add_fresh _ happ

theorem fromChannels_fresh (chs : List ChannelInfo) (db : ManifestDb) :
    Fresh (fromChannelsWithManifest chs db) := by
  have hall := foldl_add_fresh (chs.zipIdx.map channelComponent) (systemTree_fresh db)
  exact ⟨hall.keyed, hall.users, hall.root⟩

theorem fresh_persistable (chs : List ChannelInfo) (db : ManifestDb) :
    Persistable (fromChannelsWithManifest chs db) (fromChannelsWithManifest chs db) := by
  have hf := fromChannels_fresh chs db
  have hun := fromChannels_unlinked chs db
  refine ⟨⟨hf.keyed, fun id hid => ?_, fun _ _ => rfl, fun id hid => ?_⟩,
    fun k l hl => absurd hl (hun k l), fun k _ l hl => absurd hl (hun k l)⟩
  · rw [hf.users] at hid
    exact absurd hid (Finset.notMem_empty id)
  · rw [hf.users] at hid
    exact absurd hid (Finset.notMem_empty id)

/-- Links lead into user-managed components, deletions hit only those, a SOX delete
    strands no link of another component, ids do not wrap, and the other components
    keep the number of their slots. -/
def PersistingEdit (t : ComponentTree) : TreeEdit → Prop
  | .insert comp => t.get comp.compId = none
  | .drop id => ∀ c, t.get id = some c → id ∈ t.userAddedIds ∧
      ∀ l ∈ c.links, l.toComp = id → l.fromComp ∈ t.userAddedIds ∨ t.get l.fromComp = none
  | .dropLinked id => (t.get id).isSome → id ∈ t.userAddedIds
  | .link l => l.toComp ∈ t.userAddedIds
  | .slots id f => ∀ c, t.get id = some c → id ∉ t.userAddedIds →
      (f c.slots).length = c.slots.length
  | _ => True

section Runs

variable {fresh t : ComponentTree}

theorem Persistable.root (h : Persistable fresh t) (hf : Fresh fresh) : (t.get 0).isSome := by
  have h0 : (0 : UInt16) ∉ t.userAddedIds := by
    intro hm
    have hroot := hf.root
    rw [h.added 0 hm] at hroot
    cases hroot
  have hb := congrArg Option.isSome (h.base 0 h0)
  unfold view at hb
  rw [Option.isSome_map, Option.isSome_map] at hb
  rw [hb]
  exact hf.root

theorem insert_persistable {comp : VirtualComponent} (h : Persistable fresh t) (hf : Fresh fresh)
    (hadm : Admissible t (.insert comp)) (hfree : t.get comp.compId = none) :
    Persistable fresh (applyEdit t (.insert comp)) := by
  obtain ⟨hid, hpar, -, hlinks⟩ := hadm
  refine ⟨h.toGrounded.add hid hfree hpar (h.root hf), ?_⟩
  rw [linkStore_insert hlinks]
  exact clear_targeted h.targeted (view_eq_none.2 hfree)

theorem drop_persistable {id : UInt16} {c : VirtualComponent} (h : Persistable fresh t)
    (hc : t.get id = some c) (hid : id ∈ t.userAddedIds)
    (hin : ∀ l ∈ c.links, l.toComp = id → l.fromComp ∈ t.userAddedIds ∨ t.get l.fromComp = none) :
    Persistable fresh (applyEdit t (.drop id)) := by
  have hno : ∀ k m, k ∉ t.userAddedIds → Stored (linkStore t) k m → m.toComp ≠ id := by
    intro k m hk hm hto
    obtain ⟨d, hd, -⟩ := stored_iff.1 hm
    obtain ⟨-, hst⟩ := h.targeted.target k hk m hm
    obtain ⟨e, he, hmem⟩ := stored_iff.1 hst
    rw [hto, hc] at he
    cases he
    have hends := h.targeted.loc k m hm
    rw [hto] at hends
    have hfrom : k = m.fromComp := hends.resolve_right fun e => hk (e ▸ hid)
    rcases hin m hmem hto with hu | hn
    · exact hk (hfrom ▸ hu)
    · rw [← hfrom, hd] at hn
      cases hn
  have hgone : (t.remove id).2.get id = none := by
    rw [get_remove hc, if_pos rfl]
  have husers : (t.remove id).2.userAddedIds = t.userAddedIds := by
    unfold ComponentTree.remove
    rw [hc]
  have hedit : applyEdit t (.drop id) =
      { (t.remove id).2 with userAddedIds := (t.remove id).2.userAddedIds.erase id } := by
    rw [husers]
    simp only [applyEdit, hc]
  refine ⟨?_, ?_⟩
  · rw [hedit]
    exact (h.toGrounded.remove hc hid).forget hgone (h.added id hid)
  · rw [linkStore_drop hc, hedit]
    change Targeted ((t.remove id).2.userAddedIds.erase id) _
    rw [husers]
    exact forget_targeted (delete_targeted h.targeted hno) hno

theorem dropLinked_persistable {id : UInt16} {c : VirtualComponent} (h : Persistable fresh t)
    (hc : t.get id = some c) (hid : id ∈ t.userAddedIds) :
    Persistable fresh (applyEdit t (.dropLinked id)) := by
  have hdusers : (dropLinksOf t id).userAddedIds = t.userAddedIds := dropLinksOf_userAddedIds t id
  have hground : Grounded fresh (dropLinksOf t id) :=
    h.toGrounded.relink hdusers (view_dropLinksOf t id fun _ _ => rfl)
  obtain ⟨d, hd⟩ : ∃ d, (dropLinksOf t id).get id = some d := by
    rw [get_dropLinksOf, hc]
    exact ⟨_, rfl⟩
  have husers : (applyEdit t (.dropLinked id)).userAddedIds = t.userAddedIds := by
    change ((dropLinksOf t id).remove id).2.userAddedIds = _
    unfold ComponentTree.remove
    rw [hd]
    exact hdusers
  refine ⟨hground.remove hd (hdusers ▸ hid), ?_⟩
  rw [husers, linkStore_dropLinked hc]
  have htar := detach_targeted h.targeted c.links
  refine delete_targeted htar fun k m hk hm hto => ?_
  have hst := (htar.target k hk m hm).2
  rw [hto] at hst
  exact not_stored_detach (h.targeted.loc id) (view_of_get hc) hst

theorem applyEdit_persistable (hf : Fresh fresh) (t : ComponentTree) (e : TreeEdit)
    (h : Persistable fresh t) (hadm : Admissible t e) (hok : PersistingEdit t e) :
    Persistable fresh (applyEdit t e) := by
  cases e with
  | keep => exact h
  | insert comp => exact insert_persistable h hf hadm hok
  | drop id =>
    cases hc : t.get id with
    | none =>
      rw [drop_absent hc]
      exact h
    | some c => exact drop_persistable h hc (hok c hc).1 (hok c hc).2
  | dropLinked id =>
    cases hc : t.get id with
    | none =>
      rw [dropLinked_absent hc]
      exact h
    | some c =>
      refine dropLinked_persistable h hc (hok ?_)
      rw [hc]
      rfl
  | rename id name =>
    have husers : (t.rename id name).2.userAddedIds = t.userAddedIds := by
      unfold ComponentTree.rename
      cases t.get id <;> rfl
    refine ⟨h.toGrounded.relink husers (view_rename t id name fun _ => rfl), ?_⟩
    rw [linkStore_rename]
    exact husers ▸ h.targeted
  | link l =>
    obtain ⟨hsome, -⟩ := linkAccepted_target hadm
    have husers : (t.storeLink l).userAddedIds = t.userAddedIds := by
      unfold storeLink
      dsimp only
      split_ifs <;> rfl
    refine ⟨h.toGrounded.relink husers (view_storeLink t l fun _ => rfl), ?_⟩
    change Targeted (t.storeLink l).userAddedIds (linkStore (t.storeLink l))
    rw [husers, linkStore_storeLink]
    exact store_targeted h.targeted hok hsome
  | unlink l =>
    have husers : (t.eraseLink l).userAddedIds = t.userAddedIds := eraseLink_userAddedIds t l
    refine ⟨h.toGrounded.relink husers (view_eraseLink t l fun _ => rfl), ?_⟩
    change Targeted (t.eraseLink l).userAddedIds (linkStore (t.eraseLink l))
    rw [husers, linkStore_eraseLink]
    exact erase_targeted h.targeted
  | reorder id children =>
    obtain ⟨p, hp, hperm⟩ := reorderAccepted_perm hadm
    refine ⟨h.toGrounded.modify fun c hc => ⟨rfl, rfl, fun _ => rfl, fun k hk => ?_⟩, ?_⟩
    · rw [hp] at hc
      cases hc
      exact hperm.mem_iff.1 hk
    · rw [linkStore_reorder]
      exact h.targeted
  | slots id f =>
    refine ⟨h.toGrounded.modify fun c hc => ⟨rfl, rfl, hok c hc, fun k hk => hk⟩, ?_⟩
    rw [linkStore_slots]
    exact h.targeted

end Runs

/-- Along every run of requests from a fresh tree whose edits all persist, saving the
    tree and loading the file into a fresh tree keeps the user-managed components, the
    stored links and the executed links, in every state of the run. -/
theorem requests_persist (chs : List ChannelInfo) (db : ManifestDb) (ops : List TreeOp)
    (hok : AlongEdits PersistingEdit (fromChannelsWithManifest chs db) ops) :
    ∀ t ∈ Runs.states applyOp (fromChannelsWithManifest chs db) ops,
      Persists (fromChannelsWithManifest chs db) t := by
  have hf := fromChannels_fresh chs db
  intro t ht ids hids
  have hp : Persistable (fromChannelsWithManifest chs db) t :=
    requests_invariant
      (fun t => ⟨fun h => ⟨⟨h.keyed, h.added, h.base, h.parent⟩, h.targeted⟩,
        fun h => ⟨⟨h.keyed, h.added, h.base, h.parent⟩, h.targeted⟩⟩)
      (applyEdit_persistable hf) (fresh_persistable chs db) hok t ht
  exact hp.keeps hids (fromChannels_unlinked chs db) hf.users hf.keyed

def persistingRun : List TreeOp :=
  [.addComp 6 2 14 "a", .addComp 6 2 3 "b", .addLink ⟨7, 1, 8, 2⟩]

theorem persistingRun_persists :
    AlongEdits PersistingEdit (fromChannelsWithManifest [] ManifestDb.new) persistingRun ∧
      ∀ t ∈ Runs.states applyOp (fromChannelsWithManifest [] ManifestDb.new) persistingRun,
        Persists (fromChannelsWithManifest [] ManifestDb.new) t := by
  have hok : AlongEdits PersistingEdit (fromChannelsWithManifest [] ManifestDb.new)
      persistingRun := by
    refine ⟨rfl, rfl, ?_, trivial⟩
    change (8 : UInt16) ∈ ComponentTree.userAddedIds _
    decide
  exact ⟨hok, requests_persist [] ManifestDb.new persistingRun hok⟩

def outputChannel : ChannelInfo := ⟨1100, "fan", "analog", "AO", true, "ok", 0, 0⟩

/-- A user-added constant drives the output of the one channel. -/
def outputRun : List TreeOp :=
  [.sox ⟨.add, 1, [0, 6, 2, 14, 97, 0]⟩, .addLink ⟨101, 1, 100, 6⟩]

theorem outputRun_not_persists :
    ¬ ∀ t ∈ Runs.states applyOp (fromChannels [outputChannel]) outputRun,
      Persists (fromChannels [outputChannel]) t := by
  intro h
  have hp := h _ (Runs.run_mem_states applyOp (fromChannels [outputChannel]) outputRun)
  have hfollowed : Followed (Runs.run applyOp (fromChannels [outputChannel]) outputRun)
      ⟨101, 1, 100, 6⟩ := ⟨100, _, rfl, by decide, rfl, rfl⟩
  have hlost : ∃ c, (reload (fromChannels [outputChannel])
      (Runs.run applyOp (fromChannels [outputChannel]) outputRun) [101]).get 100 = some c ∧
      c.links = [] := ⟨_, rfl, rfl⟩
  have hreload := ((hp [101] rfl).transfers ⟨101, 1, 100, 6⟩).2 hfollowed
  have hkey := reload_keyed (fromChannels_fresh [outputChannel] ManifestDb.new).keyed
    (Runs.run applyOp (fromChannels [outputChannel]) outputRun) [101]
  obtain ⟨c, hc, hl⟩ := stored_iff.1 ((followed_iff hkey _).1 hreload).1
  obtain ⟨d, hd, hnil⟩ := hlost
  have hdc : d = c := Option.some.inj (hd.symm.trans hc)
  rw [← hdc, hnil] at hl
  cases hl

end Sandstar.TreePersistence
