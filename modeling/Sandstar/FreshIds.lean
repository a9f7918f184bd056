import Sandstar.ChannelMapping
import Sandstar.RowsSession
import Sandstar.SoxRejections
import Sandstar.TreeLinks
import Sandstar.TreeParents

set_option autoImplicit false

/-!
# What a new component finds under its id

The next id is one above the greatest in use, so a deletion at the top makes ids free to
be given out again. Tags, states, marks, links and subscriptions are kept by id in five
stores, and no way to delete a component clears all of them.
-/
namespace Sandstar.FreshIds
open SoxProtocol SoxSlots ComponentTree TreeRequests TreeEdits TreeLinks LinkStore SetTable
  SoxDispatch SoxServerLoop ChannelOwners Runs

/-- The tree with its channels, the tags, and the subscriptions of SOX and RoWS. The tags
    are `none` once one of their counters has underflowed. -/
structure Server extends World where
  tags : Option DynSlotStore
  subs : SubscriptionManager
  rows : ℕ → Rows.Session

inductive Event
  | request (op : TreeOp)
  | refresh (channels : List ChannelInfo)
  | links (order : List UInt16)
  | components (order : List UInt16)
  | tags (op : DynSlotStore.Op)
  | subscribe (order : List UInt16) (req : SoxRequest) (sessionId : UInt16)
  | unsubscribe (req : SoxRequest) (sessionId : UInt16)
  | sessionEnd (sessionId : UInt16)
  | rowsSubscribe (conn : ℕ) (compIds : List UInt16)
  | rowsUnsubscribe (conn : ℕ) (compIds : List UInt16)
  | rowsEnd (conn : ℕ)

/-- After a SOX delete the loop clears the tags; no other request touches them. -/
def requestTags (tags : Option DynSlotStore) : TreeOp → Option DynSlotStore
  | .sox req => tags.bind (clearTags req)
  | _ => tags

def step (s : Server) : Event → Server
  | .request op =>
    { s with toWorld := ChannelOwners.step s.toWorld (.request op), tags := requestTags s.tags op }
  | .refresh channels => { s with toWorld := ChannelOwners.step s.toWorld (.refresh channels) }
  | .links order => { s with toWorld := ChannelOwners.step s.toWorld (.links order) }
  | .components order => { s with toWorld := ChannelOwners.step s.toWorld (.components order) }
  | .tags op => { s with tags := DynSlotStore.step s.tags op }
  | .subscribe order req sessionId =>
    { s with subs := (handleSubscribe order req s.subs sessionId s.tree).1 }
  | .unsubscribe req sessionId =>
    { s with subs := (handleUnsubscribe req s.subs sessionId).1 }
  | .sessionEnd sessionId => { s with subs := s.subs.unsubscribeAll sessionId }
  | .rowsSubscribe conn compIds =>
    let sess := (Rows.handleSubscribe ⟨s.tree, s.tags⟩ (s.rows conn) compIds).1
    { s with rows := Function.update s.rows conn sess }
  | .rowsUnsubscribe conn compIds =>
    let sess := (Rows.handleUnsubscribe (s.rows conn) compIds).1
    { s with rows := Function.update s.rows conn sess }
  | .rowsEnd conn => { s with rows := Function.update s.rows conn Rows.Session.new }

def start (channels : List ChannelInfo) (db : ManifestDb) (maxPerComp maxTotal : ℕ) : Server :=
  { ChannelOwners.start channels db with
    tags := some (DynSlotStore.new maxPerComp maxTotal)
    subs := SubscriptionManager.new
    rows := fun _ => Rows.Session.new }

section Property

def Names (l : Link) (id : UInt16) : Prop := l.fromComp = id ∨ l.toComp = id

def Untagged (s : Server) (id : UInt16) : Prop :=
  ∀ store, s.tags = some store → store.tagCount id = 0

structure Unused (s : Server) (id : UInt16) : Prop where
  state : s.tree.componentState.get id = none
  subs : members s.subs.subscriptions id = ∅ ∧ ∀ k, id ∉ members s.subs.bySession k
  rows : ∀ conn, id ∉ (s.rows conn).subscribed

structure Bare (s : Server) (id : UInt16) : Prop extends Unused s id where
  tags : Untagged s id
  mark : id ∉ s.tree.userAddedIds
  links : ∀ k l, Stored (linkStore s.tree) k l → ¬ Names l id

def Classified (w : World) : Prop :=
  ∀ id, (w.tree.get id).isSome = true →
    (w.tree.isChannelComp id = true ↔ (w.origin id).isSome = true)

/-- The next component gets an id of its own, with nothing kept under it. -/
structure Clean (s : Server) : Prop where
  fresh : s.tree.get s.tree.nextCompId = none
  bare : Bare s s.tree.nextCompId
  classified : Classified s.toWorld

end Property

section Conditions

def Above (t : ComponentTree) (id a : UInt16) : Prop :=
  ∀ k, k ≠ id → (t.get k).isSome = true → k < a

def GoesWith (t : ComponentTree) (id k : UInt16) (l : Link) : Prop :=
  Stored (linkStore t) id l ∧ (k = l.fromComp ∨ k = l.toComp)

/-- An addition leaves an id to give out after it, outside the channels' range. A deletion
    leaves nothing at the ids that it makes free: SOX clears the component's own tags and
    mark, REST and RoWS the links that the component stores. A link comes from a component
    or an id given out already. -/
def HarmlessEdit (s : Server) : TreeEdit → Prop
  | .insert comp => comp.compId ≠ noParent ∧ s.tree.isChannelComp comp.compId = false
  | .drop id => (s.tree.get id).isSome = true → ∀ a, Above s.tree id a → Unused s a ∧
      (a ≠ id → Untagged s a ∧ a ∉ s.tree.userAddedIds) ∧
        ∀ k l, k ≠ id → Stored (linkStore s.tree) k l → ¬ Names l a
  | .dropLinked id => (s.tree.get id).isSome = true → ∀ a, Above s.tree id a → Unused s a ∧
      Untagged s a ∧ a ∉ s.tree.userAddedIds ∧
        ∀ k l, k ≠ id → Stored (linkStore s.tree) k l → Names l a → GoesWith s.tree id k l
  | .link l => l.fromComp < s.tree.nextCompId
  | _ => True

def HarmlessTags (s : Server) : DynSlotStore.Op → Prop
  | .set id _ _ => id < s.tree.nextCompId ∨
      ∀ store, s.tags = some store → store.maxPerComp = 0 ∨ store.maxTotal ≤ store.total
  | .setAll id tags _ => id < s.tree.nextCompId ∨ tags.size = 0
  | .load _ (.data slots _) => ∀ id, s.tree.nextCompId ≤ id →
      ((slots.get id).map Table.size).getD 0 = 0
  | _ => True

def subscribedIds (order : List UInt16) (req : SoxRequest) (tree : ComponentTree) : List UInt16 :=
  let r : SoxReader := ⟨req.payload⟩
  if req.payload.length = 3 then
    r.readU16.1.getD 0 :: collectSubtree tree SoxDispatch.maxDepth (r.readU16.1.getD 0) []
  else
    let count := r.readU8.2.readU8.1.getD 0
    (if count = 0 then order else readCompIds count.toNat r.readU8.2.readU8.2).foldl
      (fun out compId => collectSubtree tree SoxDispatch.maxDepth compId out) []

def Harmless (s : Server) : Event → Prop
  | .request op => HarmlessEdit s (edit s.tree op)
  | .tags op => HarmlessTags s op
  | .subscribe order req _ => ∀ id ∈ subscribedIds order req s.tree, id < s.tree.nextCompId
  | .rowsSubscribe _ compIds => ∀ id ∈ compIds, id < s.tree.nextCompId
  | _ => True

end Conditions

section Ids

variable {t t' : ComponentTree} {id : UInt16}

theorem lt_nextCompId (h : t.get noParent = none) (hid : (t.get id).isSome = true) :
    id < t.nextCompId := by
  obtain ⟨c, hc⟩ := Option.isSome_iff_exists.1 hid
  rcases nextCompId_cases t with hlt | ⟨-, d, hd⟩
  · exact hlt id c hc
  · rw [h] at hd
    cases hd

def present (t : ComponentTree) : UInt16 → Option Unit := view (fun _ => ()) t

theorem isSome_of_present (h : present t' = present t) (id : UInt16) :
    (t'.get id).isSome = (t.get id).isSome := by
  have hid := congrArg (fun f => (f id).isSome) h
  simpa [present, view] using hid

theorem nextCompId_congr (h : present t' = present t) : t'.nextCompId = t.nextCompId := by
  have hkeys : t'.components.keys = t.components.keys := by
    ext id
    rw [Table.mem_keys, Table.mem_keys, ← Option.isSome_iff_exists, ← Option.isSome_iff_exists]
    exact iff_of_eq (congrArg (· = true) (isSome_of_present h id))
  unfold ComponentTree.nextCompId
  rw [hkeys]

theorem isChannelComp_congr (h : t'.channelCompEnd = t.channelCompEnd) (id : UInt16) :
    t'.isChannelComp id = t.isChannelComp id := by
  unfold ComponentTree.isChannelComp
  rw [h]

theorem isSome_remove {c : VirtualComponent} (h : t.get id = some c) (a : UInt16) :
    ((t.remove id).2.get a).isSome = (decide (a ≠ id) && (t.get a).isSome) := by
  rw [get_remove h]
  split_ifs with hid <;> simp [hid]

def marks (t : ComponentTree) : Finset UInt16 × Table UInt16 ComponentState × UInt16 :=
  (t.userAddedIds, t.componentState, t.channelCompEnd)

theorem marks_eraseLink (t : ComponentTree) (l : Link) : marks (t.eraseLink l) = marks t := by
  unfold eraseLink
  dsimp only
  split_ifs <;> rfl

theorem marks_storeLink (t : ComponentTree) (l : Link) : marks (t.storeLink l) = marks t := by
  unfold storeLink
  dsimp only
  split_ifs <;> rfl

theorem marks_rename (t : ComponentTree) (id : UInt16) (name : String) :
    marks (t.rename id name).2 = marks t := by
  unfold ComponentTree.rename
  cases t.get id <;> rfl

theorem marks_dropLinked (t : ComponentTree) (id : UInt16) :
    marks (applyEdit t (.dropLinked id)) = marks t := by
  have hremove : ∀ t : ComponentTree, marks (t.remove id).2 = marks t := by
    intro t
    unfold ComponentTree.remove
    cases t.get id <;> rfl
  exact (hremove _).trans (dropLinksOf_keeps t id marks_eraseLink)

end Ids

section Tags

variable {store store' : DynSlotStore} {a : UInt16}

theorem tagCount_removeAll {id : UInt16} (h : store.removeAll id = some store') (a : UInt16) :
    store'.tagCount a = if a = id then 0 else store.tagCount a := by
  unfold DynSlotStore.removeAll at h
  cases hget : store.slots.get id with
  | none =>
    rw [hget] at h
    cases h
    unfold DynSlotStore.tagCount
    split_ifs with heq
    · simp [heq, hget]
    · rfl
  | some tags =>
    rw [hget] at h
    dsimp only at h
    split at h
    · cases h
    · cases h
      unfold DynSlotStore.tagCount
      dsimp only
      rw [Table.get_erase]
      split_ifs <;> rfl

/-- The clean-up after a delete empties the entry of the request's component. -/
theorem tagCount_clearTags {req : SoxRequest} (h : clearTags req store = some store') (a : UInt16) :
    store'.tagCount a = if deleteCompId req = some a then 0 else store.tagCount a := by
  unfold clearTags at h
  cases hid : deleteCompId req with
  | none =>
    rw [hid] at h
    cases h
    simp
  | some id =>
    rw [hid] at h
    dsimp only at h
    split_ifs at h with hcount
    · rw [tagCount_removeAll h]
      simp [eq_comm]
    · cases h
      split_ifs with heq
      · cases heq
        omega
      · rfl

theorem tagCount_of_get (h : store'.slots.get a = store.slots.get a) :
    store'.tagCount a = store.tagCount a := by
  unfold DynSlotStore.tagCount
  rw [h]

theorem get_of_tagCount (h : store.tagCount a = 0) (key : String) :
    ((store.slots.get a).getD Table.empty).get key = none := by
  unfold DynSlotStore.tagCount at h
  cases hget : store.slots.get a with
  | none => rfl
  | some tags =>
    rw [hget] at h
    have hkeys : tags.keys = ∅ := Finset.card_eq_zero.1 h
    rw [Option.getD_some, Table.get_eq_none_iff, hkeys]
    exact Finset.notMem_empty key

theorem tagCount_set {key : String} (value : DynValue) {id : UInt16}
    (h : a = id → store.maxPerComp = 0 ∨ store.maxTotal ≤ store.total)
    (hzero : store.tagCount a = 0) : (store.set id key value).1.tagCount a = 0 := by
  by_cases heq : a = id
  · subst heq
    have hkey := get_of_tagCount hzero key
    have hfull := h rfl
    have hentry : ((store.slots.get a).getD Table.empty).size = 0 := by
      unfold DynSlotStore.tagCount at hzero
      cases hget : store.slots.get a with
      | none => rfl
      | some tags => simpa [hget] using hzero
    unfold DynSlotStore.set
    dsimp only
    rw [hkey]
    dsimp only
    split_ifs with hper htotal
    · simpa [DynSlotStore.tagCount] using hentry
    · simpa [DynSlotStore.tagCount] using hentry
    · omega
  · refine (tagCount_of_get ?_).trans hzero
    unfold DynSlotStore.set
    dsimp only
    split
    · simp only [Table.get_insert_ne _ _ heq]
    · split_ifs <;> simp only [Table.get_insert_ne _ _ heq]

theorem tagCount_remove {key : String} {id : UInt16} {r : Option DynValue}
    (h : store.remove id key = some (store', r)) (hzero : store.tagCount a = 0) :
    store'.tagCount a = 0 := by
  have hkey := get_of_tagCount hzero key
  unfold DynSlotStore.remove at h
  cases hget : store.slots.get id with
  | none =>
    rw [hget] at h
    cases h
    exact hzero
  | some tags =>
    rw [hget] at h
    dsimp only at h
    cases htag : tags.get key with
    | none =>
      rw [htag] at h
      cases h
      exact hzero
    | some value =>
      have hne : a ≠ id := by
        rintro rfl
        rw [hget, Option.getD_some, htag] at hkey
        cases hkey
      rw [htag] at h
      dsimp only at h
      split at h
      · cases h
      · cases h
        refine (tagCount_of_get ?_).trans hzero
        dsimp only
        split_ifs
        · rw [Table.get_erase_ne _ hne, Table.get_insert_ne _ _ hne]
        · rw [Table.get_insert_ne _ _ hne]

theorem tagCount_setAll {id : UInt16} {tags : Tags} {names : List String} {r : Except String Unit}
    (h : store.setAll id tags names = some (store', r)) (ha : a = id → tags.size = 0)
    (hzero : store.tagCount a = 0) : store'.tagCount a = 0 := by
  unfold DynSlotStore.setAll at h
  by_cases hper : store.maxPerComp < tags.size
  · rw [if_pos hper] at h
    cases h
    exact hzero
  · rw [if_neg hper] at h
    split at h
    · cases h
    · rename_i others _
      dsimp only at h
      by_cases htotal : store.maxTotal < others + tags.size
      · rw [if_pos htotal] at h
        cases h
        exact hzero
      · rw [if_neg htotal] at h
        cases h
        unfold DynSlotStore.tagCount at hzero ⊢
        dsimp only
        split_ifs with hempty
        · rw [Table.get_erase]
          split_ifs
          · rfl
          · exact hzero
        · rw [Table.get_insert_ne _ _ fun heq => hempty (ha heq)]
          exact hzero

end Tags

section Invariant

variable {s : Server}

structure Inv (s : Server) : Prop where
  room : s.tree.get noParent = none
  bare : ∀ id, s.tree.nextCompId ≤ id → Bare s id
  classified : Classified s.toWorld
  paired : s.subs.Paired

theorem Inv.clean (h : Inv s) : Clean s where
  fresh := by
    by_contra hsome
    exact UInt16.lt_irrefl _ (lt_nextCompId h.room (Option.isSome_iff_ne_none.2 hsome))
  bare := h.bare _ (UInt16.le_refl _)
  classified := h.classified

theorem Inv.relink (h : Inv s) {t : ComponentTree} {tags : Option DynSlotStore}
    (hpresent : present t = present s.tree) (hmark : t.userAddedIds = s.tree.userAddedIds)
    (hend : t.channelCompEnd = s.tree.channelCompEnd)
    (hstate : ∀ id, s.tree.get id = none → s.tree.componentState.get id = none →
      t.componentState.get id = none)
    (hlinks : ∀ k l, Stored (linkStore t) k l → Stored (linkStore s.tree) k l ∨
      (l.fromComp < s.tree.nextCompId ∧ l.toComp < s.tree.nextCompId))
    (htags : ∀ id, Untagged s id → Untagged { s with tags := tags } id) :
    Inv { s with tree := t, tags := tags } := by
  have hsome := isSome_of_present hpresent
  have hnext := nextCompId_congr hpresent
  refine ⟨?_, fun id hid => ?_, fun id hid => ?_, h.paired⟩
  · have hroom := hsome noParent
    rw [h.room] at hroom
    exact Option.isNone_iff_eq_none.1 (Option.isSome_eq_false_iff.1 hroom)
  · have hle : s.tree.nextCompId ≤ id := hnext ▸ hid
    have hb := h.bare id hle
    have habsent : s.tree.get id = none := by
      by_contra hthere
      have hlt := lt_nextCompId h.room (Option.isSome_iff_ne_none.2 hthere)
      exact UInt16.lt_irrefl _ (UInt16.lt_of_lt_of_le hlt hle)
    refine ⟨⟨hstate id habsent hb.state, hb.subs, hb.rows⟩, htags id hb.tags, ?_, ?_⟩
    · rw [hmark]
      exact hb.mark
    · intro k l hl hnames
      rcases hlinks k l hl with hold | ⟨hfrom, hto⟩
      · exact hb.links k l hold hnames
      · rcases hnames with rfl | rfl
        · exact UInt16.lt_irrefl _ (UInt16.lt_of_lt_of_le hfrom hle)
        · exact UInt16.lt_irrefl _ (UInt16.lt_of_lt_of_le hto hle)
  · change (t.isChannelComp id = true) ↔ _
    rw [isChannelComp_congr hend]
    exact h.classified id (hsome id ▸ hid)

theorem Inv.insert (h : Inv s) {comp : VirtualComponent} {tags : Option DynSlotStore}
    (hadm : Admissible s.tree (.insert comp)) (hok : HarmlessEdit s (.insert comp))
    (htags : ∀ id, Untagged s id → Untagged { s with tags := tags } id) :
    Inv { s with
      tree := applyEdit s.tree (.insert comp), origin := forget s.origin comp.compId,
      tags := tags } := by
  obtain ⟨hid, -, -, hnolinks⟩ := hadm
  obtain ⟨hlast, hrange⟩ := hok
  have hget : ∀ a, ((applyEdit s.tree (.insert comp)).get a).isSome =
      (decide (a = comp.compId) || (s.tree.get a).isSome) := by
    intro a
    change ((s.tree.add comp).get a).isSome = _
    rw [get_add]
    split_ifs with heq <;> simp [heq]
  have hroom : (applyEdit s.tree (.insert comp)).get noParent = none := by
    rw [← Option.isNone_iff_eq_none, ← Option.isSome_eq_false_iff, hget, h.room]
    simp [Ne.symm hlast]
  refine ⟨hroom, fun id hle => ?_, fun a ha => ?_, h.paired⟩
  · have hlt : comp.compId < id := by
      refine UInt16.lt_of_lt_of_le (lt_nextCompId hroom ?_) hle
      simp [hget]
    have hb := h.bare id (hid ▸ UInt16.le_of_lt hlt)
    refine ⟨⟨hb.state, hb.subs, hb.rows⟩, htags id hb.tags, ?_, fun k l hl => ?_⟩
    · change id ∉ Insert.insert comp.compId s.tree.userAddedIds
      rw [Finset.mem_insert, not_or]
      refine ⟨?_, hb.mark⟩
      rintro rfl
      exact UInt16.lt_irrefl _ hlt
    · change Stored (linkStore (applyEdit s.tree (.insert comp))) k l at hl
      rw [linkStore_insert hnolinks, stored_clear] at hl
      exact hb.links k l hl.2
  · change (s.tree.isChannelComp a = true) ↔ (forget s.origin comp.compId a).isSome = true
    by_cases heq : a = comp.compId
    · rw [heq, hrange, forget, Function.update_self]
      simp
    · rw [forget_of_ne heq]
      refine h.classified a ?_
      have hsome := hget a
      rw [show ((applyEdit s.tree (.insert comp)).get a).isSome = true from ha] at hsome
      simpa [heq] using hsome.symm

/-- A deletion, of which the condition says what is left at the ids above the rest. -/
theorem Inv.delete (h : Inv s) {id : UInt16} {t : ComponentTree} {tags : Option DynSlotStore}
    (hget : ∀ a, (t.get a).isSome = (decide (a ≠ id) && (s.tree.get a).isSome))
    (hend : t.channelCompEnd = s.tree.channelCompEnd)
    (hbare : ∀ a, Above s.tree id a →
      Bare { s with tree := t, origin := forget s.origin id, tags := tags } a) :
    Inv { s with tree := t, origin := forget s.origin id, tags := tags } := by
  have hroom : t.get noParent = none := by
    rw [← Option.isNone_iff_eq_none, ← Option.isSome_eq_false_iff, hget, h.room]
    simp
  refine ⟨hroom, fun a hle => hbare a fun k hk hthere => ?_, fun a ha => ?_, h.paired⟩
  · refine UInt16.lt_of_lt_of_le (lt_nextCompId hroom ?_) hle
    rw [hget, hthere]
    simp [hk]
  · have hsome : (decide (a ≠ id) && (s.tree.get a).isSome) = true := (hget a) ▸ ha
    rw [Bool.and_eq_true, decide_eq_true_eq] at hsome
    change (t.isChannelComp a = true) ↔ (forget s.origin id a).isSome = true
    rw [isChannelComp_congr hend, forget_of_ne hsome.1]
    exact h.classified a hsome.2

theorem Inv.reorigin (h : Inv s) {origin : UInt16 → Option UInt32}
    (ho : ∀ a, (s.tree.get a).isSome = true → (origin a).isSome = (s.origin a).isSome) :
    Inv { s with origin := origin } where
  room := h.room
  bare id hid := by
    have hb := h.bare id hid
    exact ⟨⟨hb.state, hb.subs, hb.rows⟩, hb.tags, hb.mark, hb.links⟩
  classified a ha := by
    change _ ↔ (origin a).isSome = true
    rw [ho a ha]
    exact h.classified a ha
  paired := h.paired

theorem Inv.retag (h : Inv s) {tags : Option DynSlotStore}
    (htags : ∀ id, s.tree.nextCompId ≤ id → Untagged s id → Untagged { s with tags := tags } id) :
    Inv { s with tags := tags } where
  room := h.room
  bare id hid := by
    have hb := h.bare id hid
    exact ⟨⟨hb.state, hb.subs, hb.rows⟩, htags id hid hb.tags, hb.mark, hb.links⟩
  classified := h.classified
  paired := h.paired

theorem Inv.absent (h : Inv s) {id : UInt16} (hget : s.tree.get id = none)
    {tags : Option DynSlotStore}
    (htags : ∀ id, Untagged s id → Untagged { s with tags := tags } id) :
    Inv { s with origin := forget s.origin id, tags := tags } := by
  have hforgot : Inv { s with origin := forget s.origin id } := by
    refine h.reorigin fun a ha => ?_
    rw [forget_of_ne]
    rintro rfl
    rw [hget] at ha
    cases ha
  exact hforgot.retag fun a _ => htags a

theorem Inv.edited (h : Inv s) {e : TreeEdit} {tags : Option DynSlotStore}
    (hadm : Admissible s.tree e) (hok : HarmlessEdit s e)
    (htags : ∀ id, Untagged s id → Untagged { s with tags := tags } id)
    (hcleared : ∀ id, e = .drop id → Untagged { s with tags := tags } id) :
    Inv { s with
      tree := applyEdit s.tree e, origin := editOrigin s.origin e, tags := tags } := by
  have hkeep : ∀ t : ComponentTree, present t = present s.tree → marks t = marks s.tree →
      (∀ k l, Stored (linkStore t) k l → Stored (linkStore s.tree) k l ∨
        (l.fromComp < s.tree.nextCompId ∧ l.toComp < s.tree.nextCompId)) →
      Inv { s with tree := t, tags := tags } := by
    intro t hpresent hmarks hlinks
    simp only [marks, Prod.mk.injEq] at hmarks
    obtain ⟨hmark, hstate, hend⟩ := hmarks
    exact h.relink hpresent hmark hend (fun id _ hid => hstate ▸ hid) hlinks htags
  cases e with
  | keep => exact hkeep s.tree rfl rfl fun k l hl => .inl hl
  | insert comp => exact h.insert hadm hok htags
  | drop id =>
    cases hget : s.tree.get id with
    | none =>
      rw [drop_absent hget]
      exact h.absent hget htags
    | some c =>
      have hnone := hok (by rw [hget]; rfl)
      refine h.delete (fun a => ?_) ?_ fun a ha => ?_
      · have hpresent : present (applyEdit s.tree (.drop id)) = present (s.tree.remove id).2 :=
          view_drop hget
        rw [isSome_of_present hpresent]
        exact isSome_remove hget a
      · simp only [applyEdit, hget, ComponentTree.remove]
      · obtain ⟨hunused, hrest, hlinks⟩ := hnone a ha
        refine ⟨⟨?_, hunused.subs, hunused.rows⟩, ?_, ?_, fun k l hl => ?_⟩
        · simp only [applyEdit, hget, ComponentTree.remove]
          exact hunused.state
        · by_cases heq : a = id
          · rw [heq]
            exact hcleared id rfl
          · exact htags a (hrest heq).1
        · simp only [applyEdit, hget, ComponentTree.remove, Finset.mem_erase, not_and]
          exact fun heq => (hrest heq).2
        · change Stored (linkStore (applyEdit s.tree (.drop id))) k l at hl
          rw [linkStore_drop hget, stored_delete] at hl
          exact hlinks k l hl.1 hl.2
  | dropLinked id =>
    cases hget : s.tree.get id with
    | none =>
      rw [dropLinked_absent hget]
      exact h.absent hget htags
    | some c =>
      have hnone := hok (by rw [hget]; rfl)
      have hmarks := marks_dropLinked s.tree id
      simp only [marks, Prod.mk.injEq] at hmarks
      obtain ⟨hmark, hstate, hend⟩ := hmarks
      have hstores := linkStore_dropLinked hget
      refine h.delete (fun a => ?_) hend fun a ha => ?_
      · rw [← linkStore_isSome, hstores, ← linkStore_isSome s.tree]
        unfold LinkStore.delete detach
        split_ifs with heq <;> simp [heq]
      · obtain ⟨hunused, htagless, hunmarked, hlinks⟩ := hnone a ha
        refine ⟨⟨?_, hunused.subs, hunused.rows⟩, htags a htagless, ?_, fun k l hl hnames => ?_⟩
        · rw [hstate]
          exact hunused.state
        · rw [hmark]
          exact hunmarked
        · change Stored (linkStore (applyEdit s.tree (.dropLinked id))) k l at hl
          rw [hstores, stored_delete, stored_detach] at hl
          obtain ⟨hk, hold, hkept⟩ := hl
          obtain ⟨hown, hend⟩ := hlinks k l hk hold hnames
          obtain ⟨c', hc', hmem⟩ := stored_iff.1 hown
          rw [hget] at hc'
          cases hc'
          exact hkept ⟨hmem, hend⟩
  | rename id name =>
    refine hkeep _ (view_rename _ id name fun _ => rfl) (marks_rename _ id name) fun k l hl => ?_
    rw [linkStore_rename] at hl
    exact .inl hl
  | link l =>
    refine hkeep _ (view_storeLink _ l fun _ => rfl) (marks_storeLink _ l) fun k m hm => ?_
    change Stored (linkStore (s.tree.storeLink l)) k m at hm
    rw [linkStore_storeLink, stored_store] at hm
    rcases hm with hold | ⟨rfl, -, -⟩
    · exact .inl hold
    · have htarget := (linkAccepted_target hadm).1
      rw [linkStore_isSome] at htarget
      exact .inr ⟨hok, lt_nextCompId h.room htarget⟩
  | unlink l =>
    refine hkeep _ (view_eraseLink _ l fun _ => rfl) (marks_eraseLink _ l) fun k m hm => ?_
    change Stored (linkStore (s.tree.eraseLink l)) k m at hm
    rw [linkStore_eraseLink, stored_erase] at hm
    exact .inl hm.1
  | reorder id children =>
    refine hkeep _ (view_modify _ id fun _ => rfl) rfl fun k l hl => ?_
    rw [linkStore_reorder] at hl
    exact .inl hl
  | slots id f =>
    refine hkeep _ (view_modify _ id fun _ => rfl) rfl fun k l hl => ?_
    rw [linkStore_slots] at hl
    exact .inl hl

theorem deleteCompId_of_drop {t : ComponentTree} {op : TreeOp} {id : UInt16}
    (h : edit t op = .drop id) : ∃ req, op = .sox req ∧ deleteCompId req = some id := by
  have hbool : ∀ a name other, other ≠ TreeEdit.drop id → boolActionEdit a name other ≠ .drop id := by
    intro a name other hother
    unfold boolActionEdit
    split_ifs <;> simp [hother]
  have hlink : ∀ l, linkEdit t l ≠ .drop id := by
    intro l
    unfold linkEdit
    split_ifs <;> simp
  have hreorder : ∀ a children, reorderEdit t a children ≠ .drop id := by
    intro a children
    unfold reorderEdit
    split_ifs <;> simp
  cases op with
  | sox req =>
    refine ⟨req, rfl, ?_⟩
    change soxEdit t req = .drop id at h
    unfold soxEdit at h
    cases hcmd : req.cmd <;> rw [hcmd] at h <;> dsimp only at h
    case delete =>
      unfold decodeDelete at h
      unfold deleteCompId leadingId
      rw [if_pos hcmd]
      cases hid : (SoxReader.mk req.payload).readU16.1 with
      | none =>
        rw [hid] at h
        cases h
      | some compId =>
        rw [hid] at h
        dsimp only at h
        split_ifs at h
        cases h
        rfl
    case add => split at h <;> cases h
    case rename => split at h <;> cases h
    case link =>
      split at h
      · split_ifs at h
        exact absurd h (hlink _)
      · cases h
    case reorder =>
      split at h
      · exact absurd h (hreorder _ _)
      · cases h
    case invoke =>
      unfold soxInvokeEdit at h
      dsimp only at h
      split at h <;> cases h
    case write =>
      unfold soxWriteEdit at h
      split at h
      · cases h
      · split at h
        · cases h
        · dsimp only at h
          split at h <;> cases h
    all_goals cases h
  | addComp | rowsAddComp =>
    change addEdit _ _ _ _ _ = _ at h
    unfold addEdit at h
    split_ifs at h
  | deleteComp | rowsDeleteComp =>
    change deleteEdit _ = _ at h
    unfold deleteEdit at h
    split_ifs at h
  | renameComp | rowsRename =>
    change renameEdit _ _ = _ at h
    unfold renameEdit at h
    split_ifs at h
  | writeSlot | rowsWriteSlot =>
    change writeSlotEdit _ _ _ _ = _ at h
    unfold writeSlotEdit at h
    split at h <;> cases h
  | invokeAction a slotName body =>
    change invokeActionEdit _ _ _ _ = _ at h
    unfold invokeActionEdit at h
    split at h
    · cases h
    · refine absurd h (hbool _ _ _ ?_)
      split <;> simp
  | rowsInvoke a idx =>
    change rowsInvokeEdit _ _ _ = _ at h
    unfold rowsInvokeEdit at h
    split at h
    · cases h
    · split_ifs at h
      exact absurd h (hbool _ _ _ (by simp))
  | addLink l | rowsAddLink l => exact absurd h (hlink l)
  | deleteLink | rowsDeleteLink => cases h
  | reorderChildren a children => exact absurd h (hreorder a children)
  | updatePos | rowsUpdatePos =>
    change updatePosEdit _ _ _ _ = _ at h
    unfold updatePosEdit at h
    split_ifs at h

theorem Inv.request (h : Inv s) (op : TreeOp) (hok : Harmless s (.request op)) :
    Inv (step s (.request op)) := by
  have hcleaned : ∀ id, Untagged s id →
      Untagged { s with tags := requestTags s.tags op } id := by
    intro id hid store' hstore'
    cases op with
    | sox req =>
      obtain ⟨store, hstore, hclear⟩ := Option.bind_eq_some_iff.1 hstore'
      rw [tagCount_clearTags hclear]
      split_ifs
      · rfl
      · exact hid store hstore
    | _ => exact hid store' hstore'
  have hdropped : ∀ id, TreeEdits.edit s.tree op = .drop id →
      Untagged { s with tags := requestTags s.tags op } id := by
    intro id hedit store' hstore'
    obtain ⟨req, rfl, hid⟩ := deleteCompId_of_drop hedit
    obtain ⟨store, -, hclear⟩ := Option.bind_eq_some_iff.1 hstore'
    rw [tagCount_clearTags hclear, if_pos hid]
  have hinv := h.edited (edit_admissible s.tree op) hok hcleaned hdropped
  have hclean := applyOp_clean s.tree op
  -- the dirty flag is all that the handlers may have set in addition
  have hop : applyOp s.tree op =
      { applyEdit s.tree (TreeEdits.edit s.tree op) with dirty := (applyOp s.tree op).dirty } := by
    have hflag := congrArg (fun t => { t with dirty := (applyOp s.tree op).dirty }) hclean
    exact hflag
  change Inv { s with
    tree := applyOp s.tree op, origin := editOrigin s.origin (TreeEdits.edit s.tree op),
    tags := requestTags s.tags op }
  rw [hop]
  refine ⟨hinv.room, fun id hid => ?_, hinv.classified, hinv.paired⟩
  have hb := hinv.bare id hid
  exact ⟨⟨hb.state, hb.subs, hb.rows⟩, hb.tags, hb.mark, hb.links⟩

theorem Inv.tagged (h : Inv s) (op : DynSlotStore.Op) (hok : HarmlessTags s op) :
    Inv (step s (.tags op)) := by
  refine h.retag fun id hid hzero store' hstore' => ?_
  change DynSlotStore.step s.tags op = some store' at hstore'
  have hne : ∀ a, a < s.tree.nextCompId → id ≠ a := by
    rintro a hlt rfl
    exact UInt16.lt_irrefl _ (UInt16.lt_of_lt_of_le hlt hid)
  cases htags : s.tags with
  | none =>
    rw [htags] at hstore'
    cases hstore'
  | some store =>
    rw [htags] at hstore'
    have hcount := hzero store htags
    cases op with
    | set a key value =>
      cases hstore'
      refine tagCount_set value (fun heq => ?_) hcount
      rcases hok with hlt | hfull
      · exact absurd heq (hne a hlt)
      · exact hfull store htags
    | remove a key =>
      obtain ⟨⟨store₁, r⟩, hr, rfl⟩ := Option.map_eq_some_iff.1 hstore'
      exact tagCount_remove hr hcount
    | setAll a tags names =>
      obtain ⟨⟨store₁, r⟩, hr, rfl⟩ := Option.map_eq_some_iff.1 hstore'
      refine tagCount_setAll hr (fun heq => ?_) hcount
      rcases hok with hlt | hempty
      · exact absurd heq (hne a hlt)
      · exact hempty
    | removeAll a =>
      rw [tagCount_removeAll hstore']
      split_ifs
      · rfl
      · exact hcount
    | load path file =>
      cases hstore'
      cases file with
      | data slots names => exact hok id hid
      | _ => exact hcount

def layout (t : ComponentTree) : LinkStore UInt16 Link × Finset UInt16 × UInt16 :=
  (linkStore t, t.userAddedIds, t.channelCompEnd)

theorem layout_slotBlind : SlotBlind layout := by
  intro t id f
  have hlinks : linkStore (t.modify id fun c => { c with slots := f c.slots }) = linkStore t :=
    view_modify t id fun _ => rfl
  unfold layout
  rw [hlinks]
  rfl

theorem Inv.ticked (h : Inv s) {t : ComponentTree} (hlayout : layout t = layout s.tree)
    (hstate : ∀ id, s.tree.get id = none → s.tree.componentState.get id = none →
      t.componentState.get id = none) : Inv { s with tree := t } := by
  simp only [layout, Prod.mk.injEq] at hlayout
  obtain ⟨hlinks, hmark, hend⟩ := hlayout
  have hpresent : present t = present s.tree := by
    funext id
    have hid := congrArg (fun f => (f id).map fun _ => ()) hlinks
    simpa [linkStore, present, view] using hid
  have hkept : Inv { s with tree := t, tags := s.tags } := by
    refine h.relink hpresent hmark hend hstate (fun k l hl => ?_) fun _ hid => hid
    rw [hlinks] at hl
    exact .inl hl
  exact hkept

theorem computeUpdates_present {t : ComponentTree} {order : List UInt16} {update : ComponentUpdate}
    (h : update ∈ t.computeUpdates order) : (t.get update.1).isSome = true := by
  obtain ⟨id, -, hid⟩ := List.mem_filterMap.1 h
  obtain ⟨comp, hget, hcomp⟩ := Option.bind_eq_some_iff.1 hid
  dsimp only at hcomp
  split_ifs at hcomp
  cases hcomp
  rw [hget]
  rfl

theorem componentState_executeComponents (t : ComponentTree) (order : List UInt16) {id : UInt16}
    (hid : t.get id = none) :
    (t.executeComponents order).1.componentState.get id = t.componentState.get id := by
  have hblind : SlotBlind fun t => t.componentState.get id := fun _ _ _ => rfl
  have hupdates : ∀ (updates : List ComponentUpdate) (state : ComponentTree × List UInt16),
      (∀ update ∈ updates, update.1 ≠ id) →
      (updates.foldl applyUpdate state).1.componentState.get id = state.1.componentState.get id := by
    intro updates
    induction updates with
    | nil => exact fun _ _ => rfl
    | cons update updates ih =>
      intro state hne
      refine (ih _ fun u hu => hne u (List.mem_cons_of_mem _ hu)).trans ?_
      obtain ⟨a, outputs, st⟩ := update
      have houtputs := hblind.applyOutputs state.1 a outputs
      have ha : id ≠ a := Ne.symm (hne _ List.mem_cons_self)
      cases st with
      | none => exact houtputs
      | some st => exact (Table.get_insert_ne _ _ ha).trans houtputs
  refine (hblind.bridges order _ _ _).trans (hupdates _ _ fun update hmem => ?_)
  rintro rfl
  have hpresent := computeUpdates_present hmem
  rw [hid] at hpresent
  cases hpresent

theorem Inv.executed (h : Inv s) (order : List UInt16) :
    Inv (step s (.components order)) :=
  h.ticked (layout_slotBlind.executeComponents (fun _ _ => rfl) s.tree order)
    fun _ hid hstate => (componentState_executeComponents s.tree order hid).trans hstate

theorem Inv.resubscribe (h : Inv s) {subs : SubscriptionManager} (hpaired : subs.Paired)
    (hsubs : ∀ id, s.tree.nextCompId ≤ id → ∀ k, id ∈ members subs.bySession k →
      id ∈ members s.subs.bySession k) : Inv { s with subs := subs } where
  room := h.room
  bare id hid := by
    have hb := h.bare id hid
    have hnone : ∀ k, id ∉ members subs.bySession k := fun k hk => hb.subs.2 k (hsubs id hid k hk)
    refine ⟨⟨hb.state, ⟨?_, hnone⟩, hb.rows⟩, hb.tags, hb.mark, hb.links⟩
    exact Finset.eq_empty_of_forall_notMem fun k hk => hnone k ((hpaired.mem_iff id k).1 hk)
  classified := h.classified
  paired := hpaired

theorem handleSubscribe_eq (order : List UInt16) (req : SoxRequest) (subs : SubscriptionManager)
    (sessionId : UInt16) (tree : ComponentTree) :
    (handleSubscribe order req subs sessionId tree).1 =
      subs.subscribeEach sessionId (subscribedIds order req tree) := by
  unfold handleSubscribe subscribedIds
  dsimp only
  split_ifs <;> rfl

theorem members_subscribeEach (subs : SubscriptionManager) (sessionId : UInt16)
    (compIds : List UInt16) {id k : UInt16}
    (h : id ∈ members (subs.subscribeEach sessionId compIds).bySession k) :
    id ∈ members subs.bySession k ∨ id ∈ compIds := by
  induction compIds generalizing subs with
  | nil => exact .inl h
  | cons compId compIds ih =>
    rcases ih _ h with hold | hmem
    · have hadd : id ∈ members (addTo subs.bySession sessionId compId) k := hold
      rw [mem_addTo] at hadd
      rcases hadd with hold | ⟨-, rfl⟩
      · exact .inl hold
      · exact .inr List.mem_cons_self
    · exact .inr (List.mem_cons_of_mem _ hmem)

theorem Inv.subscribed (h : Inv s) {order : List UInt16} {req : SoxRequest} (sessionId : UInt16)
    (hok : ∀ id ∈ subscribedIds order req s.tree, id < s.tree.nextCompId) :
    Inv (step s (.subscribe order req sessionId)) := by
  change Inv { s with subs := (handleSubscribe order req s.subs sessionId s.tree).1 }
  rw [handleSubscribe_eq]
  refine h.resubscribe (SubscriptionManager.subscribeEach_paired h.paired _ _) fun id hid k hk => ?_
  rcases members_subscribeEach _ _ _ hk with hold | hmem
  · exact hold
  · exact absurd (UInt16.lt_of_lt_of_le (hok id hmem) hid) (UInt16.lt_irrefl _)

theorem Inv.unsubscribed (h : Inv s) (req : SoxRequest) (sessionId : UInt16) :
    Inv (step s (.unsubscribe req sessionId)) := by
  change Inv { s with subs := (handleUnsubscribe req s.subs sessionId).1 }
  unfold handleUnsubscribe
  split
  · exact h
  · rename_i compId _
    refine h.resubscribe (SubscriptionManager.unsubscribe_paired h.paired _ _) fun id _ k hk => ?_
    have hdrop : id ∈ members (dropFrom s.subs.bySession sessionId compId) k := hk
    rw [members_dropFrom] at hdrop
    split_ifs at hdrop with heq
    · rw [heq]
      exact Finset.mem_of_mem_erase hdrop
    · exact hdrop

theorem Inv.ended (h : Inv s) (sessionId : UInt16) : Inv (step s (.sessionEnd sessionId)) := by
  refine h.resubscribe (SubscriptionManager.unsubscribeAll_paired h.paired _) fun id _ k hk => ?_
  rw [SubscriptionManager.members_unsubscribeAll_bySession] at hk
  split_ifs at hk
  · cases hk
  · exact hk

theorem Inv.rerow (h : Inv s) (conn : ℕ) {sess : Rows.Session}
    (hsess : ∀ id, s.tree.nextCompId ≤ id → id ∈ sess.subscribed → id ∈ (s.rows conn).subscribed) :
    Inv { s with rows := Function.update s.rows conn sess } where
  room := h.room
  bare id hid := by
    have hb := h.bare id hid
    refine ⟨⟨hb.state, hb.subs, fun c hc => ?_⟩, hb.tags, hb.mark, hb.links⟩
    change id ∈ (Function.update s.rows conn sess c).subscribed at hc
    by_cases heq : c = conn
    · rw [heq, Function.update_self] at hc
      exact hb.rows conn (hsess id hid hc)
    · rw [Function.update_of_ne heq] at hc
      exact hb.rows c hc
  classified := h.classified
  paired := h.paired

theorem subscribed_handleSubscribe (r : Rows.RowsState) (sess : Rows.Session)
    (compIds : List UInt16) :
    (Rows.handleSubscribe r sess compIds).1.subscribed = sess.subscribed ∪ compIds.toFinset := by
  refine foldl_keeps Rows.Session.subscribed _ (fun sess compId => ?_) compIds _
  unfold Rows.primeCache
  cases r.tree.get compId <;> rfl

theorem subscribed_handleUnsubscribe (sess : Rows.Session) (compIds : List UInt16) :
    (Rows.handleUnsubscribe sess compIds).1.subscribed ⊆ sess.subscribed := by
  unfold Rows.handleUnsubscribe
  dsimp only
  induction compIds generalizing sess with
  | nil => exact Finset.Subset.refl _
  | cons compId compIds ih => exact (ih _).trans (Finset.erase_subset _ _)

/-- One lemma for the run: a harmless event keeps the ids from the next one on bare. -/
theorem Inv.step (h : Inv s) (e : Event) (hok : Harmless s e) : Inv (step s e) := by
  cases e with
  | request op => exact h.request op hok
  | refresh channels =>
    exact h.ticked (layout_slotBlind.updateFromChannels s.tree channels) fun id _ hstate => by
      have hblind : SlotBlind ComponentTree.componentState := fun _ _ _ => rfl
      exact (congrArg (·.get id) (hblind.updateFromChannels s.tree channels)).trans hstate
  | links order =>
    exact h.ticked (layout_slotBlind.executeLinks s.tree order) fun id _ hstate => by
      have hblind : SlotBlind ComponentTree.componentState := fun _ _ _ => rfl
      exact (congrArg (·.get id) (hblind.executeLinks s.tree order)).trans hstate
  | components order => exact h.executed order
  | tags op => exact h.tagged op hok
  | subscribe order req sessionId => exact h.subscribed sessionId hok
  | unsubscribe req sessionId => exact h.unsubscribed req sessionId
  | sessionEnd sessionId => exact h.ended sessionId
  | rowsSubscribe conn compIds =>
    refine h.rerow conn fun id hid hmem => ?_
    rw [subscribed_handleSubscribe, Finset.mem_union, List.mem_toFinset] at hmem
    rcases hmem with hold | hmem
    · exact hold
    · exact absurd (UInt16.lt_of_lt_of_le (hok id hmem) hid) (UInt16.lt_irrefl _)
  | rowsUnsubscribe conn compIds =>
    exact h.rerow conn fun id _ hmem => subscribed_handleUnsubscribe _ _ hmem
  | rowsEnd conn => exact h.rerow conn fun id _ hmem => absurd hmem (Finset.notMem_empty id)

end Invariant

section Main

variable {channels : List ChannelInfo} {db : ManifestDb}

theorem toNat_channelCompId {i : ℕ} (h : 100 + i < 65536) : (channelCompId i).toNat = 100 + i := by
  unfold channelCompId
  rw [UInt16.toNat_add, UInt16.toNat_ofNat']
  change (100 + i % 65536) % 65536 = 100 + i
  omega

theorem origin_isSome {i : ℕ} (h : i < channels.length) :
    ((ChannelOwners.start channels db).origin (channelCompId i)).isSome = true := by
  have hfold : ∀ (entries : List (ChannelInfo × ℕ)) (origin : UInt16 → Option UInt32),
      ((origin (channelCompId i)).isSome = true ∨ ∃ entry ∈ entries, entry.2 = i) →
      (entries.foldl (fun origin entry =>
        Function.update origin (channelCompId entry.2) (some entry.1.id)) origin
          (channelCompId i)).isSome = true := by
    intro entries
    induction entries with
    | nil => simp
    | cons entry entries ih =>
      intro origin hold
      refine ih _ ?_
      by_cases hentry : channelCompId i = channelCompId entry.2
      · left
        dsimp only
        rw [hentry, Function.update_self]
        rfl
      · rcases hold with hsome | ⟨e, he, hi⟩
        · left
          dsimp only
          rw [Function.update_of_ne hentry]
          exact hsome
        · rcases List.mem_cons.1 he with rfl | he
          · exact absurd (congrArg channelCompId hi.symm) hentry
          · exact .inr ⟨e, he, hi⟩
  refine hfold channels.zipIdx _ (.inr ⟨(channels[i], i), ?_, rfl⟩)
  exact List.mem_zipIdx_iff_getElem?.2 (List.getElem?_eq_getElem h)

theorem classified_start (h : channels.length ≤ 65435) :
    Classified (ChannelOwners.start channels db) := by
  intro id _
  have hend : ((ChannelOwners.start channels db).tree.channelCompEnd).toNat =
      100 + channels.length := toNat_channelCompId (by omega)
  simp only [ComponentTree.isChannelComp, Bool.and_eq_true, decide_eq_true_eq, UInt16.le_iff_toNat_le,
    UInt16.lt_iff_toNat_lt, hend]
  change 100 ≤ id.toNat ∧ _ ↔ _
  constructor
  · rintro ⟨hlow, hhigh⟩
    have hid : channelCompId (id.toNat - 100) = id := by
      refine UInt16.toNat_inj.1 ?_
      rw [toNat_channelCompId (by omega)]
      omega
    rw [← hid]
    exact origin_isSome (by omega)
  · intro hsome
    obtain ⟨c, hc⟩ := Option.isSome_iff_exists.1 hsome
    obtain ⟨i, ch, hi, -, rfl⟩ := ChannelMapping.start_origin hc
    have hlt : i < channels.length := (List.getElem?_eq_some_iff.1 hi).1
    rw [toNat_channelCompId (by omega)]
    omega

theorem inv_start (h : channels.length ≤ 65435) (maxPerComp maxTotal : ℕ) :
    Inv (start channels db maxPerComp maxTotal) where
  room := by
    refine (TreeParents.fromChannels_filled (by omega) db).free noParent ?_
    change 100 + channels.length ≤ 65535
    omega
  bare id _ := by
    have hstate : (start channels db maxPerComp maxTotal).tree.componentState = Table.empty :=
      (foldl_keeps ComponentTree.componentState add (fun _ _ => rfl) _ _).trans
        (foldl_keeps ComponentTree.componentState add (fun _ _ => rfl) _ _)
    have husers := (TreePersistence.fromChannels_fresh channels db).users
    refine ⟨⟨?_, ⟨rfl, fun _ => Finset.notMem_empty id⟩, fun _ => Finset.notMem_empty id⟩,
      fun store hstore => ?_, fun hmark => ?_, fun k l hl => ?_⟩
    · rw [hstate]
      rfl
    · cases hstore
      rfl
    · rw [show (start channels db maxPerComp maxTotal).tree.userAddedIds = ∅ from husers] at hmark
      exact Finset.notMem_empty id hmark
    · exact absurd hl (fromChannels_unlinked channels db k l)
  classified := classified_start h
  paired := SubscriptionManager.new_paired

/-- In every run of harmless events a new component starts clean and is classified by what
    it was made from. -/
theorem new_components_clean (channels : List ChannelInfo) (db : ManifestDb)
    (maxPerComp maxTotal : ℕ) (events : List Event) (hroom : channels.length ≤ 65435)
    (h : Along step Harmless (start channels db maxPerComp maxTotal) events) :
    ∀ s ∈ states step (start channels db maxPerComp maxTotal) events, Clean s := by
  intro s hs
  exact (states_invariant FreshIds.step (I := Inv) (fun _ e hinv hok => hinv.step e hok)
    (inv_start hroom maxPerComp maxTotal) h s hs).clean

end Main

/-- Adding a constant below the control folder is harmless. -/
theorem new_components_clean_constant :
    Clean (run step (start [sampleOutput] ManifestDb.new 64 10000)
      [.request (.addComp 6 2 15 "speed")]) := by
  refine new_components_clean [sampleOutput] ManifestDb.new 64 10000
    [.request (.addComp 6 2 15 "speed")] (by decide) ⟨?_, trivial⟩ _ (run_mem_states _ _ _)
  let s := start [sampleOutput] ManifestDb.new 64 10000
  change HarmlessEdit s (addEdit s.tree 6 2 15 "speed")
  unfold addEdit
  split_ifs
  · exact ⟨by decide +kernel, by decide +kernel⟩
  · trivial

/-- A component that is deleted through REST leaves its mark to the next one. -/
theorem deleted_component_stays_marked :
    ¬ ∀ events, ∀ s ∈ states step (start [] ManifestDb.new 64 10000) events, Clean s := by
  intro h
  have hclean := h [.request (.addComp 6 2 15 "speed"), .request (.deleteComp 7)] _
    (run_mem_states _ _ _)
  have hmark := hclean.bare.mark
  revert hmark
  decide +kernel

end Sandstar.FreshIds
