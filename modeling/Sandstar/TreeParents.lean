import Sandstar.Forest
import Sandstar.TreeLookup

set_option autoImplicit false

namespace Sandstar.TreeParents
open ComponentTree SoxSlots TreeRequests TreeEdits Forest

/-- Every component but the root is listed exactly once by its existing parent, and
    every listed child exists and points back. -/
structure WellFormed (t : ComponentTree) : Prop where
  listed : ∀ id c, t.get id = some c → id ≠ 0 →
    ∃ p, t.get c.parentId = some p ∧ p.children.count id = 1
  present : ∀ id c, t.get id = some c → ∀ k ∈ c.children, ∃ d, t.get k = some d ∧ d.parentId = id

def toNode (c : VirtualComponent) : Node UInt16 := ⟨c.parentId, c.children⟩

def place (t : ComponentTree) : Forest UInt16 := view toNode t

theorem wellFormed_iff (t : ComponentTree) : WellFormed t ↔ Forest.WellFormed 0 (place t) := by
  constructor
  · intro h
    refine ⟨fun id n hn hr => ?_, fun id n hn k hk => ?_⟩
    · obtain ⟨c, hc, rfl⟩ := view_eq_some.1 hn
      obtain ⟨p, hp, hcount⟩ := h.listed id c hc hr
      exact ⟨toNode p, view_of_get hp, hcount⟩
    · obtain ⟨c, hc, rfl⟩ := view_eq_some.1 hn
      obtain ⟨d, hd, hpar⟩ := h.present id c hc k hk
      exact ⟨toNode d, view_of_get hd, hpar⟩
  · intro h
    refine ⟨fun id c hc hr => ?_, fun id c hc k hk => ?_⟩
    · obtain ⟨n, hn, hcount⟩ := h.listed id (toNode c) (view_of_get hc) hr
      obtain ⟨p, hp, rfl⟩ := view_eq_some.1 hn
      exact ⟨p, hp, hcount⟩
    · obtain ⟨n, hn, hpar⟩ := h.present id (toNode c) (view_of_get hc) k hk
      obtain ⟨d, hd, rfl⟩ := view_eq_some.1 hn
      exact ⟨d, hd, hpar⟩

theorem place_add {t : ComponentTree} {comp : VirtualComponent} (hc : comp.children = [])
    (hp : comp.parentId ≠ noParent) :
    place (t.add comp) = insertLeaf (place t) comp.compId comp.parentId := by
  funext a
  unfold place view insertLeaf
  rw [get_add]
  by_cases ha : a = comp.compId
  · rw [if_pos ha, if_pos ha]
    change some (toNode comp) = _
    unfold toNode
    rw [hc]
  · rw [if_neg ha, if_neg ha]
    by_cases hq : a = comp.parentId
    · rw [if_pos ⟨hq, hp⟩, if_pos hq, Option.map_map, Option.map_map]
      refine congrArg (fun g => (t.get a).map g) (funext fun c => ?_)
      change toNode (pushChild comp.compId c) = push comp.compId (toNode c)
      unfold pushChild push toNode
      split_ifs <;> rfl
    · rw [if_neg (fun h => hq h.1), if_neg hq]

theorem place_remove {t : ComponentTree} {id : UInt16} {comp : VirtualComponent}
    (h : t.get id = some comp) :
    place (t.remove id).2 = Forest.remove (place t) id comp.parentId := by
  funext a
  unfold place view Forest.remove
  rw [get_remove h]
  by_cases ha : a = id
  · rw [if_pos ha, if_pos ha]
    rfl
  · rw [if_neg ha, if_neg ha]
    split_ifs
    · rw [Option.map_map, Option.map_map]
      rfl
    · rfl

theorem place_reorder (t : ComponentTree) (id : UInt16) (children : List UInt16) :
    place (t.modify id fun p => { p with children := children }) =
      Forest.reorder (place t) id children := by
  funext a
  unfold place view Forest.reorder
  rw [get_modify]
  split_ifs
  · rw [Option.map_map, Option.map_map]
    rfl
  · rfl

theorem add_rooted {t : ComponentTree} (comp : VirtualComponent) (h : Rooted 0 (place t))
    (hc : comp.children = []) (hid : t.get comp.compId = none)
    (hp : (t.get comp.parentId).isSome) (hn : comp.parentId ≠ noParent) (hz : comp.compId ≠ 0) :
    Rooted 0 (place (t.add comp)) := by
  rw [place_add hc hn]
  refine insertLeaf_rooted h (view_eq_none.2 hid) ?_ hz
  unfold place view
  rw [Option.isSome_map]
  exact hp

/-- The tree before the channel with index `i`: every id from 100 + `i` on is free. -/
structure Filled (i : ℕ) (t : ComponentTree) : Prop where
  rooted : Rooted 0 (place t)
  service : ∃ c, t.get 1 = some c ∧ c.parentId = 0
  io : ∃ c, t.get 5 = some c ∧ c.parentId = 0
  free : ∀ id : UInt16, 100 + i ≤ id.toNat → t.get id = none

theorem app_rooted (db : ManifestDb) : Rooted 0 (place ((newWithManifest db).add app)) := by
  have hget : ∀ a, ((newWithManifest db).add app).get a = if a = 0 then some app else none := by
    intro a
    rw [get_add]
    by_cases ha : a = 0
    · simp [ha, app, systemComponent]
    · simp [ha, app, systemComponent, noParent, newWithManifest, ComponentTree.get]
  have hinv : ∀ id n, place ((newWithManifest db).add app) id = some n →
      id = 0 ∧ n.children = [] := by
    intro id n hn
    obtain ⟨c, hc, rfl⟩ := view_eq_some.1 hn
    rw [hget] at hc
    split_ifs at hc with h0
    cases hc
    exact ⟨h0, rfl⟩
  refine ⟨⟨fun id n hn hr => absurd (hinv id n hn).1 hr, fun id n hn k hk => ?_⟩,
    fun id n hn hk => ?_, fun id n hn hk => ?_⟩ <;>
  · rw [(hinv id n hn).2] at hk
    cases hk

theorem systemTree_filled (db : ManifestDb) : Filled 0 (systemTree db) where
  rooted := by
    have h1 := add_rooted service (app_rooted db) rfl rfl rfl (by decide) (by decide)
    have h2 := add_rooted sox h1 rfl rfl rfl (by decide) (by decide)
    have h3 := add_rooted users h2 rfl rfl rfl (by decide) (by decide)
    have h4 := add_rooted plat h3 rfl rfl rfl (by decide) (by decide)
    have h5 := add_rooted io h4 rfl rfl rfl (by decide) (by decide)
    exact add_rooted control h5 rfl rfl rfl (by decide) (by decide)
  service := ⟨_, rfl, rfl⟩
  io := ⟨_, rfl, rfl⟩
  free := by
    intro id hid
    have hne : ∀ k : UInt16, k.toNat < 100 → id ≠ k := by
      rintro k hk rfl
      omega
    have hkeep : ∀ (t : ComponentTree) (comp : VirtualComponent), comp.compId.toNat < 100 →
        comp.parentId.toNat < 100 ∨ comp.parentId = noParent →
        (t.add comp).get id = t.get id := by
      intro t comp hc hp
      rw [get_add, if_neg (hne _ hc)]
      refine if_neg fun h => ?_
      rcases hp with hp | hp
      · exact hne _ hp h.1
      · exact h.2 hp
    change ((((((((newWithManifest db).add app).add service).add sox).add users).add plat).add
      io).add control).get id = none
    rw [hkeep _ control (by decide) (by decide), hkeep _ io (by decide) (by decide),
      hkeep _ plat (by decide) (by decide), hkeep _ users (by decide) (by decide),
      hkeep _ sox (by decide) (by decide), hkeep _ service (by decide) (by decide),
      hkeep _ app (by decide) (by decide)]
    rfl

theorem channelComponent_id {i : ℕ} (hi : i < 65436) (ch : ChannelInfo) :
    (channelComponent (ch, i)).compId.toNat = 100 + i := by
  change (channelCompBase + UInt16.ofNat i).toNat = 100 + i
  rw [UInt16.toNat_add, UInt16.toNat_ofNat']
  change (100 + i % 65536) % 65536 = 100 + i
  omega

theorem add_filled {i : ℕ} (hi : i < 65436) {t : ComponentTree} (h : Filled i t)
    (ch : ChannelInfo) : Filled (i + 1) (t.add (channelComponent (ch, i))) := by
  have hid := channelComponent_id hi ch
  obtain ⟨c1, hc1, hp1⟩ := h.service
  obtain ⟨c5, hc5, hp5⟩ := h.io
  have hpar : (channelComponent (ch, i)).parentId = 5 := rfl
  have hne : ∀ k : UInt16, k.toNat < 100 → k ≠ (channelComponent (ch, i)).compId := by
    intro k hk e
    rw [e, hid] at hk
    omega
  refine ⟨add_rooted _ h.rooted rfl (h.free _ (le_of_eq hid.symm)) ?_
    (show (5 : UInt16) ≠ noParent by decide) (hne 0 (by decide)).symm, ⟨c1, ?_, hp1⟩,
    ⟨pushChild (channelComponent (ch, i)).compId c5, ?_, ?_⟩, fun id hle => ?_⟩
  · rw [hpar, hc5]
    rfl
  · rw [get_add, if_neg (hne 1 (by decide)), hpar, if_neg (by decide)]
    exact hc1
  · rw [get_add, if_neg (hne 5 (by decide)), hpar, if_pos (by decide), hc5]
    rfl
  · unfold pushChild
    split_ifs <;> exact hp5
  · have hne' : id ≠ (channelComponent (ch, i)).compId := by
      rintro rfl
      omega
    have hne5 : id ≠ 5 := by
      rintro rfl
      have : (5 : UInt16).toNat = 5 := rfl
      omega
    rw [get_add, if_neg hne', hpar, if_neg (fun e => hne5 e.1)]
    exact h.free id (by omega)

theorem channels_filled (chs : List ChannelInfo) {i : ℕ} {t : ComponentTree} (h : Filled i t)
    (hlen : i + chs.length ≤ 65436) :
    Filled (i + chs.length) (((chs.zipIdx i).map channelComponent).foldl add t) := by
  induction chs generalizing i t with
  | nil => exact h
  | cons ch chs ih =>
    rw [List.length_cons] at hlen ⊢
    have := ih (add_filled (by omega) h ch) (by omega)
    rw [show i + (chs.length + 1) = i + 1 + chs.length by omega]
    exact this

def channelTree (chs : List ChannelInfo) (db : ManifestDb) : ComponentTree :=
  (chs.zipIdx.map channelComponent).foldl add (systemTree db)

theorem channelTree_filled {chs : List ChannelInfo} (hlen : chs.length ≤ 65436)
    (db : ManifestDb) : Filled chs.length (channelTree chs db) := by
  have h := channels_filled chs (systemTree_filled db) (by omega)
  rw [Nat.zero_add] at h
  exact h

theorem fromChannels_filled {chs : List ChannelInfo} (hlen : chs.length ≤ 65436)
    (db : ManifestDb) : Filled chs.length (fromChannelsWithManifest chs db) := by
  have h := channelTree_filled hlen db
  exact ⟨h.rooted, h.service, h.io, h.free⟩

def Overwritten (t : ComponentTree) : Prop :=
  (∃ c, t.get 0 = some c ∧ c.children = []) ∧
    ∃ c, t.get 5 = some c ∧ (c.parentId = 0 ∨ c.parentId = 5) ∧ 5 ∉ c.children

theorem add_overwritten {t : ComponentTree} (h : Overwritten t) (e : ChannelInfo × ℕ) :
    Overwritten (t.add (channelComponent e)) := by
  have hpar : (channelComponent e).parentId = 5 := rfl
  obtain ⟨⟨c0, hc0, hl0⟩, c5, hc5, hp5, hl5⟩ := h
  refine ⟨?_, ?_⟩
  · by_cases h0 : (0 : UInt16) = (channelComponent e).compId
    · exact ⟨channelComponent e, by rw [get_add, if_pos h0], rfl⟩
    · exact ⟨c0, by rw [get_add, if_neg h0, hpar, if_neg (by decide)]; exact hc0, hl0⟩
  · by_cases h5 : (5 : UInt16) = (channelComponent e).compId
    · exact ⟨channelComponent e, by rw [get_add, if_pos h5], Or.inr rfl, List.not_mem_nil⟩
    · refine ⟨pushChild (channelComponent e).compId c5, ?_, ?_, ?_⟩
      · rw [get_add, if_neg h5, hpar, if_pos (by decide), hc5]
        rfl
      · unfold pushChild
        split_ifs <;> exact hp5
      · unfold pushChild
        split_ifs
        · exact hl5
        · simp [hl5, h5]

theorem overwritten_not_wellFormed {t : ComponentTree} (h : Overwritten t) : ¬ WellFormed t := by
  obtain ⟨⟨c0, hc0, hl0⟩, c5, hc5, hp5, hl5⟩ := h
  rw [wellFormed_iff]
  refine not_wellFormed_of_unlisted (view_of_get hc5) (by decide) fun p hp => ?_
  obtain ⟨c, hc, rfl⟩ := view_eq_some.1 hp
  rcases hp5 with e | e
  · rw [show (toNode c5).parent = 0 from e, hc0] at hc
    cases hc
    change 5 ∉ c0.children
    rw [hl0]
    exact List.not_mem_nil
  · rw [show (toNode c5).parent = 5 from e, hc5] at hc
    cases hc
    exact hl5

theorem channelTree_overwritten {chs : List ChannelInfo} (hlen : 65436 < chs.length)
    (db : ManifestDb) : Overwritten (channelTree chs db) := by
  obtain ⟨pre, ch, post, rfl, hpre⟩ : ∃ pre ch post, chs = pre ++ ch :: post ∧
      pre.length = 65436 :=
    ⟨chs.take 65436, chs[65436], chs.drop 65437, by simp, by simp; omega⟩
  have hfill := channelTree_filled (le_of_eq hpre) db
  obtain ⟨c5, hc5, hp5⟩ := hfill.io
  have hirr : 5 ∉ c5.children := hfill.rooted.irreflexive 5 (toNode c5) (view_of_get hc5)
  have hid : (channelComponent (ch, pre.length)).compId = 0 := by
    rw [hpre]
    rfl
  have hfirst : Overwritten ((channelTree pre db).add (channelComponent (ch, pre.length))) := by
    refine ⟨⟨channelComponent (ch, pre.length), ?_, rfl⟩,
      pushChild (channelComponent (ch, pre.length)).compId c5, ?_, ?_, ?_⟩
    · rw [get_add, if_pos hid.symm]
    · rw [get_add, hid, if_neg (by decide), hc5]
      rfl
    · unfold pushChild
      split_ifs <;> exact Or.inl hp5
    · rw [hid]
      unfold pushChild
      split_ifs
      · exact hirr
      · simp [hirr]
  have hrest : ∀ (es : List (ChannelInfo × ℕ)) (t : ComponentTree), Overwritten t →
      Overwritten ((es.map channelComponent).foldl add t) := by
    intro es
    induction es with
    | nil => exact fun t ht => ht
    | cons e es ih => exact fun t ht => ih _ (add_overwritten ht e)
  have hall := hrest (post.zipIdx (pre.length + 1)) _ hfirst
  unfold channelTree
  rw [List.zipIdx_append, List.map_append, List.foldl_append, List.zipIdx_cons, List.map_cons,
    List.foldl_cons, Nat.zero_add]
  exact hall

/-- The edit meets no component it would have to look after: a deleted component has
    no children, and a new component's id is free. -/
def LeafEdit (t : ComponentTree) : TreeEdit → Prop
  | .insert comp => t.get comp.compId = none
  | .drop id | .dropLinked id => ∀ c, t.get id = some c → c.children = []
  | _ => True

structure Invariant (t : ComponentTree) : Prop where
  rooted : Rooted 0 (place t)
  service : ∃ n, place t 1 = some n ∧ n.parent = 0

theorem Invariant.of_place {t u : ComponentTree} (h : place u = place t) (ht : Invariant t) :
    Invariant u :=
  ⟨h ▸ ht.rooted, h ▸ ht.service⟩

theorem Invariant.root {t : ComponentTree} (h : Invariant t) : (t.get 0).isSome := by
  obtain ⟨n, hn, hp⟩ := h.service
  obtain ⟨p, hpn, -⟩ := h.rooted.listed 1 n hn (by decide)
  rw [hp] at hpn
  obtain ⟨c, hc, -⟩ := view_eq_some.1 hpn
  rw [hc]
  rfl

theorem insert_invariant {t : ComponentTree} {comp : VirtualComponent} (h : Invariant t)
    (hadm : Admissible t (.insert comp)) (hfree : t.get comp.compId = none) :
    Invariant (applyEdit t (.insert comp)) := by
  obtain ⟨hid, hp, hc, -⟩ := hadm
  obtain ⟨n, hn, hpar⟩ := h.service
  have hz : comp.compId ≠ 0 := by
    intro e
    have hroot := h.root
    rw [← e, hfree] at hroot
    cases hroot
  have hnp : comp.parentId ≠ noParent := parent_ne_noParent h.root (hid ▸ hfree) hp
  have h1 : (1 : UInt16) ≠ comp.compId := by
    intro e
    rw [e, place, view_eq_none.2 hfree] at hn
    cases hn
  refine Invariant.of_place (t := t.add comp) rfl
    ⟨add_rooted _ h.rooted hc hfree hp hnp hz, ?_⟩
  rw [place_add hc hnp]
  rcases insertLeaf_of_ne comp.parentId h1 hn with hn' | hn'
  · exact ⟨n, hn', hpar⟩
  · exact ⟨push comp.compId n, hn', by rw [push_parent]; exact hpar⟩

/-- An insertion over an existing id can only hit the root, whose children it forgets. -/
theorem insert_not_wellFormed {t : ComponentTree} {comp : VirtualComponent} (h : Invariant t)
    (hadm : Admissible t (.insert comp)) (hused : t.get comp.compId ≠ none) :
    ¬ WellFormed (applyEdit t (.insert comp)) := by
  obtain ⟨hid, -, hc, -⟩ := hadm
  obtain ⟨c, hget⟩ := Option.ne_none_iff_exists'.1 hused
  have hz : comp.compId = 0 := by
    rw [hid] at hget ⊢
    exact nextCompId_eq_zero hget
  obtain ⟨n, hn, hpar⟩ := h.service
  obtain ⟨s, hs, rfl⟩ := view_eq_some.1 hn
  have hroot : (applyEdit t (.insert comp)).get 0 = some comp := by
    change (t.add comp).get 0 = some comp
    rw [get_add, if_pos hz.symm]
  have hserv : ∃ s', (applyEdit t (.insert comp)).get 1 = some s' ∧ s'.parentId = 0 := by
    change ∃ s', (t.add comp).get 1 = some s' ∧ s'.parentId = 0
    rw [get_add, hz, if_neg (by decide), hs]
    split_ifs
    · refine ⟨pushChild 0 s, rfl, ?_⟩
      unfold pushChild
      split_ifs <;> exact hpar
    · exact ⟨s, rfl, hpar⟩
  intro hw
  obtain ⟨s', hs', hpar'⟩ := hserv
  obtain ⟨p, hp, hcount⟩ := hw.listed 1 s' hs' (by decide)
  rw [hpar', hroot] at hp
  cases hp
  rw [hc] at hcount
  cases hcount

theorem remove_invariant {t : ComponentTree} {id : UInt16} {c : VirtualComponent}
    (h : Invariant t) (hid : 7 ≤ id) (hc : t.get id = some c) (hleaf : c.children = []) :
    Invariant (t.remove id).2 := by
  obtain ⟨n, hn, hpar⟩ := h.service
  have h1 : (1 : UInt16) ≠ id := by
    rintro rfl
    exact absurd hid (by decide)
  have hnode : place t id = some (toNode c) := view_of_get hc
  refine ⟨?_, ?_⟩
  · rw [place_remove hc]
    exact remove_rooted h.rooted hnode hleaf
  · rw [place_remove hc]
    rcases remove_of_ne c.parentId h1 hn with hn' | hn'
    · exact ⟨n, hn', hpar⟩
    · exact ⟨Forest.drop id n, hn', hpar⟩

theorem remove_not_wellFormed {t : ComponentTree} {id : UInt16} {c : VirtualComponent}
    (h : Invariant t) (hc : t.get id = some c) (hne : c.children ≠ []) :
    ¬ WellFormed (t.remove id).2 := by
  rw [wellFormed_iff, place_remove hc]
  exact Forest.remove_not_wellFormed h.rooted (view_of_get hc) hne

theorem place_dropLinksOf (t : ComponentTree) (id : UInt16) :
    place (dropLinksOf t id) = place t :=
  view_dropLinksOf t id fun _ _ => rfl

theorem get_dropLinksOf_place {t : ComponentTree} {id : UInt16} {c : VirtualComponent}
    (hc : t.get id = some c) : ∃ d, (dropLinksOf t id).get id = some d ∧ toNode d = toNode c := by
  have hnode : place (dropLinksOf t id) id = some (toNode c) := by
    rw [place_dropLinksOf]
    exact view_of_get hc
  exact view_eq_some.1 hnode

theorem applyEdit_invariant (t : ComponentTree) (e : TreeEdit) (h : Invariant t)
    (hadm : Admissible t e) (hok : LeafEdit t e) : Invariant (applyEdit t e) := by
  cases e with
  | keep => exact h
  | insert comp => exact insert_invariant h hadm hok
  | drop id =>
    cases hc : t.get id with
    | none =>
      rw [drop_absent hc]
      exact h
    | some c => exact (remove_invariant h hadm hc (hok c hc)).of_place (view_drop hc)
  | dropLinked id =>
    cases hc : t.get id with
    | none =>
      rw [dropLinked_absent hc]
      exact h
    | some c =>
      obtain ⟨d, hd, hdc⟩ := get_dropLinksOf_place hc
      have hleaf : d.children = [] := (congrArg Node.children hdc).trans (hok c hc)
      exact remove_invariant (h.of_place (place_dropLinksOf t id)) hadm hd hleaf
  | rename id name => exact h.of_place (view_rename t id name fun _ => rfl)
  | link l => exact h.of_place (view_storeLink t l fun _ => rfl)
  | unlink l => exact h.of_place (view_eraseLink t l fun _ => rfl)
  | reorder id children =>
    obtain ⟨p, hp, hperm⟩ := reorderAccepted_perm hadm
    obtain ⟨n, hn, hpar⟩ := h.service
    obtain ⟨n', hn', hpar', -⟩ := reorder_get (view_of_get hp) hperm hn
    refine ⟨?_, n', ?_, hpar'.trans hpar⟩
    · change Rooted 0 (place (t.modify id fun p => { p with children := children }))
      rw [place_reorder]
      exact reorder_rooted h.rooted (view_of_get hp) hperm
    · change place (t.modify id fun p => { p with children := children }) 1 = some n'
      rw [place_reorder]
      exact hn'
  | slots id f => exact h.of_place (view_modify t id fun _ => rfl)

theorem applyEdit_not_wellFormed (t : ComponentTree) (e : TreeEdit) (h : Invariant t)
    (hadm : Admissible t e) (hbad : ¬ LeafEdit t e) : ¬ WellFormed (applyEdit t e) := by
  cases e with
  | insert comp => exact insert_not_wellFormed h hadm hbad
  | drop id =>
    obtain ⟨c, hc, hne⟩ : ∃ c, t.get id = some c ∧ c.children ≠ [] := by
      simpa [LeafEdit] using hbad
    have hplace : place (applyEdit t (.drop id)) = place (t.remove id).2 := view_drop hc
    rw [wellFormed_iff, hplace, ← wellFormed_iff]
    exact remove_not_wellFormed h hc hne
  | dropLinked id =>
    obtain ⟨c, hc, hne⟩ : ∃ c, t.get id = some c ∧ c.children ≠ [] := by
      simpa [LeafEdit] using hbad
    obtain ⟨d, hd, hdc⟩ := get_dropLinksOf_place hc
    have hne' : d.children ≠ [] := (congrArg Node.children hdc).trans_ne hne
    exact remove_not_wellFormed (h.of_place (place_dropLinksOf t id)) hd hne'
  | keep => exact absurd trivial hbad
  | rename id name => exact absurd trivial hbad
  | link l => exact absurd trivial hbad
  | unlink l => exact absurd trivial hbad
  | reorder id children => exact absurd trivial hbad
  | slots id f => exact absurd trivial hbad

/-- Over every run of requests from a fresh tree, parents and children agree in every
    state exactly when the channels fit the id space and no request meets a subtree. -/
theorem requests_wellFormed_iff (chs : List ChannelInfo) (db : ManifestDb) (ops : List TreeOp) :
    (∀ t ∈ Runs.states applyOp (fromChannelsWithManifest chs db) ops, WellFormed t) ↔
      chs.length ≤ 65436 ∧ AlongEdits LeafEdit (fromChannelsWithManifest chs db) ops := by
  by_cases hlen : chs.length ≤ 65436
  · have hfill := fromChannels_filled hlen db
    obtain ⟨c, hc, hpar⟩ := hfill.service
    have hinv : Invariant (fromChannelsWithManifest chs db) :=
      ⟨hfill.rooted, toNode c, view_of_get hc, hpar⟩
    rw [requests_iff (I := Invariant) (P := WellFormed)
      (fun t => ⟨Invariant.of_place rfl, Invariant.of_place rfl⟩)
      (fun t => by rw [wellFormed_iff, wellFormed_iff]; rfl)
      (fun t ht => (wellFormed_iff t).2 ht.rooted.toWellFormed)
      applyEdit_invariant applyEdit_not_wellFormed hinv]
    exact ⟨fun h => ⟨hlen, h⟩, fun h => h.2⟩
  · constructor
    · intro h
      have hover : Overwritten (fromChannelsWithManifest chs db) :=
        channelTree_overwritten (Nat.lt_of_not_le hlen) db
      exact absurd (h _ (Runs.states_head applyOp _ ops)) (overwritten_not_wellFormed hover)
    · exact fun h => absurd h.1 hlen

/-- A constant, a second one below it, and the deletion of the first. -/
def orphaningRun : List TreeOp := [.addComp 6 2 14 "a", .addComp 7 2 14 "b", .deleteComp 7]

theorem orphaningRun_not_wellFormed :
    ¬ ∀ t ∈ Runs.states applyOp (fromChannels []) orphaningRun, WellFormed t := by
  intro h
  have hw := h _ (Runs.run_mem_states applyOp (fromChannels []) orphaningRun)
  have hchild : ∃ c, (Runs.run applyOp (fromChannels []) orphaningRun).get 8 = some c ∧
      c.parentId = 7 := ⟨_, rfl, rfl⟩
  have hgone : (Runs.run applyOp (fromChannels []) orphaningRun).get 7 = none := rfl
  obtain ⟨c, hc, hpar⟩ := hchild
  obtain ⟨p, hp, -⟩ := hw.listed 8 c hc (by decide)
  rw [hpar, hgone] at hp
  cases hp

end Sandstar.TreeParents
