import Sandstar.WatchHub
import Sandstar.WatchTables

set_option autoImplicit false

namespace Sandstar.Ws
open Engine Runs Unwinding Watches WatchTable

def Issued (counter : UInt64) (id : String) : Prop := id ∈ Watches.names counter.toNat

theorem toNat_succ {n : UInt64} (h : n.toNat + 1 < 2 ^ 64) : (n + 1).toNat = n.toNat + 1 := by
  rw [UInt64.toNat_add]
  exact Nat.mod_eq_of_lt h

theorem names_next {n : UInt64} (h : n.toNat + 1 < 2 ^ 64) :
    Watches.names (n + 1).toNat = Watches.names n.toNat ++ [watchName (n + 1)] := by
  rw [toNat_succ h, names_succ]
  congr 3

theorem Issued.succ {n : UInt64} {id : String} (h : n.toNat + 1 < 2 ^ 64) (hid : Issued n id) :
    Issued (n + 1) id := by
  unfold Issued
  rw [names_next h]
  exact List.mem_append_left _ hid

theorem issued_next {n : UInt64} (h : n.toNat + 1 < 2 ^ 64) : Issued (n + 1) (watchName (n + 1)) := by
  unfold Issued
  rw [names_next h]
  exact List.mem_append_right _ List.mem_cons_self

theorem not_issued_next {n : UInt64} (h : n.toNat + 1 < 2 ^ 64) :
    ¬ Issued n (watchName (n + 1)) := by
  intro hid
  have hnodup := names_nodup (n := (n + 1).toNat) (by rw [toNat_succ h]; omega)
  rw [names_next h] at hnodup
  exact List.disjoint_of_nodup_append hnodup hid List.mem_cons_self

theorem Issued.watchName {n : UInt64} {id : String} (h : Issued n id) : ∃ k, id = watchName k := by
  obtain ⟨k, -, rfl⟩ := List.mem_map.1 h
  exact ⟨_, rfl⟩

theorem not_issued_empty (n : UInt64) : ¬ Issued n "" := by
  intro h
  obtain ⟨k, hk⟩ := h.watchName
  have hlists := congrArg String.toList hk
  rw [WatchTable.watchName, String.toList_append] at hlists
  exact absurd (List.append_eq_nil_iff.1 hlists.symm).1 (by decide)

/-- An id that a client has from elsewhere was never given to anyone. -/
def Ref.Foreign : Ref → Prop
  | .own _ => True
  | .named id => ∀ n, id ≠ watchName n

section Slots

variable {F : Type} {given : List String} {c : Connection} {t : WatchTable F}

structure Settled (given : List String) (c : Connection) (t : WatchTable F) : Prop where
  nodup : given.Nodup
  issued : ∀ id ∈ given, Issued t.watchCounter id
  live : ∀ id, (t.watches.get id).isSome → Issued t.watchCounter id
  known : ∀ id, (c.watches.get id).isSome → id ∈ given

theorem map_eq_set {α β : Type} [DecidableEq α] {l : List α} (hl : l.Nodup) {f g : α → β} {x : α}
    (hx : x ∈ l) (hne : ∀ a, a ≠ x → g a = f a) : l.map g = (l.map f).set (l.idxOf x) (g x) := by
  have hg : g = Function.update f x (g x) := by
    funext a
    by_cases ha : a = x
    · rw [ha, Function.update_self]
    · rw [Function.update_of_ne ha, hne a ha]
  rw [hg, hl.map_update, if_pos hx, Function.update_self]

theorem slots_insert (hnodup : given.Nodup) {wid : String} (hwid : wid ∈ given) (w : WatchState F)
    (counter : UInt64) :
    slots given c ⟨t.watches.insert wid w, counter⟩ =
      (slots given c t).set (given.idxOf wid) ⟨some (bare w), (c.watches.get wid).isSome⟩ := by
  unfold slots
  rw [map_eq_set hnodup hwid (f := fun id =>
    (⟨(t.watches.get id).map bare, (c.watches.get id).isSome⟩ : Slot F))]
  · rw [Table.get_insert_self, Option.map_some]
  · intro a ha
    rw [Table.get_insert_ne _ _ ha]

theorem resolve_cases (given : List String) (k : ℕ) :
    resolve given (.own k) ∈ given ∨ (given[k]? = none ∧ resolve given (.own k) = "") := by
  cases h : given[k]? with
  | none => exact Or.inr ⟨rfl, by rw [resolve, h, Option.getD_none]⟩
  | some id =>
    left
    rw [resolve, h, Option.getD_some]
    exact List.mem_of_getElem? h

namespace Settled

theorem get_empty (h : Settled given c t) : t.watches.get "" = none := by
  by_contra hne
  exact not_issued_empty _ (h.live "" (Option.isSome_iff_ne_none.2 hne))

theorem known_empty (h : Settled given c t) : c.watches.get "" = none := by
  by_contra hne
  exact not_issued_empty _ (h.issued "" (h.known "" (Option.isSome_iff_ne_none.2 hne)))

theorem get_foreign (h : Settled given c t) {id : String} (hid : ∀ n, id ≠ watchName n) :
    t.watches.get id = none := by
  by_contra hne
  obtain ⟨n, hn⟩ := (h.live id (Option.isSome_iff_ne_none.2 hne)).watchName
  exact hid n hn

theorem known_foreign (h : Settled given c t) {id : String} (hid : ∀ n, id ≠ watchName n) :
    c.watches.get id = none := by
  by_contra hne
  obtain ⟨n, hn⟩ := (h.issued id (h.known id (Option.isSome_iff_ne_none.2 hne))).watchName
  exact hid n hn

theorem idxOf_resolve (h : Settled given c t) {k : ℕ} {id : String} (hk : given[k]? = some id) :
    given.idxOf id = k := by
  obtain ⟨hlt, rfl⟩ := List.getElem?_eq_some_iff.1 hk
  exact h.nodup.idxOf_getElem k hlt

theorem mem_of_live (h : Settled given c t) {ref : Ref} (href : ref.Foreign) {w : WatchState F}
    (hw : t.watches.get (resolve given ref) = some w) : resolve given ref ∈ given := by
  cases ref with
  | own k =>
    rcases resolve_cases given k with hmem | ⟨-, hempty⟩
    · exact hmem
    · rw [hempty, h.get_empty] at hw
      cases hw
  | named id =>
    have hnone := h.get_foreign href
    rw [resolve, hnone] at hw
    cases hw

theorem lookup_slots (h : Settled given c t) {ref : Ref} (href : ref.Foreign) :
    Slots.lookup (slots given c t) ref = (t.watches.get (resolve given ref)).map fun w =>
      (given.idxOf (resolve given ref), bare w) := by
  cases ref with
  | own k =>
    cases hk : given[k]? with
    | none => simp [Slots.lookup, slots, resolve, hk, h.get_empty]
    | some id =>
      have hidx := h.idxOf_resolve hk
      simp [Slots.lookup, slots, resolve, hk, hidx, Option.map_map, Function.comp_def]
  | named id => rw [resolve, h.get_foreign href, Slots.lookup, Option.map_none]

theorem held_slots (h : Settled given c t) {ref : Ref} (href : ref.Foreign) :
    Slots.held (slots given c t) ref = (c.watches.get (resolve given ref)).isSome := by
  cases ref with
  | own k =>
    cases hk : given[k]? with
    | none => simp [Slots.held, slots, resolve, hk, h.known_empty]
    | some id => simp [Slots.held, slots, resolve, hk]
  | named id => rw [resolve, h.known_foreign href, Slots.held, Option.isSome_none]

end Settled

theorem lookup_live (h : Settled given c t) (watch : Option Ref) (hwatch : ∀ ref ∈ watch, ref.Foreign) :
    watch.bind (Slots.lookup (slots given c t)) =
      ((watch.map (resolve given)).filter fun id => (t.watches.get id).isSome).bind fun id =>
        (t.watches.get id).map fun w => (given.idxOf id, bare w) := by
  cases watch with
  | none => rfl
  | some ref =>
    rw [Option.bind_some, h.lookup_slots (hwatch ref rfl), Option.map_some, Option.filter_some]
    cases hw : t.watches.get (resolve given ref) <;> simp [hw]

theorem Settled.expire (h : Settled given c t) (now : Instant) :
    Settled given c (t.expireStaleWatches now) where
  nodup := h.nodup
  issued := h.issued
  live id hid := by
    rw [get_expireStaleWatches] at hid
    obtain ⟨w, hw⟩ := Option.isSome_iff_exists.1 hid
    rw [Option.filter_eq_some_iff] at hw
    exact h.live id (Option.isSome_iff_exists.2 ⟨w, hw.1⟩)
  known := h.known

theorem slots_expire (now : Instant) :
    slots given c (t.expireStaleWatches now) = (slots given c t).map (Slot.expire now) := by
  unfold slots
  rw [List.map_map]
  refine List.map_congr_left fun id _ => ?_
  rw [Function.comp_apply, get_expireStaleWatches]
  cases h : t.watches.get id with
  | none => rfl
  | some w =>
    have hstale : stale now (bare w) = stale now w := rfl
    cases hs : stale now w <;> simp [Slot.expire, Option.filter_some, hstale, hs]

section Loops

variable {reader : ChannelReader Unit F}

theorem showChannel_bare {shows : WatchState F → ChannelId → ChannelValue F → Bool}
    (hshows : ∀ w c val, shows (bare w) c val = shows w c val) (w : WatchState F) (c : ChannelId) :
    showChannel reader shows () (bare w) c =
      (showChannel reader shows () w c).map fun (e, w, rows) => (e, bare w, rows) := by
  unfold showChannel
  rcases reader.read () c with _ | ⟨e, _ | val⟩
  · rfl
  · rfl
  · dsimp only
    rw [hshows]
    cases shows w c val <;> rfl

theorem eachChannel_bare (cs : List ChannelId) (body : Unit → WatchState F → ChannelId →
      Option (Unit × WatchState F × List (ChannelValue F)))
    (hbody : ∀ w c, body () (bare w) c =
      (body () w c).map fun (e, w, rows) => (e, bare w, rows)) (w : WatchState F) :
    eachChannel body () (bare w) cs =
      (eachChannel body () w cs).map fun (e, w, rows) => (e, bare w, rows) := by
  induction cs generalizing w with
  | nil => rfl
  | cons c cs ih =>
    simp only [eachChannel, hbody]
    cases body () w c with
    | none => rfl
    | some p =>
      obtain ⟨⟨⟩, w₁, row⟩ := p
      simp only [Option.map_some, ih, Option.map_map]
      rfl

end Loops

variable {m : Moment Unit F} {s : Server Unit F}

theorem slots_modify (wid : String) (f : WatchMeta → WatchMeta) :
    slots given { c with watches := c.watches.modify wid f } t = slots given c t := by
  unfold slots
  refine List.map_congr_left fun id _ => ?_
  rw [Table.get_modify]
  split_ifs <;> simp

theorem unsubscribe_slots (h : Settled given c s.table) {ref : Ref} (href : ref.Foreign)
    (id : Option String) (ids : List ChannelId) (close : Bool) :
    let (c', s', reply) := unsubscribe c s id (resolve given ref) ids close
    (slots given c' s'.table, [relabel given reply]) =
      Slots.unsubscribe (slots given c s.table) id ref ids close := by
  unfold Slots.unsubscribe
  rw [h.lookup_slots href, h.held_slots href]
  unfold Ws.unsubscribe Server.watchUnsub watchUnsub
  cases hw : s.table.watches.get (resolve given ref) with
  | none => rfl
  | some w =>
    have hmem := h.mem_of_live href hw
    cases close with
    | true =>
      simp only [Option.map_some, if_true, relabel, Prod.mk.injEq, and_true]
      unfold slots
      rw [map_eq_set h.nodup hmem (f := fun id =>
        (⟨(s.table.watches.get id).map bare, (c.watches.get id).isSome⟩ : Slot F))]
      · simp
      · intro a ha
        rw [Table.get_erase_ne _ ha, Table.get_erase_ne _ ha]
    | false =>
      simp only [Option.map_some, Bool.false_eq_true, if_false, relabel, Prod.mk.injEq, and_true]
      rw [slots_modify, slots_insert h.nodup hmem]
      rfl

theorem live_slots (given : List String) (c : Connection) (t : WatchTable F) :
    Slots.live (slots given c t) = (given.filter fun id => (t.watches.get id).isSome).length := by
  unfold Slots.live slots
  rw [List.countP_map, List.countP_eq_length_filter]
  congr 2
  funext id
  simp

/-- The limit counts the watches of the client alone where it is not met, or where
    no one else has any. -/
theorem limit_slots (h : given.Nodup)
    (hroom : t.watches.size < maxWatches ∨ ∀ id, (t.watches.get id).isSome → id ∈ given) :
    maxWatches ≤ Slots.live (slots given c t) ↔ maxWatches ≤ t.watches.size := by
  rw [live_slots, ← List.toFinset_card_of_nodup (h.filter _)]
  have hsub : (given.filter fun id => (t.watches.get id).isSome).toFinset ⊆ t.watches.keys := by
    intro id hid
    simp only [List.mem_toFinset, List.mem_filter, Option.isSome_iff_exists] at hid
    exact (Table.mem_keys _ _).2 hid.2
  have hle := Finset.card_le_card hsub
  rcases hroom with hroom | hall
  · unfold Table.size at *
    omega
  · have hsup : t.watches.keys ⊆ (given.filter fun id => (t.watches.get id).isSome).toFinset := by
      intro id hid
      have hsome := Option.isSome_iff_exists.2 ((Table.mem_keys _ _).1 hid)
      simp [hall id hsome, hsome]
    rw [Finset.Subset.antisymm hsub hsup]
    rfl

theorem slots_hold (hnodup : given.Nodup) {wid : String} (hwid : wid ∈ given) (w : WatchState F)
    (counter : UInt64) (info : WatchMeta) :
    slots given { c with watches := c.watches.insert wid info }
        ⟨t.watches.insert wid w, counter⟩ =
      (slots given c t).set (given.idxOf wid) ⟨some (bare w), true⟩ := by
  unfold slots
  rw [map_eq_set hnodup hwid (f := fun id =>
    (⟨(t.watches.get id).map bare, (c.watches.get id).isSome⟩ : Slot F))]
  · simp
  · intro a ha
    rw [Table.get_insert_ne _ _ ha, Table.get_insert_ne _ _ ha]

theorem slots_grow {wid : String} (hwid : wid ∉ given) (w : WatchState F) (counter : UInt64)
    (info : WatchMeta) :
    slots (given ++ [wid]) { c with watches := c.watches.insert wid info }
        ⟨t.watches.insert wid w, counter⟩ =
      (slots given c t ++ [(⟨none, false⟩ : Slot F)]).set (slots given c t).length
        ⟨some (bare w), true⟩ := by
  rw [List.set_append_right _ _ (Nat.le_refl _), Nat.sub_self]
  unfold slots
  rw [List.map_append]
  congr 1
  · refine List.map_congr_left fun id hid => ?_
    have hne : id ≠ wid := fun heq => hwid (heq ▸ hid)
    rw [Table.get_insert_ne _ _ hne, Table.get_insert_ne _ _ hne]
  · simp

theorem subscribeChannel_bare {reader : ChannelReader Unit F} (w : WatchState F) (c : ChannelId) :
    subscribeChannel reader () (bare w) c =
      (subscribeChannel reader () w c).map fun (e, w, rows) => (e, bare w, rows) :=
  showChannel_bare (fun _ _ _ => rfl) { w with channels := pushChannel w.channels c } c

section Subscribe

variable (c : Connection) (commands : List WatchCmd) (id : Option String)
  (pollInterval : Option UInt64) {watchId dis : Option String} {ids : List ChannelId}

variable (watchId dis) in
theorem subscribe_tooMany (hlen : maxChannelsPerWatch < ids.length) :
    ∃ commands', Ws.subscribe m c ⟨(), t, commands⟩ id watchId dis ids pollInterval =
      some (c, ⟨(), t.expireStaleWatches m.now, commands'⟩,
        .error id (subscribeErrorCode (Slots.tooMany ids)) (Slots.tooMany ids)) := by
  unfold Ws.subscribe Server.watchSub watchSub
  rw [if_pos hlen]
  exact ⟨_, rfl⟩

variable (dis) in
theorem subscribe_full (hlen : ids.length ≤ maxChannelsPerWatch)
    (hfilter : (watchId.filter fun id => ((t.expireStaleWatches m.now).watches.get id).isSome) = none)
    (hfull : maxWatches ≤ (t.expireStaleWatches m.now).watches.size) :
    ∃ commands', Ws.subscribe m c ⟨(), t, commands⟩ id watchId dis ids pollInterval =
      some (c, ⟨(), t.expireStaleWatches m.now, commands'⟩,
        .error id (subscribeErrorCode Slots.full) Slots.full) := by
  have hresolved : (t.expireStaleWatches m.now).resolveWatch m.now watchId dis =
      .error Slots.full := by
    rw [resolveWatch, hfilter]
    exact if_pos hfull
  unfold Ws.subscribe Server.watchSub watchSub
  rw [if_neg (Nat.not_lt.2 hlen), hresolved]
  exact ⟨_, rfl⟩

theorem subscribe_resolved (hlen : ids.length ≤ maxChannelsPerWatch) {wid : String}
    {t₁ : WatchTable F} {w : WatchState F}
    (hwid : (t.expireStaleWatches m.now).resolveWatch m.now watchId dis = .ok (wid, t₁))
    (hw : t₁.watches.get wid = some w) :
    ∃ info commands', Ws.subscribe m c ⟨(), t, commands⟩ id watchId dis ids pollInterval =
      (eachChannel (subscribeChannel m.reader) () { w with lastActivity := m.now }
        (ids.filter (m.reader.present ()))).map fun (_, w, rows) =>
          ({ c with watches := c.watches.insert wid info },
            ⟨(), ⟨t₁.watches.insert wid w, t₁.watchCounter⟩, commands'⟩,
            .subscribed id wid 3600 (intervalMs pollInterval) rows) := by
  unfold Ws.subscribe Server.watchSub
  rw [watchSub_resolved hlen hwid hw, Option.map_map, Option.map_map]
  exact ⟨_, _, rfl⟩

end Subscribe

theorem subscribe_slots (commands : List WatchCmd) (h : Settled given c t) {watch : Option Ref}
    (hwatch : ∀ ref ∈ watch, ref.Foreign) (hfew : t.watchCounter.toNat + 1 < 2 ^ 64)
    (hroom : ((watch.map (resolve given)).filter fun id =>
        ((t.expireStaleWatches m.now).watches.get id).isSome) = none →
      (t.expireStaleWatches m.now).watches.size < maxWatches ∨
        ∀ id, ((t.expireStaleWatches m.now).watches.get id).isSome → id ∈ given)
    (id dis : Option String) (ids : List ChannelId) (pollInterval : Option UInt64) :
    ((Ws.subscribe m c ⟨(), t, commands⟩ id (watch.map (resolve given)) dis ids pollInterval).map
        fun (c', s', reply) =>
          (slots (learn given reply) c' s'.table, [relabel (learn given reply) reply])) =
      Slots.subscribe m (slots given c t) id watch ids pollInterval := by
  have hsettled := h.expire m.now
  have hloop := fun w => eachChannel_bare (ids.filter (m.reader.present ()))
    (subscribeChannel m.reader) subscribeChannel_bare w
  unfold Slots.subscribe Slots.fill
  dsimp only
  rw [← slots_expire, lookup_live hsettled watch hwatch]
  by_cases hlen : ids.length ≤ maxChannelsPerWatch
  · rw [if_neg (Nat.not_lt.2 hlen)]
    cases hfilter : (watch.map (resolve given)).filter fun id =>
        ((t.expireStaleWatches m.now).watches.get id).isSome with
    | some wid =>
      have hresolved : (t.expireStaleWatches m.now).resolveWatch m.now
          (watch.map (resolve given)) dis = .ok (wid, t.expireStaleWatches m.now) := by
        rw [resolveWatch, hfilter]
      obtain ⟨hname, hlive⟩ := Option.filter_eq_some_iff.1 hfilter
      obtain ⟨ref, href, rfl⟩ := Option.map_eq_some_iff.1 hname
      obtain ⟨w, hw⟩ := Option.isSome_iff_exists.1 hlive
      have hmem := hsettled.mem_of_live (hwatch ref href) hw
      obtain ⟨info, commands', hreply⟩ := subscribe_resolved c commands id pollInterval
        hlen hresolved hw
      rw [hreply, Option.bind_some, hw, Option.map_some]
      dsimp only
      change _ = (eachChannel _ () (bare { w with lastActivity := m.now }) _).map _
      rw [hloop, Option.map_map, Option.map_map]
      congr 1
      funext p
      simp only [Function.comp_apply, learn, if_pos hmem, slots_hold hsettled.nodup hmem, relabel]
    | none =>
      simp only [Option.bind_none, limit_slots hsettled.nodup (hroom hfilter)]
      by_cases hfull : maxWatches ≤ (t.expireStaleWatches m.now).watches.size
      · obtain ⟨commands', hreply⟩ := subscribe_full c commands id pollInterval dis hlen
          hfilter hfull
        rw [hreply, if_pos hfull]
        rfl
      · have hresolved : (t.expireStaleWatches m.now).resolveWatch m.now
            (watch.map (resolve given)) dis = .ok (watchName (t.watchCounter + 1),
              ⟨(t.expireStaleWatches m.now).watches.insert (watchName (t.watchCounter + 1))
                (created (watchName (t.watchCounter + 1)) dis m.now), t.watchCounter + 1⟩) := by
          rw [resolveWatch, hfilter]
          exact if_neg hfull
        obtain ⟨info, commands', hreply⟩ := subscribe_resolved c commands id pollInterval
          hlen hresolved (Table.get_insert_self _ _ _)
        have hnew : watchName (t.watchCounter + 1) ∉ given := fun hmem =>
          not_issued_next hfew (h.issued _ hmem)
        have hlast : (given ++ [watchName (t.watchCounter + 1)]).idxOf
            (watchName (t.watchCounter + 1)) =
            (slots given c (t.expireStaleWatches m.now)).length := by
          rw [List.idxOf_append_of_notMem hnew, List.idxOf_cons_self, slots, List.length_map]
          rfl
        rw [hreply, if_neg hfull]
        change _ = (eachChannel _ () (bare { created (watchName (t.watchCounter + 1)) dis m.now with
          lastActivity := m.now }) _).map _
        rw [hloop, Option.map_map, Option.map_map]
        congr 1
        funext p
        simp only [Function.comp_apply, learn, if_neg hnew, relabel, hlast, Table.insert_insert]
        rw [slots_grow hnew]
  · obtain ⟨commands', hreply⟩ := subscribe_tooMany (m := m) (t := t) c commands id pollInterval
      (watch.map (resolve given)) dis (Nat.not_le.1 hlen)
    rw [hreply, if_pos (Nat.not_le.1 hlen)]
    rfl

variable [FloatOps F]

theorem poll_slots (h : Settled given c s.table) {ref : Ref} (href : ref.Foreign)
    (refresh : Bool) :
    ((s.watchPoll m (resolve given ref) refresh).map fun (s', r) =>
        (slots given c s'.table, r.toOption.map fun resp => (given.idxOf resp.watchId, resp.rows))) =
      Slots.poll m (slots given c s.table) ref refresh := by
  unfold Slots.poll
  rw [h.lookup_slots href, h.held_slots href]
  unfold Server.watchPoll watchPoll
  cases hw : s.table.watches.get (resolve given ref) with
  | none => rfl
  | some w =>
    have hmem := h.mem_of_live href hw
    have hloop := eachChannel_bare w.channels (showChannel m.reader (changed refresh)) (fun w c =>
        showChannel_bare (fun w c val => rfl) w c) { w with lastActivity := m.now }
    simp only [Option.map_some]
    change _ = (eachChannel _ () (bare { w with lastActivity := m.now }) w.channels).map _
    rw [hloop]
    simp only [Option.map_map, Function.comp_def, Except.toOption]
    congr 1
    funext p
    rw [slots_insert h.nodup hmem]
    rfl

omit [FloatOps F] in
theorem get_foldl_unsub (ids : List String) (s : Server Unit F) (id : String) :
    ((ids.foldl (fun s wid => (s.watchUnsub wid true []).1) s).table.watches.get id =
        if id ∈ ids then none else s.table.watches.get id) ∧
      (ids.foldl (fun s wid => (s.watchUnsub wid true []).1) s).table.watchCounter =
        s.table.watchCounter := by
  induction ids generalizing s with
  | nil => exact ⟨rfl, rfl⟩
  | cons wid ids ih =>
    have hclose : (s.watchUnsub wid true []).1.table.watches.get id =
        (if id = wid then none else s.table.watches.get id) ∧
          (s.watchUnsub wid true []).1.table.watchCounter = s.table.watchCounter := by
      unfold Server.watchUnsub
      rcases watchUnsub_cases s.table wid true [] with ⟨hnone, h⟩ | ⟨w, hw, h⟩
      · rw [h]
        refine ⟨?_, rfl⟩
        split_ifs with heq
        · rw [heq]
          exact hnone
        · rfl
      · rw [h]
        exact ⟨Table.get_erase _ _ _, rfl⟩
    obtain ⟨hget, hcounter⟩ := ih (s.watchUnsub wid true []).1
    rw [List.foldl_cons, hget, hcounter, hclose.1, hclose.2]
    refine ⟨?_, rfl⟩
    by_cases hid : id = wid <;> by_cases hmem : id ∈ ids <;> simp [hid, hmem]

omit [FloatOps F] in
theorem get_cleanup (order : WatchOrder) (c : Connection) (s : Server Unit F) (id : String) :
    (cleanup order c s).table.watches.get id =
      if (c.watches.get id).isSome then none else s.table.watches.get id := by
  unfold cleanup
  rw [(get_foldl_unsub _ s id).1]
  have hmem : id ∈ order.walk c.watches ↔ (c.watches.get id).isSome := by
    rw [order.mem, Table.mem_keys, Option.isSome_iff_exists]
  simp only [hmem]

omit [FloatOps F] in
theorem counter_cleanup (order : WatchOrder) (c : Connection) (s : Server Unit F) :
    (cleanup order c s).table.watchCounter = s.table.watchCounter :=
  (get_foldl_unsub _ s "").2

omit [FloatOps F] in
theorem disconnect_slots (order : WatchOrder) :
    slots given { c with watches := Table.empty } (cleanup order c s).table =
      (slots given c s.table).map fun s => ⟨if s.held then none else s.watch, false⟩ := by
  unfold slots
  rw [List.map_map]
  refine List.map_congr_left fun id _ => ?_
  rw [get_cleanup]
  cases h : c.watches.get id <;> simp [h]

end Slots

def Request.refs : Request → List Ref
  | .subscribe _ watch _ _ _ => watch.toList
  | .unsubscribe _ watch _ _ => [watch]
  | .refresh _ watch => [watch]
  | .poll watch => [watch]
  | .disconnect => []

def Request.subscription : Request → Option (Option Ref)
  | .subscribe _ watch _ _ _ => some watch
  | _ => none

section Answer

variable {F : Type} [FloatOps F] {m : Moment Unit F} {order : WatchOrder} {given : List String}
  {c : Connection} {s : Server Unit F} {r : Request}

/-- A subscription makes a watch only where the limit does not count the watches of
    others. -/
def Room (given : List String) (t : WatchTable F) (now : Instant) (watch : Option Ref) : Prop :=
  let t := t.expireStaleWatches now
  ((watch.map (resolve given)).filter fun id => (t.watches.get id).isSome) = none →
    t.watches.size < maxWatches ∨ ∀ id, (t.watches.get id).isSome → id ∈ given

variable (order) in
theorem answer_slots (h : Settled given c s.table)
    (hfew : s.table.watchCounter.toNat + 1 < 2 ^ 64) (hrefs : ∀ ref ∈ r.refs, ref.Foreign)
    (hroom : ∀ watch ∈ r.subscription, Room given s.table m.now watch) :
    ((answer m order given c s r).map fun (c', s', replies) =>
        (slots (replies.foldl learn given) c' s'.table,
          replies.map (relabel (replies.foldl learn given)))) =
      Slots.ask m (slots given c s.table) r := by
  cases r with
  | subscribe id watch dis ids pollInterval =>
    have hlimit := hroom watch rfl
    obtain ⟨⟨⟩, t, commands⟩ := s
    have hwatch : ∀ ref ∈ watch, ref.Foreign := fun ref href => hrefs ref (Option.mem_toList.2 href)
    rw [Slots.ask, ← subscribe_slots commands h hwatch hfew hlimit id dis ids
      pollInterval, answer, Option.map_map]
    rfl
  | unsubscribe id watch ids close =>
    rw [Slots.ask, ← unsubscribe_slots h (hrefs watch List.mem_cons_self), answer, Option.map_some]
    unfold Ws.unsubscribe
    rcases s.watchUnsub (resolve given watch) close ids with ⟨s', _ | ⟨⟩⟩ <;> rfl
  | refresh id watch =>
    rw [Slots.ask, ← poll_slots h (hrefs watch List.mem_cons_self), answer, Ws.refresh]
    simp only [Option.map_map]
    congr 1
    funext p
    obtain ⟨s', _ | resp⟩ := p
    · rfl
    · rfl
  | poll watch =>
    have hheld := h.held_slots (hrefs watch List.mem_cons_self)
    rw [Slots.ask, ← poll_slots h (hrefs watch List.mem_cons_self), answer, hheld]
    cases hknown : c.watches.get (resolve given watch) with
    | none => rfl
    | some info =>
      simp only [Option.isNone_some, Option.isSome_some, Bool.false_eq_true, Bool.not_true, if_false,
        Option.map_map]
      congr 1
      funext p
      obtain ⟨s', _ | resp⟩ := p
      · simp [Connection.markPolled, slots_modify, Except.toOption]
      · simp only [Function.comp_apply, Connection.markPolled, slots_modify, Except.toOption,
          Option.map_some]
        split_ifs <;> rfl
  | disconnect =>
    rw [Slots.ask, ← disconnect_slots order]
    rfl

end Answer

end Sandstar.Ws
