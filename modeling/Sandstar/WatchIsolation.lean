import Sandstar.WatchSlots
import Sandstar.WsAuthentication

set_option autoImplicit false

namespace Sandstar.Ws
open Engine Runs Unwinding Watches WatchTable

section Effects

variable {F : Type} {refs given : List String} {c c' : Connection} {t t' : WatchTable F} {id : String}

def learnId (given : List String) (id : String) : List String :=
  if id ∈ given then given else given ++ [id]

structure Effect (refs given given' : List String) (c c' : Connection) (t t' : WatchTable F) :
    Prop where
  learned : (t'.watchCounter = t.watchCounter ∧ (given' = given ∨
      ∃ id ∈ refs, (t.watches.get id).isSome ∧ given' = learnId given id)) ∨
    (t'.watchCounter = t.watchCounter + 1 ∧ given' = learnId given (watchName t'.watchCounter))
  live : ∀ id, (t'.watches.get id).isSome → (t.watches.get id).isSome ∨
    (t'.watchCounter = t.watchCounter + 1 ∧ id = watchName t'.watchCounter)
  frame : ∀ id, id ∉ refs → c.watches.get id = none →
    ¬ (t'.watchCounter = t.watchCounter + 1 ∧ id = watchName t'.watchCounter) →
    t'.watches.get id = t.watches.get id
  known : ∀ id, (c'.watches.get id).isSome → (c.watches.get id).isSome ∨ id ∈ given'

theorem mem_learnId (given : List String) (id : String) : id ∈ learnId given id := by
  unfold learnId
  split_ifs with h
  · exact h
  · exact List.mem_append_right _ List.mem_cons_self

theorem Effect.replace (hid : id ∈ refs) {w w' : WatchState F} (hw : t.watches.get id = some w)
    (hc : ∀ id, (c'.watches.get id).isSome → (c.watches.get id).isSome) :
    Effect refs given given c c' t ⟨t.watches.insert id w', t.watchCounter⟩ where
  learned := Or.inl ⟨rfl, Or.inl rfl⟩
  live a ha := by
    rw [Table.get_insert] at ha
    split_ifs at ha with heq
    · left
      rw [heq, hw]
      rfl
    · exact Or.inl ha
  frame a ha _ _ := Table.get_insert_ne _ _ fun heq => ha (heq ▸ hid)
  known a ha := Or.inl (hc a ha)

theorem Effect.quiet
    (hc : ∀ id, (c'.watches.get id).isSome → (c.watches.get id).isSome) :
    Effect refs given given c c' t t :=
  ⟨Or.inl ⟨rfl, Or.inl rfl⟩, fun _ ha => Or.inl ha, fun _ _ _ _ => rfl, fun a ha => Or.inl (hc a ha)⟩

theorem Effect.close (hid : id ∈ refs) :
    Effect refs given given c { c with watches := c.watches.erase id } t
      ⟨t.watches.erase id, t.watchCounter⟩ where
  learned := Or.inl ⟨rfl, Or.inl rfl⟩
  live a ha := by
    rw [Table.get_erase] at ha
    split_ifs at ha
    · cases ha
    · exact Or.inl ha
  frame a ha _ _ := Table.get_erase_ne _ fun heq => ha (heq ▸ hid)
  known a ha := by
    rw [Table.get_erase] at ha
    split_ifs at ha
    · cases ha
    · exact Or.inl ha

theorem known_insert {a : String} {info : WatchMeta}
    (h : ((c.watches.insert id info).get a).isSome) :
    (c.watches.get a).isSome ∨ a ∈ learnId given id := by
  rw [Table.get_insert] at h
  split_ifs at h with heq
  · right
    rw [heq]
    exact mem_learnId given id
  · exact Or.inl h

theorem Effect.extend (hid : id ∈ refs) {w w' : WatchState F} (hw : t.watches.get id = some w)
    {info : WatchMeta} :
    Effect refs given (learnId given id) c { c with watches := c.watches.insert id info } t
      ⟨t.watches.insert id w', t.watchCounter⟩ where
  learned := Or.inl ⟨rfl, Or.inr ⟨id, hid, by rw [hw]; rfl, rfl⟩⟩
  live := (Effect.replace hid hw fun _ ha => ha : Effect refs given given c c t _).live
  frame := (Effect.replace hid hw fun _ ha => ha : Effect refs given given c c t _).frame
  known _ := known_insert

/-- The table that a request works on: a subscription drops the lapsed watches first. -/
def Request.before (r : Request) (now : Instant) (t : WatchTable F) : WatchTable F :=
  if r.subscription.isSome then t.expireStaleWatches now else t

theorem isSome_before {r : Request} {now : Instant} (h : ((r.before now t).watches.get id).isSome) :
    (t.watches.get id).isSome := by
  unfold Request.before at h
  split_ifs at h
  · rw [get_expireStaleWatches] at h
    obtain ⟨w, hw⟩ := Option.isSome_iff_exists.1 h
    rw [(Option.filter_eq_some_iff.1 hw).1]
    rfl
  · exact h

theorem counter_before (r : Request) (now : Instant) (t : WatchTable F) :
    (r.before now t).watchCounter = t.watchCounter := by
  unfold Request.before
  split_ifs <;> rfl

end Effects

section Answer

variable {F : Type} {m : Moment Unit F} {order : WatchOrder} {given : List String}
  {c c' : Connection} {s s' : Server Unit F} {r : Request} {replies : List (ServerMsg F)}

theorem isSome_modify {watches : Table String WatchMeta} {wid id : String} {f : WatchMeta → WatchMeta}
    (h : ((watches.modify wid f).get id).isSome) : (watches.get id).isSome := by
  rw [Table.get_modify] at h
  split_ifs at h <;> simpa using h

theorem unsubscribe_effect {refs : List String} {id : Option String} {wid : String}
    {ids : List ChannelId} {close : Bool} {reply : ServerMsg F} (hid : wid ∈ refs)
    (h : unsubscribe c s id wid ids close = (c', s', reply)) :
    learn given reply = given ∧ Effect refs given given c c' s.table s'.table := by
  unfold unsubscribe Server.watchUnsub at h
  rcases watchUnsub_cases s.table wid close ids with ⟨-, hu⟩ | ⟨w, hw, hu⟩
  · rw [hu] at h
    cases h
    exact ⟨rfl, Effect.quiet fun _ ha => ha⟩
  · rw [hu] at h
    cases close with
    | true =>
      cases h
      exact ⟨rfl, Effect.close hid⟩
    | false =>
      cases h
      exact ⟨rfl, Effect.replace hid hw fun _ => isSome_modify⟩

variable [FloatOps F]

theorem poll_effect {refs : List String} {id : String} {refresh : Bool}
    {res : Except String (WatchResponse F)} (hid : id ∈ refs)
    (h : s.watchPoll m id refresh = some (s', res))
    (hc : ∀ id, (c'.watches.get id).isSome → (c.watches.get id).isSome) :
    Effect refs given given c c' s.table s'.table := by
  obtain ⟨⟨e, t, r⟩, hpoll, heq⟩ := Option.map_eq_some_iff.1 h
  cases heq
  rcases watchPoll_cases hpoll with ⟨-, -, rfl, -⟩ | ⟨w, values, rows, hw, -, -, rfl, -⟩
  · exact Effect.quiet hc
  · exact Effect.replace hid hw hc

theorem answer_effect (h : answer m order given c s r = some (c', s', replies)) :
    Effect (r.refs.map (resolve given)) given (replies.foldl learn given) c c'
      (r.before m.now s.table) s'.table := by
  cases r with
  | subscribe id watch dis ids pollInterval =>
    obtain ⟨⟨c₁, s₁, reply⟩, hsub, heq⟩ := Option.map_eq_some_iff.1 h
    cases heq
    obtain ⟨⟨s₂, res⟩, hwatch, heq⟩ := Option.map_eq_some_iff.1 hsub
    obtain ⟨⟨e, t, r⟩, htable, heq'⟩ := Option.map_eq_some_iff.1 hwatch
    cases heq'
    rcases watchSub_cases htable with
      ⟨-, rfl, message, rfl⟩ | ⟨wid, t₁, w, values, rows, -, hwid, hw, -, -, -, rfl, rfl⟩
    · cases heq
      exact Effect.quiet fun _ ha => ha
    · cases heq
      rcases resolveWatch_cases hwid with ⟨hfilter, rfl⟩ | ⟨-, -, rfl, rfl⟩
      · obtain ⟨hname, hlive⟩ := Option.filter_eq_some_iff.1 hfilter
        obtain ⟨ref, href, rfl⟩ := Option.map_eq_some_iff.1 hname
        have hmem := List.mem_map_of_mem (f := resolve given) (Option.mem_toList.2 href)
        exact Effect.extend hmem hw
      · refine ⟨Or.inr ⟨rfl, rfl⟩, fun a ha => ?_, fun a _ _ hnew => ?_, fun a ha => ?_⟩
        · rw [Table.insert_insert, Table.get_insert] at ha
          split_ifs at ha with heq
          · exact Or.inr ⟨rfl, heq⟩
          · exact Or.inl ha
        · rw [Table.insert_insert]
          exact Table.get_insert_ne _ _ fun heq => hnew ⟨rfl, heq⟩
        · exact known_insert ha
  | unsubscribe id watch ids close =>
    obtain ⟨c₁, s₁, reply, hunsub⟩ : ∃ c₁ s₁ reply,
      unsubscribe c s id (resolve given watch) ids close = (c₁, s₁, reply) := ⟨_, _, _, rfl⟩
    have heq : some (c₁, s₁, [reply]) = some (c', s', replies) := by
      rw [← h, answer, hunsub]
    cases heq
    obtain ⟨hreply, heffect⟩ : learn given reply = given ∧
        Effect [resolve given watch] given given c c' s.table s'.table :=
      unsubscribe_effect List.mem_cons_self hunsub
    rw [List.foldl_cons, List.foldl_nil, hreply]
    exact heffect
  | refresh id watch =>
    obtain ⟨⟨c₁, s₁, reply⟩, hsub, heq⟩ := Option.map_eq_some_iff.1 h
    cases heq
    obtain ⟨⟨s₂, res⟩, hpoll, heq⟩ := Option.map_eq_some_iff.1 hsub
    cases res <;> cases heq <;> exact poll_effect List.mem_cons_self hpoll fun _ ha => ha
  | poll watch =>
    unfold answer at h
    dsimp only at h
    split_ifs at h with hnone
    · cases h
      exact Effect.quiet fun _ ha => ha
    · obtain ⟨⟨s₂, res⟩, hpoll, heq⟩ := Option.map_eq_some_iff.1 h
      cases res with
      | error e =>
        cases heq
        exact poll_effect List.mem_cons_self hpoll fun _ => isSome_modify
      | ok resp =>
        cases heq
        have hgiven : (if resp.rows.isEmpty then []
            else [ServerMsg.update resp.watchId m.timestamp resp.rows]).foldl learn given = given := by
          split_ifs <;> rfl
        rw [hgiven]
        exact poll_effect List.mem_cons_self hpoll fun _ => isSome_modify
  | disconnect =>
    cases h
    refine ⟨Or.inl ⟨counter_cleanup order c s, Or.inl rfl⟩, fun id hid => ?_, fun id _ hnone _ => ?_,
      fun id hid => ?_⟩
    · rw [get_cleanup] at hid
      split_ifs at hid
      · cases hid
      · exact Or.inl hid
    · rw [get_cleanup, hnone]
      rfl
    · simp at hid

end Answer

def Ref.Avoids (ids : List String) : Ref → Prop
  | .own _ => True
  | .named id => id ∉ ids

section Hub

variable {C F : Type} {client other : C} {hub hub' : Hub C F}

structure Apart (client : C) (h : Hub C F) : Prop where
  nodup : (h.given client).Nodup
  issued : ∀ other, ∀ id ∈ h.given other, Issued h.server.table.watchCounter id
  live : ∀ id, (h.server.table.watches.get id).isSome → Issued h.server.table.watchCounter id
  known : ∀ other id, ((h.conns other).watches.get id).isSome → id ∈ h.given other
  apart : ∀ other, other ≠ client → ∀ id ∈ h.given other, id ∉ h.given client

theorem Apart.settled (h : Apart client hub) :
    Settled (hub.given client) (hub.conns client) hub.server.table :=
  ⟨h.nodup, h.issued client, h.live, h.known client⟩

theorem apart_new (client : C) : Apart client (Hub.new : Hub C F) where
  nodup := List.nodup_nil
  issued _ _ h := by cases h
  live _ h := by cases h
  known _ _ h := by cases h
  apart _ _ _ h := by cases h

theorem Apart.expire (h : Apart client hub) (now : Instant) :
    Apart client { hub with
      server := { hub.server with table := hub.server.table.expireStaleWatches now } } :=
  ⟨h.nodup, h.issued, (h.settled.expire now).live, h.known, h.apart⟩

theorem Apart.resolve (h : Apart client hub) (hother : other ≠ client) {ref : Ref}
    (href : ref.Avoids (hub.given client)) : resolve (hub.given other) ref ∉ hub.given client := by
  cases ref with
  | own k =>
    rcases resolve_cases (hub.given other) k with hmem | ⟨-, hempty⟩
    · exact h.apart other hother _ hmem
    · rw [hempty]
      exact fun hmem => not_issued_empty _ (h.issued client "" hmem)
  | named id => exact href

theorem nodup_learnId {given : List String} (h : given.Nodup) (id : String) :
    (learnId given id).Nodup := by
  unfold learnId
  split_ifs with hid
  · exact h
  · exact List.nodup_append'.2 ⟨h, List.nodup_singleton id, by simpa using hid⟩

theorem mem_learnId_of_mem {given : List String} {a : String} (h : a ∈ given) (id : String) :
    a ∈ learnId given id := by
  unfold learnId
  split_ifs
  · exact h
  · exact List.mem_append_left _ h

theorem eq_or_eq_of_mem_learnId {given : List String} {a id : String} (h : a ∈ learnId given id) :
    a ∈ given ∨ a = id := by
  unfold learnId at h
  split_ifs at h
  · exact Or.inl h
  · simpa using h

def Hub.Effect (h : Hub C F) (other : C) (now : Instant) (r : Request) (c' : Connection)
    (given' : List String) (s' : Server Unit F) : Prop :=
  Ws.Effect (r.refs.map (resolve (h.given other))) (h.given other) given' (h.conns other) c'
    (r.before now h.server.table) s'.table

variable {now : Instant} {r : Request} {given' : List String} {c' : Connection} {s' : Server Unit F}

theorem Hub.Effect.issued (he : hub.Effect other now r c' given' s')
    (hfew : hub.server.table.watchCounter.toNat + 1 < 2 ^ 64) {id : String}
    (hid : Issued hub.server.table.watchCounter id) : Issued s'.table.watchCounter id := by
  have hcounter := counter_before r now hub.server.table
  rcases he.learned with ⟨heq, -⟩ | ⟨heq, -⟩
  · rw [heq, hcounter]
    exact hid
  · rw [heq, hcounter]
    exact hid.succ hfew

theorem Hub.Effect.issued_live (he : hub.Effect other now r c' given' s') (h : Apart client hub)
    (hfew : hub.server.table.watchCounter.toNat + 1 < 2 ^ 64) {id : String}
    (hid : (s'.table.watches.get id).isSome) : Issued s'.table.watchCounter id := by
  rcases he.live id hid with hold | ⟨hnew, rfl⟩
  · exact he.issued hfew (h.live id (isSome_before hold))
  · rw [hnew, counter_before]
    exact issued_next hfew

theorem Hub.Effect.mem_given (he : hub.Effect other now r c' given' s') {id : String}
    (hid : id ∈ given') : id ∈ hub.given other ∨
      ((hub.server.table.watches.get id).isSome ∧ ∃ ref ∈ r.refs, resolve (hub.given other) ref = id) ∨
      (s'.table.watchCounter = hub.server.table.watchCounter + 1 ∧
        id = watchName s'.table.watchCounter) := by
  rcases he.learned with ⟨-, rfl | ⟨a, ha, hlive, rfl⟩⟩ | ⟨hnew, rfl⟩
  · exact Or.inl hid
  · rcases eq_or_eq_of_mem_learnId hid with hold | rfl
    · exact Or.inl hold
    · obtain ⟨ref, href, heq⟩ := List.mem_map.1 ha
      exact Or.inr (Or.inl ⟨isSome_before hlive, ref, href, heq⟩)
  · rw [counter_before] at hnew
    rcases eq_or_eq_of_mem_learnId hid with hold | rfl
    · exact Or.inl hold
    · exact Or.inr (Or.inr ⟨hnew, rfl⟩)

theorem Hub.Effect.given_client (he : hub.Effect client now r c' given' s') (h : Apart client hub)
    (hrefs : ∀ ref ∈ r.refs, ref.Foreign) {id : String} (hid : id ∈ given') :
    id ∈ hub.given client ∨ (s'.table.watchCounter = hub.server.table.watchCounter + 1 ∧
      id = watchName s'.table.watchCounter) := by
  rcases he.mem_given hid with hold | ⟨hlive, ref, href, rfl⟩ | hnew
  · exact Or.inl hold
  · obtain ⟨w, hw⟩ := Option.isSome_iff_exists.1 hlive
    exact Or.inl (h.settled.mem_of_live (hrefs ref href) hw)
  · exact Or.inr hnew

theorem Hub.Effect.nodup (he : hub.Effect other now r c' given' s') (h : (hub.given other).Nodup) :
    given'.Nodup := by
  rcases he.learned with ⟨-, rfl | ⟨a, -, -, rfl⟩⟩ | ⟨-, rfl⟩
  · exact h
  · exact nodup_learnId h a
  · exact nodup_learnId h _

theorem Hub.Effect.mem_of_mem (he : hub.Effect other now r c' given' s') {id : String}
    (hid : id ∈ hub.given other) : id ∈ given' := by
  rcases he.learned with ⟨-, rfl | ⟨a, -, -, rfl⟩⟩ | ⟨-, rfl⟩
  · exact hid
  · exact mem_learnId_of_mem hid a
  · exact mem_learnId_of_mem hid _

theorem not_issued_new {id : String} (hfew : hub.server.table.watchCounter.toNat + 1 < 2 ^ 64)
    (hnew : s'.table.watchCounter = hub.server.table.watchCounter + 1)
    (hid : Issued hub.server.table.watchCounter id) : id ≠ watchName s'.table.watchCounter := by
  rintro rfl
  rw [hnew] at hid
  exact not_issued_next hfew hid

structure Alone (client : C) (h : Hub C F) : Prop where
  counter : h.server.table.watchCounter.toNat = (h.given client).length
  own : ∀ id, (h.server.table.watches.get id).isSome → id ∈ h.given client

theorem Alone.expire (ha : Alone client hub) (now : Instant) :
    Alone client { hub with
      server := { hub.server with table := hub.server.table.expireStaleWatches now } } := by
  refine ⟨ha.counter, fun id hid => ha.own id ?_⟩
  have hbefore : ((Request.before (.subscribe none none none [] none) now hub.server.table).watches.get
    id).isSome := hid
  exact isSome_before hbefore

theorem Apart.length_given_le (h : Apart client hub) :
    (hub.given client).length ≤ hub.server.table.watchCounter.toNat := by
  have hsub := List.subperm_of_subset h.nodup (h.issued client)
  exact hsub.length_le.trans_eq (by simp [Watches.names])

theorem Apart.watch (h : Apart client hub) (k : ℕ) :
    hub.watch client k = ((hub.slots client)[k]?).bind Slot.watch := by
  have hresolve : Ws.resolve (hub.given client) (.own k) = ((hub.given client)[k]?).getD "" := rfl
  rw [Hub.watch, hresolve, Hub.slots, slots, List.getElem?_map]
  cases (hub.given client)[k]? with
  | none => rw [Option.getD_none, h.settled.get_empty, Option.map_none, Option.map_none, Option.bind_none]
  | some id => rfl

structure Alike (client : C) (hub hub' : Hub C F) : Prop where
  apart : Apart client hub
  apart' : Apart client hub'
  alone : Alone client hub'
  slots : hub.slots client = hub'.slots client

theorem alike_new (client : C) : Alike client (Hub.new : Hub C F) Hub.new :=
  ⟨apart_new client, apart_new client, ⟨rfl, fun _ h => by cases h⟩, rfl⟩

theorem Alike.length_given (h : Alike client hub hub') :
    (hub.given client).length = (hub'.given client).length := by
  have hlength := congrArg List.length h.slots
  simpa [Hub.slots, Ws.slots] using hlength

variable [DecidableEq C]

/-- Nobody names a watch it was not given, nobody else subscribes while a watch of the
    client is past its lease, and the client finds room and an id for what it makes. -/
def Considerate (client : C) (h : Hub C F) : Event C → Prop
  | .sweep _ => True
  | .request other now _ r =>
    h.server.table.watchCounter.toNat + 1 < 2 ^ 64 ∧
      if other = client then
        (∀ ref ∈ r.refs, ref.Foreign) ∧
          ∀ watch ∈ r.subscription, Room (h.given client) h.server.table now watch
      else
        (∀ ref ∈ r.refs, ref.Avoids (h.given client)) ∧
          (r.subscription.isSome → ∀ id ∈ h.given client, ∀ w,
            h.server.table.watches.get id = some w → stale now w = false)

def Hub.answered (h : Hub C F) (other : C) (c' : Connection) (given' : List String)
    (s' : Server Unit F) : Hub C F :=
  ⟨Function.update h.conns other c', Function.update h.given other given', s'⟩

variable {timestamp : String}

theorem considerate_own (hfew : hub.server.table.watchCounter.toNat + 1 < 2 ^ 64)
    (hrefs : ∀ ref ∈ r.refs, ref.Foreign)
    (hroom : ∀ watch ∈ r.subscription, Room (hub.given client) hub.server.table now watch) :
    Considerate client hub (.request client now timestamp r) :=
  ⟨hfew, by rw [if_pos rfl]; exact ⟨hrefs, hroom⟩⟩

theorem considerate_other (hother : other ≠ client)
    (hfew : hub.server.table.watchCounter.toNat + 1 < 2 ^ 64)
    (hrefs : ∀ ref ∈ r.refs, ref.Avoids (hub.given client))
    (hfresh : r.subscription.isSome → ∀ id ∈ hub.given client, ∀ w,
      hub.server.table.watches.get id = some w → stale now w = false) :
    Considerate client hub (.request other now timestamp r) :=
  ⟨hfew, by rw [if_neg hother]; exact ⟨hrefs, hfresh⟩⟩

theorem Considerate.foreign (h : Considerate client hub (.request client now timestamp r)) :
    ∀ ref ∈ r.refs, ref.Foreign := by
  have hcond := h.2
  rw [if_pos rfl] at hcond
  exact hcond.1

theorem Considerate.room (h : Considerate client hub (.request client now timestamp r)) :
    ∀ watch ∈ r.subscription, Room (hub.given client) hub.server.table now watch := by
  have hcond := h.2
  rw [if_pos rfl] at hcond
  exact hcond.2

theorem Considerate.refs (h : Considerate client hub (.request other now timestamp r)) :
    if other = client then ∀ ref ∈ r.refs, ref.Foreign
      else ∀ ref ∈ r.refs, ref.Avoids (hub.given client) := by
  have hcond := h.2
  split_ifs at hcond ⊢
  · exact hcond.1
  · exact hcond.1

theorem Apart.answered (h : Apart client hub)
    (hfew : hub.server.table.watchCounter.toNat + 1 < 2 ^ 64)
    (hrefs : if other = client then ∀ ref ∈ r.refs, ref.Foreign
      else ∀ ref ∈ r.refs, ref.Avoids (hub.given client))
    (he : hub.Effect other now r c' given' s') :
    Apart client (hub.answered other c' given' s') where
  nodup := by
    unfold Hub.answered
    dsimp only
    rw [Function.update_apply]
    split_ifs with heq
    · exact he.nodup (heq ▸ h.nodup)
    · exact h.nodup
  issued X id hid := by
    unfold Hub.answered at hid ⊢
    dsimp only at hid ⊢
    rw [Function.update_apply] at hid
    split_ifs at hid
    · rcases he.mem_given hid with hold | ⟨hlive, -⟩ | ⟨hnew, rfl⟩
      · exact he.issued hfew (h.issued other id hold)
      · exact he.issued hfew (h.live id hlive)
      · rw [hnew]
        exact issued_next hfew
    · exact he.issued hfew (h.issued X id hid)
  live id hid := he.issued_live h hfew hid
  known X id hid := by
    unfold Hub.answered at hid ⊢
    dsimp only at hid ⊢
    rw [Function.update_apply] at hid ⊢
    split_ifs at hid ⊢
    · rcases he.known id hid with hold | hmem
      · exact he.mem_of_mem (h.known other id hold)
      · exact hmem
    · exact h.known X id hid
  apart X hX id hid := by
    unfold Hub.answered at hid ⊢
    dsimp only at hid ⊢
    rw [Function.update_apply] at hid ⊢
    by_cases hother : other = client
    · subst hother
      rw [if_neg hX] at hid
      rw [if_pos rfl] at hrefs ⊢
      intro hmem
      rcases he.given_client h hrefs hmem with hold | ⟨hnew, heq⟩
      · exact h.apart X hX id hid hold
      · exact not_issued_new hfew hnew (h.issued X id hid) heq
    · rw [if_neg hother] at hrefs
      rw [if_neg (Ne.symm hother)]
      split_ifs at hid with heq
      · rcases he.mem_given hid with hold | ⟨-, ref, href, rfl⟩ | ⟨hnew, rfl⟩
        · exact h.apart other hother id hold
        · exact h.resolve hother (hrefs ref href)
        · exact fun hmem => not_issued_new hfew hnew (h.issued client _ hmem) rfl
      · exact h.apart X hX id hid

theorem Apart.slots_answered (h : Apart client hub) (hother : other ≠ client)
    (hfew : hub.server.table.watchCounter.toNat + 1 < 2 ^ 64)
    (hrefs : ∀ ref ∈ r.refs, ref.Avoids (hub.given client))
    (hfresh : r.subscription.isSome → ∀ id ∈ hub.given client, ∀ w,
      hub.server.table.watches.get id = some w → stale now w = false)
    (he : hub.Effect other now r c' given' s') :
    (hub.answered other c' given' s').slots client = hub.slots client := by
  have hother' := Ne.symm hother
  simp only [Hub.slots, Hub.answered, Function.update_of_ne hother']
  unfold slots
  refine List.map_congr_left fun id hid => ?_
  have hframe : s'.table.watches.get id = (r.before now hub.server.table).watches.get id := by
    refine he.frame id (fun hmem => ?_) ?_ ?_
    · obtain ⟨ref, href, rfl⟩ := List.mem_map.1 hmem
      exact h.resolve hother (hrefs ref href) hid
    · by_contra hne
      exact h.apart other hother id (h.known other id (Option.isSome_iff_ne_none.2 hne)) hid
    · rintro ⟨hnew, rfl⟩
      rw [counter_before] at hnew
      exact not_issued_new hfew hnew (h.issued client _ hid) rfl
  have hbefore : (r.before now hub.server.table).watches.get id =
      hub.server.table.watches.get id := by
    unfold Request.before
    split_ifs with hsub
    · rw [get_expireStaleWatches]
      cases hw : hub.server.table.watches.get id with
      | none => rfl
      | some w => simp [Option.filter_some, hfresh hsub id hid w hw]
    · rfl
  rw [hframe, hbefore]

theorem Alone.answered (ha : Alone client hub) (h : Apart client hub)
    (hfew : hub.server.table.watchCounter.toNat + 1 < 2 ^ 64)
    (he : hub.Effect client now r c' given' s') :
    Alone client (hub.answered client c' given' s') := by
  have hlearn : ∀ id, id ∈ hub.given client → learnId (hub.given client) id = hub.given client :=
    fun id hid => if_pos hid
  have hgiven : s'.table.watchCounter.toNat = given'.length := by
    rcases he.learned with ⟨hsame, rfl | ⟨a, -, hlive, rfl⟩⟩ | ⟨hnew, rfl⟩
    · rw [hsame, counter_before, ha.counter]
    · rw [hsame, counter_before, ha.counter, hlearn a (ha.own a (isSome_before hlive))]
    · rw [counter_before] at hnew
      have hfresh : watchName s'.table.watchCounter ∉ hub.given client := fun hid =>
        not_issued_new hfew hnew (h.issued client _ hid) rfl
      rw [learnId, if_neg hfresh, List.length_append, ← ha.counter, hnew, toNat_succ hfew]
      rfl
  refine ⟨?_, fun id hid => ?_⟩
  · simp only [Hub.answered, Function.update_self, hgiven]
  · simp only [Hub.answered, Function.update_self]
    rcases he.live id hid with hold | ⟨hnew, rfl⟩
    · exact he.mem_of_mem (ha.own id (isSome_before hold))
    · rcases he.learned with ⟨hsame, -⟩ | ⟨-, rfl⟩
      · rw [hsame] at hnew
        simp at hnew
      · exact mem_learnId _ _

section Step

variable [FloatOps F] {readings : Readings F} {order : WatchOrder}
  {e : Event C} {es : List (Event C)}

theorem step_none (h : answer ⟨now, timestamp, readerAt readings now⟩ order (hub.given other)
      (hub.conns other) hub.server r = none) :
    Hub.step readings order hub (.request other now timestamp r) = (hub, []) := by
  rw [Hub.step, h]

theorem step_some {replies : List (ServerMsg F)}
    (h : answer ⟨now, timestamp, readerAt readings now⟩ order (hub.given other)
      (hub.conns other) hub.server r = some (c', s', replies)) :
    Hub.step readings order hub (.request other now timestamp r) =
      (hub.answered other c' (replies.foldl learn (hub.given other)) s',
        replies.map (relabel (replies.foldl learn (hub.given other)))) := by
  rw [Hub.step, h]
  rfl

theorem Apart.step (h : Apart client hub) (hok : Considerate client hub e) :
    Apart client (advance (Hub.step readings order) hub e) := by
  cases e with
  | sweep now => exact h.expire now
  | request other now timestamp r =>
    unfold advance
    cases hans : answer ⟨now, timestamp, readerAt readings now⟩ order (hub.given other)
        (hub.conns other) hub.server r with
    | none => rwa [step_none hans]
    | some p =>
      obtain ⟨c', s', replies⟩ := p
      rw [step_some hans]
      exact h.answered hok.1 hok.refs (answer_effect hans)

theorem Apart.slots_hidden (h : Apart client hub) (hok : Considerate client hub e)
    (he : concerns client e = false) :
    (advance (Hub.step readings order) hub e).slots client = hub.slots client := by
  cases e with
  | sweep now => cases he
  | request other now timestamp r =>
    have hother : other ≠ client := by simpa [concerns] using he
    obtain ⟨hfew, hcond⟩ := hok
    rw [if_neg hother] at hcond
    unfold advance
    cases hans : answer ⟨now, timestamp, readerAt readings now⟩ order (hub.given other)
        (hub.conns other) hub.server r with
    | none => rw [step_none hans]
    | some p =>
      obtain ⟨c', s', replies⟩ := p
      rw [step_some hans]
      exact h.slots_answered hother hfew hcond.1 hcond.2 (answer_effect hans)

variable (readings order) in
/-- What the client sees of its own requests and of the timer is what its watches
    alone would show. -/
theorem Apart.slots_shown (h : Apart client hub) (hok : Considerate client hub e)
    (he : concerns client e = true) :
    ((advance (Hub.step readings order) hub e).slots client, (Hub.step readings order hub e).2) =
      Slots.step readings (hub.slots client) e := by
  cases e with
  | sweep now =>
    rw [Slots.step]
    exact congrArg (·, []) (slots_expire now)
  | request other now timestamp r =>
    have hother : other = client := by simpa [concerns] using he
    subst hother
    have hask := answer_slots (m := ⟨now, timestamp, readerAt readings now⟩) order
      h.settled hok.1 hok.foreign hok.room
    unfold advance
    change _ = (Slots.ask _ (slots (hub.given other) (hub.conns other) hub.server.table) r).getD
      (hub.slots other, [])
    rw [← hask]
    cases hans : answer ⟨now, timestamp, readerAt readings now⟩ order (hub.given other)
        (hub.conns other) hub.server r with
    | none =>
      rw [step_none hans]
      rfl
    | some p =>
      obtain ⟨c', s', replies⟩ := p
      rw [step_some hans]
      simp [Hub.slots, Hub.answered]

theorem Alone.step (ha : Alone client hub) (h : Apart client hub) (hok : Considerate client hub e)
    (he : concerns client e = true) : Alone client (advance (Hub.step readings order) hub e) := by
  cases e with
  | sweep now => exact ha.expire now
  | request other now timestamp r =>
    have hother : other = client := by simpa [concerns] using he
    subst hother
    unfold advance
    cases hans : answer ⟨now, timestamp, readerAt readings now⟩ order (hub.given other)
        (hub.conns other) hub.server r with
    | none => rwa [step_none hans]
    | some p =>
      obtain ⟨c', s', replies⟩ := p
      rw [step_some hans]
      exact ha.answered h hok.1 (answer_effect hans)

omit [FloatOps F] in
theorem Alike.considerate (h : Alike client hub hub') (hok : Considerate client hub e)
    (he : concerns client e = true) : Considerate client hub' e := by
  cases e with
  | sweep now => trivial
  | request other now timestamp r =>
    have hother : other = client := by simpa [concerns] using he
    subst hother
    have hfew := h.apart.length_given_le
    refine ⟨?_, ?_⟩
    · have hmany := hok.1
      rw [h.alone.counter, ← h.length_given]
      omega
    · rw [if_pos rfl]
      exact ⟨hok.foreign, fun watch _ _ => Or.inr (h.alone.expire now).own⟩

theorem unwinds (client : C) :
    Unwinds (Hub.step readings order) (concerns client) (Alike (F := F) client)
      (Considerate client) where
  hidden hub hub' e h hok he :=
    ⟨h.apart.step hok, h.apart', h.alone, (h.apart.slots_hidden hok he).trans h.slots⟩
  shown hub hub' e h hok he := by
    have hok' := h.considerate hok he
    have hshown := h.apart.slots_shown readings order hok he
    rw [h.slots, ← h.apart'.slots_shown readings order hok' he] at hshown
    obtain ⟨hslots, hreplies⟩ := Prod.mk.inj hshown
    exact ⟨⟨h.apart.step hok, h.apart'.step hok', h.alone.step h.apart' hok' he, hslots⟩, hreplies⟩

/-- A client among considerate others sees what it would see alone. -/
theorem isolated_of_considerate
    (hok : Along (advance (Hub.step readings order)) (Considerate client) Hub.new es) :
    Isolated readings order client es where
  seen := (unwinds client).outputs_eq (alike_new client) hok
  kept k := by
    have h := (unwinds client).run_related (alike_new client) hok
    rw [h.apart.watch, h.apart'.watch, h.slots]

end Step

end Hub

section Example

def steady : Readings ℚ := fun _ c => some (.ok ⟨c, "Ok", 1, 1⟩)

def takeover : List (Event Bool) :=
  [.request false 0 "" (.subscribe none none none [5] none),
    .request true 0 "" (.unsubscribe none (.named "w-1") [] true),
    .request false 0 "" (.refresh none (.own 0))]

/-- The watch is gone for the client that made it. -/
theorem takeover_not_isolated :
    ¬ ∀ es : List (Event Bool), Isolated steady (.ascending String WatchMeta) false es := by
  intro hall
  have hseen := (hall takeover).seen
  have hfull : outputs (Hub.step steady (.ascending String WatchMeta)) (concerns false) Hub.new takeover =
      [[.subscribed none "0" 3600 1000 [⟨5, "Ok", 1, 1⟩]], [.error none "WATCH_NOT_FOUND" ""]] := rfl
  have hsolo : outputs (Hub.step steady (.ascending String WatchMeta)) (concerns false) Hub.new
      (takeover.filter (concerns false)) =
      [[.subscribed none "0" 3600 1000 [⟨5, "Ok", 1, 1⟩]],
        [.snapshot none "0" "" [⟨5, "Ok", 1, 1⟩]]] := rfl
  rw [hfull, hsolo] at hseen
  exact absurd hseen (by decide)

def neighbours : List (Event Bool) :=
  [.request false 0 "" (.subscribe none none none [5] none),
    .request true 0 "" (.subscribe none none none [5] none),
    .request false 0 "" (.poll (.own 0)),
    .request true 0 "" .disconnect,
    .request false 0 "" (.refresh none (.own 0))]

theorem neighbours_isolated : Isolated steady (.ascending String WatchMeta) false neighbours := by
  apply isolated_of_considerate
  refine ⟨considerate_own (by decide) (by simp [Request.refs]) ?_,
    considerate_other (by decide) (by decide) (by simp [Request.refs]) ?_,
    considerate_own (by decide +kernel) (by simp [Request.refs, Ref.Foreign])
      (by simp [Request.subscription]),
    considerate_other (by decide) (by decide +kernel) (by simp [Request.refs])
      (by simp [Request.subscription]),
    considerate_own (by decide +kernel) (by simp [Request.refs, Ref.Foreign])
      (by simp [Request.subscription]),
    trivial⟩
  · intro watch hwatch _
    exact Or.inl (by decide)
  · intro _ id _ w _
    simp [stale]

end Example

end Sandstar.Ws
