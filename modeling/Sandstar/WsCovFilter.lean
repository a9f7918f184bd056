import Sandstar.Runs
import Sandstar.WsConnections

set_option autoImplicit false

/-!
# The change filter of a connection and the watches of the engine

A connection keeps the ids it subscribed to beside each watch, to tell which change
events concern it. A subscription to a watch it already has replaces them by the new
ids, while the engine adds the new channels to the old ones.
-/
namespace Sandstar.Ws
open Auth Engine Runs Watches WatchTable

variable {E F : Type}

def Agrees (present : ChannelId → Bool) (watches : Table String WatchMeta) (t : WatchTable F) :
    Prop :=
  ∀ id info, watches.get id = some info → ∃ w, t.watches.get id = some w ∧
    ∀ a, a ∈ w.channels ↔ present a = true ∧ a ∈ info.subscribedIds

structure Mirrored (present : ChannelId → Bool) (watches : Table String WatchMeta)
    (t : WatchTable F) : Prop where
  agrees : Agrees present watches t
  marked : ∀ id w a, t.watches.get id = some w → (watches.get id).isSome → a ∈ w.channels →
    ((applyCovEvent watches a).get id).any (·.covPending)

theorem mirrored_iff {present : ChannelId → Bool} {watches : Table String WatchMeta}
    {t : WatchTable F} : Mirrored present watches t ↔ Agrees present watches t := by
  refine ⟨Mirrored.agrees, fun h => ⟨h, fun id w a hw hinfo ha => ?_⟩⟩
  obtain ⟨info, hinfo⟩ := Option.isSome_iff_exists.1 hinfo
  obtain ⟨w', hw', hchannels⟩ := h id info hinfo
  cases hw.symm.trans hw'
  simp [applyCovEvent, Table.get_mapValues, hinfo, ((hchannels a).1 ha).2]

/-- Only the ids beside a watch and its channels matter. -/
theorem Agrees.frame {present : ChannelId → Bool} {watches watches' : Table String WatchMeta}
    {t t' : WatchTable F} (h : Agrees present watches t)
    (hwatches : ∀ id, (watches'.get id).map (·.subscribedIds) =
      (watches.get id).map (·.subscribedIds))
    (ht : ∀ id, (t'.watches.get id).map (·.channels) = (t.watches.get id).map (·.channels)) :
    Agrees present watches' t' := by
  intro id info hinfo
  have hids := hwatches id
  rw [hinfo, Option.map_some] at hids
  obtain ⟨info₀, hinfo₀, hids⟩ := Option.map_eq_some_iff.1 hids.symm
  obtain ⟨w₀, hw₀, hchannels⟩ := h id info₀ hinfo₀
  have hw := ht id
  rw [hw₀, Option.map_some] at hw
  obtain ⟨w, hw, hsame⟩ := Option.map_eq_some_iff.1 hw
  refine ⟨w, hw, fun a => ?_⟩
  rw [hsame, ← hids]
  exact hchannels a

def target (t : WatchTable F) (watchId : Option String) : String :=
  (watchId.filter fun id => (t.watches.get id).isSome).getD (watchName (t.watchCounter + 1))

/-- The other watches of the connection outlive the sweep at `now`, and the ids list
    every channel of a watch that is extended. -/
def Complete (watches : Table String WatchMeta) (t : WatchTable F) (now : Instant)
    (watchId : Option String) (ids : List ChannelId) : Prop :=
  let swept := t.expireStaleWatches now
  (∀ id, (watches.get id).isSome → id ≠ target swept watchId → (swept.watches.get id).isSome) ∧
    ∀ id w, watchId = some id → swept.watches.get id = some w → ∀ a ∈ w.channels, a ∈ ids

theorem resolveWatch_target {t t₁ : WatchTable F} {now : Instant}
    {watchId displayName : Option String} {wid : String}
    (h : t.resolveWatch now watchId displayName = .ok (wid, t₁)) :
    wid = target t watchId ∧ (∀ id, id ≠ wid → t₁.watches.get id = t.watches.get id) ∧
      ∀ w, t₁.watches.get wid = some w →
        w.channels = [] ∨ watchId = some wid ∧ t.watches.get wid = some w := by
  unfold target
  rcases resolveWatch_cases h with ⟨hfilter, rfl⟩ | ⟨hfilter, -, rfl, rfl⟩
  · rw [hfilter]
    exact ⟨rfl, fun _ _ => rfl, fun w hw => Or.inr ⟨(Option.filter_eq_some_iff.1 hfilter).1, hw⟩⟩
  · rw [hfilter]
    refine ⟨rfl, fun id hid => Table.get_insert_ne _ _ hid, fun w hw => Or.inl ?_⟩
    rw [Table.get_insert_self, Option.some.injEq] at hw
    subst w
    rfl

section Subscribe

variable {reader : ChannelReader E F} {now : Instant} {e e' : E} {t t' : WatchTable F}
  {watches : Table String WatchMeta} {watchId displayName : Option String}
  {ids : List ChannelId} {resp : WatchResponse F} {info : WatchMeta}

theorem get_of_swept {id : String} {w : WatchState F}
    (h : (t.expireStaleWatches now).watches.get id = some w) : t.watches.get id = some w := by
  rw [get_expireStaleWatches] at h
  exact (Option.filter_eq_some_iff.1 h).1

theorem subscribed_agrees_iff (hagrees : Agrees (reader.present e) watches t)
    (hown : ∀ id, watchId = some id → (watches.get id).isSome ∨ t.watches.get id = none)
    (hinfo : info.subscribedIds = ids.toFinset)
    (h : t.watchSub reader now e watchId displayName ids = some (e', t', .ok resp)) :
    Agrees (reader.present e') (watches.insert resp.watchId info) t' ↔
      Complete watches t now watchId ids := by
  rcases watchSub_cases h with ⟨-, -, message, hmessage⟩ |
    ⟨wid, t₁, w, values, rows, -, hwid, hw, hpresent, -, -, rfl, hresp⟩
  · cases hmessage
  cases hresp
  obtain ⟨htarget, hothers, hold⟩ := resolveWatch_target hwid
  rw [hpresent]
  constructor
  · intro hafter
    refine ⟨fun id hid hne => ?_, fun id v hid hv a ha => ?_⟩
    · obtain ⟨info', hinfo'⟩ := Option.isSome_iff_exists.1 hid
      rw [← htarget] at hne
      obtain ⟨v, hv, -⟩ := hafter id info' (by rw [Table.get_insert_ne _ _ hne, hinfo'])
      rw [Table.get_insert_ne _ _ hne, hothers id hne] at hv
      exact Option.isSome_iff_exists.2 ⟨v, hv⟩
    · have hfilter : watchId.filter (fun id =>
          ((t.expireStaleWatches now).watches.get id).isSome) = some id :=
        Option.filter_eq_some_iff.2 ⟨hid, Option.isSome_iff_exists.2 ⟨v, hv⟩⟩
      have hsame : wid = id := by
        rw [htarget, target, hfilter]
        rfl
      subst hsame
      obtain ⟨v', hv', hchannels⟩ := hafter wid info (Table.get_insert_self _ _ _)
      rw [Table.get_insert_self, Option.some.injEq] at hv'
      subst v'
      have hmem : a ∈ w.channels := by
        rcases hold w hw with hnil | ⟨-, hw'⟩
        · rcases resolveWatch_cases hwid with ⟨-, rfl⟩ | ⟨hnone, -, -, -⟩
          · cases hv.symm.trans hw
            exact ha
          · simp [hfilter] at hnone
        · cases hv.symm.trans hw'
          exact ha
      have hids := ((hchannels a).1 ((mem_foldl_pushChannel _ _ _).2 (Or.inl hmem))).2
      rw [hinfo] at hids
      exact List.mem_toFinset.1 hids
  · rintro ⟨hkept, hlisted⟩ id info' hinfo'
    by_cases hid : id = wid
    · subst hid
      rw [Table.get_insert_self, Option.some.injEq] at hinfo'
      subst info'
      refine ⟨_, Table.get_insert_self _ _ _, fun a => ?_⟩
      rw [mem_foldl_pushChannel, hinfo, List.mem_toFinset, List.mem_filter]
      constructor
      · rintro (ha | ⟨ha, hp⟩)
        · rcases hold w hw with hnil | ⟨hask, hw'⟩
          · simp [hnil] at ha
          · obtain ⟨info₀, hinfo₀⟩ := Option.isSome_iff_exists.1
              ((hown id hask).resolve_right (by rw [get_of_swept hw']; simp))
            obtain ⟨w₀, hw₀, hchannels⟩ := hagrees id info₀ hinfo₀
            cases (get_of_swept hw').symm.trans hw₀
            exact ⟨((hchannels a).1 ha).1, hlisted id w hask hw' a ha⟩
        · exact ⟨hp, ha⟩
      · rintro ⟨hp, ha⟩
        exact Or.inr ⟨ha, hp⟩
    · rw [Table.get_insert_ne _ _ hid] at hinfo'
      obtain ⟨v, hv⟩ := Option.isSome_iff_exists.1
        (hkept id (Option.isSome_iff_exists.2 ⟨info', hinfo'⟩) (by rwa [← htarget]))
      obtain ⟨w₀, hw₀, hchannels⟩ := hagrees id info' hinfo'
      cases (get_of_swept hv).symm.trans hw₀
      refine ⟨v, ?_, hchannels⟩
      rw [Table.get_insert_ne _ _ hid, hothers id hid, hv]

end Subscribe

section Others

variable {reader : ChannelReader E F} {watches : Table String WatchMeta}

theorem unsubscribed_agrees {present : ChannelId → Bool} {t t' : WatchTable F} {watchId : String}
    {close : Bool} {ids : List ChannelId} (hagrees : Agrees present watches t)
    (h : t.watchUnsub watchId close ids = (t', .ok ())) :
    Agrees present (if close then watches.erase watchId else watches.modify watchId fun info =>
      { info with subscribedIds := info.subscribedIds \ ids.toFinset }) t' := by
  unfold watchUnsub at h
  cases hw : t.watches.get watchId with
  | none =>
    rw [hw] at h
    cases h
  | some w =>
    rw [hw] at h
    cases close with
    | true =>
      cases h
      intro id info hinfo
      rw [if_pos rfl, Table.get_erase] at hinfo
      split_ifs at hinfo with hid
      obtain ⟨v, hv, hchannels⟩ := hagrees id info hinfo
      exact ⟨v, by rw [Table.get_erase_ne _ hid, hv], hchannels⟩
    | false =>
      cases h
      intro id info hinfo
      rw [if_neg Bool.false_ne_true, Table.get_modify] at hinfo
      split_ifs at hinfo with hid
      · obtain ⟨info₀, hinfo₀, rfl⟩ := Option.map_eq_some_iff.1 hinfo
        obtain ⟨v, hv, hchannels⟩ := hagrees id info₀ hinfo₀
        subst hid
        cases hw.symm.trans hv
        refine ⟨_, Table.get_insert_self _ _ _, fun a => ?_⟩
        simp [hchannels, and_assoc]
      · obtain ⟨v, hv, hchannels⟩ := hagrees id info hinfo
        exact ⟨v, by rw [Table.get_insert_ne _ _ hid, hv], hchannels⟩

variable {m : Moment E F} {s s' : Server E F} {c c' : Connection}

theorem unsubscribe_agrees (hagrees : Agrees (m.reader.present s.engine) c.watches s.table)
    (id : Option String) (watchId : String) (ids : List ChannelId) (close : Bool) :
    Agrees (m.reader.present (unsubscribe c s id watchId ids close).2.1.engine)
      (unsubscribe c s id watchId ids close).1.watches
      (unsubscribe c s id watchId ids close).2.1.table := by
  unfold unsubscribe Server.watchUnsub
  cases h : s.table.watchUnsub watchId close ids with
  | mk t r =>
    cases r with
    | ok u => exact unsubscribed_agrees hagrees h
    | error e =>
      have hsame : t = s.table := by
        unfold watchUnsub at h
        split at h
        · cases h
          rfl
        · split_ifs at h <;> cases h
      dsimp only
      rw [hsame]
      exact hagrees

variable [FloatOps F]

theorem watchPoll_frame {watchId : String} {again : Bool} {r : Except String (WatchResponse F)}
    (h : s.watchPoll m watchId again = some (s', r)) :
    m.reader.present s'.engine = m.reader.present s.engine ∧
      ∀ id, (s'.table.watches.get id).map (·.channels) =
        (s.table.watches.get id).map (·.channels) := by
  unfold Server.watchPoll at h
  obtain ⟨⟨e, t, r'⟩, hpoll, heq⟩ := Option.map_eq_some_iff.1 h
  cases heq
  rcases watchPoll_cases hpoll with ⟨-, rfl, rfl, -⟩ | ⟨w, values, rows, hw, hp, -, rfl, -⟩
  · exact ⟨rfl, fun _ => rfl⟩
  · refine ⟨hp, fun id => ?_⟩
    rw [Table.get_insert]
    split_ifs with hid
    · rw [hid, hw]
      rfl
    · rfl

theorem markPolled_frame (c : Connection) (watchId : String) (now : Instant) (id : String) :
    ((c.markPolled watchId now).watches.get id).map (·.subscribedIds) =
      (c.watches.get id).map (·.subscribedIds) := by
  unfold Connection.markPolled
  rw [Table.get_modify]
  split_ifs with hid
  · simp [Function.comp_def]
  · rfl

theorem polled_agrees (hagrees : Agrees (m.reader.present s.engine) c.watches s.table)
    {watchId : String} {again : Bool} {r : Except String (WatchResponse F)}
    (h : s.watchPoll m watchId again = some (s', r)) :
    Agrees (m.reader.present s'.engine) c.watches s'.table := by
  obtain ⟨hpresent, ht⟩ := watchPoll_frame h
  rw [hpresent]
  exact hagrees.frame (fun _ => rfl) ht

theorem pushWatches_agrees {room : ℕ} {ids : List String} {sent : List (ServerMsg F)} {gone : Bool}
    (hagrees : Agrees (m.reader.present s.engine) c.watches s.table)
    (h : pushWatches m room c s ids = some (c', s', sent, gone)) :
    Agrees (m.reader.present s'.engine) c'.watches s'.table ∧
      m.reader.present s'.engine = m.reader.present s.engine := by
  induction ids generalizing room c s sent with
  | nil =>
    cases h
    exact ⟨hagrees, rfl⟩
  | cons id ids ih =>
    unfold pushWatches at h
    split_ifs at h with hdue
    · exact ih hagrees h
    · cases hpoll : s.watchPoll m id false with
      | none =>
        rw [hpoll] at h
        cases h
      | some p =>
        obtain ⟨s₁, r⟩ := p
        rw [hpoll] at h
        have hpresent := (watchPoll_frame hpoll).1
        have hnext : Agrees (m.reader.present s₁.engine) (c.markPolled id m.now).watches s₁.table :=
          (polled_agrees hagrees hpoll).frame (markPolled_frame c id m.now) fun _ => rfl
        have hrest : ∀ {room sent}, pushWatches m room (c.markPolled id m.now) s₁ ids =
            some (c', s', sent, gone) → Agrees (m.reader.present s'.engine) c'.watches s'.table ∧
              m.reader.present s'.engine = m.reader.present s.engine := fun h =>
          (ih hnext h).imp_right fun hp => hp.trans hpresent
        cases r with
        | error e => exact hrest h
        | ok resp =>
          dsimp only at h
          split_ifs at h with hrows
          · exact hrest h
          · cases room with
            | zero =>
              cases h
              exact ⟨hnext, hpresent⟩
            | succ room =>
              obtain ⟨⟨c₂, s₂, sent₂, gone₂⟩, hloop, heq⟩ := Option.map_eq_some_iff.1 h
              cases heq
              exact hrest hloop

theorem receiveCov_frame (c : Connection) (signal : CovSignal) (id : String) :
    ((c.receiveCov signal).watches.get id).map (·.subscribedIds) =
      (c.watches.get id).map (·.subscribedIds) := by
  unfold Connection.receiveCov
  split_ifs
  · rfl
  · cases signal with
    | event pointId =>
      cases h : c.watches.get id with
      | none => simp [applyCovEvent, Table.get_mapValues, h]
      | some info =>
        simp only [applyCovEvent, Table.get_mapValues, h, Option.map_some]
        split_ifs <;> rfl
    | lagged => simp [markAllCovPending, Table.get_mapValues, Function.comp_def]
    | closed => rfl

variable {crypto : Crypto} {cfg : WsState} {draw : Draw} {order : WatchOrder} {w w' : World E F}

def Plain : Option ClientMsg → Prop
  | some (.subscribe ..) => False
  | _ => True

theorem handleText_agrees {msg : Option ClientMsg} (hplain : Plain msg) {reply : ServerMsg F}
    (hagrees : Agrees (m.reader.present w.server.engine) c.watches w.server.table)
    (h : handleText crypto cfg draw m c w msg = some (c', w', reply)) :
    Agrees (m.reader.present w'.server.engine) c'.watches w'.server.table := by
  unfold handleText at h
  cases msg with
  | none =>
    cases h
    exact hagrees
  | some msg =>
    unfold handleClientMsg at h
    cases msg with
    | auth token id =>
      dsimp only at h
      split_ifs at h <;> cases h <;> exact hagrees
    | hello | authenticate | ping =>
      cases h
      exact hagrees
    | subscribe => exact hplain.elim
    | unsubscribe id watchId ids close =>
      dsimp only at h
      split_ifs at h
      · cases h
        exact hagrees
      · cases h
        exact unsubscribe_agrees hagrees id watchId ids close
    | refresh id watchId =>
      dsimp only at h
      split_ifs at h
      · cases h
        exact hagrees
      · obtain ⟨⟨c₁, s₁, reply₁⟩, hrefresh, heq⟩ := Option.map_eq_some_iff.1 h
        cases heq
        obtain ⟨⟨s₂, r⟩, hpoll, hreply⟩ := Option.map_eq_some_iff.1 hrefresh
        cases r with
        | ok resp =>
          cases hreply
          exact polled_agrees hagrees hpoll
        | error e =>
          cases hreply
          exact polled_agrees hagrees hpoll

def Input.Plain : Input → Prop
  | .text msg _ => Ws.Plain msg
  | _ => True

theorem Input.plain_or_subscribe (input : Input) :
    input.Plain ∨ ∃ id watchId dis ids pollInterval taken,
      input = .text (some (.subscribe id watchId dis ids pollInterval)) taken := by
  cases input with
  | text msg taken =>
    cases msg with
    | none => exact Or.inl trivial
    | some msg =>
      cases msg with
      | subscribe id watchId dis ids pollInterval =>
        exact Or.inr ⟨id, watchId, dis, ids, pollInterval, taken, rfl⟩
      | _ => exact Or.inl trivial
  | _ => exact Or.inl trivial

theorem turn_agrees {input : Input} (hplain : input.Plain) {conn : Option Connection}
    {sent : List (ServerMsg F)}
    (hagrees : Agrees (m.reader.present w.server.engine) c.watches w.server.table)
    (h : turn crypto cfg draw order m c w input = some (conn, w', sent)) (hc' : conn = some c') :
    Agrees (m.reader.present w'.server.engine) c'.watches w'.server.table := by
  subst hc'
  unfold turn at h
  cases input with
  | text msg taken =>
    obtain ⟨⟨c₁, w₁, reply⟩, hhandle, heq⟩ := Option.map_eq_some_iff.1 h
    cases taken with
    | true =>
      cases heq
      exact handleText_agrees hplain (c := { c with lastClientMsg := m.now }) hagrees hhandle
    | false => cases heq
  | ping taken =>
    cases taken with
    | true =>
      cases h
      exact hagrees
    | false => cases h
  | close => cases h
  | other =>
    cases h
    exact hagrees
  | cov signal =>
    cases h
    exact hagrees.frame (receiveCov_frame c signal) fun _ => rfl
  | tick room =>
    dsimp only at h
    split_ifs at h
    · cases h
    · cases h
      exact hagrees
    · obtain ⟨⟨c₁, s₁, sent₁, gone⟩, hpush, heq⟩ := Option.map_eq_some_iff.1 h
      cases gone with
      | true => cases heq
      | false =>
        cases heq
        exact (pushWatches_agrees hagrees hpush).1

end Others

structure Client (E F : Type) where
  conn : Option Connection
  world : World E F

inductive Act (E F : Type)
  | own (draw : Draw) (order : WatchOrder) (now : Instant) (timestamp : String) (input : Input)
  | others (engine : E) (table : WatchTable F) (auth : AuthShared)

section Run

variable [FloatOps F] (crypto : Crypto) (cfg : WsState) (reader : ChannelReader E F)

def Client.step (s : Client E F) : Act E F → Client E F
  | .own draw order now timestamp input =>
    match s.conn.bind fun c => turn crypto cfg draw order ⟨now, timestamp, reader⟩ c s.world input with
    | none => ⟨none, s.world⟩
    | some (conn, world, _) => ⟨conn, world⟩
  | .others engine table auth => ⟨s.conn, ⟨⟨engine, table, s.world.server.commands⟩, auth⟩⟩

def Client.Mirrors (s : Client E F) : Prop :=
  ∀ c, s.conn = some c →
    Mirrored (reader.present s.world.server.engine) c.watches s.world.server.table

/-- A subscription names no watch of somebody else and succeeds; the others leave
    the watches of the connection alone and change no channel. -/
def Client.Allowed (s : Client E F) : Act E F → Prop
  | .own draw _ now timestamp (.text (some (.subscribe id watchId dis ids pollInterval)) _) =>
    ∀ c, s.conn = some c →
      (∀ wid, watchId = some wid →
        (c.watches.get wid).isSome ∨ s.world.server.table.watches.get wid = none) ∧
      ∃ c' w' id' wid lease interval rows,
        handleText crypto cfg draw ⟨now, timestamp, reader⟩ { c with lastClientMsg := now } s.world
          (some (.subscribe id watchId dis ids pollInterval)) =
            some (c', w', .subscribed id' wid lease interval rows)
  | .own .. => True
  | .others engine table _ => reader.present engine = reader.present s.world.server.engine ∧
    ∀ c, s.conn = some c → ∀ wid, (c.watches.get wid).isSome →
      table.watches.get wid = s.world.server.table.watches.get wid

def Client.Lists (s : Client E F) : Act E F → Prop
  | .own _ _ now _ (.text (some (.subscribe _ watchId _ ids _)) true) =>
    ∀ c, s.conn = some c → Complete c.watches s.world.server.table now watchId ids
  | _ => True

end Run

section Steps

/-- What the runs carry: the filter of an open connection agrees. -/
def Client.InStep (reader : ChannelReader E F) (s : Client E F) : Prop :=
  ∀ c, s.conn = some c →
    Agrees (reader.present s.world.server.engine) c.watches s.world.server.table

theorem Client.mirrors_iff {reader : ChannelReader E F} {s : Client E F} :
    s.Mirrors reader ↔ s.InStep reader :=
  forall₂_congr fun _ _ => mirrored_iff

theorem Client.lists_plain {draw : Draw} {order : WatchOrder} {now : Instant}
    {timestamp : String} {input : Input} {s : Client E F} (h : input.Plain) :
    s.Lists (.own draw order now timestamp input) := by
  unfold Lists
  split
  · rename_i heq
    cases heq
    exact False.elim h
  · trivial

variable [FloatOps F] {crypto : Crypto} {cfg : WsState} {reader : ChannelReader E F}
  {s : Client E F}

theorem Client.step_own (s : Client E F) (draw : Draw) (order : WatchOrder) (now : Instant)
    (timestamp : String) (input : Input) :
    s.step crypto cfg reader (.own draw order now timestamp input) =
      match s.conn.bind fun c =>
        turn crypto cfg draw order ⟨now, timestamp, reader⟩ c s.world input with
      | none => ⟨none, s.world⟩
      | some (conn, world, _) => ⟨conn, world⟩ := rfl

theorem Client.Allowed.replies {draw : Draw} {order : WatchOrder} {now : Instant}
    {timestamp : String} {id watchId dis : Option String} {ids : List ChannelId}
    {pollInterval : Option UInt64} {taken : Bool} {c : Connection}
    (h : s.Allowed crypto cfg reader (.own draw order now timestamp
      (.text (some (.subscribe id watchId dis ids pollInterval)) taken))) (hc : s.conn = some c) :
    ∃ p, handleText crypto cfg draw ⟨now, timestamp, reader⟩ { c with lastClientMsg := now }
      s.world (some (.subscribe id watchId dis ids pollInterval)) = some p := by
  obtain ⟨-, c', w', id', wid, lease, interval, rows, hhandle⟩ := h c hc
  exact ⟨_, hhandle⟩

/-- A successful subscription of an open connection keeps it in step exactly where
    it is complete. -/
theorem Client.subscribe_inStep_iff (hs : s.InStep reader) {c : Connection} (hc : s.conn = some c)
    {draw : Draw} {order : WatchOrder} {now : Instant} {timestamp : String}
    {id watchId dis : Option String} {ids : List ChannelId} {pollInterval : Option UInt64}
    (hallowed : s.Allowed crypto cfg reader
      (.own draw order now timestamp (.text (some (.subscribe id watchId dis ids pollInterval)) true))) :
    (s.step crypto cfg reader (.own draw order now timestamp
        (.text (some (.subscribe id watchId dis ids pollInterval)) true))).InStep reader ↔
      Complete c.watches s.world.server.table now watchId ids := by
  obtain ⟨hown, c', w', id', wid, lease, interval, rows, hhandle⟩ := hallowed c hc
  have hstep : s.step crypto cfg reader (.own draw order now timestamp
      (.text (some (.subscribe id watchId dis ids pollInterval)) true)) = ⟨some c', w'⟩ := by
    unfold step turn
    simp only [hc, Option.bind_some, hhandle, Option.map_some, if_true]
  rw [hstep]
  unfold handleText handleClientMsg at hhandle
  dsimp only at hhandle
  split_ifs at hhandle with hauth
  · cases hhandle
  · obtain ⟨⟨c₁, s₁, reply₁⟩, hsubscribe, heq⟩ := Option.map_eq_some_iff.1 hhandle
    cases heq
    obtain ⟨⟨s₂, r⟩, hsub, hreply⟩ := Option.map_eq_some_iff.1 hsubscribe
    obtain ⟨⟨e, t, r'⟩, htable, hserver⟩ := Option.map_eq_some_iff.1 hsub
    cases r with
    | error e => cases hreply
    | ok resp =>
      cases hreply
      cases hserver
      have hinfo : (⟨intervalMs pollInterval * 1000000, now, ids.toFinset, false⟩ :
        WatchMeta).subscribedIds = ids.toFinset := rfl
      rw [← subscribed_agrees_iff (hs c hc) hown hinfo htable]
      exact ⟨fun h => h _ rfl, fun h c₂ hc₂ => by cases hc₂; exact h⟩

theorem Client.step_inStep (hs : s.InStep reader) {act : Act E F}
    (hallowed : s.Allowed crypto cfg reader act) (hlists : s.Lists act) :
    (s.step crypto cfg reader act).InStep reader := by
  cases act with
  | others engine table auth =>
    obtain ⟨hpresent, hsame⟩ := hallowed
    intro c hc wid info hinfo
    obtain ⟨w, hw, hchannels⟩ := hs c hc wid info hinfo
    refine ⟨w, ?_, fun a => ?_⟩
    · change table.watches.get wid = some w
      rw [hsame c hc wid (Option.isSome_iff_exists.2 ⟨info, hinfo⟩), hw]
    · change _ ↔ reader.present engine a = true ∧ _
      rw [hpresent]
      exact hchannels a
  | own draw order now timestamp input =>
    rcases input.plain_or_subscribe with
      hplain | ⟨id, watchId, dis, ids, pollInterval, taken, rfl⟩
    · intro c' hc'
      rw [step_own] at hc' ⊢
      cases ho : s.conn.bind fun c =>
          turn crypto cfg draw order ⟨now, timestamp, reader⟩ c s.world input with
      | none =>
        rw [ho] at hc'
        cases hc'
      | some p =>
        rw [ho] at hc'
        obtain ⟨c, hc, hturn⟩ := Option.bind_eq_some_iff.1 ho
        exact turn_agrees (m := ⟨now, timestamp, reader⟩) hplain (hs c hc) hturn hc'
    · cases hconn : s.conn with
      | none =>
        intro c' hc'
        rw [step_own, hconn] at hc'
        cases hc'
      | some c =>
        cases taken with
        | true => exact (subscribe_inStep_iff hs hconn hallowed).2 (hlists c hconn)
        | false =>
          obtain ⟨p, hp⟩ := hallowed.replies hconn
          intro c₂ hc₂
          rw [step_own] at hc₂
          unfold turn at hc₂
          simp only [hconn, Option.bind_some, hp, Option.map_some] at hc₂
          cases hc₂

/-- The filter mirrors the engine in every state of a run exactly where every
    subscription of the run is complete. -/
theorem filter_mirrors_iff (hs : s.InStep reader) {acts : List (Act E F)}
    (hallowed : Along (Client.step crypto cfg reader) (Client.Allowed crypto cfg reader) s acts) :
    (∀ t ∈ states (Client.step crypto cfg reader) s acts, t.Mirrors reader) ↔
      Along (Client.step crypto cfg reader) Client.Lists s acts := by
  refine states_iff_along_of _ (I := Client.InStep reader) (fun t ht => Client.mirrors_iff.2 ht)
    (fun t act ht hallowed hlists => Client.step_inStep ht hallowed hlists) ?_ hs hallowed
  intro t act ht hallowed hlists hmirrors
  apply hlists
  cases act with
  | others => trivial
  | own draw order now timestamp input =>
    rcases input.plain_or_subscribe with
      hplain | ⟨id, watchId, dis, ids, pollInterval, taken, rfl⟩
    · exact Client.lists_plain hplain
    · cases taken with
      | true =>
        intro c hc
        have hiff := Client.subscribe_inStep_iff ht hc hallowed
        exact hiff.1 (Client.mirrors_iff.1 hmirrors)
      | false => trivial

end Steps

section Example

def zeros : ChannelReader Unit ℚ :=
  ⟨fun _ _ => true, fun e c => some (e, .ok ⟨c, "Ok", 0, 0⟩), fun _ _ _ _ _ => rfl⟩

def subscribeAct (watchId : Option String) (ids : List ChannelId) : Act Unit ℚ :=
  .own .unused (.ascending String WatchMeta) 0 "" (.text (some (.subscribe none watchId none ids none)) true)

/-- A client of a server that asks for no authentication. -/
def freshClient : Client Unit ℚ :=
  ⟨wsUpgrade ⟨none, none⟩ true 0 ⟨none⟩ 0, ⟨⟨(), WatchTable.new, []⟩, AuthShared.new⟩⟩

theorem freshClient_inStep : freshClient.InStep zeros := by
  rintro c ⟨⟩ id info hinfo
  simp at hinfo

def extending (ids : List ChannelId) : List (Act Unit ℚ) :=
  [subscribeAct none [5], subscribeAct (some "w-1") ids]

theorem extending_allowed {ids : List ChannelId} (hids : ids = [6] ∨ ids = [5, 6]) :
    Along (Client.step .unused ⟨none, none⟩ zeros)
      (Client.Allowed .unused ⟨none, none⟩ zeros) freshClient (extending ids) := by
  rcases hids with rfl | rfl
  all_goals
    refine ⟨?_, ?_, trivial⟩
    · rintro c ⟨⟩
      exact ⟨nofun, _, _, _, _, _, _, _, rfl⟩
    · rintro c ⟨⟩
      refine ⟨fun wid h => Or.inl ?_, _, _, _, _, _, _, _, rfl⟩
      cases h
      rfl

/-- The second subscription lists only the new channel, and the filter forgets the
    old one. -/
theorem extension_forgets :
    Along (Client.step .unused ⟨none, none⟩ zeros)
        (Client.Allowed .unused ⟨none, none⟩ zeros) freshClient (extending [6]) ∧
      ¬ ∀ t ∈ states (Client.step .unused ⟨none, none⟩ zeros) freshClient (extending [6]),
        t.Mirrors zeros := by
  refine ⟨extending_allowed (Or.inl rfl), fun hall => ?_⟩
  have hlast := hall _ (List.mem_cons_of_mem _ (List.mem_cons_of_mem _ List.mem_cons_self))
  obtain ⟨w, hw, hchannels⟩ := (hlast _ rfl).agrees "w-1" _ rfl
  cases hw
  exact absurd ((hchannels 5).1 (by decide)).2 (by decide)

/-- With the old channel listed again the filter stays in step. -/
theorem extension_mirrored :
    (run (Client.step .unused ⟨none, none⟩ zeros) freshClient (extending [5, 6])).Mirrors
      zeros := by
  refine (filter_mirrors_iff freshClient_inStep (extending_allowed (Or.inr rfl))).2
    ⟨?_, ?_, trivial⟩ _ (run_mem_states _ _ _)
  · rintro c ⟨⟩
    exact ⟨fun id hid => by simp at hid, nofun⟩
  · rintro c ⟨⟩
    refine ⟨fun id hid hne => ?_, fun id w h hw a ha => ?_⟩
    · exfalso
      rw [Table.get_insert] at hid
      split_ifs at hid with heq
      · exact hne heq
      · simp at hid
    · cases h
      have hold : some [5] = some w.channels := congrArg (Option.map WatchState.channels) hw
      rw [← Option.some.inj hold] at ha
      simp [List.mem_singleton.1 ha]

end Example

end Sandstar.Ws
