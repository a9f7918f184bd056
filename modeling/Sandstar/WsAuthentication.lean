import Sandstar.Runs
import Sandstar.WsConnections

set_option autoImplicit false

namespace Sandstar.Ws
open Auth Engine Runs Watches

/-- One connection, and whether it has shown that it may use the engine. -/
structure Session (E F : Type) where
  conn : Option Connection
  world : World E F
  presented : Prop

/-- What happens to a connection: a turn of its own task, or anything that others
    do to the engine, the watch table, the sessions and the handshakes. -/
inductive Happening (E F : Type)
  | own (draw : Draw) (order : WatchOrder) (m : Moment E F) (input : Input)
  | elsewhere (engine : E) (table : WatchTable F) (auth : AuthShared)

section Gate

variable {E F : Type} (crypto : Crypto) (cfg : WsState)

def Presents (now : Instant) (a : AuthShared) : Input → Prop
  | .text (some (.auth token _)) _ =>
    cfg.authToken = some token ∨ ∃ store, cfg.authStore = some store ∧
      (store.bearerToken = some token ∨
        ∃ session, a.sessions.sessions.get token = some session ∧ now < session.expiresAt)
  | .text (some (.authenticate handshakeToken proof _)) _ =>
    cfg.authStore.isSome ∧ ∃ clientFinal, clientFinalOf crypto proof = .ok clientFinal ∧
      Proved crypto now a handshakeToken clientFinal
  | _ => False

def ServerMsg.isUpdate : ServerMsg F → Bool
  | .update .. => true
  | _ => false

variable [FloatOps F]

/-- The turn that the connection takes; `none` if it takes none or panics. -/
def Session.outcome (s : Session E F) :
    Happening E F → Option (Option Connection × World E F × List (ServerMsg F))
  | .own draw order m input =>
    s.conn.bind fun c => turn crypto cfg draw order m c s.world input
  | .elsewhere _ _ _ => none

def Session.step (s : Session E F) (h : Happening E F) : Session E F :=
  match h with
  | .elsewhere engine table auth =>
    { s with world := ⟨⟨engine, table, s.world.server.commands⟩, auth⟩ }
  | .own _ _ m input =>
    let presented := s.presented ∨ s.conn.isSome ∧ Presents crypto cfg m.now s.world.auth input
    match s.outcome crypto cfg h with
    | none => ⟨none, s.world, presented⟩
    | some (conn, world, _) => ⟨conn, world, presented⟩

def Session.Gated (s : Session E F) (h : Happening E F) : Prop :=
  ¬ s.presented → ∀ conn world sent, s.outcome crypto cfg h = some (conn, world, sent) →
    world.server.commands = s.world.server.commands ∧ ∀ msg ∈ sent, msg.isUpdate = false

def Session.opened (hasDrivers : Bool) (active : ℤ) (params : WsParams) (now : Instant)
    (w : World E F) : Session E F :=
  ⟨wsUpgrade cfg hasDrivers active params now, w,
    ∃ token, cfg.authToken = some token ∧ params.token = some token⟩

/-- Every connection, with any parameters and through any history, is gated. -/
def GateHolds (w : World E F) : Prop :=
  ∀ hasDrivers active params now happenings,
    Along (Session.step crypto cfg) (Session.Gated crypto cfg)
      (Session.opened cfg hasDrivers active params now w) happenings

end Gate

section Closed

variable {E F : Type} {crypto : Crypto} {cfg : WsState}

theorem checkToken_iff {store : AuthStore} (hreq : store.isAuthRequired = true) {now : Instant}
    {a : AuthShared} {token : String} :
    store.checkToken now a token = true ↔ store.bearerToken = some token ∨
      ∃ session, a.sessions.sessions.get token = some session ∧ now < session.expiresAt := by
  have hsession : (a.sessions.validateToken now token).isSome = true ↔
      ∃ session, a.sessions.sessions.get token = some session ∧ now < session.expiresAt := by
    unfold SessionStore.validateToken
    cases a.sessions.sessions.get token <;>
      simp [Option.filter_some, AuthSession.isExpired, apply_ite]
  unfold AuthStore.checkToken
  rw [Bool.or_eq_true, hsession]
  simp [hreq, AuthStore.checkBearer]

theorem acceptsToken_presents {now : Instant} {a : AuthShared} {token : String}
    {id : Option String} {taken : Bool} (hreq : cfg.isAuthRequired = true)
    (h : acceptsToken cfg now a token = true) :
    Presents crypto cfg now a (.text (some (.auth token id)) taken) := by
  unfold WsState.isAuthRequired at hreq
  unfold acceptsToken at h
  cases hstore : cfg.authStore with
  | none => simp [hstore] at hreq
  | some store =>
    have hreq' : store.isAuthRequired = true := by simpa [hstore] using hreq
    cases htoken : cfg.authToken with
    | none =>
      simp only [htoken, hstore, hreq', Bool.not_true, Bool.false_or] at h
      exact Or.inr ⟨store, hstore, (checkToken_iff hreq').1 h⟩
    | some required =>
      simp only [htoken, hstore] at h
      by_cases hsame : token = required
      · exact Or.inl (htoken.trans (congrArg some hsame.symm))
      · rw [if_neg hsame] at h
        exact Or.inr ⟨store, hstore, (checkToken_iff hreq').1 h⟩

theorem authenticate_presents {draw : Draw} {now : Instant} {a : AuthShared}
    {handshakeToken proof : String} {id : Option String} {taken : Bool}
    (h : (authenticate (F := F) crypto cfg draw now a handshakeToken proof id).2.2 = true) :
    Presents crypto cfg now a (.text (some (.authenticate handshakeToken proof id)) taken) := by
  unfold authenticate at h
  cases hstore : cfg.authStore with
  | none => simp [hstore] at h
  | some store =>
    simp only [hstore] at h
    cases hfinal : clientFinalOf crypto proof with
    | error e => simp [hfinal] at h
    | ok clientFinal =>
      simp only [hfinal] at h
      refine ⟨by rw [hstore]; rfl, clientFinal, hfinal, (completeScram_ok_iff crypto draw).1 ?_⟩
      split at h
      · rename_i hcomplete
        exact ⟨_, congrArg Prod.snd hcomplete⟩
      · simp at h

structure Connection.Shut (c : Connection) : Prop where
  unauthenticated : c.authenticated = false
  watches : c.watches = Table.empty

theorem cleanup_unnamed {c : Connection} (h : c.watches = Table.empty) (order : WatchOrder) (w : World E F) :
    w.cleanup order c = w := by
  have hnil : order.walk c.watches = [] := by
    refine List.eq_nil_iff_forall_not_mem.2 fun id hid => ?_
    rw [order.mem, h] at hid
    exact absurd hid (Finset.notMem_empty id)
  unfold World.cleanup cleanup
  rw [hnil]
  rfl

theorem receiveCov_shut {c : Connection} (h : c.Shut) (signal : CovSignal) :
    (c.receiveCov signal).Shut := by
  unfold Connection.receiveCov
  split_ifs
  · exact h
  · cases signal with
    | event pointId => exact ⟨h.unauthenticated, by rw [h.watches]; rfl⟩
    | lagged => exact ⟨h.unauthenticated, by rw [h.watches]; rfl⟩
    | closed => exact ⟨h.unauthenticated, h.watches⟩

def Session.Guarded (s : Session E F) : Prop := ¬ s.presented → ∀ c, s.conn = some c → c.Shut

theorem Session.opened_guarded {token : String} (htoken : cfg.authToken = some token)
    (hasDrivers : Bool) (active : ℤ) (params : WsParams) (now : Instant) (w : World E F) :
    (Session.opened cfg hasDrivers active params now w).Guarded := by
  intro hn c hc
  unfold opened wsUpgrade at hc
  dsimp only at hc
  split_ifs at hc with hfull
  cases hc
  refine ⟨?_, rfl⟩
  unfold preAuthed
  rw [htoken]
  cases hp : params.token with
  | none => rfl
  | some provided =>
    refine decide_eq_false fun hsame => hn ⟨token, htoken, ?_⟩
    rw [hp, hsame]

variable [FloatOps F] {draw : Draw} {order : WatchOrder} {m : Moment E F}

/-- A message on a shut connection leaves the engine alone, and opens it only with
    something to show. -/
theorem handleText_shut (hreq : cfg.isAuthRequired = true) {c c' : Connection} {w w' : World E F}
    {msg : Option ClientMsg} (taken : Bool) {reply : ServerMsg F} (hc : c.Shut)
    (h : handleText crypto cfg draw m c w msg = some (c', w', reply)) :
    w'.server = w.server ∧ reply.isUpdate = false ∧ c'.watches = Table.empty ∧
      (c'.authenticated = true → Presents crypto cfg m.now w.auth (.text msg taken)) := by
  unfold handleText at h
  cases msg with
  | none =>
    cases h
    exact ⟨rfl, rfl, hc.watches, fun ha => by simp [hc.unauthenticated] at ha⟩
  | some msg =>
    unfold handleClientMsg at h
    cases msg with
    | auth token id =>
      dsimp only at h
      split_ifs at h with haccept
      · cases h
        exact ⟨rfl, rfl, hc.watches, fun _ => acceptsToken_presents hreq haccept⟩
      · cases h
        exact ⟨rfl, rfl, hc.watches, fun ha => by simp [hc.unauthenticated] at ha⟩
    | hello username id =>
      cases h
      refine ⟨rfl, ?_, hc.watches, fun ha => by simp [hc.unauthenticated] at ha⟩
      split
      · rfl
      · split <;> rfl
    | authenticate handshakeToken proof id =>
      cases h
      refine ⟨rfl, ?_, hc.watches, fun ha => ?_⟩
      · split
        · rfl
        · split
          · rfl
          · split <;> rfl
      · simp only [hc.unauthenticated, Bool.false_or] at ha
        exact authenticate_presents ha
    | ping id =>
      cases h
      exact ⟨rfl, rfl, hc.watches, fun ha => by simp [hc.unauthenticated] at ha⟩
    | subscribe | unsubscribe | refresh =>
      simp only [hc.unauthenticated, Bool.not_false, if_true, Option.some.injEq,
        Prod.mk.injEq] at h
      obtain ⟨rfl, rfl, rfl⟩ := h
      exact ⟨rfl, rfl, hc.watches, fun ha => by simp [hc.unauthenticated] at ha⟩

theorem turn_shut (hreq : cfg.isAuthRequired = true) {c : Connection} {w w' : World E F}
    {input : Input} {conn : Option Connection} {sent : List (ServerMsg F)} (hc : c.Shut)
    (h : turn crypto cfg draw order m c w input = some (conn, w', sent)) :
    w'.server = w.server ∧ (∀ msg ∈ sent, msg.isUpdate = false) ∧
      (¬ Presents crypto cfg m.now w.auth input → ∀ c', conn = some c' → c'.Shut) := by
  have hstays : ({ c with lastClientMsg := m.now } : Connection).Shut :=
    ⟨hc.unauthenticated, hc.watches⟩
  unfold turn at h
  cases input with
  | text msg taken =>
    obtain ⟨⟨c₁, w₁, reply⟩, hhandle, heq⟩ := Option.map_eq_some_iff.1 h
    obtain ⟨hserver, hreply, hwatches, hauth⟩ := handleText_shut hreq taken hstays hhandle
    cases taken with
    | true =>
      cases heq
      refine ⟨hserver, fun msg hmsg => ?_, fun hn c' hc' => ?_⟩
      · rw [List.mem_singleton.1 hmsg]
        exact hreply
      · cases hc'
        exact ⟨Bool.eq_false_iff.2 fun ha => hn (hauth ha), hwatches⟩
    | false =>
      cases heq
      rw [cleanup_unnamed hwatches]
      exact ⟨hserver, fun msg hmsg => by simp at hmsg, fun _ c' hc' => by cases hc'⟩
  | ping taken =>
    cases taken with
    | true =>
      cases h
      exact ⟨rfl, fun msg hmsg => by simp at hmsg, fun _ c' hc' => by cases hc'; exact hstays⟩
    | false =>
      cases h
      rw [cleanup_unnamed hc.watches]
      exact ⟨rfl, fun msg hmsg => by simp at hmsg, fun _ c' hc' => by cases hc'⟩
  | close =>
    cases h
    rw [cleanup_unnamed hc.watches]
    exact ⟨rfl, fun msg hmsg => by simp at hmsg, fun _ c' hc' => by cases hc'⟩
  | other =>
    cases h
    exact ⟨rfl, fun msg hmsg => by simp at hmsg, fun _ c' hc' => by cases hc'; exact hstays⟩
  | cov signal =>
    cases h
    refine ⟨rfl, fun msg hmsg => by simp at hmsg, fun _ c' hc' => ?_⟩
    cases hc'
    exact receiveCov_shut hc signal
  | tick room =>
    dsimp only at h
    split_ifs at h with hidle hauth
    · cases h
      rw [cleanup_unnamed hc.watches]
      exact ⟨rfl, fun msg hmsg => by simp at hmsg, fun _ c' hc' => by cases hc'⟩
    · cases h
      exact ⟨rfl, fun msg hmsg => by simp at hmsg, fun _ c' hc' => by cases hc'; exact hc⟩
    · simp [hc.unauthenticated] at hauth

theorem Session.step_presented (s : Session E F) (draw : Draw) (order : WatchOrder)
    (m : Moment E F) (input : Input) :
    (s.step crypto cfg (.own draw order m input)).presented ↔
      s.presented ∨ s.conn.isSome ∧ Presents crypto cfg m.now s.world.auth input := by
  unfold step
  dsimp only
  split <;> rfl

theorem Session.outcome_guarded (hreq : cfg.isAuthRequired = true) {s : Session E F}
    (hs : s.Guarded) (hn : ¬ s.presented) {h : Happening E F} {conn : Option Connection}
    {w : World E F} {sent : List (ServerMsg F)}
    (ho : s.outcome crypto cfg h = some (conn, w, sent)) :
    w.server = s.world.server ∧ (∀ msg ∈ sent, msg.isUpdate = false) ∧
      (¬ (s.step crypto cfg h).presented → ∀ c, conn = some c → c.Shut) := by
  cases h with
  | elsewhere engine table auth => cases ho
  | own draw order m input =>
    obtain ⟨c, hc, hturn⟩ := Option.bind_eq_some_iff.1 ho
    obtain ⟨hserver, hsent, hshut⟩ := turn_shut hreq (hs hn c hc) hturn
    refine ⟨hserver, hsent, fun hn' => hshut fun hp => hn' ((s.step_presented ..).2 (Or.inr ?_))⟩
    exact ⟨by rw [hc]; rfl, hp⟩

theorem Session.step_guarded (hreq : cfg.isAuthRequired = true) {s : Session E F}
    (hs : s.Guarded) (h : Happening E F) : (s.step crypto cfg h).Guarded := by
  cases h with
  | elsewhere engine table auth => exact hs
  | own draw order m input =>
    intro hn c hc
    have hn' : ¬ s.presented := fun hp => hn ((s.step_presented ..).2 (Or.inl hp))
    cases ho : s.outcome crypto cfg (.own draw order m input) with
    | none =>
      unfold step at hc
      rw [ho] at hc
      cases hc
    | some p =>
      obtain ⟨conn, w, sent⟩ := p
      refine (s.outcome_guarded hreq hs hn' ho).2.2 hn c ?_
      unfold step at hc
      rw [ho] at hc
      exact hc

end Closed

section Open

variable {E F : Type} {crypto : Crypto} {cfg : WsState}

def noChannels : ChannelReader E F := ⟨fun _ _ => false, fun _ _ => none, fun _ _ _ _ => nofun⟩

def subscribing (E F : Type) : Happening E F :=
  .own .unused (.ascending String WatchMeta) ⟨0, "", noChannels⟩
    (.text (some (.subscribe none none none [] none)) true)

theorem watchSub_nil (t : WatchTable F) (e : E) :
    ∃ t' r, t.watchSub noChannels 0 e none none [] = some (e, t', r) := by
  cases hwid : (t.expireStaleWatches 0).resolveWatch 0 none none with
  | error message =>
    unfold WatchTable.watchSub
    simp [hwid]
  | ok p =>
    obtain ⟨w, hw⟩ := WatchTable.resolveWatch_get hwid
    rw [WatchTable.watchSub_resolved (Nat.zero_le _) hwid hw]
    exact ⟨_, _, rfl⟩

variable [FloatOps F]

variable (crypto cfg) in
theorem subscribing_reaches {c : Connection} (hc : c.authenticated = true) (w : World E F)
    (presented : Prop) :
    ∃ conn world sent, (⟨some c, w, presented⟩ : Session E F).outcome crypto cfg
        (subscribing E F) = some (conn, world, sent) ∧
      world.server.commands = w.server.commands ++ [.watchSub none none []] := by
  obtain ⟨t', r, hsub⟩ := watchSub_nil w.server.table w.server.engine
  have hserver : w.server.watchSub ⟨0, "", noChannels⟩ none none [] =
      some (⟨w.server.engine, t', w.server.commands ++ [.watchSub none none []]⟩, r) := by
    unfold Server.watchSub
    rw [hsub]
    rfl
  unfold Session.outcome subscribing turn handleText handleClientMsg subscribe
  simp only [Option.bind_some, hc, Bool.not_true, Bool.false_eq_true, if_false, hserver,
    Option.map_some]
  cases r with
  | ok resp => exact ⟨_, _, _, rfl, rfl⟩
  | error e => exact ⟨_, _, _, rfl, rfl⟩

end Open

/-- Where authentication is necessary, connections are gated exactly if the
    WebSocket was given a bearer token of its own. -/
theorem gate_holds_iff {E F : Type} [FloatOps F] (crypto : Crypto) (cfg : WsState)
    (w : World E F) :
    (cfg.isAuthRequired → GateHolds crypto cfg w) ↔
      (cfg.isAuthRequired → cfg.authToken.isSome) := by
  refine forall_congr' fun hreq => ⟨fun hgate => ?_, fun htoken => ?_⟩
  · by_contra hn
    have hnone : cfg.authToken = none := Option.not_isSome_iff_eq_none.1 hn
    have hopened : Session.opened cfg false 0 ⟨none⟩ 0 w =
        ⟨some ⟨true, Table.empty, 0, false⟩, w,
          ∃ token, cfg.authToken = some token ∧ (none : Option String) = some token⟩ := by
      unfold Session.opened wsUpgrade preAuthed
      rw [hnone]
      rfl
    have hfirst := (hgate false 0 ⟨none⟩ 0 [subscribing E F]).1
    obtain ⟨conn, world, sent, ho, hcommands⟩ := subscribing_reaches crypto cfg
      (c := ⟨true, Table.empty, 0, false⟩) rfl w _
    rw [hopened] at hfirst
    have hsame := (hfirst (by simp) conn world sent ho).1
    rw [hcommands] at hsame
    simp at hsame
  · obtain ⟨token, htoken⟩ := Option.isSome_iff_exists.1 htoken
    intro hasDrivers active params now happenings
    refine (along_congr _ (P := fun _ _ => True) (I := Session.Guarded)
      (fun s h hs _ => s.step_guarded hreq hs h) (fun s h hs _ => ⟨fun _ => ?_, fun _ => trivial⟩)
      (Session.opened_guarded htoken hasDrivers active params now w)
      (along_true _ _ _)).1 (along_true _ _ _)
    intro hn conn world sent ho
    obtain ⟨hserver, hsent, -⟩ := s.outcome_guarded hreq hs hn ho
    exact ⟨by rw [hserver], hsent⟩

def usersOnly : WsState :=
  ⟨none, some ⟨Table.empty.insert "admin" ⟨"admin", [1], 10000, [2], [3]⟩, none⟩⟩

def idleWorld : World Unit ℚ := ⟨⟨(), WatchTable.new, []⟩, AuthShared.new⟩

/-- Nobody has authenticated, and the first message is a subscription. -/
theorem users_without_token_open :
    ¬ (usersOnly.isAuthRequired → GateHolds .unused usersOnly idleWorld) := by
  intro hgate
  have hfirst := (hgate rfl false 0 ⟨none⟩ 0 [subscribing Unit ℚ]).1
  obtain ⟨conn, world, sent, ho, hcommands⟩ := subscribing_reaches .unused usersOnly
    (c := ⟨true, Table.empty, 0, false⟩) rfl idleWorld
    (∃ token, usersOnly.authToken = some token ∧ (none : Option String) = some token)
  have hsame := (hfirst (by simp [usersOnly, Session.opened]) conn world sent ho).1
  rw [hcommands] at hsame
  cases hsame

end Sandstar.Ws
