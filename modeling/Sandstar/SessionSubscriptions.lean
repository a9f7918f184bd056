import Sandstar.SoxServerLoop
import Sandstar.SoxAnswers
import Sandstar.DaspAuthentication

set_option autoImplicit false

/-!
# Subscriptions and the sessions they belong to

Sessions end in the transport, subscriptions in the loop. Of the four ways a
session ends only the sweep tells the subscriptions, so that the two stay in step
exactly as long as no other way ends a session that still has some.
-/
namespace Sandstar.SoxServerLoop
open SoxProtocol SoxSlots TreeRequests SoxReads FileTransfer Machine SoxDispatch Dasp Runs
open DaspTransport

section Live

variable {sha1 : List UInt8 → Vector UInt8 20} {t : DaspTransport} {now : ℕ} {nonce : List UInt8}
  {src : SocketAddr} {hdr : DaspHeader} {k : UInt16}

def Live (t : DaspTransport) (k : UInt16) : Prop := (t.sessions.get k).isSome = true

def DigestWrong (sha1 : List UInt8 → Vector UInt8 20) (t : DaspTransport) (auth : DaspHeader)
    (s : DaspSession) : Prop :=
  (auth.digest.getD []).length ≠ 20 ∨
    auth.digest.getD [] ≠ (computeAuthDigest sha1 t.credentials s.nonce).toList

/-- The packet ends session `k`: an accepted HELLO from the address the session has, a
    failed AUTHENTICATE for it from its own address, or a CLOSE for it. -/
def Ends (sha1 : List UInt8 → Vector UInt8 20) (t : DaspTransport) (src : SocketAddr)
    (hdr : DaspHeader) (k : UInt16) : Prop :=
  match hdr.msgType with
  | .hello => helloAccepted hdr t ∧ t.addrToSession.get src = some k
  | .authenticate => hdr.sessionId = k ∧
      ∃ s, t.sessions.get k = some s ∧ s.remoteAddr = src ∧ DigestWrong sha1 t hdr s
  | .close => hdr.sessionId = k
  | _ => False

def OpensId (t : DaspTransport) (src : SocketAddr) (hdr : DaspHeader) (k : UInt16) : Prop :=
  hdr.msgType = .hello ∧ helloAccepted hdr t ∧ ∃ next,
    allocSessionId (t.dropPending src).sessions allocRounds (t.dropPending src).nextSessionId =
      some (k, next)

theorem live_modify {sessions : Table UInt16 DaspSession} (id : UInt16)
    (f : DaspSession → DaspSession) (k : UInt16) :
    ((sessions.modify id f).get k).isSome = (sessions.get k).isSome := by
  rw [Table.get_modify]
  split_ifs
  · exact Option.isSome_map
  · rfl

theorem live_handleHello (hm : hdr.msgType = .hello) :
    Live (t.handleHello now nonce src hdr).1 k ↔
      (Live t k ∧ ¬ Ends sha1 t src hdr k) ∨ OpensId t src hdr k := by
  unfold Ends OpensId
  rw [hm]
  dsimp only
  by_cases hacc : helloAccepted hdr t
  · obtain ⟨id, next, halloc, hopen⟩ := handleHello_accepted now nonce src hacc
    obtain ⟨s, -, -, -, hget⟩ := openSession_get (t.dropPending src) now nonce src hdr id next k
    have hid : (∃ next, allocSessionId (t.dropPending src).sessions allocRounds
        (t.dropPending src).nextSessionId = some (k, next)) ↔ k = id := by
      rw [halloc]
      constructor
      · rintro ⟨next', h⟩
        exact (congrArg Prod.fst (Option.some.inj h)).symm
      · rintro rfl
        exact ⟨next, rfl⟩
    unfold Live
    rw [hopen, hget, hid, and_iff_right hacc, and_iff_right rfl, and_iff_right hacc]
    split_ifs with hk
    · simp [hk]
    · rw [dropPending_get, or_iff_left hk]
      split_ifs with haddr
      · simp [haddr]
      · simp [haddr]
  · rw [handleHello_rejected nonce hacc]
    simp [hacc]

theorem live_handleAuthenticate (hm : hdr.msgType = .authenticate) :
    Live (t.handleAuthenticate sha1 now src hdr).1 k ↔ Live t k ∧ ¬ Ends sha1 t src hdr k := by
  unfold Ends Live
  rw [hm]
  dsimp only
  unfold handleAuthenticate
  cases hs : t.sessions.get hdr.sessionId with
  | none =>
    dsimp only
    refine ⟨fun hk => ⟨hk, ?_⟩, fun h => h.1⟩
    rintro ⟨rfl, s, hs', -⟩
    rw [hs] at hs'
    cases hs'
  | some s =>
    dsimp only
    by_cases haddr : s.remoteAddr = src
    swap
    · rw [if_pos haddr]
      refine ⟨fun hk => ⟨hk, ?_⟩, fun h => h.1⟩
      rintro ⟨rfl, s', hs', haddr', -⟩
      rw [hs] at hs'
      cases hs'
      exact haddr haddr'
    rw [if_neg (not_not.2 haddr)]
    by_cases hwrong : DigestWrong sha1 t hdr s
    · have hguard := hwrong
      unfold DigestWrong at hguard
      rw [if_pos hguard]
      dsimp only
      rw [removeSession_get]
      split_ifs with hk
      · subst hk
        constructor
        · intro hnone
          cases hnone
        · rintro ⟨-, hends⟩
          exact absurd ⟨rfl, s, hs, haddr, hwrong⟩ hends
      · refine ⟨fun hlive => ⟨hlive, fun h => hk h.1.symm⟩, fun h => h.1⟩
    · have hguard := hwrong
      unfold DigestWrong at hguard
      rw [if_neg hguard]
      dsimp only
      rw [live_modify]
      refine ⟨fun hk => ⟨hk, ?_⟩, fun h => h.1⟩
      rintro ⟨rfl, s', hs', -, hwrong'⟩
      rw [hs] at hs'
      cases hs'
      exact hwrong hwrong'

theorem live_handleClose (hm : hdr.msgType = .close) :
    Live (t.handleClose hdr.sessionId) k ↔ Live t k ∧ ¬ Ends sha1 t src hdr k := by
  unfold Ends Live
  rw [hm, handleClose_get]
  dsimp only
  split_ifs with hk
  · simp [hk]
  · exact ⟨fun h => ⟨h, fun heq => hk heq.symm⟩, fun h => h.1⟩

theorem live_handleDatagram (payload : List UInt8) :
    Live (t.handleDatagram now src hdr payload).1 k ↔ Live t k := by
  unfold Live handleDatagram
  cases t.sessions.get hdr.sessionId with
  | none => rfl
  | some s =>
    dsimp only
    split_ifs
    · rfl
    · rfl
    · rw [live_modify]
    · rw [live_modify]

theorem not_opensId (hm : hdr.msgType ≠ .hello) : ¬ OpensId t src hdr k := fun h => hm h.1

theorem live_quiet {t' : DaspTransport} (hm : hdr.msgType ≠ .hello)
    (hends : ¬ Ends sha1 t src hdr k) (h : Live t' k ↔ Live t k) :
    Live t' k ↔ (Live t k ∧ ¬ Ends sha1 t src hdr k) ∨ OpensId t src hdr k := by
  rw [or_iff_left (not_opensId hm), and_iff_left hends]
  exact h

/-- The live sessions after a packet: those it did not end, and the one it opened. -/
theorem live_dispatch (data : List UInt8) :
    Live (t.dispatch sha1 now nonce src hdr data).1 k ↔
      (Live t k ∧ ¬ Ends sha1 t src hdr k) ∨ OpensId t src hdr k := by
  have hquiet : hdr.msgType ≠ .hello → hdr.msgType ≠ .authenticate → hdr.msgType ≠ .close →
      ¬ Ends sha1 t src hdr k := by
    intro hhello hauth hclose
    unfold Ends
    cases hm : hdr.msgType with
    | hello => exact absurd hm hhello
    | authenticate => exact absurd hm hauth
    | close => exact absurd hm hclose
    | _ => exact id
  cases hm : hdr.msgType with
  | hello =>
    unfold dispatch
    rw [hm]
    exact live_handleHello hm
  | authenticate =>
    unfold dispatch
    rw [hm, or_iff_left (not_opensId (by rw [hm]; decide))]
    exact live_handleAuthenticate hm
  | close =>
    unfold dispatch
    rw [hm, or_iff_left (not_opensId (by rw [hm]; decide))]
    exact live_handleClose hm
  | keepalive =>
    apply live_quiet (by rw [hm]; decide) (hquiet (by rw [hm]; decide) (by rw [hm]; decide)
      (by rw [hm]; decide))
    unfold dispatch Live
    rw [hm]
    dsimp only
    rw [handleKeepalive_get]
    split_ifs
    · rw [Option.isSome_map]
    · rfl
  | datagram =>
    apply live_quiet (by rw [hm]; decide) (hquiet (by rw [hm]; decide) (by rw [hm]; decide)
      (by rw [hm]; decide))
    unfold dispatch
    rw [hm]
    exact live_handleDatagram _
  | _ =>
    apply live_quiet (by rw [hm]; decide) (hquiet (by rw [hm]; decide) (by rw [hm]; decide)
      (by rw [hm]; decide))
    unfold dispatch
    rw [hm]

theorem live_sendAll (pushes : List Push) : Live (sendAll t pushes) k ↔ Live t k := by
  induction pushes generalizing t with
  | nil => rfl
  | cons push pushes ih =>
    refine (ih (t := (t.sendToSession push.1 push.2).1)).trans ?_
    unfold Live sendToSession
    cases t.sessions.get push.1 with
    | none => rfl
    | some s =>
      dsimp only
      rw [live_modify]

theorem live_delivered {packet payload : List UInt8} {sessionId : UInt16}
    (h : (t.poll sha1 now nonce src packet).2.1 = some (sessionId, payload)) :
    Live t sessionId ∧ (∀ k, Live (t.poll sha1 now nonce src packet).1 k ↔ Live t k) ∧
      ∀ hdr, parseHeader (packet.take recvBufSize) = .ok hdr → hdr.msgType = .datagram := by
  obtain ⟨s, hs, -⟩ := poll_some h
  refine ⟨?_, ?_⟩
  · unfold Live
    rw [hs]
    rfl
  · unfold poll at h ⊢
    dsimp only at h ⊢
    cases hp : parseHeader (packet.take recvBufSize) with
    | error err =>
      rw [hp] at h
      cases h
    | ok hdr =>
      rw [hp] at h
      dsimp only at h ⊢
      unfold dispatch at h ⊢
      cases hm : hdr.msgType with
      | datagram =>
        refine ⟨fun k => live_handleDatagram _, ?_⟩
        intro hdr' hhdr'
        cases hhdr'
        exact hm
      | _ =>
        rw [hm] at h
        cases h

end Live

section Requests

variable {t : Target} {S : Type} {sys : FileSystem t S} {f64 : F64Ops} {order : List UInt16}

structure Touches (sessionId : UInt16) (subs subs' : SubscriptionManager) : Prop where
  paired : subs'.Paired
  present : ∀ k, subs'.Present k → k = sessionId ∨ subs.Present k

theorem touches_refl {subs : SubscriptionManager} (h : subs.Paired) (sessionId : UInt16) :
    Touches sessionId subs subs :=
  ⟨h, fun _ hk => .inr hk⟩

theorem handleSubscribe_touches {subs : SubscriptionManager} (h : subs.Paired) (req : SoxRequest)
    (sessionId : UInt16) (tree : ComponentTree) :
    Touches sessionId subs (handleSubscribe order req subs sessionId tree).1 := by
  unfold handleSubscribe
  dsimp only
  by_cases hold : req.payload.length = 3
  · rw [if_pos hold]
    have hfirst := subs.subscribe_paired h sessionId
    refine ⟨SubscriptionManager.subscribeEach_paired (hfirst _) _ _, ?_⟩
    intro k hk
    rcases SubscriptionManager.present_subscribeEach (hfirst _) _ hk with heq | hk
    · exact .inl heq
    · exact SubscriptionManager.present_subscribe h _ hk
  · rw [if_neg hold]
    exact ⟨SubscriptionManager.subscribeEach_paired h _ _,
      fun k hk => SubscriptionManager.present_subscribeEach h _ hk⟩

theorem handleUnsubscribe_touches {subs : SubscriptionManager} (h : subs.Paired)
    (req : SoxRequest) (sessionId : UInt16) :
    Touches sessionId subs (handleUnsubscribe req subs sessionId).1 := by
  unfold handleUnsubscribe
  split
  · exact touches_refl h sessionId
  · exact ⟨SubscriptionManager.unsubscribe_paired h _ _,
      fun k hk => .inr (SubscriptionManager.present_unsubscribe h _ hk)⟩

theorem withChunk_subs {s s' : SoxServer S} {r : XferResult} {resp : SoxResponse}
    (h : withChunk s r = .ok (s', resp)) : s'.subs = s.subs := by
  obtain ⟨⟨xfer, resp'⟩, -, h⟩ := bind_ok h
  cases h
  rfl

theorem handleSoxRequestWithDyn_touches {req : SoxRequest} {s s' : SoxServer S}
    {sessionId : UInt16} {dynStore : Option DynSlotStore} {resp : SoxResponse} (hs : s.subs.Paired)
    (h : handleSoxRequestWithDyn sys f64 order req s sessionId dynStore = .ok (s', resp)) :
    Touches sessionId s.subs s'.subs := by
  unfold handleSoxRequestWithDyn at h
  cases hcmd : req.cmd with
  | subscribe =>
    rw [hcmd] at h
    cases h
    exact handleSubscribe_touches hs req sessionId s.tree
  | unsubscribe =>
    rw [hcmd] at h
    cases h
    exact handleUnsubscribe_touches hs req sessionId
  | fileRead =>
    rw [hcmd] at h
    rw [withChunk_subs h]
    exact touches_refl hs sessionId
  | fileWrite =>
    rw [hcmd] at h
    rw [withChunk_subs h]
    exact touches_refl hs sessionId
  | _ =>
    rw [hcmd] at h
    cases h
    exact touches_refl hs sessionId

theorem handlePayload_touches {dynStore : DynSlotStore} {sessionId : UInt16} {payload : List UInt8}
    {l l' : SoxLoop S} (hs : l.server.subs.Paired)
    (h : handlePayload sys f64 order dynStore sessionId payload l = .ok l') :
    Touches sessionId l.server.subs l'.server.subs ∧
      ∀ k, Live l'.transport k ↔ Live l.transport k := by
  unfold handlePayload at h
  split_ifs at h
  · obtain ⟨xfer, -, h⟩ := bind_ok h
    cases h
    exact ⟨touches_refl hs sessionId, fun _ => Iff.rfl⟩
  · cases hparse : SoxRequest.parse payload with
    | none =>
      rw [hparse] at h
      cases h
      exact ⟨touches_refl hs sessionId, fun _ => Iff.rfl⟩
    | some req =>
      rw [hparse] at h
      obtain ⟨⟨server, resp⟩, hresp, h⟩ := bind_ok h
      cases h
      exact ⟨handleSoxRequestWithDyn_touches hs hresp, fun k => live_sendAll _⟩

end Requests

section Sweep

variable {transport : DaspTransport} {k : UInt16}

theorem live_closeAll (expired : List UInt16) :
    Live (expired.foldl (fun transport id => transport.handleClose id) transport) k ↔
      Live transport k ∧ k ∉ expired := by
  induction expired generalizing transport with
  | nil => simp
  | cons id expired ih =>
    rw [List.foldl_cons, ih, List.mem_cons]
    unfold Live
    rw [handleClose_get]
    by_cases hk : k = id
    · simp [hk]
    · simp [hk]

theorem unsubscribeEach_present {subs : SubscriptionManager} (h : subs.Paired)
    (expired : List UInt16) :
    (expired.foldl SubscriptionManager.unsubscribeAll subs).Paired ∧
      ∀ k, (expired.foldl SubscriptionManager.unsubscribeAll subs).Present k ↔
        subs.Present k ∧ k ∉ expired := by
  induction expired generalizing subs with
  | nil => exact ⟨h, fun k => by simp⟩
  | cons id expired ih =>
    obtain ⟨hpaired, hpresent⟩ := ih (SubscriptionManager.unsubscribeAll_paired h id)
    refine ⟨hpaired, fun k => ?_⟩
    rw [List.foldl_cons, hpresent, SubscriptionManager.present_unsubscribeAll h, List.mem_cons]
    tauto

end Sweep

section Loop

variable {t : Target} {S : Type} (sys : FileSystem t S) (f64 : F64Ops)
  (sha1 : List UInt8 → Vector UInt8 20)

/-- Every session id in the subscription manager is that of a live session. -/
def InStep (l : SoxLoop S) : Prop := ∀ k, l.server.subs.Present k → Live l.transport k

/-- What one event must respect, said of the state before it: a packet ends no session
    that has subscriptions, and a session with subscriptions does not expire between the
    two readings of a sweep. -/
def OrderlyEvent (l : SoxLoop S) : LoopEvent → Prop
  | .datagram _ _ src packet _ _ => ∀ hdr, parseHeader (packet.take recvBufSize) = .ok hdr →
      ∀ k, Ends sha1 l.transport src hdr k → ¬ l.server.subs.Present k
  | .cleanup ids clock elapsed => ∀ k,
      k ∈ expiredSessionIds (fun id => clock id + elapsed id) ids l.transport →
      k ∉ expiredSessionIds clock ids l.transport → ¬ l.server.subs.Present k
  | .refresh _ _ => True

def Orderly (s : Except Fault (SoxLoop S)) (e : LoopEvent) : Prop :=
  ∀ l, s = .ok l → OrderlyEvent sha1 l e

/-- A session that the event opens has no subscriptions after it. -/
def StartsClean (s : Except Fault (SoxLoop S)) (e : LoopEvent) : Prop :=
  ∀ l l' now nonce src packet order dynStore hdr k, s = .ok l →
    e = .datagram now nonce src packet order dynStore →
    loopStep sys f64 sha1 s e = .ok l' → parseHeader (packet.take recvBufSize) = .ok hdr →
    OpensId l.transport src hdr k → ¬ l'.server.subs.Present k

/-- The invariant: the two maps of the manager agree, and their sessions are live. -/
structure Kept (l : SoxLoop S) : Prop where
  paired : l.server.subs.Paired
  inStep : InStep l

variable {sys f64 sha1}

theorem handleLoopEvent_silent {l : SoxLoop S} {now : ℕ} {nonce : List UInt8} {src : SocketAddr}
    {packet : List UInt8} {order : List UInt16} {dynStore : DynSlotStore}
    (h : (l.transport.poll sha1 now nonce src packet).2.1 = none) :
    handleLoopEvent sys f64 sha1 l (.datagram now nonce src packet order dynStore) =
      .ok { l with transport := (l.transport.poll sha1 now nonce src packet).1 } := by
  unfold handleLoopEvent
  dsimp only
  rcases hpoll : l.transport.poll sha1 now nonce src packet with ⟨transport, delivered, sends⟩
  rw [hpoll] at h
  obtain rfl : delivered = none := h
  rfl

theorem handleLoopEvent_delivered {l l' : SoxLoop S} {now : ℕ} {nonce : List UInt8}
    {src : SocketAddr} {packet payload : List UInt8} {order : List UInt16} {dynStore : DynSlotStore}
    {sessionId : UInt16} (hpaired : l.server.subs.Paired)
    (h : (l.transport.poll sha1 now nonce src packet).2.1 = some (sessionId, payload))
    (hstep : handleLoopEvent sys f64 sha1 l (.datagram now nonce src packet order dynStore) =
      .ok l') :
    Touches sessionId l.server.subs l'.server.subs ∧
      (∀ k, Live l'.transport k ↔ Live l.transport k) ∧ Live l.transport sessionId := by
  obtain ⟨hlive, hsame, -⟩ := live_delivered h
  unfold handleLoopEvent at hstep
  dsimp only at hstep
  rcases hpoll : l.transport.poll sha1 now nonce src packet with ⟨transport, delivered, sends⟩
  rw [hpoll] at h hsame hstep
  obtain rfl : delivered = some (sessionId, payload) := h
  obtain ⟨htouches, hkeeps⟩ := handlePayload_touches (l := ⟨transport, l.server⟩) hpaired hstep
  exact ⟨htouches, fun k => (hkeeps k).trans (hsame k), hlive⟩

theorem live_poll {transport : DaspTransport} {now : ℕ} {nonce : List UInt8} {src : SocketAddr}
    {packet : List UInt8} {hdr : DaspHeader} (h : parseHeader (packet.take recvBufSize) = .ok hdr)
    (k : UInt16) :
    Live (transport.poll sha1 now nonce src packet).1 k ↔
      (Live transport k ∧ ¬ Ends sha1 transport src hdr k) ∨ OpensId transport src hdr k := by
  unfold poll
  dsimp only
  rw [h]
  exact live_dispatch _

theorem ends_of_opensId {transport : DaspTransport} {src : SocketAddr} {hdr : DaspHeader}
    {k : UInt16} (h : OpensId transport src hdr k) (hlive : Live transport k) :
    Ends sha1 transport src hdr k := by
  obtain ⟨hm, hacc, next, halloc⟩ := h
  have hfree := (allocSessionId_spec halloc).2
  rw [dropPending_get] at hfree
  unfold Ends
  rw [hm]
  refine ⟨hacc, ?_⟩
  by_contra haddr
  rw [if_neg haddr] at hfree
  unfold Live at hlive
  rw [hfree] at hlive
  cases hlive

theorem kept_datagram {l l' : SoxLoop S} {now : ℕ} {nonce : List UInt8} {src : SocketAddr}
    {packet : List UInt8} {order : List UInt16} {dynStore : DynSlotStore} (hl : Kept l)
    (hok : OrderlyEvent sha1 l (.datagram now nonce src packet order dynStore))
    (hstep : handleLoopEvent sys f64 sha1 l (.datagram now nonce src packet order dynStore) =
      .ok l') :
    Kept l' ∧ ∀ hdr k, parseHeader (packet.take recvBufSize) = .ok hdr →
      OpensId l.transport src hdr k → ¬ l'.server.subs.Present k := by
  cases hdelivered : (l.transport.poll sha1 now nonce src packet).2.1 with
  | some message =>
    obtain ⟨sessionId, payload⟩ := message
    obtain ⟨htouches, hlive, hsession⟩ := handleLoopEvent_delivered hl.paired hdelivered hstep
    refine ⟨⟨htouches.paired, ?_⟩, ?_⟩
    · intro k hk
      rw [hlive]
      rcases htouches.present k hk with rfl | hk
      · exact hsession
      · exact hl.inStep k hk
    · intro hdr k hhdr hopens
      obtain ⟨-, -, hdatagram⟩ := live_delivered hdelivered
      cases (hdatagram hdr hhdr).symm.trans hopens.1
  | none =>
    rw [handleLoopEvent_silent hdelivered] at hstep
    cases hstep
    refine ⟨⟨hl.paired, ?_⟩, ?_⟩
    · intro k hk
      cases hhdr : parseHeader (packet.take recvBufSize) with
      | error err =>
        have hsame : (l.transport.poll sha1 now nonce src packet).1 = l.transport := by
          unfold poll
          dsimp only
          rw [hhdr]
        dsimp only
        rw [hsame]
        exact hl.inStep k hk
      | ok hdr =>
        refine (live_poll hhdr k).2 (.inl ⟨hl.inStep k hk, ?_⟩)
        intro hends
        exact hok hdr hhdr k hends hk
    · intro hdr k hhdr hopens hk
      exact hok hdr hhdr k (ends_of_opensId hopens (hl.inStep k hk)) hk

theorem kept_cleanup {l : SoxLoop S} {ids : List UInt16} {clock elapsed : UInt16 → ℕ}
    (hl : Kept l) (hok : OrderlyEvent sha1 l (.cleanup ids clock elapsed)) :
    Kept (cleanup ids clock elapsed l) := by
  obtain ⟨hpaired, hpresent⟩ :=
    unsubscribeEach_present hl.paired (expiredSessionIds clock ids l.transport)
  refine ⟨hpaired, ?_⟩
  intro k hk
  obtain ⟨hk, hnot⟩ := (hpresent k).1 hk
  refine (live_closeAll _).2 ⟨hl.inStep k hk, ?_⟩
  intro hexpired
  exact hok k hexpired hnot hk

theorem kept_refresh {l : SoxLoop S} (hl : Kept l) (tree : ComponentTree) (pushes : List Push) :
    Kept (⟨sendAll l.transport pushes, { l.server with tree := tree }⟩ : SoxLoop S) := by
  refine ⟨hl.paired, ?_⟩
  intro k hk
  exact (live_sendAll pushes).2 (hl.inStep k hk)

variable (sys f64) in
theorem datagram_disorderly {l : SoxLoop S} {now : ℕ} {nonce : List UInt8} {src : SocketAddr}
    {packet : List UInt8} {order : List UInt16} {dynStore : DynSlotStore}
    (hbad : ¬ OrderlyEvent sha1 l (.datagram now nonce src packet order dynStore)) :
    ∃ l', handleLoopEvent sys f64 sha1 l (.datagram now nonce src packet order dynStore) =
        .ok l' ∧
      ∃ hdr k, parseHeader (packet.take recvBufSize) = .ok hdr ∧ l'.server.subs.Present k ∧
        (¬ Live l'.transport k ∨ OpensId l.transport src hdr k) := by
  unfold OrderlyEvent at hbad
  push Not at hbad
  obtain ⟨hdr, hhdr, k, hends, hk⟩ := hbad
  have hsilent : (l.transport.poll sha1 now nonce src packet).2.1 = none := by
    cases hdelivered : (l.transport.poll sha1 now nonce src packet).2.1 with
    | none => rfl
    | some message =>
      obtain ⟨-, -, hdatagram⟩ := live_delivered hdelivered
      unfold Ends at hends
      rw [hdatagram hdr hhdr] at hends
      exact absurd hends id
  refine ⟨_, handleLoopEvent_silent hsilent, hdr, k, hhdr, hk, ?_⟩
  by_cases hopens : OpensId l.transport src hdr k
  · exact .inr hopens
  · left
    rw [live_poll hhdr k, or_iff_left hopens]
    exact fun h => h.2 hends

/-- A session that expires between the two readings leaves its subscriptions behind. -/
theorem cleanup_disorderly {l : SoxLoop S} {ids : List UInt16} {clock elapsed : UInt16 → ℕ}
    (hl : Kept l) (hbad : ¬ OrderlyEvent sha1 l (.cleanup ids clock elapsed)) :
    ¬ InStep (cleanup ids clock elapsed l) := by
  unfold OrderlyEvent at hbad
  push Not at hbad
  obtain ⟨k, hexpired, hnot, hk⟩ := hbad
  obtain ⟨-, hpresent⟩ :=
    unsubscribeEach_present hl.paired (expiredSessionIds clock ids l.transport)
  intro hinStep
  have hlive := hinStep k ((hpresent k).2 ⟨hk, hnot⟩)
  exact ((live_closeAll _).1 hlive).2 hexpired

theorem kept_loopStep (s : Except Fault (SoxLoop S)) (e : LoopEvent)
    (hs : ∀ l, s = .ok l → Kept l) (hok : Orderly sha1 s e) :
    (∀ l, loopStep sys f64 sha1 s e = .ok l → Kept l) ∧ StartsClean sys f64 sha1 s e := by
  cases s with
  | error fault =>
    refine ⟨fun l hl => ?_, fun l _ _ _ _ _ _ _ _ _ hl => ?_⟩
    · cases hl
    · cases hl
  | ok l =>
    have hl := hs l rfl
    have hevent := hok l rfl
    cases e with
    | datagram now nonce src packet order dynStore =>
      refine ⟨fun l' hl' => (kept_datagram hl hevent hl').1, ?_⟩
      intro l₀ l' now' nonce' src' packet' order' dynStore' hdr k hl₀ he hl' hhdr hopens
      cases hl₀
      cases he
      exact (kept_datagram hl hevent hl').2 hdr k hhdr hopens
    | cleanup ids clock elapsed =>
      refine ⟨fun l' hl' => ?_, fun _ _ _ _ _ _ _ _ _ _ _ he => ?_⟩
      · cases hl'
        exact kept_cleanup hl hevent
      · cases he
    | refresh tree pushes =>
      refine ⟨fun l' hl' => ?_, fun _ _ _ _ _ _ _ _ _ _ _ he => ?_⟩
      · cases hl'
        exact kept_refresh hl tree pushes
      · cases he

theorem loopStep_disorderly (s : Except Fault (SoxLoop S)) (e : LoopEvent)
    (hs : ∀ l, s = .ok l → Kept l) (hbad : ¬ Orderly sha1 s e) :
    ¬ ((∀ l, loopStep sys f64 sha1 s e = .ok l → InStep l) ∧ StartsClean sys f64 sha1 s e) := by
  rintro ⟨hinStep, hclean⟩
  unfold Orderly at hbad
  push Not at hbad
  obtain ⟨l, rfl, hbad⟩ := hbad
  cases e with
  | datagram now nonce src packet order dynStore =>
    obtain ⟨l', hl', hdr, k, hhdr, hk, hdead | hopens⟩ :=
      datagram_disorderly sys f64 hbad
    · exact hdead (hinStep l' hl' k hk)
    · exact hclean l l' now nonce src packet order dynStore hdr k rfl rfl hl' hhdr hopens hk
  | cleanup ids clock elapsed =>
    exact cleanup_disorderly (hs l rfl) hbad (hinStep _ rfl)
  | refresh tree pushes => exact hbad trivial

variable (sys f64 sha1)

/-- Over every run of the loop, the subscription manager holds live sessions only and no
    session starts with subscriptions, exactly when no packet ends a session that has
    some and none that has some expires between the two readings of a sweep. -/
theorem subscriptions_inStep_iff_orderly (credentials : Vector UInt8 20) (tree : ComponentTree)
    (fs : S) (es : List LoopEvent) :
    ((∀ s ∈ states (loopStep sys f64 sha1) (.ok (SoxLoop.start credentials tree fs)) es,
        ∀ l, s = .ok l → InStep l) ∧
      Along (loopStep sys f64 sha1) (StartsClean sys f64 sha1)
        (.ok (SoxLoop.start credentials tree fs)) es) ↔
      Along (loopStep sys f64 sha1) (Orderly sha1) (.ok (SoxLoop.start credentials tree fs)) es := by
  apply states_along_iff_along (loopStep sys f64 sha1) (I := fun s => ∀ l, s = .ok l → Kept l)
  · intro s hs l hl
    exact (hs l hl).inStep
  · exact kept_loopStep
  · exact loopStep_disorderly
  · intro l hl
    cases hl
    refine ⟨SubscriptionManager.new_paired, ?_⟩
    intro k hk
    exact absurd hk (SubscriptionManager.new_not_present k)

/-- A client connects, subscribes to a component and closes its session. -/
def sampleRun : List LoopEvent :=
  let event packet :=
    LoopEvent.datagram 0 sampleNonce client packet [] (DynSlotStore.new 64 10000)
  [event (encodeMessage { DaspHeader.bare noSession 0 .hello with remoteId := some 7 } []),
    event (encodeMessage
      { DaspHeader.bare 1 1 .authenticate with
        digest := some (computeAuthDigest sampleSha1 sampleCredentials sampleNonce).toList } []),
    event (encodeMessage (DaspHeader.bare 1 2 .datagram) [115, 1, 0xFF, 1, 0, 5]),
    event (encodeMessage (DaspHeader.bare 1 3 .close) [])]

/-- The close ends session 1, and its subscription stays. -/
theorem close_leaves_subscriptions :
    ¬ ∀ s ∈ states (loopStep (diskFileSystem ⟨.bits64, .debug⟩) nativeF64 sampleSha1)
        (.ok (SoxLoop.start sampleCredentials ComponentTree.new [])) sampleRun,
      ∀ l, s = .ok l → InStep l := by
  intro h
  have hlast := h _ (run_mem_states _ _ _)
  have hrun : (run (loopStep (diskFileSystem ⟨.bits64, .debug⟩) nativeF64 sampleSha1)
      (.ok (SoxLoop.start sampleCredentials ComponentTree.new [])) sampleRun).map
        (fun l => ((l.server.subs.bySession.get 1).isSome, (l.transport.sessions.get 1).isSome)) =
      .ok (true, false) := by
    decide +kernel
  cases hl : run (loopStep (diskFileSystem ⟨.bits64, .debug⟩) nativeF64 sampleSha1)
      (.ok (SoxLoop.start sampleCredentials ComponentTree.new [])) sampleRun with
  | error fault =>
    rw [hl] at hrun
    cases hrun
  | ok l =>
    rw [hl] at hrun
    have hpair := Prod.mk.inj (Except.ok.inj hrun)
    have hlive : Live l.transport 1 := hlast l hl 1 (.inr hpair.1)
    unfold Live at hlive
    rw [hpair.2] at hlive
    cases hlive

end Loop
end Sandstar.SoxServerLoop
