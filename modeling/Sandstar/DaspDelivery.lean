import Sandstar.DaspAuthentication
import Sandstar.DaspRoundTrip

set_option autoImplicit false

/-!
# Delivery of a session's messages

A client numbers its messages and keeps to the receive window; the network hands any
copy of any of them to the server, as often and in whatever order it likes. The server
stores the number of the last message and compares it with nothing, so what it returns
is in order and without repetition exactly when the copies arrive so.
-/
namespace Sandstar.Dasp
open Cursor DaspTransport

/-- The number of the `i`-th message: consecutive, with 0xffff left out. -/
def seqOf (first i : ℕ) : UInt16 := UInt16.ofNat ((first + i) % 65535)

def messageHeader (id seqNum : UInt16) (ack : Option UInt16) : DaspHeader :=
  { DaspHeader.bare id seqNum .datagram with ack := ack }

/-- `arrived` are the messages with a payload whose copies found the session live, and
    `returned` what `poll` gave for them. -/
structure World where
  server : DaspTransport
  sent : List (List UInt8)
  acked : List ℕ
  acks : List UInt16
  arrived : List ℕ
  returned : List (ℕ × List UInt8)

def World.init (server : DaspTransport) : World := ⟨server, [], [], [], [], []⟩

inductive NetEvent where
  | clientSend (payload : List UInt8)
  | deliver (i : ℕ) (ack : Option UInt16) (now : ℕ) (nonce : List UInt8)
  | clientAck (k : ℕ)
  | other (e : DaspEvent)

def live (addr : SocketAddr) (id : UInt16) (t : DaspTransport) : Bool :=
  (t.sessions.get id).any fun s => s.authenticated && s.remoteAddr = addr

def daspSends (sha1 : List UInt8 → Vector UInt8 20) (t : DaspTransport) :
    DaspEvent → List Outgoing
  | .datagram now nonce src packet => (t.poll sha1 now nonce src packet).2.2
  | .cleanup now ids => (t.cleanupExpired now ids).2
  | .send id payload => (t.sendToSession id payload).2

def acksTo (addr : SocketAddr) (sends : List Outgoing) : List UInt16 :=
  (sends.filter fun o => o.addr = addr).filterMap fun o => o.header.ack

section Net

variable (sha1 : List UInt8 → Vector UInt8 20) (addr : SocketAddr) (id : UInt16) (first : ℕ)

def World.unacked (w : World) : List ℕ :=
  (List.range w.sent.length).filter fun i => i ∉ w.acked

def ownMessage : DaspEvent → Bool
  | .datagram _ _ src packet =>
    match parseHeader (packet.take recvBufSize) with
    | .ok hdr => src = addr && hdr.msgType = .datagram && hdr.sessionId = id
    | .error _ => false
  | _ => false

/-- A copy of the message, the first or a later one, with whatever acknowledgement the
    client sends along. -/
def deliverCopy (i : ℕ) (ack : Option UInt16) (now : ℕ) (nonce payload : List UInt8) (w : World) :
    World :=
  let packet := encodeMessage (messageHeader id (seqOf first i) ack) payload
  let r := w.server.poll sha1 now nonce addr packet
  { w with
    server := r.1
    acks := w.acks ++ acksTo addr r.2.2
    arrived := w.arrived ++ if live addr id w.server && !payload.isEmpty then [i] else []
    returned := w.returned ++ r.2.1.toList.map fun e => (i, e.2) }

/-- An event that cannot happen changes nothing. -/
def netStep (w : World) : NetEvent → World
  | .clientSend payload =>
    if w.unacked.length < receiveMaxDefault.toNat then { w with sent := w.sent ++ [payload] }
    else w
  | .deliver i ack now nonce =>
    match w.sent[i]? with
    | none => w
    | some payload => deliverCopy sha1 addr id first i ack now nonce payload w
  | .clientAck k =>
    match w.acks[k]? with
    | none => w
    | some seqNum =>
      { w with acked := w.acked ++ w.unacked.filter fun i => seqOf first i = seqNum }
  | .other e =>
    if ownMessage addr id e then w
    else
      { w with
        server := daspStep sha1 w.server e
        acks := w.acks ++ acksTo addr (daspSends sha1 w.server e) }

/-- A copy that carries a payload finds the session live only if neither the message nor
    a later one did so before, and if it fits the receive buffer. -/
def ArrivesInOrder (w : World) : NetEvent → Prop
  | .deliver i ack _ _ => ∀ payload, w.sent[i]? = some payload → live addr id w.server = true →
      payload ≠ [] → (∀ j ∈ w.arrived, j < i) ∧
        (encodeMessage (messageHeader id (seqOf first i) ack) payload).length ≤ recvBufSize
  | _ => True

end Net

/-- The payloads returned are a subsequence of those sent: every entry is the message it
    stands for, and no message comes twice or after a later one. -/
structure InOrder (w : World) : Prop where
  sublist : (w.returned.map Prod.snd).Sublist w.sent
  ordered : (w.returned.map Prod.fst).Pairwise (· < ·)
  genuine : ∀ e ∈ w.returned, w.sent[e.1]? = some e.2

theorem messageHeader_encodable (id seqNum : UInt16) (ack : Option UInt16) :
    Encodable (messageHeader id seqNum ack) := by
  refine ⟨fun s hs => ?_, fun b hb => ?_⟩
  · rcases hs with hs | hs | hs <;> cases hs
  · rcases hb with hb | hb | hb <;> cases hb

theorem encodeMessage_append (hdr : DaspHeader) (payload : List UInt8) :
    encodeMessage hdr payload = encodeMessage hdr [] ++ payload := by
  unfold encodeMessage
  rw [List.append_nil]

theorem messageHeader_length (id seqNum : UInt16) (ack : Option UInt16) :
    (encodeMessage (messageHeader id seqNum ack) []).length ≤ 8 := by
  cases ack with
  | none => exact Nat.le_of_ble_eq_true rfl
  | some q => exact Nat.le_of_ble_eq_true rfl

def received (hdr : DaspHeader) (payload : List UInt8) : List UInt8 :=
  payload.take (recvBufSize - (encodeMessage hdr []).length)

theorem take_encodeMessage {hdr : DaspHeader} (payload : List UInt8)
    (h : (encodeMessage hdr []).length ≤ recvBufSize) :
    (encodeMessage hdr payload).take recvBufSize = encodeMessage hdr (received hdr payload) := by
  rw [encodeMessage_append, List.take_append, List.take_of_length_le h,
    encodeMessage_append hdr (received hdr payload)]
  rfl

theorem received_eq_iff {hdr : DaspHeader} {payload : List UInt8}
    (h : (encodeMessage hdr []).length ≤ recvBufSize) :
    received hdr payload = payload ↔ (encodeMessage hdr payload).length ≤ recvBufSize := by
  unfold received
  rw [List.take_eq_self_iff, encodeMessage_append hdr payload, List.length_append]
  omega

theorem received_isEmpty {hdr : DaspHeader} {payload : List UInt8}
    (h : (encodeMessage hdr []).length < recvBufSize) :
    (received hdr payload).isEmpty = payload.isEmpty := by
  unfold received
  obtain ⟨n, hn⟩ : ∃ n, recvBufSize - (encodeMessage hdr []).length = n + 1 :=
    ⟨recvBufSize - (encodeMessage hdr []).length - 1, by omega⟩
  rw [hn]
  cases payload <;> rfl

theorem handleDatagram_returns (now : ℕ) (addr : SocketAddr) (hdr : DaspHeader)
    (payload : List UInt8) (t : DaspTransport) :
    (t.handleDatagram now addr hdr payload).2.1 =
      if live addr hdr.sessionId t && !payload.isEmpty then some (hdr.sessionId, payload)
      else none := by
  unfold handleDatagram live
  cases hs : t.sessions.get hdr.sessionId with
  | none => rfl
  | some s =>
    by_cases hauth : s.authenticated = true
    · by_cases haddr : s.remoteAddr = addr
      · cases payload <;> simp [hauth, haddr]
      · simp [hauth, haddr]
    · simp [hauth]

/-- A copy is returned, cut to the receive buffer, whenever it finds the session live and
    carries a payload; its number plays no part. -/
theorem poll_copy (sha1 : List UInt8 → Vector UInt8 20) (now : ℕ) (nonce : List UInt8)
    (addr : SocketAddr) (id seqNum : UInt16) (ack : Option UInt16) (payload : List UInt8)
    (t : DaspTransport) :
    (t.poll sha1 now nonce addr (encodeMessage (messageHeader id seqNum ack) payload)).2.1 =
      if live addr id t && !payload.isEmpty then
        some (id, received (messageHeader id seqNum ack) payload)
      else none := by
  have hlen := messageHeader_length id seqNum ack
  have hroom : (encodeMessage (messageHeader id seqNum ack) []).length < recvBufSize :=
    Nat.lt_of_le_of_lt hlen (by decide)
  unfold poll
  rw [take_encodeMessage payload (Nat.le_of_lt hroom)]
  dsimp only
  rw [parseHeader_encodeMessage (messageHeader_encodable id seqNum ack)]
  change (t.handleDatagram now addr _ (List.drop _ _)).2.1 = _
  rw [drop_encodeMessage, handleDatagram_returns, received_isEmpty hroom]
  rfl

/-- Entries taken at increasing positions form a subsequence. -/
theorem sublist_of_ordered {α : Type} {l : List α} {es : List (ℕ × α)}
    (hord : (es.map Prod.fst).Pairwise (· < ·)) (hget : ∀ e ∈ es, l[e.1]? = some e.2) :
    (es.map Prod.snd).Sublist l := by
  induction es using List.reverseRecOn generalizing l with
  | nil => exact List.nil_sublist l
  | append_singleton es e ih =>
    rw [List.map_append, List.pairwise_append] at hord
    have he : l[e.1]? = some e.2 := hget e (by simp)
    obtain ⟨hlt, hval⟩ := List.getElem?_eq_some_iff.1 he
    have hinit : (es.map Prod.snd).Sublist (l.take e.1) := by
      refine ih hord.1 fun e' he' => ?_
      have hbelow : e'.1 < e.1 :=
        hord.2.2 e'.1 (List.mem_map_of_mem he') e.1 (List.mem_map_of_mem (List.mem_singleton.2 rfl))
      rw [List.getElem?_take_of_lt hbelow]
      exact hget e' (List.mem_append_left _ he')
    have hsplit : l.take e.1 ++ [e.2] = l.take (e.1 + 1) := by
      rw [← hval, List.take_append_getElem hlt]
    rw [List.map_append]
    refine (hinit.append (List.Sublist.refl [e.2])).trans ?_
    rw [hsplit]
    exact List.take_sublist _ _

section Net

variable {sha1 : List UInt8 → Vector UInt8 20} {addr : SocketAddr} {id : UInt16} {first : ℕ}

/-- One payload is returned for each copy that arrives, in the order of arrival: that of
    the message, or what the receive buffer leaves of it. -/
structure AsArrived (w : World) : Prop where
  arrived : w.returned.map Prod.fst = w.arrived
  sent : ∀ e ∈ w.returned, ∃ payload, w.sent[e.1]? = some payload ∧ e.2 <+: payload ∧
    (payload.length + 8 ≤ recvBufSize → e.2 = payload)

theorem inOrder_of_ordered {w : World} (hord : (w.returned.map Prod.fst).Pairwise (· < ·))
    (hgen : ∀ e ∈ w.returned, w.sent[e.1]? = some e.2) : InOrder w :=
  ⟨sublist_of_ordered hord hgen, hord, hgen⟩

theorem init_asArrived (t : DaspTransport) : AsArrived (World.init t) :=
  ⟨rfl, fun _ he => (nomatch he)⟩

theorem init_inOrder (t : DaspTransport) : InOrder (World.init t) :=
  inOrder_of_ordered List.Pairwise.nil fun _ he => (nomatch he)

theorem getElem?_concat {α : Type} {l : List α} {i : ℕ} {a : α} (b : α) (h : l[i]? = some a) :
    (l ++ [b])[i]? = some a := by
  obtain ⟨hlt, -⟩ := List.getElem?_eq_some_iff.1 h
  rw [List.getElem?_append_left hlt]
  exact h

section Copy

variable {i : ℕ} {ack : Option UInt16} {now : ℕ} {nonce payload : List UInt8} {w : World}

theorem deliverCopy_returned :
    (deliverCopy sha1 addr id first i ack now nonce payload w).returned =
      w.returned ++ if live addr id w.server && !payload.isEmpty then
        [(i, received (messageHeader id (seqOf first i) ack) payload)] else [] := by
  change w.returned ++ ((w.server.poll sha1 now nonce addr _).2.1.toList.map _) = _
  rw [poll_copy]
  split_ifs <;> rfl

theorem deliverCopy_arrived :
    (deliverCopy sha1 addr id first i ack now nonce payload w).arrived =
      w.arrived ++ if live addr id w.server && !payload.isEmpty then [i] else [] := rfl

theorem mem_deliverCopy_returned {e : ℕ × List UInt8}
    (he : e ∈ (deliverCopy sha1 addr id first i ack now nonce payload w).returned) :
    e ∈ w.returned ∨ (live addr id w.server = true ∧ payload ≠ [] ∧
      e = (i, received (messageHeader id (seqOf first i) ack) payload)) := by
  rw [deliverCopy_returned] at he
  rcases List.mem_append.1 he with he | he
  · exact Or.inl he
  · split_ifs at he with h
    · obtain ⟨hlive, hne⟩ := Bool.and_eq_true_iff.1 h
      exact Or.inr ⟨hlive, by simpa using hne, List.mem_singleton.1 he⟩
    · cases he

theorem received_eq {hdr : DaspHeader} (h : (encodeMessage hdr []).length ≤ 8)
    (hlen : payload.length + 8 ≤ recvBufSize) : received hdr payload = payload := by
  unfold received
  rw [List.take_eq_self_iff]
  omega

theorem deliverCopy_asArrived (hw : AsArrived w) (hs : w.sent[i]? = some payload) :
    AsArrived (deliverCopy sha1 addr id first i ack now nonce payload w) := by
  refine ⟨?_, fun e he => ?_⟩
  · rw [deliverCopy_returned, deliverCopy_arrived, List.map_append, hw.arrived]
    split_ifs <;> rfl
  · rcases mem_deliverCopy_returned he with he | ⟨-, -, rfl⟩
    · exact hw.sent e he
    · exact ⟨payload, hs, List.take_prefix _ _, received_eq (messageHeader_length _ _ _)⟩

theorem deliverCopy_inOrder (ha : AsArrived w) (hw : InOrder w) (hs : w.sent[i]? = some payload)
    (hok : live addr id w.server = true → payload ≠ [] → (∀ j ∈ w.arrived, j < i) ∧
      (encodeMessage (messageHeader id (seqOf first i) ack) payload).length ≤ recvBufSize) :
    InOrder (deliverCopy sha1 addr id first i ack now nonce payload w) := by
  have hroom : (encodeMessage (messageHeader id (seqOf first i) ack) []).length ≤ recvBufSize :=
    (messageHeader_length id (seqOf first i) ack).trans (by decide)
  refine inOrder_of_ordered ?_ fun e he => ?_
  · rw [deliverCopy_returned]
    split_ifs with h
    · obtain ⟨hlive, hne⟩ := Bool.and_eq_true_iff.1 h
      obtain ⟨hlt, -⟩ := hok hlive (by simpa using hne)
      rw [List.map_append, List.pairwise_append]
      refine ⟨hw.ordered, List.pairwise_singleton _ _, fun j hj k hk => ?_⟩
      rw [ha.arrived] at hj
      rw [List.mem_singleton.1 hk]
      exact hlt j hj
    · rw [List.append_nil]
      exact hw.ordered
  · rcases mem_deliverCopy_returned he with he | ⟨hlive, hne, rfl⟩
    · exact hw.genuine e he
    · obtain ⟨-, hlen⟩ := hok hlive hne
      change w.sent[i]? = some (received _ payload)
      rw [(received_eq_iff hroom).2 hlen]
      exact hs

/-- One copy out of order, or too long, and the returned payloads are wrong at once. -/
theorem arrives_of_deliverCopy_inOrder (ha : AsArrived w) (hs : w.sent[i]? = some payload)
    (hin : InOrder (deliverCopy sha1 addr id first i ack now nonce payload w))
    (hlive : live addr id w.server = true) (hne : payload ≠ []) :
    (∀ j ∈ w.arrived, j < i) ∧
      (encodeMessage (messageHeader id (seqOf first i) ack) payload).length ≤ recvBufSize := by
  have hroom : (encodeMessage (messageHeader id (seqOf first i) ack) []).length ≤ recvBufSize :=
    (messageHeader_length id (seqOf first i) ack).trans (by decide)
  have hret : (deliverCopy sha1 addr id first i ack now nonce payload w).returned =
      w.returned ++ [(i, received (messageHeader id (seqOf first i) ack) payload)] := by
    rw [deliverCopy_returned, if_pos (by simpa [hlive] using hne)]
  constructor
  · have hord := hin.ordered
    rw [hret, List.map_append, List.pairwise_append, ha.arrived] at hord
    exact fun j hj => hord.2.2 j hj i (List.mem_singleton.2 rfl)
  · have hgen := hin.genuine (i, received (messageHeader id (seqOf first i) ack) payload)
      (by rw [hret]; exact List.mem_append_right _ (List.mem_singleton.2 rfl))
    change w.sent[i]? = some _ at hgen
    rw [hs] at hgen
    exact (received_eq_iff hroom).1 (Option.some.inj hgen).symm

end Copy

theorem netStep_asArrived (w : World) (e : NetEvent) (hw : AsArrived w) :
    AsArrived (netStep sha1 addr id first w e) := by
  cases e with
  | clientSend payload =>
    unfold netStep
    dsimp only
    split_ifs
    · refine ⟨hw.arrived, fun e he => ?_⟩
      obtain ⟨p, hp, hrest⟩ := hw.sent e he
      exact ⟨p, getElem?_concat payload hp, hrest⟩
    · exact hw
  | deliver i ack now nonce =>
    unfold netStep
    dsimp only
    cases hs : w.sent[i]? with
    | none => exact hw
    | some payload => exact deliverCopy_asArrived hw hs
  | clientAck k =>
    unfold netStep
    dsimp only
    split
    · exact hw
    · exact ⟨hw.arrived, hw.sent⟩
  | other e =>
    unfold netStep
    dsimp only
    split_ifs
    · exact hw
    · exact ⟨hw.arrived, hw.sent⟩

theorem netStep_inOrder (w : World) (e : NetEvent) (ha : AsArrived w) (hw : InOrder w)
    (hok : ArrivesInOrder addr id first w e) : InOrder (netStep sha1 addr id first w e) := by
  cases e with
  | clientSend payload =>
    unfold netStep
    dsimp only
    split_ifs
    · exact inOrder_of_ordered hw.ordered fun e he => getElem?_concat payload (hw.genuine e he)
    · exact hw
  | deliver i ack now nonce =>
    unfold netStep
    dsimp only
    cases hs : w.sent[i]? with
    | none => exact hw
    | some payload => exact deliverCopy_inOrder ha hw hs (hok payload hs)
  | clientAck k =>
    unfold netStep
    dsimp only
    split
    · exact hw
    · exact ⟨hw.sublist, hw.ordered, hw.genuine⟩
  | other e =>
    unfold netStep
    dsimp only
    split_ifs
    · exact hw
    · exact ⟨hw.sublist, hw.ordered, hw.genuine⟩

theorem arrivesInOrder_of_netStep (w : World) (e : NetEvent) (ha : AsArrived w)
    (hin : InOrder (netStep sha1 addr id first w e)) : ArrivesInOrder addr id first w e := by
  cases e with
  | clientSend payload => trivial
  | deliver i ack now nonce =>
    intro payload hs
    unfold netStep at hin
    dsimp only at hin
    rw [hs] at hin
    exact arrives_of_deliverCopy_inOrder ha hs hin
  | clientAck k => trivial
  | other e => trivial

end Net

/-- In every run, from any state of the server: one payload is returned for each copy that
    arrives, in the order of arrival; and the payloads returned stay in sending order and
    without repetition exactly when the copies arrive so. -/
theorem returned_asArrived (sha1 : List UInt8 → Vector UInt8 20) (addr : SocketAddr)
    (id : UInt16) (first : ℕ) (server : DaspTransport) (evs : List NetEvent) :
    (∀ w ∈ Runs.states (netStep sha1 addr id first) (World.init server) evs, AsArrived w) ∧
    ((∀ w ∈ Runs.states (netStep sha1 addr id first) (World.init server) evs, InOrder w) ↔
      Runs.Along (netStep sha1 addr id first) (ArrivesInOrder addr id first)
        (World.init server) evs) := by
  constructor
  · exact Runs.states_always _ netStep_asArrived (init_asArrived server) evs
  · refine Runs.states_iff_along (I := fun w => AsArrived w ∧ InOrder w) _ (fun _ h => h.2) ?_ ?_
      ⟨init_asArrived server, init_inOrder server⟩
    · rintro w e ⟨ha, hw⟩ hok
      exact ⟨netStep_asArrived w e ha, netStep_inOrder w e ha hw hok⟩
    · rintro w e ⟨ha, -⟩ hbad hin
      exact hbad (arrivesInOrder_of_netStep w e ha hin)

/-- Two messages of an authenticated client; the second overtakes the first, of which a
    second copy follows. -/
def overtakingRun : List NetEvent :=
  [.clientSend [0x61, 1, 0, 6, 2, 14, 0x62, 0], .clientSend [0x64, 2, 0, 9],
    .deliver 1 none 3 [], .deliver 0 none 4 [], .deliver 0 none 5 []]

theorem overtakingRun_not_inOrder :
    ¬ ∀ w ∈ Runs.states (netStep sampleSha1 client 1 2)
      (World.init (after sampleSha1 sampleCredentials sampleHandshake)) overtakingRun,
        InOrder w := by
  intro h
  have hsub := (h _ (Runs.run_mem_states _ _ overtakingRun)).sublist
  have hreturned : (Runs.run (netStep sampleSha1 client 1 2)
      (World.init (after sampleSha1 sampleCredentials sampleHandshake))
      overtakingRun).returned.map Prod.snd =
        [[0x64, 2, 0, 9], [0x61, 1, 0, 6, 2, 14, 0x62, 0], [0x61, 1, 0, 6, 2, 14, 0x62, 0]] := by
    decide +kernel
  have hsent : (Runs.run (netStep sampleSha1 client 1 2)
      (World.init (after sampleSha1 sampleCredentials sampleHandshake)) overtakingRun).sent =
        [[0x61, 1, 0, 6, 2, 14, 0x62, 0], [0x64, 2, 0, 9]] := by
    decide +kernel
  rw [hreturned, hsent] at hsub
  exact absurd hsub.length_le (by decide)

end Sandstar.Dasp
