import Sandstar.DaspAuthentication

set_option autoImplicit false

namespace Sandstar.Dasp
open Cursor DaspTransport

def unnumbered : UInt16 := 0xffff

section Step

variable {sha1 : List UInt8 → Vector UInt8 20} {t : DaspTransport} {k : UInt16} {s' : DaspSession}

def SameCounter (t : DaspTransport) (k : UInt16) (s' : DaspSession) : Prop :=
  ∃ s, t.sessions.get k = some s ∧ s'.sendSeq = s.sendSeq

theorem sameCounter_self (h : t.sessions.get k = some s') : SameCounter t k s' := ⟨s', h, rfl⟩

theorem modify_sameCounter {id : UInt16} {f : DaspSession → DaspSession}
    (h : (t.sessions.modify id f).get k = some s') (hf : ∀ s, (f s).sendSeq = s.sendSeq) :
    SameCounter t k s' := by
  rw [Table.get_modify] at h
  split_ifs at h
  · obtain ⟨s, hs, rfl⟩ := Option.map_eq_some_iff.1 h
    exact ⟨s, hs, hf s⟩
  · exact sameCounter_self h

theorem handleClose_sameCounter {id : UInt16} (h : (t.handleClose id).sessions.get k = some s') :
    SameCounter t k s' := by
  rw [handleClose_get] at h
  split_ifs at h
  exact sameCounter_self h

theorem closeAll_sameCounter (ids : List UInt16) (t : DaspTransport)
    (h : (ids.foldl (fun t id => t.handleClose id) t).sessions.get k = some s') :
    SameCounter t k s' := by
  induction ids generalizing t with
  | nil => exact sameCounter_self h
  | cons id ids ih =>
    obtain ⟨s, hs, hseq⟩ := ih (t.handleClose id) h
    obtain ⟨s₀, hs₀, hseq₀⟩ := handleClose_sameCounter hs
    exact ⟨s₀, hs₀, hseq.trans hseq₀⟩

theorem handleAuthenticate_sameCounter {now : ℕ} {src : SocketAddr} {auth : DaspHeader}
    (h : (t.handleAuthenticate sha1 now src auth).1.sessions.get k = some s') :
    SameCounter t k s' := by
  unfold handleAuthenticate at h
  cases hs : t.sessions.get auth.sessionId with
  | none =>
    rw [hs] at h
    exact sameCounter_self h
  | some s =>
    rw [hs] at h
    dsimp only at h
    split_ifs at h
    · exact sameCounter_self h
    · rw [removeSession_get] at h
      split_ifs at h
      exact sameCounter_self h
    · exact modify_sameCounter h fun _ => rfl

theorem handleDatagram_sameCounter {now : ℕ} {src : SocketAddr} {hdr : DaspHeader}
    {payload : List UInt8}
    (h : (t.handleDatagram now src hdr payload).1.sessions.get k = some s') :
    SameCounter t k s' := by
  unfold handleDatagram at h
  cases hs : t.sessions.get hdr.sessionId with
  | none =>
    rw [hs] at h
    exact sameCounter_self h
  | some s =>
    rw [hs] at h
    dsimp only at h
    split_ifs at h
    · exact sameCounter_self h
    · exact sameCounter_self h
    · exact modify_sameCounter h fun _ => rfl
    · exact modify_sameCounter h fun _ => rfl

/-- A HELLO starts the counter of the session it opens and leaves the others alone. -/
theorem handleHello_counter {now : ℕ} {nonce : List UInt8} {src : SocketAddr} {hdr : DaspHeader}
    (h : (t.handleHello now nonce src hdr).1.sessions.get k = some s') :
    (s'.sendSeq = 0 ∧ helloAccepted hdr t ∧ ∃ next,
      allocSessionId (t.dropPending src).sessions allocRounds
        (t.dropPending src).nextSessionId = some (k, next)) ∨
    (SameCounter t k s' ∧ (helloAccepted hdr t → ∀ next,
      allocSessionId (t.dropPending src).sessions allocRounds
        (t.dropPending src).nextSessionId ≠ some (k, next))) := by
  by_cases hacc : helloAccepted hdr t
  · obtain ⟨id, next, hid, heq⟩ := handleHello_accepted now nonce src hacc
    rw [heq] at h
    change (Table.insert (t.dropPending src).sessions id _).get k = some s' at h
    rw [Table.get_insert] at h
    split_ifs at h with hk
    · cases h
      exact .inl ⟨rfl, hacc, next, hk ▸ hid⟩
    · rw [dropPending_get] at h
      split_ifs at h
      refine .inr ⟨sameCounter_self h, fun _ next' hk' => hk ?_⟩
      rw [hid] at hk'
      cases hk'
      rfl
  · rw [handleHello_rejected nonce hacc] at h
    exact .inr ⟨sameCounter_self h, fun h' => absurd h' hacc⟩

def isDataFor (id : UInt16) : DaspEvent → Bool
  | .send k _ => k = id
  | _ => false

def Counted (t : DaspTransport) (e : DaspEvent) (k : UInt16) (s' : DaspSession) : Prop :=
  ((∃ addr nonce, Opens t e k addr nonce) ∧ s'.sendSeq = 0) ∨
    ((∀ addr nonce, ¬ Opens t e k addr nonce) ∧ ∃ s, t.sessions.get k = some s ∧
      s'.sendSeq = if isDataFor k e then s.sendSeq + 1 else s.sendSeq)

theorem dispatch_sameCounter {now : ℕ} {nonce : List UInt8} {src : SocketAddr} {hdr : DaspHeader}
    {data : List UInt8} (hhello : hdr.msgType ≠ .hello)
    (h : (t.dispatch sha1 now nonce src hdr data).1.sessions.get k = some s') :
    SameCounter t k s' := by
  unfold dispatch at h
  cases hm : hdr.msgType with
  | hello => exact absurd hm hhello
  | discover | challenge | welcome =>
    rw [hm] at h
    exact sameCounter_self h
  | authenticate =>
    rw [hm] at h
    exact handleAuthenticate_sameCounter h
  | keepalive =>
    rw [hm] at h
    change (t.handleKeepalive now hdr.sessionId).1.sessions.get k = some s' at h
    rw [handleKeepalive_get] at h
    split_ifs at h
    · obtain ⟨s, hs, rfl⟩ := Option.map_eq_some_iff.1 h
      exact ⟨s, hs, rfl⟩
    · exact sameCounter_self h
  | datagram =>
    rw [hm] at h
    exact handleDatagram_sameCounter h
  | close =>
    rw [hm] at h
    exact handleClose_sameCounter h

theorem poll_counted {now : ℕ} {nonce : List UInt8} {src : SocketAddr} {packet : List UInt8}
    (h : (t.poll sha1 now nonce src packet).1.sessions.get k = some s') :
    Counted t (.datagram now nonce src packet) k s' := by
  rcases poll_cases t k sha1 now nonce src packet with
    ⟨heq, hno⟩ | ⟨hdr, -, ⟨hhello, heq, hno⟩ | ⟨heq, hopens, hno⟩⟩
  · rw [heq] at h
    exact .inr ⟨hno, sameCounter_self h⟩
  · rw [heq] at h
    exact .inr ⟨hno, dispatch_sameCounter hhello h⟩
  · rw [heq] at h
    rcases handleHello_counter h with ⟨hzero, hacc, next, hid⟩ | ⟨hcounter, hid⟩
    · exact .inl ⟨⟨src, nonce, hopens hacc next hid⟩, hzero⟩
    · exact .inr ⟨hno hid, hcounter⟩

theorem daspStep_counted {e : DaspEvent} (h : (daspStep sha1 t e).sessions.get k = some s') :
    Counted t e k s' := by
  cases e with
  | datagram now nonce src packet => exact poll_counted h
  | cleanup now ids =>
    refine .inr ⟨?_, closeAll_sameCounter _ t h⟩
    rintro addr nonce ⟨hdr, next, ⟨now', packet, he, -⟩, -⟩
    cases he
  | send id payload =>
    refine .inr ⟨?_, ?_⟩
    · rintro addr nonce ⟨hdr, next, ⟨now', packet, he, -⟩, -⟩
      cases he
    · change (t.sendToSession id payload).1.sessions.get k = some s' at h
      unfold sendToSession at h
      cases hs : t.sessions.get id with
      | none =>
        rw [hs] at h
        have hne : ¬ id = k := by
          rintro rfl
          rw [hs] at h
          cases h
        refine ⟨s', h, ?_⟩
        simp [isDataFor, hne]
      | some s =>
        rw [hs] at h
        dsimp only at h
        rw [Table.get_modify] at h
        by_cases hk : k = id
        · subst hk
          rw [if_pos rfl, hs] at h
          cases h
          refine ⟨s, hs, ?_⟩
          simp [isDataFor]
        · rw [if_neg hk] at h
          refine ⟨s', h, ?_⟩
          simp [isDataFor, Ne.symm hk]

end Step

section Numbers

variable (sha1 : List UInt8 → Vector UInt8 20) (credentials : Vector UInt8 20)

/-- The numbers of the datagrams that `send_to_session` hands to the socket for a session
    in the course of these events. -/
def dataNumbers (id : UInt16) : DaspTransport → List DaspEvent → List UInt16
  | _, [] => []
  | t, e :: rest =>
    (match e with
      | .send k payload =>
        if k = id then (t.sendToSession k payload).2.map fun o => o.header.seqNum else []
      | _ => []) ++ dataNumbers id (daspStep sha1 t e) rest

variable {sha1 credentials}

/-- A step that keeps a session advances its counter for a data message only. -/
theorem kept_counter {id : UInt16} {t : DaspTransport} {e : DaspEvent} {n : ℕ} {s : DaspSession}
    (hs : t.sessions.get id = some s) (hn : s.sendSeq = UInt16.ofNat n)
    (hkeep : Keeps sha1 id t e) :
    ∃ s', (daspStep sha1 t e).sessions.get id = some s' ∧
      s'.sendSeq = UInt16.ofNat (n + if isDataFor id e then 1 else 0) := by
  obtain ⟨⟨s', hs'⟩, hno⟩ := hkeep
  rcases daspStep_counted hs' with ⟨⟨addr, nonce, hopens⟩, -⟩ | ⟨-, s₀, hs₀, hseq⟩
  · exact absurd hopens (hno addr nonce)
  · rw [hs] at hs₀
    cases hs₀
    refine ⟨s', hs', ?_⟩
    rw [hseq, hn]
    split
    · exact (UInt16.ofNat_add n 1).symm
    · rfl

/-- While a session is kept, its counter follows the number of its data messages. -/
theorem counter_kept {id : UInt16} {t : DaspTransport} {rest : List DaspEvent} {n : ℕ}
    {s : DaspSession} (hs : t.sessions.get id = some s) (hn : s.sendSeq = UInt16.ofNat n)
    (hkeep : Runs.Along (daspStep sha1) (Keeps sha1 id) t rest) :
    ∃ s', (Runs.run (daspStep sha1) t rest).sessions.get id = some s' ∧
      s'.sendSeq = UInt16.ofNat (n + rest.countP (isDataFor id)) := by
  induction rest generalizing t s n with
  | nil => exact ⟨s, hs, hn⟩
  | cons e rest ih =>
    obtain ⟨s', hs', hseq⟩ := kept_counter hs hn hkeep.1
    obtain ⟨last, hlast, hcount⟩ := ih hs' hseq hkeep.2
    refine ⟨last, hlast, ?_⟩
    rw [hcount, List.countP_cons, Nat.add_assoc, Nat.add_comm (rest.countP _)]

theorem dataNumbers_kept {id : UInt16} {t : DaspTransport} {rest : List DaspEvent} {n : ℕ}
    {s : DaspSession} (hs : t.sessions.get id = some s) (hn : s.sendSeq = UInt16.ofNat n)
    (hkeep : Runs.Along (daspStep sha1) (Keeps sha1 id) t rest) :
    dataNumbers sha1 id t rest =
      (List.range' n (rest.countP (isDataFor id))).map UInt16.ofNat := by
  induction rest generalizing t s n with
  | nil => rfl
  | cons e rest ih =>
    obtain ⟨s', hs', hseq⟩ := kept_counter hs hn hkeep.1
    unfold dataNumbers
    rw [ih hs' hseq hkeep.2, List.countP_cons]
    cases hdata : isDataFor id e with
    | true =>
      rw [if_pos rfl, List.range'_succ, List.map_cons]
      cases e with
      | datagram now nonce src packet => cases hdata
      | cleanup now ids => cases hdata
      | send k payload =>
        have hk : k = id := of_decide_eq_true hdata
        subst hk
        dsimp only
        rw [if_pos rfl]
        unfold sendToSession
        rw [hs, ← hn]
        rfl
    | false =>
      rw [if_neg Bool.false_ne_true]
      cases e with
      | datagram now nonce src packet => rfl
      | cleanup now ids => rfl
      | send k payload =>
        have hk : ¬ k = id := of_decide_eq_false hdata
        dsimp only
        rw [if_neg hk]
        rfl

theorem opened_counter {t : DaspTransport} {e : DaspEvent} {id : UInt16} {addr : SocketAddr}
    {nonce : List UInt8} (h : Opens t e id addr nonce) :
    ∃ s, (daspStep sha1 t e).sessions.get id = some s ∧ s.sendSeq = 0 := by
  obtain ⟨hdr, next, ⟨now, packet, rfl, hp⟩, hhello, hacc, hid⟩ := h
  obtain ⟨id', next', hid', heq⟩ := handleHello_accepted now nonce addr hacc
  rw [hid] at hid'
  cases hid'
  refine ⟨(DaspSession.new now id (hdr.remoteId.getD 0) addr nonce).tune hdr, ?_, rfl⟩
  change (t.poll sha1 now nonce addr packet).1.sessions.get id = _
  unfold poll
  dsimp only
  rw [hp]
  dsimp only
  unfold dispatch
  rw [hhello]
  dsimp only
  rw [heq]
  exact Table.get_insert_self _ _ _

/-- The data messages of a session carry 0, 1, 2 and so on, in sixteen bits. -/
theorem dataNumbers_session {evs pre rest : List DaspEvent} {hello : DaspEvent} {id : UInt16}
    {addr : SocketAddr} {nonce : List UInt8}
    (h : OpenedBy sha1 credentials evs pre hello rest id addr nonce) :
    dataNumbers sha1 id (after sha1 credentials (pre ++ [hello])) rest =
      (List.range (rest.countP (isDataFor id))).map UInt16.ofNat := by
  obtain ⟨s, hs, hzero⟩ : ∃ s, (daspStep sha1 (after sha1 credentials pre) hello).sessions.get id =
      some s ∧ s.sendSeq = 0 := opened_counter h.2.1
  rw [← after_concat] at hs
  rw [dataNumbers_kept (n := 0) hs hzero h.2.2, List.range_eq_range']

end Numbers

section Reserved

variable (sha1 : List UInt8 → Vector UInt8 20) (credentials : Vector UInt8 20)

def nextNumber (n : UInt16) : UInt16 := UInt16.ofNat ((n.toNat + 1) % unnumbered.toNat)

/-- No data message of a run carries the reserved number, and those of a session that
    was opened in the run follow one another around it. -/
structure WellNumbered (evs : List DaspEvent) : Prop where
  numbered : ∀ pre id payload rest, evs = pre ++ .send id payload :: rest →
    ∀ o ∈ ((after sha1 credentials pre).sendToSession id payload).2,
      o.header.seqNum ≠ unnumbered
  consecutive : ∀ evs' pre hello rest id addr nonce, evs' <+: evs →
    OpenedBy sha1 credentials evs' pre hello rest id addr nonce →
    (dataNumbers sha1 id (after sha1 credentials (pre ++ [hello])) rest).IsChain
      fun n m => m = nextNumber n

/-- No session of the run sends more data messages than there are numbers for them. -/
def Bounded (evs : List DaspEvent) : Prop :=
  ∀ evs' pre hello rest id addr nonce, evs' <+: evs →
    OpenedBy sha1 credentials evs' pre hello rest id addr nonce →
    rest.countP (isDataFor id) ≤ unnumbered.toNat

variable {sha1 credentials}

theorem nextNumber_ofNat {n : ℕ} (hn : n < unnumbered.toNat) :
    nextNumber (UInt16.ofNat n) = UInt16.ofNat ((n + 1) % unnumbered.toNat) := by
  unfold nextNumber
  have hlt : n < 2 ^ 16 := hn.trans (by decide)
  rw [UInt16.toNat_ofNat_of_lt' hlt]

/-- Counting up from 0 goes around the reserved number exactly while it is not reached. -/
theorem isChain_range_iff (count : ℕ) :
    ((List.range count).map UInt16.ofNat).IsChain (fun n m => m = nextNumber n) ↔
      count ≤ unnumbered.toNat := by
  have hun : unnumbered.toNat = 65535 := rfl
  constructor
  · intro hchain
    by_contra hmany
    have hstep := List.isChain_iff_getElem.1 hchain 65534 (by simp; omega)
    simp only [List.getElem_map, List.getElem_range] at hstep
    exact absurd hstep (by decide)
  · intro hfew
    refine List.isChain_iff_getElem.2 fun i hi => ?_
    simp only [List.length_map, List.length_range] at hi
    simp only [List.getElem_map, List.getElem_range]
    rw [nextNumber_ofNat (by omega), Nat.mod_eq_of_lt (by omega)]

theorem send_keeps {t : DaspTransport} {id : UInt16} {s : DaspSession}
    (hs : t.sessions.get id = some s) (payload : List UInt8) :
    Keeps sha1 id t (.send id payload) := by
  constructor
  · refine ⟨{ s with sendSeq := s.sendSeq + 1 }, ?_⟩
    change (t.sendToSession id payload).1.sessions.get id = _
    unfold sendToSession
    rw [hs]
    dsimp only
    rw [Table.get_modify, if_pos rfl, hs]
    rfl
  · rintro addr nonce ⟨hdr, next, ⟨now, packet, he, -⟩, -⟩
    cases he

/-- The counter of a session is the number of its data messages, in sixteen bits. -/
theorem session_counter {evs pre rest : List DaspEvent} {hello : DaspEvent} {id : UInt16}
    {addr : SocketAddr} {nonce : List UInt8} {s : DaspSession}
    (h : OpenedBy sha1 credentials evs pre hello rest id addr nonce)
    (hs : (after sha1 credentials evs).sessions.get id = some s) :
    s.sendSeq = UInt16.ofNat (rest.countP (isDataFor id)) := by
  obtain ⟨first, hfirst, hzero⟩ : ∃ s, (daspStep sha1 (after sha1 credentials pre)
      hello).sessions.get id = some s ∧ s.sendSeq = 0 := opened_counter h.2.1
  rw [← after_concat] at hfirst
  obtain ⟨last, hlast, hcount⟩ := counter_kept (n := 0) hfirst hzero h.2.2
  have hrun : Runs.run (daspStep sha1) (after sha1 credentials (pre ++ [hello])) rest =
      after sha1 credentials evs := by
    unfold after
    rw [← Runs.run_append, List.append_assoc, h.1]
    rfl
  rw [hrun, hs] at hlast
  cases hlast
  rw [hcount, Nat.zero_add]

/-- The numbers are as they should be in exactly the runs whose sessions do not send more
    data messages than there are numbers. -/
theorem wellNumbered_iff (sha1 : List UInt8 → Vector UInt8 20) (credentials : Vector UInt8 20)
    (evs : List DaspEvent) :
    WellNumbered sha1 credentials evs ↔ Bounded sha1 credentials evs := by
  constructor
  · intro hnumbered evs' pre hello rest id addr nonce hprefix hopened
    have hchain := hnumbered.consecutive evs' pre hello rest id addr nonce hprefix hopened
    rw [dataNumbers_session hopened] at hchain
    exact (isChain_range_iff _).1 hchain
  · intro hbounded
    constructor
    · intro pre id payload rest hsplit o ho
      cases hs : (after sha1 credentials pre).sessions.get id with
      | none =>
        unfold sendToSession at ho
        rw [hs] at ho
        cases ho
      | some s =>
        obtain ⟨pre', hello, rest', hopened, -⟩ := session_hasHistory pre hs
        have hmore := hopened.concat (send_keeps hs payload)
        have hprefix : pre ++ [.send id payload] <+: evs := by
          rw [hsplit]
          exact ⟨rest, by simp⟩
        have hcount := hbounded _ _ _ _ _ _ _ hprefix hmore
        rw [List.countP_append, List.countP_singleton] at hcount
        have hnumber : o.header.seqNum = UInt16.ofNat (rest'.countP (isDataFor id)) := by
          unfold sendToSession at ho
          rw [hs] at ho
          rw [List.mem_singleton.1 ho]
          exact session_counter hopened hs
        have hself : isDataFor id (.send id payload) = true := decide_eq_true rfl
        have hun : unnumbered.toNat = 65535 := rfl
        rw [if_pos hself, hun] at hcount
        intro hreserved
        have hnat := congrArg UInt16.toNat (hnumber.symm.trans hreserved)
        rw [UInt16.toNat_ofNat_of_lt' (by change _ < 2 ^ 16; omega), hun] at hnat
        omega
    · intro evs' pre hello rest id addr nonce hprefix hopened
      rw [dataNumbers_session hopened]
      exact (isChain_range_iff _).2 (hbounded _ _ _ _ _ _ _ hprefix hopened)

theorem OpenedBy.sends {evs pre rest : List DaspEvent} {hello : DaspEvent} {id : UInt16}
    {addr : SocketAddr} {nonce : List UInt8} {s : DaspSession}
    (h : OpenedBy sha1 credentials evs pre hello rest id addr nonce)
    (hs : (after sha1 credentials evs).sessions.get id = some s) (payload : List UInt8) (n : ℕ) :
    OpenedBy sha1 credentials (evs ++ List.replicate n (.send id payload)) pre hello
        (rest ++ List.replicate n (.send id payload)) id addr nonce ∧
      ∃ s', (after sha1 credentials (evs ++ List.replicate n (.send id payload))).sessions.get id =
        some s' := by
  induction n with
  | zero =>
    rw [List.replicate_zero, List.append_nil, List.append_nil]
    exact ⟨h, s, hs⟩
  | succ n ih =>
    obtain ⟨hopened, s', hs'⟩ := ih
    have hkeep : Keeps sha1 id _ (.send id payload) := send_keeps hs' payload
    rw [List.replicate_succ', ← List.append_assoc, ← List.append_assoc]
    refine ⟨hopened.concat hkeep, ?_⟩
    rw [after_concat]
    exact hkeep.1

/-- A client that stays for one message more than there are numbers. -/
theorem sampleHandshake_not_wellNumbered :
    ¬ WellNumbered sampleSha1 sampleCredentials
      (sampleHandshake ++ List.replicate 65536 (.send 1 [0x52, 0])) := by
  intro hnumbered
  have hsome : ((after sampleSha1 sampleCredentials sampleHandshake).sessions.get 1).isSome := by
    decide +kernel
  obtain ⟨s, hs⟩ := Option.isSome_iff_exists.1 hsome
  obtain ⟨pre, hello, rest, hopened, -⟩ := session_hasHistory sampleHandshake hs
  obtain ⟨hmany, -⟩ := hopened.sends hs [0x52, 0] 65536
  have hchain := hnumbered.consecutive _ _ _ _ _ _ _ List.prefix_rfl hmany
  rw [dataNumbers_session hmany] at hchain
  have hcount := (isChain_range_iff _).1 hchain
  have hself : isDataFor 1 (.send 1 [0x52, 0]) = true := by decide
  have hun : unnumbered.toNat = 65535 := rfl
  rw [List.countP_append, List.countP_replicate, if_pos hself, hun] at hcount
  omega

end Reserved

end Sandstar.Dasp
