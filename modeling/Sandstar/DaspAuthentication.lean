import Sandstar.DaspIsolation

set_option autoImplicit false

namespace Sandstar.Dasp
open Cursor DaspTransport

section History

variable (sha1 : List UInt8 → Vector UInt8 20)

def Receives (e : DaspEvent) (addr : SocketAddr) (nonce : List UInt8) (hdr : DaspHeader) : Prop :=
  ∃ now packet, e = .datagram now nonce addr packet ∧
    parseHeader (packet.take recvBufSize) = .ok hdr

def Opens (t : DaspTransport) (e : DaspEvent) (id : UInt16) (addr : SocketAddr)
    (nonce : List UInt8) : Prop :=
  ∃ hdr next, Receives e addr nonce hdr ∧ hdr.msgType = .hello ∧ helloAccepted hdr t ∧
    allocSessionId (t.dropPending addr).sessions allocRounds (t.dropPending addr).nextSessionId =
      some (id, next)

/-- An AUTHENTICATE from `addr` for session `id` with the digest of `nonce`. -/
def Authenticates (credentials : Vector UInt8 20) (e : DaspEvent) (id : UInt16)
    (addr : SocketAddr) (nonce : List UInt8) : Prop :=
  ∃ n hdr, Receives e addr n hdr ∧ hdr.msgType = .authenticate ∧ hdr.sessionId = id ∧
    hdr.digest = some (computeAuthDigest sha1 credentials nonce).toList

/-- Session `id` is there after the event and was not opened by it. -/
def Keeps (id : UInt16) (t : DaspTransport) (e : DaspEvent) : Prop :=
  (∃ s, (daspStep sha1 t e).sessions.get id = some s) ∧ ∀ addr nonce, ¬ Opens t e id addr nonce

/-- How a session found after an event came there: the event opened it, or it was there
    and only an AUTHENTICATE can have made it authenticated. -/
def Explained (t : DaspTransport) (e : DaspEvent) (id : UInt16) (s' : DaspSession) : Prop :=
  (Opens t e id s'.remoteAddr s'.nonce ∧ s'.authenticated = false) ∨
  (Keeps sha1 id t e ∧ ∃ s, t.sessions.get id = some s ∧ s'.remoteAddr = s.remoteAddr ∧
    s'.nonce = s.nonce ∧ (s'.authenticated = true → s.authenticated = true ∨
      Authenticates sha1 t.credentials e id s.remoteAddr s.nonce))

/-- The session found under an id is the one that was there, authenticated or not as before. -/
def Carried (t : DaspTransport) (id : UInt16) (s' : DaspSession) : Prop :=
  ∃ s, t.sessions.get id = some s ∧ s'.remoteAddr = s.remoteAddr ∧ s'.nonce = s.nonce ∧
    s'.authenticated = s.authenticated

end History

section Step

variable {t : DaspTransport} {id k : UInt16} {s' : DaspSession}

theorem carried_self (h : t.sessions.get k = some s') : Carried t k s' :=
  ⟨s', h, rfl, rfl, rfl⟩

theorem modify_carried {f : DaspSession → DaspSession}
    (h : (t.sessions.modify id f).get k = some s')
    (hf : ∀ s, (f s).remoteAddr = s.remoteAddr ∧ (f s).nonce = s.nonce ∧
      (f s).authenticated = s.authenticated) : Carried t k s' := by
  rw [Table.get_modify] at h
  split_ifs at h with hk
  · obtain ⟨s, hs, rfl⟩ := Option.map_eq_some_iff.1 h
    exact ⟨s, hs, hf s⟩
  · exact carried_self h

theorem handleClose_carried (h : (t.handleClose id).sessions.get k = some s') :
    Carried t k s' := by
  rw [handleClose_get] at h
  split_ifs at h
  exact carried_self h

theorem handleKeepalive_carried {now : ℕ}
    (h : (t.handleKeepalive now id).1.sessions.get k = some s') : Carried t k s' := by
  unfold handleKeepalive at h
  split at h
  · exact carried_self h
  · exact modify_carried h fun _ => ⟨rfl, rfl, rfl⟩

theorem handleDatagram_carried {now : ℕ} {src : SocketAddr} {hdr : DaspHeader}
    {payload : List UInt8}
    (h : (t.handleDatagram now src hdr payload).1.sessions.get k = some s') : Carried t k s' := by
  unfold handleDatagram at h
  split at h
  · exact carried_self h
  · split_ifs at h
    · exact carried_self h
    · exact carried_self h
    · exact modify_carried h fun _ => ⟨rfl, rfl, rfl⟩
    · exact modify_carried h fun _ => ⟨rfl, rfl, rfl⟩

theorem sendToSession_carried {payload : List UInt8}
    (h : (t.sendToSession id payload).1.sessions.get k = some s') : Carried t k s' := by
  unfold sendToSession at h
  split at h
  · exact carried_self h
  · exact modify_carried h fun _ => ⟨rfl, rfl, rfl⟩

theorem closeAll_carried (ids : List UInt16) (t : DaspTransport)
    (h : (ids.foldl (fun t id => t.handleClose id) t).sessions.get k = some s') :
    Carried t k s' := by
  induction ids generalizing t with
  | nil => exact carried_self h
  | cons id ids ih =>
    obtain ⟨s, hs, haddr, hnonce, hauth⟩ := ih (t.handleClose id) h
    obtain ⟨s₀, hs₀, haddr₀, hnonce₀, hauth₀⟩ := handleClose_carried hs
    exact ⟨s₀, hs₀, haddr.trans haddr₀, hnonce.trans hnonce₀, hauth.trans hauth₀⟩

/-- Only the right digest from the session's own address makes a session authenticated. -/
theorem handleAuthenticate_session {sha1 : List UInt8 → Vector UInt8 20} {now : ℕ}
    {src : SocketAddr} {auth : DaspHeader}
    (h : (t.handleAuthenticate sha1 now src auth).1.sessions.get k = some s') :
    Carried t k s' ∨ ∃ s, t.sessions.get k = some s ∧ s'.remoteAddr = s.remoteAddr ∧
      s'.nonce = s.nonce ∧ s.remoteAddr = src ∧ auth.sessionId = k ∧
      auth.digest = some (computeAuthDigest sha1 t.credentials s.nonce).toList := by
  unfold handleAuthenticate at h
  cases hs : t.sessions.get auth.sessionId with
  | none =>
    rw [hs] at h
    exact Or.inl (carried_self h)
  | some s =>
    rw [hs] at h
    dsimp only at h
    split_ifs at h with haddr hdigest
    · exact Or.inl (carried_self h)
    · rw [removeSession_get] at h
      split_ifs at h
      exact Or.inl (carried_self h)
    · change (t.sessions.modify auth.sessionId _).get k = some s' at h
      rw [Table.get_modify] at h
      split_ifs at h with hk
      · subst hk
        rw [hs] at h
        cases h
        refine Or.inr ⟨s, hs, rfl, rfl, not_not.1 haddr, rfl, ?_⟩
        obtain ⟨hlen, hval⟩ := not_or.1 hdigest
        cases hdig : auth.digest with
        | none =>
          rw [hdig] at hlen
          exact absurd (show (0 : ℕ) ≠ 20 by decide) hlen
        | some d =>
          rw [hdig] at hval
          exact congrArg some (not_not.1 hval)
      · exact Or.inl (carried_self h)

theorem handleHello_session {now : ℕ} {nonce : List UInt8} {src : SocketAddr} {hdr : DaspHeader}
    (h : (t.handleHello now nonce src hdr).1.sessions.get k = some s') :
    (helloAccepted hdr t ∧ s'.remoteAddr = src ∧ s'.nonce = nonce ∧ s'.authenticated = false ∧
      ∃ next, allocSessionId (t.dropPending src).sessions allocRounds
        (t.dropPending src).nextSessionId = some (k, next)) ∨
    (Carried t k s' ∧ (helloAccepted hdr t → ∀ next,
      allocSessionId (t.dropPending src).sessions allocRounds
        (t.dropPending src).nextSessionId ≠ some (k, next))) := by
  by_cases hacc : helloAccepted hdr t
  · obtain ⟨id, next, hid, heq⟩ := handleHello_accepted now nonce src hacc
    obtain ⟨new, haddr, hnonce, hauth, hget⟩ := openSession_get (t.dropPending src) now
      nonce src hdr id next k
    rw [heq, hget] at h
    split_ifs at h with hk
    · subst hk
      cases h
      exact Or.inl ⟨hacc, haddr, hnonce, hauth, next, hid⟩
    · rw [dropPending_get] at h
      split_ifs at h
      refine Or.inr ⟨carried_self h, fun _ next' hk' => hk ?_⟩
      rw [hid] at hk'
      cases hk'
      rfl
  · rw [handleHello_rejected nonce hacc] at h
    exact Or.inr ⟨carried_self h, fun h' => absurd h' hacc⟩

section Explained

variable {sha1 : List UInt8 → Vector UInt8 20} {e : DaspEvent}

theorem explained_of_carried (h : (daspStep sha1 t e).sessions.get k = some s')
    (hno : ∀ addr nonce, ¬ Opens t e k addr nonce) (hc : Carried t k s') :
    Explained sha1 t e k s' := by
  obtain ⟨s, hs, haddr, hnonce, hauth⟩ := hc
  exact Or.inr ⟨⟨⟨s', h⟩, hno⟩, s, hs, haddr, hnonce, fun ha => Or.inl (hauth ▸ ha)⟩

theorem not_opens {now : ℕ} {nonce : List UInt8} {src : SocketAddr} {packet : List UInt8}
    (hne : ∀ hdr, parseHeader (packet.take recvBufSize) = .ok hdr → hdr.msgType ≠ .hello)
    (addr : SocketAddr) (n : List UInt8) :
    ¬ Opens t (.datagram now nonce src packet) k addr n := by
  rintro ⟨hdr, next, ⟨now', packet', he, hp⟩, hm, -⟩
  cases he
  exact hne hdr hp hm

theorem dispatch_carried {now : ℕ} {nonce : List UInt8} {src : SocketAddr} {hdr : DaspHeader}
    {data : List UInt8} (hhello : hdr.msgType ≠ .hello) (hauth : hdr.msgType ≠ .authenticate)
    (h : (t.dispatch sha1 now nonce src hdr data).1.sessions.get k = some s') :
    Carried t k s' := by
  unfold dispatch at h
  cases hm : hdr.msgType with
  | discover =>
    rw [hm] at h
    exact carried_self h
  | hello => exact absurd hm hhello
  | challenge =>
    rw [hm] at h
    exact carried_self h
  | authenticate => exact absurd hm hauth
  | welcome =>
    rw [hm] at h
    exact carried_self h
  | keepalive =>
    rw [hm] at h
    exact handleKeepalive_carried h
  | datagram =>
    rw [hm] at h
    exact handleDatagram_carried h
  | close =>
    rw [hm] at h
    exact handleClose_carried h

variable (sha1 t k) in
theorem poll_cases (now : ℕ) (nonce : List UInt8) (src : SocketAddr) (packet : List UInt8) :
    ((t.poll sha1 now nonce src packet).1 = t ∧
        ∀ addr n, ¬ Opens t (.datagram now nonce src packet) k addr n) ∨
      ∃ hdr, Receives (.datagram now nonce src packet) src nonce hdr ∧
        ((hdr.msgType ≠ .hello ∧
            t.poll sha1 now nonce src packet =
              t.dispatch sha1 now nonce src hdr (packet.take recvBufSize) ∧
            ∀ addr n, ¬ Opens t (.datagram now nonce src packet) k addr n) ∨
          (t.poll sha1 now nonce src packet).1 = (t.handleHello now nonce src hdr).1 ∧
            (helloAccepted hdr t → ∀ next, allocSessionId (t.dropPending src).sessions allocRounds
                (t.dropPending src).nextSessionId = some (k, next) →
              Opens t (.datagram now nonce src packet) k src nonce) ∧
            ((helloAccepted hdr t → ∀ next, allocSessionId (t.dropPending src).sessions
                allocRounds (t.dropPending src).nextSessionId ≠ some (k, next)) →
              ∀ addr n, ¬ Opens t (.datagram now nonce src packet) k addr n)) := by
  unfold poll
  dsimp only
  cases hp : parseHeader (packet.take recvBufSize) with
  | error err =>
    refine .inl ⟨rfl, not_opens fun hdr hh => ?_⟩
    rw [hp] at hh
    cases hh
  | ok hdr =>
    have hsame : ∀ hdr', parseHeader (packet.take recvBufSize) = .ok hdr' → hdr' = hdr := by
      intro hdr' hh
      rw [hp] at hh
      cases hh
      rfl
    have hreceives : Receives (.datagram now nonce src packet) src nonce hdr :=
      ⟨now, packet, rfl, hp⟩
    refine .inr ⟨hdr, hreceives, ?_⟩
    by_cases hhello : hdr.msgType = .hello
    · refine .inr ⟨?_, fun hacc next hid => ⟨hdr, next, hreceives, hhello, hacc, hid⟩, ?_⟩
      · dsimp only
        unfold dispatch
        rw [hhello]
      · rintro hid addr n ⟨hdr', next, ⟨now', packet', he, hp'⟩, -, hacc, hk⟩
        cases he
        rw [hsame hdr' hp'] at hacc
        exact hid hacc next hk
    · exact .inl ⟨hhello, rfl, not_opens fun hdr' hh => (hsame hdr' hh).symm ▸ hhello⟩

theorem poll_explained {now : ℕ} {nonce : List UInt8} {src : SocketAddr} {packet : List UInt8}
    (h : (t.poll sha1 now nonce src packet).1.sessions.get k = some s') :
    Explained sha1 t (.datagram now nonce src packet) k s' := by
  have hkept := explained_of_carried (e := .datagram now nonce src packet) h
  have hpoll := h
  rcases poll_cases t k sha1 now nonce src packet with
    ⟨heq, hno⟩ | ⟨hdr, hreceives, ⟨hhello, heq, hno⟩ | ⟨heq, hopens, hno⟩⟩
  · rw [heq] at hpoll
    exact hkept hno (carried_self hpoll)
  · rw [heq] at hpoll
    by_cases hauth : hdr.msgType = .authenticate
    · unfold dispatch at hpoll
      rw [hauth] at hpoll
      rcases handleAuthenticate_session hpoll with hc | ⟨s, hs, haddr, hnonce, hsrc, hid, hdig⟩
      · exact hkept hno hc
      · refine Or.inr ⟨⟨⟨s', h⟩, hno⟩, s, hs, haddr, hnonce, fun _ => Or.inr ?_⟩
        rw [hsrc]
        exact ⟨nonce, hdr, hreceives, hauth, hid, hdig⟩
    · exact hkept hno (dispatch_carried hhello hauth hpoll)
  · rw [heq] at hpoll
    rcases handleHello_session hpoll with ⟨hacc, haddr, hnonce, hauth, next, hid⟩ | ⟨hc, hid⟩
    · left
      rw [haddr, hnonce]
      exact ⟨hopens hacc next hid, hauth⟩
    · exact hkept (hno hid) hc

theorem daspStep_explained (h : (daspStep sha1 t e).sessions.get k = some s') :
    Explained sha1 t e k s' := by
  cases e with
  | datagram now nonce src packet => exact poll_explained h
  | cleanup now ids =>
    refine explained_of_carried h ?_ (closeAll_carried _ t h)
    rintro addr nonce ⟨hdr, next, ⟨now', packet, he, -⟩, -⟩
    cases he
  | send id payload =>
    refine explained_of_carried h ?_ (sendToSession_carried h)
    rintro addr nonce ⟨hdr, next, ⟨now', packet, he, -⟩, -⟩
    cases he

end Explained

end Step

theorem handleClose_credentials (t : DaspTransport) (id : UInt16) :
    (t.handleClose id).credentials = t.credentials := by
  unfold handleClose
  split <;> rfl

theorem closeAll_credentials (ids : List UInt16) (t : DaspTransport) :
    (ids.foldl (fun t id => t.handleClose id) t).credentials = t.credentials := by
  induction ids generalizing t with
  | nil => rfl
  | cons id ids ih => exact (ih (t.handleClose id)).trans (handleClose_credentials t id)

theorem dropPending_credentials (t : DaspTransport) (src : SocketAddr) :
    (t.dropPending src).credentials = t.credentials := by
  unfold dropPending
  split <;> rfl

theorem poll_credentials (sha1 : List UInt8 → Vector UInt8 20) (t : DaspTransport) (now : ℕ)
    (nonce : List UInt8) (src : SocketAddr) (packet : List UInt8) :
    (t.poll sha1 now nonce src packet).1.credentials = t.credentials := by
  unfold poll
  dsimp only
  cases parseHeader (packet.take recvBufSize) with
  | error err => rfl
  | ok hdr =>
    dsimp only
    unfold dispatch
    cases hdr.msgType with
    | discover => rfl
    | hello =>
      by_cases hacc : helloAccepted hdr t
      · obtain ⟨id, next, -, heq⟩ := handleHello_accepted now nonce src hacc
        exact (congrArg credentials heq).trans (dropPending_credentials t src)
      · exact congrArg credentials (handleHello_rejected nonce hacc)
    | challenge => rfl
    | authenticate =>
      dsimp only
      unfold handleAuthenticate
      split
      · rfl
      · dsimp only
        split_ifs <;> rfl
    | welcome => rfl
    | keepalive =>
      dsimp only
      unfold handleKeepalive
      split <;> rfl
    | datagram =>
      dsimp only
      unfold handleDatagram
      split
      · rfl
      · split_ifs <;> rfl
    | close => exact handleClose_credentials t hdr.sessionId

theorem daspStep_credentials (sha1 : List UInt8 → Vector UInt8 20) (t : DaspTransport)
    (e : DaspEvent) : (daspStep sha1 t e).credentials = t.credentials := by
  cases e with
  | datagram now nonce src packet => exact poll_credentials sha1 t now nonce src packet
  | cleanup now ids => exact closeAll_credentials _ t
  | send id payload =>
    unfold daspStep sendToSession
    dsimp only
    split <;> rfl

section Runs

variable (sha1 : List UInt8 → Vector UInt8 20) (credentials : Vector UInt8 20)

/-- The state after these events on a fresh transport. -/
def after (evs : List DaspEvent) : DaspTransport :=
  Runs.run (daspStep sha1) (DaspTransport.bind credentials) evs

theorem after_concat (evs : List DaspEvent) (e : DaspEvent) :
    after sha1 credentials (evs ++ [e]) = daspStep sha1 (after sha1 credentials evs) e :=
  Runs.run_concat _ _ evs e

theorem after_credentials (evs : List DaspEvent) :
    (after sha1 credentials evs).credentials = credentials := by
  induction evs using List.reverseRecOn with
  | nil => rfl
  | append_singleton evs e ih =>
    rw [after_concat, daspStep_credentials]
    exact ih

/-- A HELLO from the session's address opened it, and it has been there ever since. -/
def OpenedBy (evs pre : List DaspEvent) (hello : DaspEvent) (rest : List DaspEvent)
    (id : UInt16) (addr : SocketAddr) (nonce : List UInt8) : Prop :=
  evs = pre ++ hello :: rest ∧ Opens (after sha1 credentials pre) hello id addr nonce ∧
    Runs.Along (daspStep sha1) (Keeps sha1 id) (after sha1 credentials (pre ++ [hello])) rest

def HasHistory (evs : List DaspEvent) (id : UInt16) (s : DaspSession) : Prop :=
  ∃ pre hello rest, OpenedBy sha1 credentials evs pre hello rest id s.remoteAddr s.nonce ∧
    (s.authenticated = true →
      ∃ auth ∈ rest, Authenticates sha1 credentials auth id s.remoteAddr s.nonce)

variable {sha1 credentials}

theorem OpenedBy.concat {evs pre rest : List DaspEvent} {hello e : DaspEvent} {id : UInt16}
    {addr : SocketAddr} {nonce : List UInt8}
    (h : OpenedBy sha1 credentials evs pre hello rest id addr nonce)
    (hk : Keeps sha1 id (after sha1 credentials evs) e) :
    OpenedBy sha1 credentials (evs ++ [e]) pre hello (rest ++ [e]) id addr nonce := by
  obtain ⟨rfl, hopen, halong⟩ := h
  refine ⟨by simp, hopen, Runs.along_concat _ halong ?_⟩
  have hrun : Runs.run (daspStep sha1) (after sha1 credentials (pre ++ [hello])) rest =
      after sha1 credentials (pre ++ hello :: rest) := by
    unfold after
    rw [← Runs.run_append, List.append_assoc]
    rfl
  rw [hrun]
  exact hk

theorem session_hasHistory (evs : List DaspEvent) {id : UInt16} {s : DaspSession}
    (h : (after sha1 credentials evs).sessions.get id = some s) :
    HasHistory sha1 credentials evs id s := by
  induction evs using List.reverseRecOn generalizing s with
  | nil => cases h
  | append_singleton evs e ih =>
    rw [after_concat] at h
    rcases daspStep_explained h with ⟨hopen, hauth⟩ | ⟨hkeep, s₀, hs₀, haddr, hnonce, hauth⟩
    · exact ⟨evs, e, [], ⟨rfl, hopen, trivial⟩, fun ha => by rw [hauth] at ha; cases ha⟩
    · obtain ⟨pre, hello, rest, hopened, hproved⟩ := ih hs₀
      refine ⟨pre, hello, rest ++ [e], ?_, fun ha => ?_⟩
      · rw [haddr, hnonce]
        exact hopened.concat hkeep
      · rw [haddr, hnonce]
        rcases hauth ha with hauth₀ | hnow
        · obtain ⟨auth, hmem, hdigest⟩ := hproved hauth₀
          exact ⟨auth, List.mem_append_left _ hmem, hdigest⟩
        · rw [after_credentials] at hnow
          exact ⟨e, List.mem_append_right _ (List.mem_singleton.2 rfl), hnow⟩

end Runs

/-- `poll` returns a payload only for an authenticated session of the sender. -/
theorem poll_some {sha1 : List UInt8 → Vector UInt8 20} {t : DaspTransport} {now : ℕ}
    {nonce : List UInt8} {src : SocketAddr} {packet payload : List UInt8} {id : UInt16}
    (h : (t.poll sha1 now nonce src packet).2.1 = some (id, payload)) :
    ∃ s, t.sessions.get id = some s ∧ s.remoteAddr = src ∧ s.authenticated = true := by
  unfold poll at h
  dsimp only at h
  cases hp : parseHeader (packet.take recvBufSize) with
  | error err =>
    rw [hp] at h
    cases h
  | ok hdr =>
    rw [hp] at h
    dsimp only at h
    unfold dispatch at h
    cases hm : hdr.msgType with
    | datagram =>
      rw [hm] at h
      dsimp only at h
      unfold handleDatagram at h
      cases hs : t.sessions.get hdr.sessionId with
      | none =>
        rw [hs] at h
        cases h
      | some s =>
        rw [hs] at h
        dsimp only at h
        split_ifs at h with hauth haddr hempty
        · cases h
          exact ⟨s, hs, not_not.1 haddr, by simpa using hauth⟩
    | _ =>
      rw [hm] at h
      cases h

/-- On every run, a payload is returned only for a session that exists, that a HELLO from
    the sender's address opened, and for which, with the session in place ever since, an
    AUTHENTICATE from that address carried the digest of the session's nonce. -/
theorem poll_authenticated (sha1 : List UInt8 → Vector UInt8 20) (credentials : Vector UInt8 20)
    (evs : List DaspEvent) (now : ℕ) (nonce : List UInt8) (src : SocketAddr)
    (packet payload : List UInt8) (id : UInt16)
    (h : ((after sha1 credentials evs).poll sha1 now nonce src packet).2.1 =
      some (id, payload)) :
    ∃ s, (after sha1 credentials evs).sessions.get id = some s ∧ s.remoteAddr = src ∧
      ∃ pre hello rest, OpenedBy sha1 credentials evs pre hello rest id src s.nonce ∧
        ∃ auth ∈ rest, Authenticates sha1 credentials auth id src s.nonce := by
  obtain ⟨s, hs, haddr, hauth⟩ := poll_some h
  obtain ⟨pre, hello, rest, hopened, hproved⟩ := session_hasHistory evs hs
  subst haddr
  exact ⟨s, hs, rfl, pre, hello, rest, hopened, hproved hauth⟩

def sampleNonce : List UInt8 := [10, 20, 30, 40, 50, 60, 70, 80, 90, 100]

/-- The SHA-1 of `admin:pw`. -/
def sampleCredentials : Vector UInt8 20 :=
  #v[31, 39, 216, 164, 56, 56, 206, 171, 227, 91,
    8, 100, 1, 132, 98, 47, 11, 228, 150, 149]

/-- SHA-1 at the one input of the exchange: the credentials followed by the nonce. -/
def sampleSha1 (input : List UInt8) : Vector UInt8 20 :=
  if input = sampleCredentials.toList ++ sampleNonce then
    #v[124, 26, 91, 168, 122, 61, 219, 138, 120, 101,
      104, 52, 230, 83, 187, 150, 141, 18, 233, 137]
  else Vector.replicate 20 0

/-- A client says HELLO and answers the challenge. -/
def sampleHandshake : List DaspEvent :=
  [.datagram 1 sampleNonce client (encodeMessage
      { DaspHeader.bare noSession 0 .hello with version := some 0x0100, remoteId := some 7 } []),
    .datagram 2 [] client (encodeMessage
      { DaspHeader.bare 1 1 .authenticate with
        digest := some (computeAuthDigest sampleSha1 sampleCredentials sampleNonce).toList } [])]

theorem sampleHandshake_authenticated :
    ∃ s, (after sampleSha1 sampleCredentials sampleHandshake).sessions.get 1 = some s ∧
      s.remoteAddr = client ∧
      ∃ pre hello rest,
        OpenedBy sampleSha1 sampleCredentials sampleHandshake pre hello rest 1 client s.nonce ∧
          ∃ auth ∈ rest, Authenticates sampleSha1 sampleCredentials auth 1 client s.nonce :=
  poll_authenticated sampleSha1 sampleCredentials sampleHandshake 3 [] client
    (encodeMessage (DaspHeader.bare 1 2 .datagram) [0x76, 0]) [0x76, 0] 1 (by decide +kernel)

end Sandstar.Dasp
