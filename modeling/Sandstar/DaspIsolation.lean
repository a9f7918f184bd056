import Sandstar.DaspSessions

set_option autoImplicit false

namespace Sandstar.Dasp
open Cursor ReverseIndex DaspTransport

/-- Every session of another address is still there, with all its fields. -/
def Isolated (src : SocketAddr) (t t' : DaspTransport) : Prop :=
  ∀ id s, t.sessions.get id = some s → s.remoteAddr ≠ src → t'.sessions.get id = some s

def helloAccepted (hello : DaspHeader) (t : DaspTransport) : Prop :=
  helloVersionOk hello = true ∧ t.sessions.size < maxSessions

def OwnSession (src : SocketAddr) (hdr : DaspHeader) (t : DaspTransport) : Prop :=
  ∀ s, t.sessions.get hdr.sessionId = some s → s.remoteAddr = src

/-- The packet closes or touches no session of another address, and a HELLO does not
    meet a reverse index that points to one. -/
def IsolatingHeader (now : ℕ) (src : SocketAddr) (hdr : DaspHeader) (t : DaspTransport) : Prop :=
  match hdr.msgType with
  | .close => OwnSession src hdr t
  | .keepalive => ∀ s, t.sessions.get hdr.sessionId = some s →
      s.remoteAddr = src ∨ s.lastActivity = now
  | .hello => helloAccepted hdr t → ∀ oldId s, t.addrToSession.get src = some oldId →
      t.sessions.get oldId = some s → s.remoteAddr = src
  | _ => True

def Isolating (now : ℕ) (src : SocketAddr) (packet : List UInt8) (t : DaspTransport) : Prop :=
  ∀ hdr, parseHeader (packet.take recvBufSize) = .ok hdr → IsolatingHeader now src hdr t

section Handlers

variable {t : DaspTransport} {src : SocketAddr} {hdr : DaspHeader} {now : ℕ}

theorem isolated_refl (src : SocketAddr) (t : DaspTransport) : Isolated src t t :=
  fun _ _ hs _ => hs

theorem handleClose_isolated_iff :
    Isolated src t (t.handleClose hdr.sessionId) ↔ OwnSession src hdr t := by
  constructor
  · intro h s hs
    by_contra hne
    have hkept := h _ s hs hne
    rw [handleClose_get, if_pos rfl] at hkept
    cases hkept
  · intro h id s hs hne
    rw [handleClose_get]
    split_ifs with hid
    · subst hid
      exact absurd (h s hs) hne
    · exact hs

theorem handleKeepalive_isolated_iff :
    Isolated src t (t.handleKeepalive now hdr.sessionId).1 ↔
      ∀ s, t.sessions.get hdr.sessionId = some s → s.remoteAddr = src ∨ s.lastActivity = now := by
  constructor
  · intro h s hs
    by_cases hne : s.remoteAddr = src
    · exact Or.inl hne
    · have hkept := h _ s hs hne
      rw [handleKeepalive_get, if_pos rfl, hs] at hkept
      have htouch : s.touch now = s := Option.some.inj hkept
      exact Or.inr (congrArg DaspSession.lastActivity htouch).symm
  · intro h id s hs hne
    rw [handleKeepalive_get]
    split_ifs with hid
    · subst hid
      have hact : s.lastActivity = now := (h s hs).resolve_left hne
      subst hact
      rw [hs]
      rfl
    · exact hs

theorem dropPending_get (k : UInt16) :
    (t.dropPending src).sessions.get k =
      if t.addrToSession.get src = some k then none else t.sessions.get k := by
  unfold dropPending
  cases hold : t.addrToSession.get src with
  | none => rfl
  | some oldId =>
    rw [removeSession_get]
    by_cases hk : k = oldId
    · simp [hk]
    · simp [hk, Ne.symm hk]

/-- An accepted HELLO opens a session of its own address under an id that is free once
    the address's old session is gone. -/
theorem handleHello_accepted (now : ℕ) (nonce : List UInt8) (src : SocketAddr)
    (h : helloAccepted hdr t) :
    ∃ id next,
      allocSessionId (t.dropPending src).sessions allocRounds (t.dropPending src).nextSessionId =
        some (id, next) ∧
      (t.handleHello now nonce src hdr).1 =
        ((t.dropPending src).openSession now nonce src hdr id next).1 := by
  have hsome := allocSessionId_isSome
    ((dropPending_size t src).trans (Nat.le_of_lt h.2)) (t.dropPending src).nextSessionId
  obtain ⟨⟨id, next⟩, hid⟩ := Option.isSome_iff_exists.1 hsome
  refine ⟨id, next, hid, ?_⟩
  unfold handleHello
  rw [if_neg (by rw [h.1]; decide), if_neg (Nat.not_le.2 h.2)]
  dsimp only
  rw [hid]

theorem handleHello_rejected (nonce : List UInt8) (h : ¬ helloAccepted hdr t) :
    (t.handleHello now nonce src hdr).1 = t := by
  unfold handleHello
  split_ifs with hv hfull
  · rfl
  · rfl
  · refine absurd ⟨?_, Nat.lt_of_not_le hfull⟩ h
    simpa using hv

theorem openSession_get (t : DaspTransport) (now : ℕ) (nonce : List UInt8) (src : SocketAddr)
    (hdr : DaspHeader) (id next k : UInt16) :
    ∃ s, s.remoteAddr = src ∧ s.nonce = nonce ∧ s.authenticated = false ∧
      (t.openSession now nonce src hdr id next).1.sessions.get k =
        if k = id then some s else t.sessions.get k :=
  ⟨_, rfl, rfl, rfl, Table.get_insert t.sessions id k _⟩

theorem handleHello_isolated_iff (nonce : List UInt8) :
    Isolated src t (t.handleHello now nonce src hdr).1 ↔
      (helloAccepted hdr t → ∀ oldId s, t.addrToSession.get src = some oldId →
        t.sessions.get oldId = some s → s.remoteAddr = src) := by
  by_cases hacc : helloAccepted hdr t
  · obtain ⟨id, next, hid, heq⟩ := handleHello_accepted now nonce src hacc
    obtain ⟨-, hfree⟩ := allocSessionId_spec hid
    rw [heq]
    constructor
    · intro h _ oldId s hold hs
      by_contra hne
      have hkept := h oldId s hs hne
      obtain ⟨new, haddr, -, -, hget⟩ := openSession_get (t.dropPending src) now nonce src hdr
        id next oldId
      rw [hget, dropPending_get, if_pos hold] at hkept
      split_ifs at hkept
      cases hkept
      exact hne haddr
    · intro h k s hs hne
      obtain ⟨new, -, -, -, hget⟩ := openSession_get (t.dropPending src) now nonce src hdr
        id next k
      have hkept : (t.dropPending src).sessions.get k = some s := by
        rw [dropPending_get, if_neg fun hold => hne (h hacc k s hold hs)]
        exact hs
      have hk : k ≠ id := by
        rintro rfl
        rw [hfree] at hkept
        cases hkept
      rw [hget, if_neg hk]
      exact hkept
  · rw [handleHello_rejected nonce hacc]
    exact ⟨fun _ h => absurd h hacc, fun _ => isolated_refl src t⟩

/-- A change to the sender's own session leaves the others alone. -/
theorem modify_isolated {id : UInt16} {s : DaspSession} (hs : t.sessions.get id = some s)
    (haddr : s.remoteAddr = src) (f : DaspSession → DaspSession) :
    Isolated src t { t with sessions := t.sessions.modify id f } := by
  intro k s' hs' hne
  have hk : k ≠ id := by
    rintro rfl
    rw [hs] at hs'
    cases hs'
    exact hne haddr
  exact (Table.get_modify_ne _ _ hk).trans hs'

theorem handleAuthenticate_isolated (sha1 : List UInt8 → Vector UInt8 20) :
    Isolated src t (t.handleAuthenticate sha1 now src hdr).1 := by
  unfold handleAuthenticate
  cases hs : t.sessions.get hdr.sessionId with
  | none => exact isolated_refl src t
  | some s =>
    dsimp only
    split_ifs with haddr hdigest
    · exact isolated_refl src t
    · intro k s' hs' hne
      rw [removeSession_get]
      split_ifs with hk
      · subst hk
        rw [hs] at hs'
        cases hs'
        exact absurd (not_not.1 haddr) hne
      · exact hs'
    · exact modify_isolated hs (not_not.1 haddr) _

theorem handleDatagram_isolated (payload : List UInt8) :
    Isolated src t (t.handleDatagram now src hdr payload).1 := by
  unfold handleDatagram
  cases hs : t.sessions.get hdr.sessionId with
  | none => exact isolated_refl src t
  | some s =>
    by_cases hauth : s.authenticated = true
    · by_cases haddr : s.remoteAddr = src
      · simp only [hauth, haddr, Bool.not_true, Bool.false_eq_true, if_false, ne_eq,
          not_true_eq_false]
        exact modify_isolated hs haddr _
      · simp only [hauth, Bool.not_true, Bool.false_eq_true, if_false, ne_eq, haddr,
          not_false_eq_true, if_true]
        exact isolated_refl src t
    · simp only [hauth, Bool.not_false, if_true]
      exact isolated_refl src t

end Handlers

theorem dispatch_isolated_iff (sha1 : List UInt8 → Vector UInt8 20) (now : ℕ)
    (nonce : List UInt8) (src : SocketAddr) (hdr : DaspHeader) (data : List UInt8)
    (t : DaspTransport) :
    Isolated src t (t.dispatch sha1 now nonce src hdr data).1 ↔ IsolatingHeader now src hdr t := by
  unfold dispatch IsolatingHeader
  cases hdr.msgType with
  | discover => exact ⟨fun _ => trivial, fun _ => isolated_refl src t⟩
  | hello => exact handleHello_isolated_iff nonce
  | challenge => exact ⟨fun _ => trivial, fun _ => isolated_refl src t⟩
  | authenticate => exact ⟨fun _ => trivial, fun _ => handleAuthenticate_isolated sha1⟩
  | welcome => exact ⟨fun _ => trivial, fun _ => isolated_refl src t⟩
  | keepalive => exact handleKeepalive_isolated_iff
  | datagram => exact ⟨fun _ => trivial, fun _ => handleDatagram_isolated _⟩
  | close => exact handleClose_isolated_iff

/-- For every state and every packet: the sessions of other addresses are left unchanged
    exactly when the packet is no CLOSE and no KEEPALIVE for one of them. -/
theorem poll_isolated_iff (sha1 : List UInt8 → Vector UInt8 20) (now : ℕ) (nonce : List UInt8)
    (src : SocketAddr) (packet : List UInt8) (t : DaspTransport) :
    Isolated src t (t.poll sha1 now nonce src packet).1 ↔ Isolating now src packet t := by
  unfold poll Isolating
  dsimp only
  cases parseHeader (packet.take recvBufSize) with
  | error e => exact ⟨fun _ hdr h => (nomatch h), fun _ => isolated_refl src t⟩
  | ok hdr =>
    rw [dispatch_isolated_iff]
    constructor
    · intro h hdr' he
      cases he
      exact h
    · exact fun h => h hdr rfl

def client : SocketAddr := ⟨0x0a000001, 1876⟩

def stranger : SocketAddr := ⟨0x0a000002, 4000⟩

/-- A transport with one client in an authenticated session. -/
def connected : DaspTransport where
  sessions := Table.empty.insert 1
    { DaspSession.new 0 1 7 client [1, 2, 3, 4, 5, 6, 7, 8, 9, 10] with authenticated := true }
  addrToSession := Table.empty.insert client 1
  nextSessionId := 2
  credentials := Vector.replicate 20 0

def closeBytes : List UInt8 := [0, 1, 0, 0, 0x70]

theorem close_from_stranger_not_isolated :
    ¬ Isolated stranger connected
      (connected.poll (fun _ => Vector.replicate 20 0) 5 [] stranger closeBytes).1 := by
  intro h
  have hkept := h 1 _ rfl (by decide)
  have hgone : (connected.poll (fun _ => Vector.replicate 20 0) 5 [] stranger
      closeBytes).1.sessions.get 1 = none := rfl
  rw [hgone] at hkept
  cases hkept

end Sandstar.Dasp
