import Sandstar.DaspTransport
import Sandstar.ReverseIndex
import Sandstar.Runs

set_option autoImplicit false

namespace Sandstar.Dasp
open Cursor ReverseIndex DaspTransport

theorem allocSessionId_spec {sessions : Table UInt16 DaspSession} {fuel : ℕ} {id r next : UInt16}
    (h : allocSessionId sessions fuel id = some (r, next)) :
    r ≠ noSession ∧ sessions.get r = none := by
  induction fuel generalizing id with
  | zero => cases h
  | succ fuel ih =>
    unfold allocSessionId at h
    split_ifs at h with hres hfree
    · exact ih h
    · cases h
      exact ⟨hres, Option.isNone_iff_eq_none.1 hfree⟩
    · exact ih h

theorem allocSessionId_none {sessions : Table UInt16 DaspSession} {fuel : ℕ} {id : UInt16}
    (h : allocSessionId sessions fuel id = none) (k : ℕ) (hk : k < fuel) :
    id + UInt16.ofNat k = noSession ∨ (sessions.get (id + UInt16.ofNat k)).isSome := by
  induction fuel generalizing id k with
  | zero => omega
  | succ fuel ih =>
    have hnext : allocSessionId sessions fuel (id + 1) = none ∧
        (id = noSession ∨ (sessions.get id).isSome) := by
      unfold allocSessionId at h
      split_ifs at h with hres hfree
      · exact ⟨h, Or.inl hres⟩
      · refine ⟨h, Or.inr ?_⟩
        rw [Option.isNone_iff_eq_none] at hfree
        exact Option.isSome_iff_ne_none.2 hfree
    cases k with
    | zero => simpa using hnext.2
    | succ k =>
      have hrest := ih hnext.1 k (by omega)
      have he : id + 1 + UInt16.ofNat k = id + UInt16.ofNat (k + 1) := by
        rw [UInt16.add_assoc, UInt16.add_comm 1, UInt16.ofNat_add]
        rfl
      rwa [he] at hrest

/-- The loop ends whenever the table leaves one of the first five ids free. -/
theorem allocSessionId_isSome {sessions : Table UInt16 DaspSession} (h : sessions.size ≤ 4)
    (id : UInt16) : (allocSessionId sessions allocRounds id).isSome := by
  rw [Option.isSome_iff_ne_none]
  intro hnone
  have hall : ∀ r : UInt16, r ≠ noSession → r ∈ sessions.keys := by
    intro r hr
    have hk := allocSessionId_none hnone (r - id).toNat (r - id).toNat_lt
    have he : id + UInt16.ofNat (r - id).toNat = r := by
      rw [UInt16.ofNat_toNat, UInt16.add_comm, UInt16.sub_add_cancel]
    rw [he] at hk
    rcases hk with hk | hk
    · exact absurd hk hr
    · exact (Table.mem_keys _ _).2 (Option.isSome_iff_exists.1 hk)
  have hsub : ({0, 1, 2, 3, 4} : Finset UInt16) ⊆ sessions.keys := by
    intro r hr
    refine hall r ?_
    rintro rfl
    exact absurd hr (by decide)
  have hcard : 5 ≤ sessions.keys.card := Finset.card_le_card hsub
  unfold Table.size at h
  omega

section Handlers

variable (t : DaspTransport) (id k : UInt16)

theorem removeSession_get (addr : SocketAddr) :
    (t.removeSession id addr).sessions.get k = if k = id then none else t.sessions.get k :=
  Table.get_erase t.sessions id k

theorem handleClose_get :
    (t.handleClose id).sessions.get k = if k = id then none else t.sessions.get k := by
  unfold handleClose
  cases h : t.sessions.get id with
  | none =>
    split_ifs with hk
    · rw [hk]
      exact h
    · rfl
  | some s => exact removeSession_get t id k s.remoteAddr

theorem handleKeepalive_get (now : ℕ) :
    (t.handleKeepalive now id).1.sessions.get k =
      if k = id then (t.sessions.get k).map (DaspSession.touch now) else t.sessions.get k := by
  unfold handleKeepalive
  cases h : t.sessions.get id with
  | none =>
    split_ifs with hk
    · rw [hk, h]
      rfl
    · rfl
  | some s => exact Table.get_modify t.sessions id k _

end Handlers

structure SessionTable (t : DaspTransport) : Prop where
  inverse : Inverse DaspSession.remoteAddr t.sessions t.addrToSession
  size : t.sessions.size ≤ maxSessions
  reserved : t.sessions.get noSession = none

theorem bind_sessionTable (credentials : Vector UInt8 20) :
    SessionTable (DaspTransport.bind credentials) :=
  ⟨empty_inverse, Nat.zero_le _, rfl⟩

theorem removeSession_sessionTable {t : DaspTransport} {id : UInt16} {s : DaspSession}
    (h : SessionTable t) (hs : t.sessions.get id = some s) :
    SessionTable (t.removeSession id s.remoteAddr) := by
  refine ⟨erase_inverse h.inverse hs, (Table.size_erase_le _ _).trans h.size, ?_⟩
  rw [removeSession_get]
  split_ifs
  · rfl
  · exact h.reserved

theorem modify_sessionTable {t : DaspTransport} {id : UInt16} {f : DaspSession → DaspSession}
    (h : SessionTable t) (hf : ∀ s, (f s).remoteAddr = s.remoteAddr) :
    SessionTable { t with sessions := t.sessions.modify id f } := by
  refine ⟨modify_inverse h.inverse hf, ?_, ?_⟩
  · change (t.sessions.modify id f).keys.card ≤ maxSessions
    rw [Table.keys_modify]
    exact h.size
  · change (t.sessions.modify id f).get noSession = none
    rw [Table.get_modify, h.reserved]
    split_ifs <;> rfl

/-- Before a HELLO is given an id, nothing is left of the address's old session. -/
theorem dropPending_sessionTable {t : DaspTransport} (h : SessionTable t) (src : SocketAddr) :
    SessionTable (t.dropPending src) ∧ (t.dropPending src).addrToSession.get src = none := by
  unfold dropPending
  cases hold : t.addrToSession.get src with
  | none => exact ⟨h, hold⟩
  | some oldId =>
    obtain ⟨s, hs, haddr⟩ := (h.inverse src oldId).1 hold
    have hrem := removeSession_sessionTable h hs
    rw [haddr] at hrem
    exact ⟨hrem, Table.get_erase_self _ _⟩

theorem dropPending_size (t : DaspTransport) (src : SocketAddr) :
    (t.dropPending src).sessions.size ≤ t.sessions.size := by
  unfold dropPending
  split
  · exact Table.size_erase_le _ _
  · exact le_refl _

theorem openSession_sessionTable {t : DaspTransport} (h : SessionTable t) (now : ℕ)
    (nonce : List UInt8) {src : SocketAddr} (hello : DaspHeader) {id : UInt16} (next : UInt16)
    (hsrc : t.addrToSession.get src = none) (hid : id ≠ noSession)
    (hfree : t.sessions.get id = none) (hsize : t.sessions.size < maxSessions) :
    SessionTable (t.openSession now nonce src hello id next).1 := by
  refine ⟨insert_inverse h.inverse hfree hsrc, ?_, ?_⟩
  · exact (Table.size_insert_le _ _ _).trans hsize
  · change (t.sessions.insert id _).get noSession = none
    rw [Table.get_insert_ne _ _ hid.symm]
    exact h.reserved

theorem handleHello_sessionTable {t : DaspTransport} (h : SessionTable t) (now : ℕ)
    (nonce : List UInt8) (src : SocketAddr) (hello : DaspHeader) :
    SessionTable (t.handleHello now nonce src hello).1 := by
  unfold handleHello
  split_ifs with hv hfull
  · exact h
  · exact h
  · obtain ⟨hdrop, hsrc⟩ := dropPending_sessionTable h src
    have hsize := Nat.lt_of_le_of_lt (dropPending_size t src) (Nat.lt_of_not_le hfull)
    dsimp only
    cases hid : allocSessionId (t.dropPending src).sessions allocRounds
        (t.dropPending src).nextSessionId with
    | none => exact hdrop
    | some e =>
      obtain ⟨id, next⟩ := e
      obtain ⟨hres, hfree⟩ := allocSessionId_spec hid
      exact openSession_sessionTable hdrop now nonce hello next hsrc hres hfree hsize

theorem handleAuthenticate_sessionTable {t : DaspTransport} (h : SessionTable t)
    (sha1 : List UInt8 → Vector UInt8 20) (now : ℕ) (src : SocketAddr) (auth : DaspHeader) :
    SessionTable (t.handleAuthenticate sha1 now src auth).1 := by
  unfold handleAuthenticate
  cases hs : t.sessions.get auth.sessionId with
  | none => exact h
  | some s =>
    dsimp only
    split_ifs with haddr hdigest
    · exact h
    · have hrem := removeSession_sessionTable h hs
      rw [not_not.1 haddr] at hrem
      exact hrem
    · exact modify_sessionTable h fun _ => rfl

theorem handleClose_sessionTable {t : DaspTransport} (h : SessionTable t) (id : UInt16) :
    SessionTable (t.handleClose id) := by
  unfold handleClose
  cases hs : t.sessions.get id with
  | none => exact h
  | some s => exact removeSession_sessionTable h hs

theorem poll_sessionTable {t : DaspTransport} (h : SessionTable t)
    (sha1 : List UInt8 → Vector UInt8 20) (now : ℕ) (nonce : List UInt8) (src : SocketAddr)
    (packet : List UInt8) : SessionTable (t.poll sha1 now nonce src packet).1 := by
  unfold poll
  dsimp only
  cases parseHeader (packet.take recvBufSize) with
  | error e => exact h
  | ok hdr =>
    dsimp only
    unfold dispatch
    cases hdr.msgType with
    | discover => exact h
    | hello => exact handleHello_sessionTable h now nonce src hdr
    | challenge => exact h
    | authenticate => exact handleAuthenticate_sessionTable h sha1 now src hdr
    | welcome => exact h
    | keepalive =>
      dsimp only
      unfold handleKeepalive
      split
      · exact h
      · exact modify_sessionTable h fun _ => rfl
    | datagram =>
      dsimp only
      unfold handleDatagram
      split
      · exact h
      · split_ifs
        · exact h
        · exact h
        · exact modify_sessionTable h fun _ => rfl
        · exact modify_sessionTable h fun _ => rfl
    | close => exact handleClose_sessionTable h hdr.sessionId

theorem closeAll_sessionTable (ids : List UInt16) {t : DaspTransport} (h : SessionTable t) :
    SessionTable (ids.foldl (fun t id => t.handleClose id) t) := by
  induction ids generalizing t with
  | nil => exact h
  | cons id ids ih => exact ih (handleClose_sessionTable h id)

theorem daspStep_sessionTable (sha1 : List UInt8 → Vector UInt8 20) (t : DaspTransport)
    (e : DaspEvent) (h : SessionTable t) : SessionTable (daspStep sha1 t e) := by
  cases e with
  | datagram now nonce src packet => exact poll_sessionTable h sha1 now nonce src packet
  | cleanup now ids => exact closeAll_sessionTable _ h
  | send id payload =>
    unfold daspStep sendToSession
    dsimp only
    split
    · exact h
    · exact modify_sessionTable h fun _ => rfl

theorem states_sessionTable (sha1 : List UInt8 → Vector UInt8 20) (credentials : Vector UInt8 20)
    (evs : List DaspEvent) :
    ∀ t ∈ Runs.states (daspStep sha1) (DaspTransport.bind credentials) evs, SessionTable t :=
  Runs.states_always _ (daspStep_sessionTable sha1) (bind_sessionTable credentials) evs

/-- In every state of every run the two maps are inverse, there are at most four sessions,
    none of them has the reserved id, and a HELLO from any address would be given, by a loop
    that ends, an id that is neither reserved nor in use. -/
theorem sessionTable_consistent (sha1 : List UInt8 → Vector UInt8 20)
    (credentials : Vector UInt8 20) (evs : List DaspEvent) :
    ∀ t ∈ Runs.states (daspStep sha1) (DaspTransport.bind credentials) evs,
      (∀ a id, t.addrToSession.get a = some id ↔
        ∃ s, t.sessions.get id = some s ∧ s.remoteAddr = a) ∧
      t.sessions.size ≤ maxSessions ∧
      t.sessions.get noSession = none ∧
      ∀ src, ∃ id next,
        allocSessionId (t.dropPending src).sessions allocRounds (t.dropPending src).nextSessionId =
          some (id, next) ∧
        id ≠ noSession ∧ (t.dropPending src).sessions.get id = none := by
  intro t ht
  have h := states_sessionTable sha1 credentials evs t ht
  refine ⟨h.inverse, h.size, h.reserved, fun src => ?_⟩
  have hsome := allocSessionId_isSome ((dropPending_size t src).trans h.size)
    (t.dropPending src).nextSessionId
  obtain ⟨⟨id, next⟩, hid⟩ := Option.isSome_iff_exists.1 hsome
  exact ⟨id, next, hid, allocSessionId_spec hid⟩

def helloRun : List DaspEvent :=
  [.datagram 1 [1, 2, 3, 4, 5, 6, 7, 8, 9, 10] ⟨0x0a000001, 1876⟩ [0xff, 0xff, 0, 0, 0x10],
    .datagram 2 [2, 3, 4, 5, 6, 7, 8, 9, 10, 11] ⟨0x0a000001, 1877⟩ [0xff, 0xff, 0, 0, 0x10]]

def helloState : DaspTransport :=
  Runs.run (daspStep fun _ => Vector.replicate 20 0) (DaspTransport.bind (Vector.replicate 20 0))
    helloRun

theorem helloState_consistent :
    helloState.sessions.size = 2 ∧
      (∀ a id, helloState.addrToSession.get a = some id ↔
        ∃ s, helloState.sessions.get id = some s ∧ s.remoteAddr = a) ∧
      helloState.sessions.size ≤ maxSessions ∧
      helloState.sessions.get noSession = none ∧
      ∀ src, ∃ id next,
        allocSessionId (helloState.dropPending src).sessions allocRounds
          (helloState.dropPending src).nextSessionId = some (id, next) ∧
        id ≠ noSession ∧ (helloState.dropPending src).sessions.get id = none :=
  ⟨rfl, sessionTable_consistent _ _ helloRun helloState (Runs.run_mem_states _ _ helloRun)⟩

end Sandstar.Dasp
