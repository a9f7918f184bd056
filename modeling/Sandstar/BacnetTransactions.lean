import Sandstar.BacnetFrames
import Sandstar.DaspTransport
import Sandstar.FloatOps

set_option autoImplicit false

/-!
# BACnet transactions (transaction.rs and the receive loop of mod.rs)

A confirmed request takes an invoke id, is sent up to four times, and ends with the
first answer under its id. The socket is an input: each attempt gives the datagrams
that arrive before its deadline and how the attempt ends. A oneshot channel is
numbered by its creation; what has been sent on the channels is kept in order.
-/
namespace Sandstar.Bacnet

open Decoding
open Dasp (SocketAddr)

/-- `channels` holds the invoke id of each channel made so far. -/
structure TransactionTable where
  pending : Table UInt8 ℕ
  nextId : UInt8
  channels : List UInt8
  completions : List (ℕ × Except BacnetError Apdu)

namespace TransactionTable

def new : TransactionTable := ⟨Table.empty, 0, [], []⟩

def tryAllocate : ℕ → TransactionTable → TransactionTable × Option (UInt8 × ℕ)
  | 0, t => (t, none)
  | rounds + 1, t =>
    let id := t.nextId
    let t := { t with nextId := t.nextId + 1 }
    match t.pending.get id with
    | none =>
      ({ t with
          pending := t.pending.insert id t.channels.length
          channels := t.channels ++ [id] }, some (id, t.channels.length))
    | some _ => tryAllocate rounds t

def allocate (t : TransactionTable) : TransactionTable × Option (UInt8 × ℕ) := tryAllocate 256 t

def complete (t : TransactionTable) (invokeId : UInt8) (result : Except BacnetError Apdu) :
    TransactionTable :=
  match t.pending.get invokeId with
  | some channel =>
    { t with
      pending := t.pending.erase invokeId
      completions := t.completions ++ [(channel, result)] }
  | none => t

def dispatch (t : TransactionTable) (invokeId : UInt8) (apdu : Apdu) : TransactionTable :=
  t.complete invokeId (.ok apdu)

def timeout (t : TransactionTable) (invokeId : UInt8) : TransactionTable :=
  t.complete invokeId (.error (.timeout 3))

def tryRecv (t : TransactionTable) (rx : ℕ) : Option (Except BacnetError Apdu) :=
  (t.completions.find? fun c => c.1 = rx).map Prod.snd

end TransactionTable

def apduInvokeId : Apdu → Option UInt8
  | .readPropertyRequest invokeId .. => some invokeId
  | .readPropertyAck invokeId .. => some invokeId
  | .writePropertyRequest invokeId .. => some invokeId
  | .simpleAck invokeId _ => some invokeId
  | .error invokeId .. => some invokeId
  | .other _ invokeId _ => some invokeId
  | .readPropertyMultipleRequest invokeId _ => some invokeId
  | .readPropertyMultipleAck invokeId _ => some invokeId
  | .confirmedCovNotification invokeId _ => some invokeId
  | .whoIs .. | .iAm .. | .unconfirmedCovNotification _ => none

namespace TransactionTable

section Allocation

/-- The invoke id that `allocate` would hand out. -/
def freeId (t : TransactionTable) : Option UInt8 :=
  ((List.range 256).map fun k => t.nextId + UInt8.ofNat k).find? fun id => t.pending.get id = none

def withWaiter (t : TransactionTable) (id : UInt8) : TransactionTable :=
  { pending := t.pending.insert id t.channels.length
    nextId := id + 1
    channels := t.channels ++ [id]
    completions := t.completions }

theorem tryAllocate_eq (rounds : ℕ) (t : TransactionTable) :
    tryAllocate rounds t =
      match ((List.range rounds).map fun k => t.nextId + UInt8.ofNat k).find?
          fun id => t.pending.get id = none with
      | some id => (t.withWaiter id, some (id, t.channels.length))
      | none => ({ t with nextId := t.nextId + UInt8.ofNat rounds }, none) := by
  induction rounds generalizing t with
  | zero => simp [tryAllocate]
  | succ rounds ih =>
    have hshift : (List.range (rounds + 1)).map (fun k => t.nextId + UInt8.ofNat k) =
        t.nextId :: (List.range rounds).map fun k => t.nextId + 1 + UInt8.ofNat k := by
      rw [List.range_succ_eq_map, List.map_cons, List.map_map]
      congr 1
      · simp
      · apply List.map_congr_left
        intro k _
        change t.nextId + UInt8.ofNat (k + 1) = _
        rw [UInt8.ofNat_add, UInt8.add_comm (UInt8.ofNat k), UInt8.add_assoc]
        rfl
    rw [hshift, List.find?_cons]
    unfold tryAllocate
    dsimp only
    cases hget : t.pending.get t.nextId with
    | none =>
      simp only [decide_true]
      rfl
    | some channel =>
      have hnext : t.nextId + UInt8.ofNat (rounds + 1) = t.nextId + 1 + UInt8.ofNat rounds := by
        rw [UInt8.ofNat_add, UInt8.add_comm (UInt8.ofNat rounds), UInt8.add_assoc]
        rfl
      simp only [reduceCtorEq, decide_false]
      rw [ih, hnext]
      rfl

theorem allocate_eq (t : TransactionTable) :
    t.allocate = match t.freeId with
      | some id => (t.withWaiter id, some (id, t.channels.length))
      | none => (t, none) := by
  unfold allocate freeId
  rw [tryAllocate_eq]
  cases ((List.range 256).map fun k => t.nextId + UInt8.ofNat k).find?
      fun id => t.pending.get id = none with
  | some id => rfl
  | none =>
    have hround : t.nextId + UInt8.ofNat 256 = t.nextId := by
      change t.nextId + 0 = t.nextId
      exact UInt8.add_zero _
    simp only
    rw [hround]

theorem freeId_get {t : TransactionTable} {id : UInt8} (h : t.freeId = some id) :
    t.pending.get id = none := by
  simpa using List.find?_some h

theorem freeId_none_iff (t : TransactionTable) :
    t.freeId = none ↔ ∀ id, t.pending.get id ≠ none := by
  unfold freeId
  rw [List.find?_eq_none]
  constructor
  · intro h id
    have hmem : id ∈ (List.range 256).map fun k => t.nextId + UInt8.ofNat k := by
      refine List.mem_map.2 ⟨(id - t.nextId).toNat, List.mem_range.2 (UInt8.toNat_lt _), ?_⟩
      rw [UInt8.ofNat_toNat, UInt8.add_comm, UInt8.sub_add_cancel]
    simpa using h id hmem
  · intro h id _
    simpa using h id

end Allocation

section Waiters

/-- Each pending waiter has a channel of its own under its id that nothing was sent
    on; a channel is completed at most once, and with an APDU only of its own id. -/
structure Valid (t : TransactionTable) : Prop where
  made : ∀ id channel, t.pending.get id = some channel → t.channels[channel]? = some id
  unanswered : ∀ id channel, t.pending.get id = some channel →
    channel ∉ t.completions.map Prod.fst
  once : (t.completions.map Prod.fst).Nodup
  own : ∀ c ∈ t.completions, ∃ id, t.channels[c.1]? = some id ∧
    ∀ apdu, c.2 = .ok apdu → apduInvokeId apdu = some id

theorem new_valid : new.Valid := by
  refine ⟨?_, ?_, List.nodup_nil, ?_⟩
  · intro id channel h
    cases h
  · intro id channel h
    cases h
  · intro c h
    cases h

theorem Valid.withWaiter {t : TransactionTable} (h : t.Valid) (id : UInt8) : (t.withWaiter id).Valid := by
  -- every channel seen so far is older than the new one
  have hold : ∀ {channel : ℕ} {id' : UInt8}, t.channels[channel]? = some id' →
      (t.channels ++ [id])[channel]? = some id' := by
    intro channel id' hget
    obtain ⟨hlt, -⟩ := List.getElem?_eq_some_iff.1 hget
    rw [List.getElem?_append_left hlt, hget]
  refine ⟨?_, ?_, h.once, ?_⟩
  · intro id' channel hget
    change (t.pending.insert id t.channels.length).get id' = some channel at hget
    rw [Table.get_insert] at hget
    split_ifs at hget with heq
    · cases hget
      rw [heq]
      exact List.getElem?_concat_length
    · exact hold (h.made id' channel hget)
  · intro id' channel hget hmem
    change (t.pending.insert id t.channels.length).get id' = some channel at hget
    rw [Table.get_insert] at hget
    split_ifs at hget with heq
    · cases hget
      obtain ⟨c, hc, hfst⟩ := List.mem_map.1 hmem
      obtain ⟨made, hmade, -⟩ := h.own c hc
      rw [hfst, List.getElem?_length] at hmade
      cases hmade
    · exact h.unanswered id' channel hget hmem
  · intro c hc
    obtain ⟨made, hmade, hown⟩ := h.own c hc
    exact ⟨made, hold hmade, hown⟩

theorem Valid.complete {t : TransactionTable} (h : t.Valid) {id : UInt8}
    {result : Except BacnetError Apdu}
    (hown : ∀ apdu, result = .ok apdu → apduInvokeId apdu = some id) :
    (t.complete id result).Valid := by
  unfold TransactionTable.complete
  cases hget : t.pending.get id with
  | none => exact h
  | some channel =>
    have hmade := h.made id channel hget
    have hfresh := h.unanswered id channel hget
    refine ⟨?_, ?_, ?_, ?_⟩
    · intro id' channel' hget'
      change (t.pending.erase id).get id' = some channel' at hget'
      rw [Table.get_erase] at hget'
      split_ifs at hget'
      exact h.made id' channel' hget'
    · intro id' channel' hget' hmem
      change (t.pending.erase id).get id' = some channel' at hget'
      rw [Table.get_erase] at hget'
      split_ifs at hget' with heq
      simp only [List.map_append, List.map_cons, List.map_nil, List.mem_append,
        List.mem_singleton] at hmem
      rcases hmem with hmem | rfl
      · exact h.unanswered id' channel' hget' hmem
      · have hsame := h.made id' channel' hget'
        rw [hmade] at hsame
        exact heq (Option.some.inj hsame).symm
    · change ((t.completions ++ [(channel, result)]).map Prod.fst).Nodup
      rw [List.map_append]
      exact List.nodup_append.2 ⟨h.once, List.nodup_singleton _, by
        rintro a ha b hb rfl
        rw [List.mem_singleton.1 hb] at ha
        exact hfresh ha⟩
    · intro c hc
      rcases List.mem_append.1 hc with hc | hc
      · exact h.own c hc
      · obtain rfl := List.mem_singleton.1 hc
        exact ⟨id, hmade, hown⟩

theorem get_complete (t : TransactionTable) (id other : UInt8) (result : Except BacnetError Apdu) :
    (t.complete id result).pending.get other = if other = id then none else t.pending.get other := by
  unfold TransactionTable.complete
  cases hget : t.pending.get id with
  | none =>
    split_ifs with heq
    · rw [heq, hget]
    · rfl
  | some channel => exact Table.get_erase _ _ _

theorem complete_channels (t : TransactionTable) (id : UInt8) (result : Except BacnetError Apdu) :
    (t.complete id result).channels = t.channels := by
  unfold TransactionTable.complete
  cases t.pending.get id <;> rfl

theorem Valid.tryRecv_pending {t : TransactionTable} (h : t.Valid) {id : UInt8} {rx : ℕ}
    (hget : t.pending.get id = some rx) : t.tryRecv rx = none := by
  unfold tryRecv
  rw [Option.map_eq_none_iff, List.find?_eq_none]
  intro c hc heq
  exact h.unanswered id rx hget (List.mem_map.2 ⟨c, hc, by simpa using heq⟩)

theorem Valid.tryRecv_complete {t : TransactionTable} (h : t.Valid) {id : UInt8} {rx : ℕ}
    (hget : t.pending.get id = some rx) (result : Except BacnetError Apdu) :
    (t.complete id result).tryRecv rx = some result := by
  have hnone := h.tryRecv_pending hget
  unfold tryRecv at hnone ⊢
  unfold TransactionTable.complete
  rw [hget]
  dsimp only
  rw [List.find?_append, Option.map_eq_none_iff.1 hnone]
  simp

/-- The states that calls of the three methods lead to; `dispatch` is always called
    with the id the APDU carries. -/
inductive Reachable : TransactionTable → Prop
  | new : Reachable new
  | allocate {t : TransactionTable} : Reachable t → Reachable t.allocate.1
  | dispatch {t : TransactionTable} {id : UInt8} {apdu : Apdu} :
      Reachable t → apduInvokeId apdu = some id → Reachable (t.dispatch id apdu)
  | timeout {t : TransactionTable} (id : UInt8) : Reachable t → Reachable (t.timeout id)

theorem Reachable.valid {t : TransactionTable} (h : t.Reachable) : t.Valid := by
  induction h with
  | new => exact new_valid
  | allocate _ ih =>
    rw [allocate_eq]
    split
    · exact ih.withWaiter _
    · exact ih
  | dispatch _ hid ih =>
    apply ih.complete
    rintro _ ⟨⟩
    exact hid
  | timeout id _ ih =>
    apply ih.complete
    rintro _ ⟨⟩

end Waiters

end TransactionTable

structure CovCacheEntry where
  value : BacnetValue
  updatedAt : Instant
  processId : UInt32

inductive CovEvent
  | heard (time : Instant) (notification : CovNotification)
  | removed (objectType : UInt16) (inst : UInt32)

/-- The code keeps the entries only; `history` is what the cache was told. -/
structure CovCache where
  entries : Table (UInt16 × UInt32) CovCacheEntry
  history : List CovEvent

namespace CovCache

def new : CovCache := ⟨Table.empty, []⟩

/-- One value of a notification: a Present_Value is stored, others are not. -/
def store (now : Instant) (notification : CovNotification)
    (entries : Table (UInt16 × UInt32) CovCacheEntry) (pv : CovPropertyValue) :
    Table (UInt16 × UInt32) CovCacheEntry :=
  if pv.propertyId = 85 then
    entries.insert (notification.monitoredObjectType, notification.monitoredObjectInstance)
      ⟨pv.value, now, notification.subscriberProcessId⟩
  else entries

def update (c : CovCache) (now : Instant) (notification : CovNotification) : CovCache :=
  { entries := notification.values.foldl (store now notification) c.entries
    history := c.history ++ [.heard now notification] }

def get (c : CovCache) (now : Instant) (objectType : UInt16) (inst : UInt32) (maxAge : ℕ) :
    Option CovCacheEntry :=
  (c.entries.get (objectType, inst)).filter fun e => now - e.updatedAt < maxAge

def remove (c : CovCache) (objectType : UInt16) (inst : UInt32) : CovCache :=
  { entries := c.entries.erase (objectType, inst)
    history := c.history ++ [.removed objectType inst] }

end CovCache

structure Datagram where
  bytes : List UInt8
  src : SocketAddr
  time : Instant

/-- The receive buffer has 1500 bytes. The outer `none` is a panic of the decoder. -/
def Datagram.decode (d : Datagram) : Option (Option Apdu) :=
  match decodePacket (d.bytes.take 1500) with
  | .ok (_, apdu) => some (some apdu)
  | .error (.reject _) => some none
  | .error _ => none

/-- What the socket does during one attempt: `send_to` fails, or the datagrams arrive
    and then `recv_from` fails or the deadline passes. -/
structure Attempt where
  sendError : Option String
  arrivals : List Datagram
  recvError : Option String

abbrev Network : Type := ℕ → SocketAddr → List UInt8 → ℕ → Attempt

/-- What a transaction borrows of the driver. -/
structure Session where
  transactions : TransactionTable
  covCache : CovCache

inductive Ended
  | noIds
  | sendFailed (e : String)
  | recvFailed (e : String)
  | answered (result : Except BacnetError Apdu)
  | exhausted

def notificationOf : Apdu → Option CovNotification
  | .unconfirmedCovNotification notification => some notification
  | .confirmedCovNotification _ notification => some notification
  | _ => none

namespace Session

def absorb (s : Session) (now : Instant) (apdu : Apdu) : Session :=
  { transactions := match apduInvokeId apdu with
      | some id => s.transactions.dispatch id apdu
      | none => s.transactions
    covCache := match notificationOf apdu with
      | some notification => s.covCache.update now notification
      | none => s.covCache }

def handle (s : Session) (d : Datagram) : Option Session :=
  match d.decode with
  | some (some apdu) => some (s.absorb d.time apdu)
  | some none => some s
  | none => none

def receive (rx : ℕ) (s : Session) : List Datagram →
    Option (Session × Option (Except BacnetError Apdu))
  | [] => some (s, none)
  | d :: ds =>
    match s.handle d with
    | none => none
    | some s =>
      match s.transactions.tryRecv rx with
      | some result => some (s, some result)
      | none => receive rx s ds

def attempts (rx : ℕ) (env : ℕ → Attempt) : ℕ → ℕ → Session → Option (Session × Ended)
  | 0, _, s => some (s, .exhausted)
  | left + 1, k, s =>
    match (env k).sendError with
    | some e => some (s, .sendFailed e)
    | none =>
      match s.receive rx (env k).arrivals with
      | none => none
      | some (s, some result) => some (s, .answered result)
      | some (s, none) =>
        match (env k).recvError with
        | some e => some (s, .recvFailed e)
        | none => attempts rx env left (k + 1) s

/-- The common loop of the transactions. Besides an answer, only the last exit takes
    the id out of the table. -/
def exchange (net : Network) (s : Session) (deviceAddr : SocketAddr)
    (buildRequest : UInt8 → List UInt8) (maxRetries : ℕ) : Option (Session × Ended) :=
  match s.transactions.allocate with
  | (t, none) => some ({ s with transactions := t }, .noIds)
  | (t, some (invokeId, rx)) =>
    match attempts rx (net rx deviceAddr (buildRequest invokeId)) (maxRetries + 1) 0
        { s with transactions := t } with
    | some (s, .exhausted) =>
      some ({ s with transactions := s.transactions.timeout invokeId }, .exhausted)
    | r => r

end Session

section Outcome

variable {id : UInt8} {rx : ℕ} {s : Session}

/-- The datagram ends the wait for an answer under `id`: it carries that id, or the
    decoder panics on it. -/
def Datagram.ends (id : UInt8) (d : Datagram) : Bool :=
  match d.decode with
  | some (some apdu) => apduInvokeId apdu = some id
  | some none => false
  | none => true

/-- How a datagram that ends the wait ends it; `none` is a panic. -/
def Datagram.conclude (d : Datagram) : Option Ended :=
  match d.decode with
  | some (some apdu) => some (.answered (.ok apdu))
  | _ => none

def outcome (id : UInt8) (env : ℕ → Attempt) : ℕ → ℕ → Option Ended
  | 0, _ => some .exhausted
  | left + 1, k =>
    match (env k).sendError with
    | some e => some (.sendFailed e)
    | none =>
      match (env k).arrivals.find? (Datagram.ends id) with
      | some d => d.conclude
      | none =>
        match (env k).recvError with
        | some e => some (.recvFailed e)
        | none => outcome id env left (k + 1)

namespace Session

/-- A waiter for `id` on channel `rx`, in a table the methods lead to. -/
structure Waits (s : Session) (id : UInt8) (rx : ℕ) : Prop where
  reachable : s.transactions.Reachable
  pending : s.transactions.pending.get id = some rx

def Alone (s : Session) (id : UInt8) : Prop :=
  ∀ other, other ≠ id → s.transactions.pending.get other = none

theorem absorb_reachable (h : s.transactions.Reachable) (now : Instant) (apdu : Apdu) :
    (s.absorb now apdu).transactions.Reachable := by
  unfold absorb
  cases hid : apduInvokeId apdu with
  | some id => exact h.dispatch hid
  | none => exact h

theorem absorb_get (now : Instant) (apdu : Apdu) (other : UInt8) :
    (s.absorb now apdu).transactions.pending.get other =
      if apduInvokeId apdu = some other then none else s.transactions.pending.get other := by
  unfold absorb
  cases hid : apduInvokeId apdu with
  | some id =>
    simp only [TransactionTable.dispatch, TransactionTable.get_complete, Option.some.injEq]
    by_cases h : other = id
    · simp [h]
    · simp [h, Ne.symm h]
  | none => simp

/-- A datagram that does not end the wait leaves the waiter waiting. -/
theorem handle_aside (h : s.Waits id rx) {d : Datagram} (hd : d.ends id = false) :
    ∃ s', s.handle d = some s' ∧ s'.Waits id rx ∧ (s.Alone id → s'.Alone id) := by
  unfold Datagram.ends at hd
  unfold handle
  rcases hdecode : d.decode with - | - | apdu
  · simp [hdecode] at hd
  · exact ⟨s, rfl, h, fun halone => halone⟩
  · have hother : apduInvokeId apdu ≠ some id := by simpa [hdecode] using hd
    refine ⟨_, rfl, ⟨absorb_reachable h.reachable _ _, ?_⟩, ?_⟩
    · rw [absorb_get, if_neg hother, h.pending]
    · intro halone other hne
      rw [absorb_get, halone other hne, ite_self]

/-- An answer under the id of the waiter is what its receiver gets. -/
theorem absorb_mine (h : s.Waits id rx) {apdu : Apdu} (hid : apduInvokeId apdu = some id)
    (now : Instant) : (s.absorb now apdu).transactions.tryRecv rx = some (.ok apdu) := by
  unfold absorb
  rw [hid]
  exact h.reachable.valid.tryRecv_complete h.pending _

def settle (s : Session) (ds : List Datagram) : Session :=
  ds.foldl (fun s d => (s.handle d).getD s) s

theorem receive_aside (h : s.Waits id rx) {ds : List Datagram}
    (hds : ∀ d ∈ ds, d.ends id = false) (rest : List Datagram) :
    s.receive rx (ds ++ rest) = (s.settle ds).receive rx rest ∧ (s.settle ds).Waits id rx ∧
      (s.Alone id → (s.settle ds).Alone id) := by
  induction ds generalizing s with
  | nil => exact ⟨rfl, h, fun halone => halone⟩
  | cons d ds ih =>
    obtain ⟨s', hs', hwaits, halone⟩ := handle_aside h (hds d List.mem_cons_self)
    obtain ⟨hreceive, hwaits', halone'⟩ := ih hwaits fun d hd => hds d (List.mem_cons_of_mem _ hd)
    have hsettle : s.settle (d :: ds) = s'.settle ds := by
      unfold settle
      rw [List.foldl_cons, hs']
      rfl
    rw [hsettle]
    refine ⟨?_, hwaits', fun h => halone' (halone h)⟩
    rw [List.cons_append, receive, hs']
    dsimp only
    rw [hwaits.reachable.valid.tryRecv_pending hwaits.pending]
    exact hreceive

theorem receive_ends (h : s.Waits id rx) {ds : List Datagram} (hds : ∀ d ∈ ds, d.ends id = false)
    {d : Datagram} (hd : d.ends id = true) (rest : List Datagram) :
    s.receive rx (ds ++ d :: rest) = match d.decode with
      | some (some apdu) => some ((s.settle ds).absorb d.time apdu, some (.ok apdu))
      | _ => none := by
  obtain ⟨hreceive, hwaits, -⟩ := receive_aside h hds (d :: rest)
  rw [hreceive, receive, handle]
  unfold Datagram.ends at hd
  rcases hdecode : d.decode with - | - | apdu
  · rfl
  · simp [hdecode] at hd
  · have hid : apduInvokeId apdu = some id := by simpa [hdecode] using hd
    simp only [absorb_mine hwaits hid]

/-- The waiter once the exchange is over: gone after an answer, still there after
    anything else. -/
structure Over (s s' : Session) (id : UInt8) (rx : ℕ) (e : Ended) : Prop where
  reachable : s'.transactions.Reachable
  alone : s.Alone id → s'.Alone id
  pending : s'.transactions.pending.get id = match e with
    | .answered _ => none
    | _ => some rx

theorem attempts_spec (h : s.Waits id rx) (env : ℕ → Attempt) (left k : ℕ) :
    match outcome id env left k with
    | none => s.attempts rx env left k = none
    | some e => ∃ s', s.attempts rx env left k = some (s', e) ∧ Over s s' id rx e := by
  induction left generalizing k s with
  | zero => exact ⟨s, rfl, h.reachable, fun halone => halone, h.pending⟩
  | succ left ih =>
    unfold outcome attempts
    cases hsend : (env k).sendError with
    | some e => exact ⟨s, rfl, h.reachable, fun halone => halone, h.pending⟩
    | none =>
      dsimp only
      cases hfind : (env k).arrivals.find? (Datagram.ends id) with
      | some d =>
        obtain ⟨hends, before, after, harrivals, hbefore⟩ := List.find?_eq_some_iff_append.1 hfind
        have haside : ∀ d ∈ before, d.ends id = false := by simpa using hbefore
        obtain ⟨-, hwaits, halone⟩ := receive_aside h haside []
        rw [harrivals, receive_ends h haside hends]
        simp only [Datagram.conclude]
        rcases hdecode : d.decode with - | - | apdu
        · simp only
        · simp only
        · have hid : apduInvokeId apdu = some id := by simpa [Datagram.ends, hdecode] using hends
          refine ⟨_, rfl, absorb_reachable hwaits.reachable _ _, ?_, ?_⟩
          · intro h other hne
            rw [absorb_get, halone h other hne, ite_self]
          · rw [absorb_get, if_pos hid]
      | none =>
        have haside : ∀ d ∈ (env k).arrivals, d.ends id = false := by
          simpa using List.find?_eq_none.1 hfind
        obtain ⟨hreceive, hwaits, halone⟩ := receive_aside h haside []
        rw [List.append_nil] at hreceive
        rw [hreceive]
        dsimp only [receive]
        cases hrecv : (env k).recvError with
        | some e => exact ⟨_, rfl, hwaits.reachable, halone, hwaits.pending⟩
        | none =>
          dsimp only
          have hrest := ih hwaits (k + 1)
          split at hrest
          · exact hrest
          · obtain ⟨s', hs', hover⟩ := hrest
            exact ⟨s', hs', hover.reachable, fun h => hover.alone (halone h), hover.pending⟩

def ending (net : Network) (s : Session) (deviceAddr : SocketAddr)
    (buildRequest : UInt8 → List UInt8) (maxRetries : ℕ) : Option Ended :=
  match s.transactions.freeId with
  | none => some .noIds
  | some id => outcome id (net s.transactions.channels.length deviceAddr (buildRequest id))
      (maxRetries + 1) 0

/-- The table after an exchange under `id`: a failed send or receive leaves the waiter. -/
structure Released (s s' : Session) (id : UInt8) (e : Ended) : Prop where
  alone : s.Alone id → s'.Alone id
  pending : s'.transactions.pending.get id = match e with
    | .answered _ | .exhausted => none
    | _ => some s.transactions.channels.length

theorem withWaiter_waits (h : s.transactions.Reachable) {id : UInt8}
    (hfree : s.transactions.freeId = some id) :
    ({ s with transactions := s.transactions.withWaiter id } : Session).Waits id
      s.transactions.channels.length := by
  refine ⟨?_, Table.get_insert_self _ _ _⟩
  have hstep := h.allocate
  rw [TransactionTable.allocate_eq, hfree] at hstep
  exact hstep

/-- An exchange ends as `ending` says. -/
theorem exchange_spec (h : s.transactions.Reachable) (net : Network) (deviceAddr : SocketAddr)
    (buildRequest : UInt8 → List UInt8) (maxRetries : ℕ) :
    match s.ending net deviceAddr buildRequest maxRetries with
    | none => s.exchange net deviceAddr buildRequest maxRetries = none
    | some e => ∃ s', s.exchange net deviceAddr buildRequest maxRetries = some (s', e) ∧
        s'.transactions.Reachable ∧
        ∀ id, s.transactions.freeId = some id → Released s s' id e := by
  unfold ending exchange
  rw [TransactionTable.allocate_eq]
  cases hfree : s.transactions.freeId with
  | none => exact ⟨s, rfl, h, by rintro _ ⟨⟩⟩
  | some id =>
    dsimp only
    have hwaiter : s.Alone id →
        ({ s with transactions := s.transactions.withWaiter id } : Session).Alone id := by
      intro halone other hne
      change (s.transactions.pending.insert id _).get other = none
      rw [Table.get_insert_ne _ _ hne, halone other hne]
    have hspec := attempts_spec (withWaiter_waits h hfree)
      (net s.transactions.channels.length deviceAddr (buildRequest id)) (maxRetries + 1) 0
    split at hspec
    · rw [hspec]
    · rename_i e houtcome
      obtain ⟨s', hs', hover⟩ := hspec
      rw [hs']
      cases e with
      | exhausted =>
        refine ⟨_, rfl, hover.reachable.timeout id, ?_⟩
        rintro _ ⟨⟩
        refine ⟨?_, ?_⟩
        · intro halone other hne
          have hnone := hover.alone (hwaiter halone) other hne
          change (s'.transactions.complete id _).pending.get other = none
          rw [TransactionTable.get_complete, hnone, ite_self]
        · change (s'.transactions.complete id _).pending.get id = none
          rw [TransactionTable.get_complete, if_pos rfl]
      | _ =>
        refine ⟨s', rfl, hover.reachable, ?_⟩
        rintro _ ⟨⟩
        exact ⟨fun halone => hover.alone (hwaiter halone), hover.pending⟩

section Keeps

variable {P : Session → Prop} (habsorb : ∀ s now apdu, P s → P (s.absorb now apdu))

include habsorb

theorem receive_keeps {ds : List Datagram} {s' : Session}
    {result : Option (Except BacnetError Apdu)} (hs : P s)
    (h : s.receive rx ds = some (s', result)) : P s' := by
  induction ds generalizing s with
  | nil =>
    cases h
    exact hs
  | cons d ds ih =>
    unfold receive handle at h
    split at h
    · cases h
    · rename_i s₁ hhandle
      have hs₁ : P s₁ := by
        split at hhandle
        · cases hhandle
          exact habsorb _ _ _ hs
        · cases hhandle
          exact hs
        · cases hhandle
      split at h
      · cases h
        exact hs₁
      · exact ih hs₁ h

theorem attempts_keeps {env : ℕ → Attempt} {left k : ℕ} {s' : Session} {e : Ended} (hs : P s)
    (h : s.attempts rx env left k = some (s', e)) : P s' := by
  induction left generalizing k s with
  | zero =>
    cases h
    exact hs
  | succ left ih =>
    unfold attempts at h
    split at h
    · cases h
      exact hs
    · split at h
      · cases h
      · rename_i hreceive
        cases h
        exact receive_keeps habsorb hs hreceive
      · rename_i hreceive
        have hs₁ := receive_keeps habsorb hs hreceive
        split at h
        · cases h
          exact hs₁
        · exact ih hs₁ h

/-- A property that absorbing an APDU, taking an id and giving one up keep is kept by
    an exchange. -/
theorem exchange_keeps
    (hallocate : ∀ s, P s → P { s with transactions := s.transactions.allocate.1 })
    (htimeout : ∀ s id, P s → P { s with transactions := s.transactions.timeout id })
    {net : Network} {deviceAddr : SocketAddr} {buildRequest : UInt8 → List UInt8} {maxRetries : ℕ}
    {s' : Session} {e : Ended} (hs : P s)
    (h : s.exchange net deviceAddr buildRequest maxRetries = some (s', e)) : P s' := by
  have hstart := hallocate s hs
  unfold exchange at h
  split at h
  · rename_i hallocated
    cases h
    rw [hallocated] at hstart
    exact hstart
  · rename_i hallocated
    rw [hallocated] at hstart
    split at h
    · rename_i hattempts
      cases h
      exact htimeout _ _ (attempts_keeps habsorb hstart hattempts)
    · exact attempts_keeps habsorb hstart h

end Keeps

theorem exchange_reachable {net : Network} {deviceAddr : SocketAddr}
    {buildRequest : UInt8 → List UInt8} {maxRetries : ℕ} {s' : Session} {e : Ended}
    (hs : s.transactions.Reachable)
    (h : s.exchange net deviceAddr buildRequest maxRetries = some (s', e)) :
    s'.transactions.Reachable :=
  exchange_keeps (P := fun s => s.transactions.Reachable)
    (fun _ now apdu hs => absorb_reachable hs now apdu) (fun _ hs => hs.allocate)
    (fun _ id hs => hs.timeout id) hs h

theorem exchange_later {net : Network} {deviceAddr : SocketAddr}
    {buildRequest : UInt8 → List UInt8} {maxRetries n : ℕ} {s' : Session} {e : Ended}
    (hs : n ≤ s.transactions.channels.length)
    (h : s.exchange net deviceAddr buildRequest maxRetries = some (s', e)) :
    n ≤ s'.transactions.channels.length := by
  refine exchange_keeps (P := fun s => n ≤ s.transactions.channels.length) ?_ ?_ ?_ hs h
  · intro s now apdu hs
    unfold absorb
    cases apduInvokeId apdu with
    | some id => exact (congrArg List.length (TransactionTable.complete_channels _ _ _)).ge.trans' hs
    | none => exact hs
  · intro s hs
    dsimp only
    rw [TransactionTable.allocate_eq]
    split
    · change n ≤ (s.transactions.channels ++ [_]).length
      rw [List.length_append]
      omega
    · exact hs
  · intro s id hs
    exact (congrArg List.length (TransactionTable.complete_channels _ _ _)).ge.trans' hs

end Session

end Outcome

end Sandstar.Bacnet
