import Sandstar.BacnetMessages
import Sandstar.BacnetSync

set_option autoImplicit false

/-!
# COV notifications of other devices

The COV cache is keyed by object type and instance, which are unique within one device
only. Two runs of the driver are compared that agree on everything about one device:
its own notifications, the time, and what the socket brings for requests to it once the
notifications of other devices are left out.
-/
namespace Sandstar.Bacnet

open Tasks
open Dasp (SocketAddr)
open Drivers (DriverError DriverPointRef)

namespace CovCache

def replay (entries : Table (UInt16 × UInt32) CovCacheEntry) :
    List CovEvent → Table (UInt16 × UInt32) CovCacheEntry
  | [] => entries
  | .heard time n :: events => replay (n.values.foldl (store time n) entries) events
  | .removed objectType inst :: events => replay (entries.erase (objectType, inst)) events

def Faithful (c : CovCache) : Prop := c.entries = replay Table.empty c.history

theorem replay_concat (entries : Table (UInt16 × UInt32) CovCacheEntry) (events : List CovEvent)
    (e : CovEvent) : replay entries (events ++ [e]) = replay (replay entries events) [e] := by
  induction events generalizing entries with
  | nil => rfl
  | cons e' events ih => cases e' <;> exact ih _

theorem Faithful.update {c : CovCache} (h : c.Faithful) (now : Instant) (n : CovNotification) :
    (c.update now n).Faithful := by
  unfold Faithful CovCache.update at *
  rw [replay_concat, ← h]
  rfl

theorem Faithful.remove {c : CovCache} (h : c.Faithful) (objectType : UInt16) (inst : UInt32) :
    (c.remove objectType inst).Faithful := by
  unfold Faithful CovCache.remove at *
  rw [replay_concat, ← h]
  rfl

def Brings (key : UInt16 × UInt32) (n : CovNotification) : Prop :=
  (n.monitoredObjectType, n.monitoredObjectInstance) = key ∧ ∃ pv ∈ n.values, pv.propertyId = 85

def ofDevice (device : UInt32) (history : List CovEvent) : List CovEvent :=
  history.filter fun
    | .heard _ n => n.initiatingDeviceInstance = device
    | .removed _ _ => true

def NoneElse (device : UInt32) (key : UInt16 × UInt32) (history : List CovEvent) : Prop :=
  ∀ time n, .heard time n ∈ history → n.initiatingDeviceInstance ≠ device → ¬ Brings key n

end CovCache

/-- A COV notification of another device. -/
def Datagram.foreign (device : UInt32) (d : Datagram) : Bool :=
  match d.decode with
  | some (some apdu) =>
    (notificationOf apdu).any fun n => n.initiatingDeviceInstance ≠ device
  | _ => false

def Attempt.ofDevice (device : UInt32) (a : Attempt) : Attempt :=
  { a with arrivals := a.arrivals.filter fun d => !d.foreign device }

def Network.ofDevice (device : UInt32) (net : Network) : Network :=
  fun n deviceAddr request k => (net n deviceAddr request k).ofDevice device

theorem outcome_congr {id : UInt8} {env env' : ℕ → Attempt}
    (hsend : ∀ k, (env k).sendError = (env' k).sendError)
    (hfind : ∀ k, (env k).arrivals.find? (Datagram.ends id) =
      (env' k).arrivals.find? (Datagram.ends id))
    (hrecv : ∀ k, (env k).recvError = (env' k).recvError) (left k : ℕ) :
    outcome id env left k = outcome id env' left k := by
  induction left generalizing k with
  | zero => rfl
  | succ left ih =>
    unfold outcome
    rw [hsend k, hfind k, hrecv k, ih (k + 1)]

/-- If no notification of another device comes under the id of a request, leaving them
    out changes nothing. -/
theorem outcome_ofDevice {device : UInt32} {id : UInt8} {env : ℕ → Attempt}
    (h : ∀ k, ∀ d ∈ (env k).arrivals, d.foreign device → d.ends id = false) (left k : ℕ) :
    outcome id (fun k => (env k).ofDevice device) left k = outcome id env left k := by
  have hdrop : ∀ ds : List Datagram, (∀ d ∈ ds, d.foreign device → d.ends id = false) →
      (ds.filter fun d => !d.foreign device).find? (Datagram.ends id) =
        ds.find? (Datagram.ends id) := by
    intro ds
    induction ds with
    | nil => exact fun _ => rfl
    | cons d ds ih =>
      intro hds
      have hrest := ih fun d hd => hds d (List.mem_cons_of_mem _ hd)
      cases hforeign : d.foreign device with
      | true =>
        rw [List.filter_cons_of_neg (by simp [hforeign]), hrest,
          List.find?_cons_of_neg (by simp [hds d List.mem_cons_self hforeign])]
      | false =>
        rw [List.filter_cons_of_pos (by simp [hforeign]), List.find?_cons, List.find?_cons, hrest]
  apply outcome_congr
  · intro k
    rfl
  · intro k
    exact hdrop _ (h k)
  · intro k
    rfl

def Apdu.anonymous : Apdu → Apdu
  | .readPropertyRequest _ t i p index => .readPropertyRequest 0 t i p index
  | .readPropertyAck _ t i p value => .readPropertyAck 0 t i p value
  | .error _ service errorClass errorCode => .error 0 service errorClass errorCode
  | .writePropertyRequest _ t i p index value priority =>
    .writePropertyRequest 0 t i p index value priority
  | .simpleAck _ service => .simpleAck 0 service
  | .readPropertyMultipleRequest _ specs => .readPropertyMultipleRequest 0 specs
  | .readPropertyMultipleAck _ results => .readPropertyMultipleAck 0 results
  | .confirmedCovNotification _ notification => .confirmedCovNotification 0 notification
  | .other pduType _ data => .other pduType 0 data
  | apdu => apdu

def Ended.anonymous : Ended → Ended
  | .answered (.ok apdu) => .answered (.ok apdu.anonymous)
  | e => e

inductive IsRead : (UInt8 → List UInt8) → Prop
  | single (objectType : UInt16) (inst : UInt32) :
      IsRead fun id => encodeReadProperty id objectType inst 85 none
  | batch (specs : List RpmRequestSpec) : IsRead fun id => encodeReadPropertyMultiple id specs

namespace Session

/-- The next reads at this address are not answered by a notification of another
    device. -/
def Undisturbed (device : UInt32) (net : Network) (deviceAddr : SocketAddr) :
    ℕ → Session → Prop
  | 0, _ => True
  | n + 1, s => ∀ buildRequest, IsRead buildRequest →
      (∀ id ∈ s.transactions.freeId, ∀ k, ∀ d ∈ (net s.transactions.channels.length deviceAddr
        (buildRequest id) k).arrivals, d.foreign device → d.ends id = false) ∧
      ∀ s' e, s.exchange net deviceAddr buildRequest 3 = some (s', e) →
        Undisturbed device net deviceAddr n s'

/-- The next reads at this address end alike in two runs, up to the invoke id, with the
    notifications of other devices left out. -/
def Alike (device : UInt32) (net₁ net₂ : Network) (deviceAddr : SocketAddr) :
    ℕ → Session → Session → Prop
  | 0, _, _ => True
  | n + 1, s₁, s₂ => ∀ buildRequest, IsRead buildRequest →
      (s₁.ending (net₁.ofDevice device) deviceAddr buildRequest 3).map Ended.anonymous =
        (s₂.ending (net₂.ofDevice device) deviceAddr buildRequest 3).map Ended.anonymous ∧
      ∀ t₁ e₁ t₂ e₂, s₁.exchange net₁ deviceAddr buildRequest 3 = some (t₁, e₁) →
        s₂.exchange net₂ deviceAddr buildRequest 3 = some (t₂, e₂) →
        Alike device net₁ net₂ deviceAddr n t₁ t₂

theorem ending_ofDevice {device : UInt32} {net : Network} {deviceAddr : SocketAddr} {s : Session}
    (h : s.Undisturbed device net deviceAddr 1) {buildRequest : UInt8 → List UInt8}
    (hread : IsRead buildRequest) :
    s.ending (net.ofDevice device) deviceAddr buildRequest 3 =
      s.ending net deviceAddr buildRequest 3 := by
  unfold ending
  cases hfree : s.transactions.freeId with
  | none => rfl
  | some id => exact outcome_ofDevice ((h buildRequest hread).1 id hfree) 4 0

end Session

namespace BacnetDriver

section InStep

variable {F : Type} {device : UInt32} {host₁ host₂ : Host} {deviceAddr : SocketAddr}

/-- Two drivers whose coming exchanges with a device end alike. -/
structure InStep (device : UInt32) (host₁ host₂ : Host) (deviceAddr : SocketAddr)
    (b₁ b₂ : BacnetDriver F) : Prop where
  connected : b₁.connected = b₂.connected
  reachable₁ : b₁.session.transactions.Reachable
  reachable₂ : b₂.session.transactions.Reachable
  undisturbed₁ : ∀ n, b₁.session.Undisturbed device host₁.net deviceAddr n
  undisturbed₂ : ∀ n, b₂.session.Undisturbed device host₂.net deviceAddr n
  alike : ∀ n, Session.Alike device host₁.net host₂.net deviceAddr n b₁.session b₂.session

/-- The same read in both runs ends alike and leaves them in step. -/
theorem InStep.request {b₁ b₂ b₁' b₂' : BacnetDriver F}
    (h : InStep device host₁ host₂ deviceAddr b₁ b₂) {α : Type} {otherwise a₁ a₂ : α}
    {buildRequest : UInt8 → List UInt8} (hread : IsRead buildRequest) {f₁ f₂ : Ended → α}
    (h₁ : (whenConnected otherwise do
      let ended ← exchange host₁ deviceAddr buildRequest
      return f₁ ended) b₁ = some (a₁, b₁'))
    (h₂ : (whenConnected otherwise do
      let ended ← exchange host₂ deviceAddr buildRequest
      return f₂ ended) b₂ = some (a₂, b₂')) :
    InStep device host₁ host₂ deviceAddr b₁' b₂' ∧
      (a₁ = a₂ ∨ ∃ e₁ e₂, e₁.anonymous = e₂.anonymous ∧ a₁ = f₁ e₁ ∧ a₂ = f₂ e₂) := by
  unfold whenConnected at h₁ h₂
  rw [← h.connected] at h₂
  split_ifs at h₁ h₂
  · obtain ⟨e₁, c₁, hexchange₁, hpure₁⟩ := bind_eq_some h₁
    obtain ⟨e₂, c₂, hexchange₂, hpure₂⟩ := bind_eq_some h₂
    cases hpure₁
    cases hpure₂
    have hending₁ := exchange_ending h.reachable₁ hexchange₁
    have hending₂ := exchange_ending h.reachable₂ hexchange₂
    have hsame := (h.alike 1 buildRequest hread).1
    rw [Session.ending_ofDevice (h.undisturbed₁ 1) hread,
      Session.ending_ofDevice (h.undisturbed₂ 1) hread, hending₁, hending₂] at hsame
    obtain ⟨⟨s₁, e₁'⟩, hs₁, heq₁⟩ := Option.map_eq_some_iff.1 hexchange₁
    obtain ⟨⟨s₂, e₂'⟩, hs₂, heq₂⟩ := Option.map_eq_some_iff.1 hexchange₂
    cases heq₁
    cases heq₂
    refine ⟨⟨h.connected, Session.exchange_reachable h.reachable₁ hs₁,
      Session.exchange_reachable h.reachable₂ hs₂, ?_, ?_, ?_⟩,
      .inr ⟨_, _, Option.some.inj hsame, rfl, rfl⟩⟩
    · exact fun n => (h.undisturbed₁ (n + 1) buildRequest hread).2 s₁ _ hs₁
    · exact fun n => (h.undisturbed₂ (n + 1) buildRequest hread).2 s₂ _ hs₂
    · exact fun n => (h.alike (n + 1) buildRequest hread).2 s₁ _ s₂ _ hs₁ hs₂
  · cases h₁
    cases h₂
    exact ⟨h, .inl rfl⟩

variable [ValueCasts F]

theorem presentValue_anonymous (obj : BacnetObject F) {e₁ e₂ : Ended}
    (h : e₁.anonymous = e₂.anonymous) :
    (e₁.transacted.bind (presentValue host₁ obj)).toOption =
      (e₂.transacted.bind (presentValue host₂ obj)).toOption := by
  have hone : ∀ (host host' : Host) (e : Ended),
      (e.transacted.bind (presentValue host obj)).toOption =
        (e.anonymous.transacted.bind (presentValue host' obj)).toOption := by
    intro host host' e
    cases e with
    | answered result =>
      cases result with
      | error fault => rfl
      | ok apdu =>
        change (presentValue host obj apdu).toOption = (presentValue host' obj apdu.anonymous).toOption
        cases apdu <;> rfl
    | _ => rfl
  rw [hone host₁ host₁ e₁, h, ← hone host₂ host₁ e₂]

theorem propertyValues_anonymous (specs : List RpmRequestSpec) {e₁ e₂ : Ended}
    (h : e₁.anonymous = e₂.anonymous) :
    (e₁.received.bind (propertyValues host₁ specs)).toOption =
      (e₂.received.bind (propertyValues host₂ specs)).toOption := by
  have hone : ∀ (host host' : Host) (e : Ended),
      (e.received.bind (propertyValues host specs)).toOption =
        (e.anonymous.received.bind (propertyValues host' specs)).toOption := by
    intro host host' e
    cases e with
    | answered result =>
      cases result with
      | error fault => rfl
      | ok apdu =>
        change (propertyValues host specs apdu).toOption =
          (propertyValues host' specs apdu.anonymous).toOption
        cases apdu <;> rfl
    | _ => rfl
  rw [hone host₁ host₁ e₁, h, ← hone host₂ host₁ e₂]

/-- What is compared of a result: the point, the path and the value. -/
def Reported.value (r : Reported F) : BitVec 32 × Path × Option F :=
  (r.pointId, r.path, r.result.toOption)

theorem InStep.readPresentValue {b₁ b₂ b₁' b₂' : BacnetDriver F} {obj : BacnetObject F}
    {r₁ r₂ : Except DriverError F} (h : InStep device host₁ host₂ deviceAddr b₁ b₂)
    (h₁ : BacnetDriver.readPresentValue host₁ deviceAddr obj b₁ = some (r₁, b₁'))
    (h₂ : BacnetDriver.readPresentValue host₂ deviceAddr obj b₂ = some (r₂, b₂')) :
    InStep device host₁ host₂ deviceAddr b₁' b₂' ∧ r₁.toOption = r₂.toOption := by
  obtain ⟨hstep, rfl | ⟨e₁, e₂, hanonymous, rfl, rfl⟩⟩ := h.request (.single _ _) h₁ h₂
  · exact ⟨hstep, rfl⟩
  · exact ⟨hstep, presentValue_anonymous obj hanonymous⟩

theorem InStep.readEach {b₁ b₂ b₁' b₂' : BacnetDriver F}
    {group : List (BitVec 32 × BacnetObject F)} {out₁ out₂ : List (Reported F)}
    (h : InStep device host₁ host₂ deviceAddr b₁ b₂)
    (h₁ : BacnetDriver.readEach host₁ deviceAddr group b₁ = some (out₁, b₁'))
    (h₂ : BacnetDriver.readEach host₂ deviceAddr group b₂ = some (out₂, b₂')) :
    out₁.map Reported.value = out₂.map Reported.value := by
  induction group generalizing b₁ b₂ out₁ out₂ with
  | nil =>
    cases h₁
    cases h₂
    rfl
  | cons p group ih =>
    unfold BacnetDriver.readEach at h₁ h₂
    rw [List.mapM_cons] at h₁ h₂
    obtain ⟨first₁, c₁, hfirst₁, hrest₁⟩ := bind_eq_some h₁
    obtain ⟨first₂, c₂, hfirst₂, hrest₂⟩ := bind_eq_some h₂
    obtain ⟨r₁, d₁, hread₁, hpure₁⟩ := bind_eq_some hfirst₁
    obtain ⟨r₂, d₂, hread₂, hpure₂⟩ := bind_eq_some hfirst₂
    cases hpure₁
    cases hpure₂
    obtain ⟨rest₁, f₁, hmap₁, hpure₁⟩ := bind_eq_some hrest₁
    obtain ⟨rest₂, f₂, hmap₂, hpure₂⟩ := bind_eq_some hrest₂
    cases hpure₁
    cases hpure₂
    obtain ⟨hstep, hvalue⟩ := h.readPresentValue hread₁ hread₂
    rw [List.map_cons, List.map_cons, ih hstep hmap₁ hmap₂]
    simp [Reported.value, hvalue]

theorem InStep.readBatch {b₁ b₂ b₁' b₂' : BacnetDriver F}
    {group : List (BitVec 32 × BacnetObject F)} {out₁ out₂ : List (Reported F)}
    (h : InStep device host₁ host₂ deviceAddr b₁ b₂)
    (h₁ : BacnetDriver.readBatch host₁ deviceAddr group b₁ = some (out₁, b₁'))
    (h₂ : BacnetDriver.readBatch host₂ deviceAddr group b₂ = some (out₂, b₂')) :
    out₁.map Reported.value = out₂.map Reported.value := by
  obtain ⟨batch₁, c₁, hbatch₁, hrest₁⟩ := bind_eq_some h₁
  obtain ⟨batch₂, c₂, hbatch₂, hrest₂⟩ := bind_eq_some h₂
  obtain ⟨hstep, hsame⟩ := h.request (.batch _) hbatch₁ hbatch₂
  have hoption : batch₁.toOption = batch₂.toOption := by
    rcases hsame with rfl | ⟨e₁, e₂, hanonymous, rfl, rfl⟩
    · rfl
    · exact propertyValues_anonymous _ hanonymous
  cases batch₁ with
  | error fault₁ =>
    cases batch₂ with
    | error fault₂ => exact hstep.readEach hrest₁ hrest₂
    | ok values₂ => cases hoption
  | ok values₁ =>
    cases batch₂ with
    | error fault₂ => cases hoption
    | ok values₂ =>
      cases hoption
      cases hrest₁
      cases hrest₂
      rfl

theorem InStep.readGroup {b₁ b₂ b₁' b₂' : BacnetDriver F}
    {group : List (BitVec 32 × BacnetObject F)} {out₁ out₂ : List (Reported F)}
    (h : InStep device host₁ host₂ deviceAddr b₁ b₂)
    (h₁ : BacnetDriver.readGroup host₁ deviceAddr group b₁ = some (out₁, b₁'))
    (h₂ : BacnetDriver.readGroup host₂ deviceAddr group b₂ = some (out₂, b₂')) :
    out₁.map Reported.value = out₂.map Reported.value := by
  match group with
  | [] =>
    cases h₁
    cases h₂
    rfl
  | [_] => exact h.readEach h₁ h₂
  | _ :: _ :: _ => exact h.readBatch h₁ h₂

/-- The results for a device in two runs that are in step when they come to it, and
    that see the same cache entries for its points. -/
theorem InStep.syncDevice {b₁ b₂ b₁' b₂' : BacnetDriver F}
    {group : List (BitVec 32 × BacnetObject F)} {out₁ out₂ : List (Reported F)}
    (hregistry : b₁.deviceRegistry.get device = b₂.deviceRegistry.get device)
    (hstep : ∀ deviceAddr, b₁.deviceRegistry.get device = some deviceAddr →
      InStep device host₁ host₂ deviceAddr b₁ b₂)
    (hcached : ∀ p ∈ group, b₁.cached host₁ p.2 = b₂.cached host₂ p.2)
    (h₁ : BacnetDriver.syncDevice host₁ device group b₁ = some (out₁, b₁'))
    (h₂ : BacnetDriver.syncDevice host₂ device group b₂ = some (out₂, b₂')) :
    out₁.map Reported.value = out₂.map Reported.value := by
  unfold BacnetDriver.syncDevice at h₁ h₂
  rw [← hregistry] at h₂
  cases haddr : b₁.deviceRegistry.get device with
  | none =>
    rw [haddr] at h₁ h₂
    cases h₁
    cases h₂
    rfl
  | some deviceAddr =>
    rw [haddr] at h₁ h₂
    dsimp only at h₁ h₂
    have hhits : (group.filterMap fun p => (b₁.cached host₁ p.2).map fun entry =>
        (⟨p.1, .cov, converted p.2 "bacnet: non-numeric COV value" entry.value⟩ : Reported F)) =
        group.filterMap fun p => (b₂.cached host₂ p.2).map fun entry =>
          ⟨p.1, .cov, converted p.2 "bacnet: non-numeric COV value" entry.value⟩ :=
      List.filterMap_congr fun p hp => by rw [hcached p hp]
    have huncached : (group.filter fun p => (b₁.cached host₁ p.2).isNone) =
        group.filter fun p => (b₂.cached host₂ p.2).isNone :=
      List.filter_congr fun p hp => by rw [hcached p hp]
    rw [hhits, huncached] at h₁
    obtain ⟨rest₁, c₁, hrest₁, hpure₁⟩ := bind_eq_some h₁
    obtain ⟨rest₂, c₂, hrest₂, hpure₂⟩ := bind_eq_some h₂
    cases hpure₁
    cases hpure₂
    rw [List.map_append, List.map_append, (hstep deviceAddr haddr).readGroup hrest₁ hrest₂]

/-- `sync_cur` up to the reads of one device. -/
def arrive (host : Host) (points : List DriverPointRef) (device : UInt32) :
    Task (BacnetDriver F) Unit := do
  renewDueSubscriptions host
  fun b => (do
    let _ ← ((host.order (devices (b.configured points))).takeWhile (· ≠ device)).mapM fun d =>
      syncDevice host d (groupOf (b.configured points) d)
    : Task (BacnetDriver F) Unit) b

end InStep

section Calls

variable {F : Type} [ValueCasts F]

/-- The calls the driver gets once it is open. -/
inductive Call (F : Type)
  | syncCur (points : List DriverPointRef)
  | write (writes : List (BitVec 32 × F))
  | onWatch (points : List DriverPointRef)
  | onUnwatch (points : List DriverPointRef)

def Call.perform (host : Host) : Call F → Task (BacnetDriver F) Unit
  | .syncCur points => do let _ ← BacnetDriver.syncCur host points
  | .write writes => do let _ ← BacnetDriver.write host writes
  | .onWatch points => BacnetDriver.onWatch host points
  | .onUnwatch points => BacnetDriver.onUnwatch host points

def runCalls (host : Host) (calls : List (Call F)) : Task (BacnetDriver F) Unit := do
  let _ ← calls.mapM (Call.perform host)

/-- In a run, no other device has sent a present value for an object named like one of
    the device, and none of their notifications comes under the invoke id of a read. -/
structure Apart (device : UInt32) (host : Host) (points : List DriverPointRef)
    (a : BacnetDriver F) : Prop where
  named : ∀ p ∈ groupOf (a.configured points) device,
    CovCache.NoneElse device (p.2.objectType, p.2.inst) a.session.covCache.history
  answered : ∀ deviceAddr, a.deviceRegistry.get device = some deviceAddr →
    ∀ n, a.session.Undisturbed device host.net deviceAddr n

end Calls

/-! Two devices with an object 1 of type 0 each, as points 7 and 8. -/

section Namesakes

def namesakeObjects : Table (BitVec 32) (BacnetObject ℚ) :=
  (Table.empty.insert 7#32 ⟨100, 0, 1, 1, 0⟩).insert 8#32 ⟨200, 0, 1, 1, 0⟩

def otherAddr : SocketAddr := ⟨0xC0A80106, 47808⟩

def namesakeDriver : BacnetDriver ℚ :=
  (BacnetDriver.new namesakeObjects).opened [(100, sampleAddr), (200, otherAddr)]

def answerTo (request : List UInt8) : Datagram :=
  ⟨encodeReadPropertyAck (request.getD 8 0) 0 1 85 (.unsigned 21), sampleAddr, 0⟩

def firstNet (ds : List Datagram) : Network := fun n _ request _ =>
  ⟨none, if n = 0 then ds else [answerTo request], none⟩

def firstHost (ds : List Datagram) : Host := .ascending (firstNet ds) (fun _ => 0) fun _ => ""

/-- Nothing is pending after the first exchange. -/
structure Quiet (s : Session) : Prop where
  reachable : s.transactions.Reachable
  idle : ∀ id, s.transactions.pending.get id = none
  later : 1 ≤ s.transactions.channels.length

theorem Quiet.free {s : Session} (h : Quiet s) : ∃ id, s.transactions.freeId = some id := by
  cases hfree : s.transactions.freeId with
  | some id => exact ⟨id, rfl⟩
  | none => exact absurd (h.idle 0) ((TransactionTable.freeId_none_iff _).1 hfree 0)

def answered (id : UInt8) : Apdu := .readPropertyAck id 0 1 85 (.unsigned 21)

theorem decode_answerTo {buildRequest : UInt8 → List UInt8} (hread : IsRead buildRequest)
    (id : UInt8) : (answerTo (buildRequest id)).decode = some (some (answered id)) := by
  have hid : (buildRequest id).getD 8 0 = id := by cases hread <;> rfl
  have hlength : (encodeReadPropertyAck id 0 1 85 (.unsigned 21)).length ≤ 1500 := by
    have hsame : (encodeReadPropertyAck id 0 1 85 (.unsigned 21)).length =
        (encodeReadPropertyAck 0 0 1 85 (.unsigned 21)).length := rfl
    rw [hsame]
    decide
  have hpacket := decodePacket_encode (.readPropertyAck id 0 1 85 (.unsigned 21))
    ⟨⟨by decide, by decide⟩, trivial⟩ (hlength.trans_lt (by decide))
  change decodePacket (encodeReadPropertyAck id 0 1 85 (.unsigned 21)) = _ at hpacket
  unfold answerTo Datagram.decode
  rw [hid]
  dsimp only
  rw [List.take_of_length_le hlength, hpacket]
  rfl

theorem foreign_answerTo {buildRequest : UInt8 → List UInt8} (hread : IsRead buildRequest)
    (device : UInt32) (id : UInt8) : (answerTo (buildRequest id)).foreign device = false := by
  unfold Datagram.foreign
  rw [decode_answerTo hread]
  rfl

theorem Quiet.ending {s : Session} (h : Quiet s) (ds : List Datagram) (device : UInt32)
    (deviceAddr : SocketAddr) {buildRequest : UInt8 → List UInt8} (hread : IsRead buildRequest) :
    ∃ id, s.transactions.freeId = some id ∧
      s.ending (firstNet ds) deviceAddr buildRequest 3 = some (.answered (.ok (answered id))) ∧
      s.ending ((firstNet ds).ofDevice device) deviceAddr buildRequest 3 =
        some (.answered (.ok (answered id))) := by
  have hne : s.transactions.channels.length ≠ 0 := Nat.one_le_iff_ne_zero.1 h.later
  obtain ⟨id, hfree⟩ := h.free
  have hends : (answerTo (buildRequest id)).ends id = true := by
    unfold Datagram.ends
    rw [decode_answerTo hread]
    exact decide_eq_true rfl
  have hconclude : (answerTo (buildRequest id)).conclude =
      some (.answered (.ok (answered id))) := by
    unfold Datagram.conclude
    rw [decode_answerTo hread]
  refine ⟨id, hfree, ?_, ?_⟩
  all_goals
    simp only [Session.ending, hfree, Network.ofDevice, Attempt.ofDevice, firstNet, if_neg hne,
      outcome, List.filter_cons, foreign_answerTo hread, Bool.not_false, if_true, List.filter_nil,
      List.find?_cons, hends, hconclude]

theorem Quiet.exchange {s s' : Session} (h : Quiet s) {ds : List Datagram} {deviceAddr : SocketAddr}
    {buildRequest : UInt8 → List UInt8} (hread : IsRead buildRequest) {e : Ended}
    (hs' : s.exchange (firstNet ds) deviceAddr buildRequest 3 = some (s', e)) : Quiet s' := by
  obtain ⟨id, hfree, hending, -⟩ := h.ending ds 0 deviceAddr hread
  have hspec := Session.exchange_spec h.reachable (firstNet ds) deviceAddr buildRequest 3
  rw [hending] at hspec
  obtain ⟨s'', hs'', hreachable, hreleased⟩ := hspec
  rw [hs'] at hs''
  cases hs''
  refine ⟨hreachable, ?_, Session.exchange_later h.later hs'⟩
  obtain ⟨halone, hpending⟩ := hreleased id hfree
  intro other
  by_cases hother : other = id
  · rw [hother]
    exact hpending
  · exact halone (fun other _ => h.idle other) other hother

theorem Quiet.alike {s₁ s₂ : Session} (h₁ : Quiet s₁) (h₂ : Quiet s₂) (ds₁ ds₂ : List Datagram)
    (device : UInt32) (deviceAddr : SocketAddr) (n : ℕ) :
    Session.Alike device (firstNet ds₁) (firstNet ds₂) deviceAddr n s₁ s₂ := by
  induction n generalizing s₁ s₂ with
  | zero => trivial
  | succ n ih =>
    intro buildRequest hread
    refine ⟨?_, fun t₁ e₁ t₂ e₂ ht₁ ht₂ => ih (h₁.exchange hread ht₁) (h₂.exchange hread ht₂)⟩
    obtain ⟨_, -, -, hending₁⟩ := h₁.ending ds₁ device deviceAddr hread
    obtain ⟨_, -, -, hending₂⟩ := h₂.ending ds₂ device deviceAddr hread
    rw [hending₁, hending₂]
    rfl

def settled (ds : List Datagram) : Bool :=
  match runCalls (firstHost ds) [.onWatch [⟨8#32, ""⟩]] namesakeDriver with
  | none => false
  | some (_, b) =>
    (syncCur (firstHost ds) [⟨7#32, ""⟩] b).isSome &&
    match arrive (firstHost ds) [⟨7#32, ""⟩] 100 b with
    | none => false
    | some (_, a) =>
      decide (a.session.transactions.pending.keys = ∅) &&
      decide (1 ≤ a.session.transactions.channels.length) &&
      (CovCache.ofDevice 100 a.session.covCache.history).isEmpty &&
      a.session.covCache.history.all fun
        | .heard _ n => decide ((n.monitoredObjectType, n.monitoredObjectInstance) ≠ (0, 1))
        | .removed _ _ => true

end Namesakes

end BacnetDriver

end Sandstar.Bacnet
