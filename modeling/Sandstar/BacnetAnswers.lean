import Sandstar.BacnetInvokeIds

set_option autoImplicit false

/-!
# Which datagram answers a request

A request is answered by the first datagram, after a send, that decodes to an APDU
with its invoke id. The source of the datagram, and the object and property of an
acknowledgement, are not looked at.
-/
namespace Sandstar.Bacnet

open Tasks
open Dasp (SocketAddr)
open Drivers (DriverError)

section Answers

variable {id : UInt8} {env : ℕ → Attempt}

/-- The request is sent in one of the first attempts, and `d` is the first datagram to
    end the exchange; it decodes to `apdu`. -/
def AnsweredBy (id : UInt8) (env : ℕ → Attempt) (tries : ℕ) (d : Datagram) (apdu : Apdu) : Prop :=
  ∃ k < tries, (∀ j < k, (env j).Silent id) ∧ (env k).sendError = none ∧
    (env k).arrivals.find? (Datagram.ends id) = some d ∧ d.decode = some (some apdu)

theorem AnsweredBy.invokeId {tries : ℕ} {d : Datagram} {apdu : Apdu}
    (h : AnsweredBy id env tries d apdu) : apduInvokeId apdu = some id := by
  obtain ⟨k, -, -, -, hfind, hdecode⟩ := h
  have hends : d.ends id = true := List.find?_some hfind
  unfold Datagram.ends at hends
  rw [hdecode] at hends
  simpa using hends

theorem outcome_answered {left k : ℕ} {result : Except BacnetError Apdu}
    (h : outcome id env left k = some (.answered result)) :
    ∃ d apdu, result = .ok apdu ∧ AnsweredBy id (fun j => env (k + j)) left d apdu := by
  induction left generalizing k with
  | zero => cases h
  | succ left ih =>
    unfold outcome at h
    split at h
    · cases h
    · rename_i hsend
      split at h
      · rename_i d hfind
        unfold Datagram.conclude at h
        split at h
        · rename_i apdu hdecode
          cases h
          refine ⟨d, apdu, rfl, 0, Nat.succ_pos left, ?_, hsend, hfind, hdecode⟩
          intro j hj
          exact absurd hj (Nat.not_lt_zero j)
        · cases h
      · rename_i hfind
        split at h
        · cases h
        · rename_i hrecv
          obtain ⟨d, apdu, hresult, n, hn, hsilent, hsent, hfound, hdecode⟩ := ih h
          have hshift : ∀ j, env (k + 1 + j) = env (k + (j + 1)) := by
            intro j
            rw [Nat.add_right_comm, Nat.add_assoc]
          simp only [hshift] at hsilent hsent hfound
          refine ⟨d, apdu, hresult, n + 1, by omega, ?_, hsent, hfound, hdecode⟩
          intro j hj
          cases j with
          | zero => exact ⟨hsend, by simpa using List.find?_eq_none.1 hfind, hrecv⟩
          | succ j => exact hsilent j (by omega)

end Answers

namespace BacnetDriver

section Answers

variable {F : Type} {host : Host} {b b' : BacnetDriver F}

/-- An exchange of the driver ends as the free id and the socket say. -/
theorem exchange_ending (hb : b.session.transactions.Reachable) {deviceAddr : SocketAddr}
    {buildRequest : UInt8 → List UInt8} {e : Ended}
    (h : exchange host deviceAddr buildRequest b = some (e, b')) :
    b.session.ending host.net deviceAddr buildRequest 3 = some e := by
  have hspec := Session.exchange_spec hb host.net deviceAddr buildRequest 3
  unfold exchange at h
  split at hspec
  · rw [hspec] at h
    cases h
  · rename_i hending
    obtain ⟨s', hs', -⟩ := hspec
    rw [hs'] at h
    cases h
    exact hending

theorem request_returns (hb : b.session.transactions.Reachable) (hconnected : b.connected)
    {α : Type} (otherwise : α) {deviceAddr : SocketAddr} {buildRequest : UInt8 → List UInt8}
    (f : Ended → α) {e : Ended}
    (h : b.session.ending host.net deviceAddr buildRequest 3 = some e) :
    ∃ b', (whenConnected otherwise do
      let ended ← exchange host deviceAddr buildRequest
      return f ended) b = some (f e, b') := by
  have hspec := Session.exchange_spec hb host.net deviceAddr buildRequest 3
  rw [h] at hspec
  obtain ⟨s', hs', -⟩ := hspec
  refine ⟨{ b with session := s' }, ?_⟩
  unfold whenConnected
  rw [if_pos hconnected, bind_apply]
  unfold exchange
  rw [hs']
  rfl

theorem exchange_answered (hb : b.session.transactions.Reachable) {deviceAddr : SocketAddr}
    {buildRequest : UInt8 → List UInt8} {e : Ended} {apdu : Apdu}
    (h : exchange host deviceAddr buildRequest b = some (e, b')) (he : e.transacted = .ok apdu) :
    ∃ id d, b.session.transactions.freeId = some id ∧
      AnsweredBy id (host.net b.exchanges deviceAddr (buildRequest id)) 4 d apdu := by
  have hending := exchange_ending hb h
  have hanswered : e = .answered (.ok apdu) := by
    unfold Ended.transacted at he
    split at he <;> cases he
    rfl
  rw [hanswered] at hending
  unfold Session.ending at hending
  split at hending
  · cases hending
  · rename_i id hfree
    obtain ⟨d, apdu', hresult, hanswer⟩ := outcome_answered hending
    cases hresult
    simp only [Nat.zero_add] at hanswer
    exact ⟨id, d, hfree, hanswer⟩

theorem whenConnected_exchange {α : Type} {otherwise a : α} {deviceAddr : SocketAddr}
    {buildRequest : UInt8 → List UInt8} {f : Ended → α}
    (h : (whenConnected otherwise do
      let ended ← exchange host deviceAddr buildRequest
      return f ended) b = some (a, b')) :
    (a = otherwise ∧ b' = b) ∨
      ∃ e, exchange host deviceAddr buildRequest b = some (e, b') ∧ a = f e := by
  unfold whenConnected at h
  split_ifs at h
  · obtain ⟨e, b₁, hexchange, hpure⟩ := bind_eq_some h
    cases hpure
    exact .inr ⟨e, hexchange, rfl⟩
  · cases h
    exact .inl ⟨rfl, rfl⟩

/-- An operation of one exchange that succeeds has read its result from the answer. -/
theorem whenConnected_answered (hb : b.session.transactions.Reachable) {α : Type} {v : α}
    {otherwise : DriverError} {deviceAddr : SocketAddr} {buildRequest : UInt8 → List UInt8}
    {read : Apdu → Except DriverError α}
    (h : (whenConnected (.error otherwise) do
      let ended ← exchange host deviceAddr buildRequest
      return ended.transacted.bind read) b = some (.ok v, b')) :
    ∃ id d apdu, b.session.transactions.freeId = some id ∧
      AnsweredBy id (host.net b.exchanges deviceAddr (buildRequest id)) 4 d apdu ∧
      read apdu = .ok v := by
  rcases whenConnected_exchange h with ⟨hno, -⟩ | ⟨e, hexchange, hresult⟩
  · cases hno
  · cases htransacted : e.transacted with
    | error fault =>
      rw [htransacted] at hresult
      cases hresult
    | ok apdu =>
      obtain ⟨id, d, hfree, hanswer⟩ := exchange_answered hb hexchange htransacted
      rw [htransacted] at hresult
      exact ⟨id, d, apdu, hfree, hanswer, hresult.symm⟩

theorem writeProperty_answered (hb : b.session.transactions.Reachable) {deviceAddr : SocketAddr}
    {objectType : UInt16} {inst propertyId : UInt32} {value : BacnetValue} {priority : Option UInt8}
    (h : writeProperty host deviceAddr objectType inst propertyId value priority b =
      some (.ok (), b')) :
    ∃ id d service, b.session.transactions.freeId = some id ∧
      AnsweredBy id (host.net b.exchanges deviceAddr
        (encodeWriteProperty id objectType inst propertyId value none priority)) 4 d
        (.simpleAck id service) := by
  obtain ⟨id, d, apdu, hfree, hanswer, hread⟩ := whenConnected_answered hb h
  unfold acknowledged at hread
  split at hread
  · rename_i invokeId service
    have hid := hanswer.invokeId
    cases hid
    exact ⟨_, d, service, hfree, hanswer⟩
  · cases hread
  · cases hread

variable [ValueCasts F]

theorem readPresentValue_answered (hb : b.session.transactions.Reachable)
    {deviceAddr : SocketAddr} {obj : BacnetObject F} {v : F}
    (h : readPresentValue host deviceAddr obj b = some (.ok v, b')) :
    ∃ id d objectType inst propertyId value raw, b.session.transactions.freeId = some id ∧
      AnsweredBy id (host.net b.exchanges deviceAddr
        (encodeReadProperty id obj.objectType obj.inst 85 none)) 4 d
        (.readPropertyAck id objectType inst propertyId value) ∧
      value.toF64 = some raw ∧ v = scaled obj raw := by
  obtain ⟨id, d, apdu, hfree, hanswer, hread⟩ := whenConnected_answered hb h
  unfold presentValue at hread
  split at hread
  · rename_i invokeId objectType inst propertyId value
    have hid := hanswer.invokeId
    cases hid
    split at hread
    · rename_i raw hraw
      cases hread
      exact ⟨_, d, objectType, inst, propertyId, value, raw, hfree, hanswer, hraw, rfl⟩
    · cases hread
  · cases hread
  · cases hread

/-- A SimpleAck answered the write of a point, in some exchange from the `n`-th on. -/
def WriteAnswered (host : Host) (b : BacnetDriver F) (pointId : BitVec 32) (val : F) (n : ℕ) :
    Prop :=
  ∃ obj deviceAddr value, b.objects.get pointId = some obj ∧
    b.deviceRegistry.get obj.deviceId = some deviceAddr ∧ writeValue obj val = some value ∧
    ∃ k ≥ n, ∃ id d service, AnsweredBy id (host.net k deviceAddr
      (encodeWriteProperty id obj.objectType obj.inst 85 value none (some 16))) 4 d
      (.simpleAck id service)

theorem writePoint_answered {b₀ : BacnetDriver F} (hb : Follows b₀ b) {pointId written : BitVec 32}
    {val : F} (h : writePoint host pointId val b = some ((written, .ok ()), b')) :
    written = pointId ∧ WriteAnswered host b₀ pointId val b₀.exchanges := by
  unfold writePoint at h
  split at h
  · cases h
  · rename_i obj hobj
    split at h
    · cases h
    · rename_i deviceAddr haddr
      split at h
      · cases h
      · rename_i value hvalue
        obtain ⟨result, b₁, hwrite, hpure⟩ := bind_eq_some h
        cases hpure
        obtain ⟨id, d, service, -, hanswer⟩ := writeProperty_answered hb.reachable hwrite
        rw [hb.objects] at hobj
        rw [hb.deviceRegistry] at haddr
        exact ⟨rfl, obj, deviceAddr, value, hobj, haddr, hvalue, b.exchanges, hb.later, id, d, service,
          hanswer⟩

theorem write_answered {b₀ : BacnetDriver F} (hb : Follows b₀ b) {writes : List (BitVec 32 × F)}
    {results : List (BitVec 32 × Except DriverError Unit)}
    (h : write host writes b = some (results, b')) {pointId : BitVec 32}
    (hok : (pointId, .ok ()) ∈ results) :
    ∃ val, (pointId, val) ∈ writes ∧ WriteAnswered host b₀ pointId val b₀.exchanges := by
  induction writes generalizing b results with
  | nil =>
    cases h
    cases hok
  | cons w writes ih =>
    unfold write at h
    rw [List.mapM_cons] at h
    obtain ⟨first, b₁, hfirst, hrest⟩ := bind_eq_some h
    obtain ⟨rest, b₂, hwrites, hpure⟩ := bind_eq_some hrest
    cases hpure
    rcases List.mem_cons.1 hok with rfl | hok
    · obtain ⟨heq, hanswered⟩ := writePoint_answered hb hfirst
      exact ⟨w.2, heq ▸ List.mem_cons_self, heq ▸ hanswered⟩
    · have hb₁ := (follows_stable host b₀).keeps_writePoint w.1 w.2 b _ b₁ hb hfirst
      obtain ⟨val, hmem, hanswered⟩ := ih hb₁ hwrites hok
      exact ⟨val, List.mem_cons_of_mem _ hmem, hanswered⟩

/-- In every state of the driver and for everything the socket does: a value read is
    that of a ReadProperty ack, and a write that succeeds has had a SimpleAck, that came
    under the invoke id of the request after it was sent. -/
theorem reads_and_writes_answered (host : Host) (b : BacnetDriver F)
    (hb : b.session.transactions.Reachable) :
    (∀ deviceAddr obj v b', readPresentValue host deviceAddr obj b = some (.ok v, b') →
      ∃ id d objectType inst propertyId value raw, b.session.transactions.freeId = some id ∧
        AnsweredBy id (host.net b.exchanges deviceAddr
          (encodeReadProperty id obj.objectType obj.inst 85 none)) 4 d
          (.readPropertyAck id objectType inst propertyId value) ∧
        value.toF64 = some raw ∧ v = scaled obj raw) ∧
      ∀ writes results b', write host writes b = some (results, b') →
        ∀ pointId, (pointId, .ok ()) ∈ results → ∃ val, (pointId, val) ∈ writes ∧
          WriteAnswered host b pointId val b.exchanges :=
  ⟨fun _ _ _ _ h => readPresentValue_answered hb h,
    fun _ _ _ h _ hok => write_answered (Follows.refl hb) h hok⟩

/-- The first request gets this one datagram. -/
def answerNet (d : Datagram) : Network := fun _ _ _ _ => ⟨none, [d], none⟩

def trueAck : Datagram := ⟨encodeReadPropertyAck 0 0 1 85 (.unsigned 21), sampleAddr, 0⟩

theorem true_ack_answers :
    sampleDriver.session.transactions.Reachable ∧
      ∃ id d objectType inst propertyId value raw,
        sampleDriver.session.transactions.freeId = some id ∧
        AnsweredBy id ((answerNet trueAck) sampleDriver.exchanges sampleAddr
          (encodeReadProperty id 0 1 85 none)) 4 d
          (.readPropertyAck id objectType inst propertyId value) ∧
        BacnetValue.toF64 value = some raw ∧ (21 : ℚ) = scaled sampleObject raw := by
  refine ⟨.new, ?_⟩
  obtain ⟨b', hread⟩ := @request_returns ℚ (.ascending (answerNet trueAck) (fun _ => 0) fun _ => "")
    sampleDriver .new rfl _ (.error notConnected) sampleAddr
    (fun invokeId => encodeReadProperty invokeId 0 1 85 none)
    (fun ended => ended.transacted.bind (presentValue
      (.ascending (answerNet trueAck) (fun _ => 0) fun _ => "") sampleObject))
    (.answered (.ok (.readPropertyAck 0 0 1 85 (.unsigned 21)))) rfl
  have hvalue : (21 : ℚ) = scaled sampleObject 21 := by
    simp [scaled, sampleObject]
  exact (reads_and_writes_answered (.ascending (answerNet trueAck) (fun _ => 0) fun _ => "")
    sampleDriver .new).1 sampleAddr sampleObject 21 b' (by rw [hvalue]; exact hread)

/-- Sent by another host, for another object and another property. -/
def forgedAck : Datagram := ⟨encodeReadPropertyAck 0 2 99 77 (.unsigned 5), ⟨0x0A000001, 47808⟩, 0⟩

/-- A read takes its value from it. -/
theorem forged_ack_accepted :
    (∃ b', readPresentValue (.ascending (answerNet forgedAck) (fun _ => 0) fun _ => "") sampleAddr
        sampleObject sampleDriver = some (.ok (scaled sampleObject 5), b')) ∧
      (∀ n addr request k, ∀ d ∈ (answerNet forgedAck n addr request k).arrivals,
        d.src ≠ sampleAddr ∧ d.decode = some (some (.readPropertyAck 0 2 99 77 (.unsigned 5)))) := by
  constructor
  · exact @request_returns ℚ (.ascending (answerNet forgedAck) (fun _ => 0) fun _ => "")
      sampleDriver .new rfl _ (.error notConnected) sampleAddr
      (fun invokeId => encodeReadProperty invokeId 0 1 85 none)
      (fun ended => ended.transacted.bind (presentValue
        (.ascending (answerNet forgedAck) (fun _ => 0) fun _ => "") sampleObject))
      (.answered (.ok (.readPropertyAck 0 2 99 77 (.unsigned 5)))) rfl
  · intro n addr request k d hd
    obtain rfl := List.mem_singleton.1 hd
    exact ⟨by decide, rfl⟩

end Answers

end BacnetDriver

end Sandstar.Bacnet
