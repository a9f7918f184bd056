import Sandstar.BacnetDriver
import Sandstar.Runs

set_option autoImplicit false

namespace Sandstar.Bacnet

open Tasks Runs
open Dasp (SocketAddr)
open Drivers (DriverError)

section Outcome

variable {id : UInt8} {env : ℕ → Attempt}

structure Attempt.Silent (id : UInt8) (a : Attempt) : Prop where
  sent : a.sendError = none
  aside : ∀ d ∈ a.arrivals, d.ends id = false
  elapsed : a.recvError = none

def Attempt.Fails (id : UInt8) (a : Attempt) : Prop :=
  a.sendError ≠ none ∨ (∀ d ∈ a.arrivals, d.ends id = false) ∧ a.recvError ≠ none

def SocketFails (id : UInt8) (env : ℕ → Attempt) (tries : ℕ) : Prop :=
  ∃ k < tries, (∀ j < k, (env j).Silent id) ∧ (env k).Fails id

def Ended.IsFailure : Ended → Prop
  | .sendFailed _ | .recvFailed _ => True
  | _ => False

theorem socketFails_succ (tries : ℕ) :
    SocketFails id env (tries + 1) ↔
      (env 0).Fails id ∨ (env 0).Silent id ∧ SocketFails id (fun j => env (j + 1)) tries := by
  constructor
  · rintro ⟨k, hk, hsilent, hfails⟩
    cases k with
    | zero => exact .inl hfails
    | succ k =>
      refine .inr ⟨hsilent 0 (Nat.zero_lt_succ k), k, by omega, ?_, hfails⟩
      exact fun j hj => hsilent (j + 1) (by omega)
  · rintro (hfails | ⟨hfirst, k, hk, hsilent, hfails⟩)
    · exact ⟨0, by omega, fun j hj => absurd hj (Nat.not_lt_zero j), hfails⟩
    · refine ⟨k + 1, by omega, ?_, hfails⟩
      intro j hj
      cases j with
      | zero => exact hfirst
      | succ j => exact hsilent j (by omega)

/-- The attempts end in a failure of the socket exactly if it fails first. -/
theorem outcome_fails_iff (left k : ℕ) :
    (∃ e ∈ outcome id env left k, e.IsFailure) ↔ SocketFails id (fun j => env (k + j)) left := by
  induction left generalizing k with
  | zero =>
    constructor
    · rintro ⟨e, ⟨⟩, ⟨⟩⟩
    · rintro ⟨j, hj, -⟩
      exact absurd hj (Nat.not_lt_zero j)
  | succ left ih =>
    have hshift : (fun j => env (k + (j + 1))) = fun j => env (k + 1 + j) := by
      funext j
      rw [Nat.add_right_comm, Nat.add_assoc]
    unfold outcome
    rw [socketFails_succ, Nat.add_zero, hshift, ← ih (k + 1)]
    cases hsend : (env k).sendError with
    | some e => exact iff_of_true ⟨_, rfl, trivial⟩ (.inl (.inl (by simp [hsend])))
    | none =>
      dsimp only
      cases hfind : (env k).arrivals.find? (Datagram.ends id) with
      | some d =>
        have hmem : d ∈ (env k).arrivals := List.mem_of_find?_eq_some hfind
        have hends : d.ends id = true := List.find?_some hfind
        refine iff_of_false ?_ ?_
        · rintro ⟨e, he, hfailure⟩
          simp only [Datagram.conclude] at he
          split at he
          · cases he
            exact hfailure
          · cases he
        · rintro ((hne | ⟨haside, -⟩) | ⟨hsilent, -⟩)
          · exact hne hsend
          · simp [haside d hmem] at hends
          · simp [hsilent.aside d hmem] at hends
      | none =>
        have haside : ∀ d ∈ (env k).arrivals, d.ends id = false := by
          simpa using List.find?_eq_none.1 hfind
        dsimp only
        cases hrecv : (env k).recvError with
        | some e => exact iff_of_true ⟨_, rfl, trivial⟩ (.inl (.inr ⟨haside, by simp [hrecv]⟩))
        | none =>
          dsimp only
          constructor
          · exact fun h => .inr ⟨⟨hsend, haside, hrecv⟩, h⟩
          · rintro ((hne | ⟨-, hne⟩) | ⟨-, h⟩)
            · exact absurd hsend hne
            · exact absurd hrecv hne
            · exact h

theorem outcome_ne_noIds (left k : ℕ) : outcome id env left k ≠ some .noIds := by
  induction left generalizing k with
  | zero => simp [outcome]
  | succ left ih =>
    unfold outcome Datagram.conclude
    split
    · simp
    · split
      · split <;> simp
      · split
        · simp
        · exact ih (k + 1)

end Outcome

section Operations

variable {F : Type} [ValueCasts F]

inductive Operation (F : Type)
  | readPresentValue (deviceAddr : SocketAddr) (obj : BacnetObject F)
  | readPropertyGeneric (deviceAddr : SocketAddr) (objectType : UInt16)
      (objectInstance propertyId : UInt32)
  | readPropertiesMultiple (deviceAddr : SocketAddr) (specs : List RpmRequestSpec)
  | writeProperty (deviceAddr : SocketAddr) (objectType : UInt16)
      (objectInstance propertyId : UInt32) (value : BacnetValue) (priority : Option UInt8)
  | subscribeCov (deviceAddr : SocketAddr) (processId : UInt32) (objectType : UInt16)
      (objectInstance : UInt32) (issueConfirmed : Bool) (lifetime : Option UInt32)
  | unsubscribeCov (deviceAddr : SocketAddr) (processId : UInt32) (objectType : UInt16)
      (objectInstance : UInt32)

namespace Operation

open BacnetDriver

def perform (host : Host) : Operation F → Task (BacnetDriver F) Unit
  | .readPresentValue a obj => do let _ ← BacnetDriver.readPresentValue host a obj
  | .readPropertyGeneric a t i p => do let _ ← BacnetDriver.readPropertyGeneric host a t i p
  | .readPropertiesMultiple a specs => do
    let _ ← BacnetDriver.readPropertiesMultiple host a specs
  | .writeProperty a t i p value priority => do
    let _ ← BacnetDriver.writeProperty host a t i p value priority
  | .subscribeCov a pid t i confirmed lifetime => do
    let _ ← BacnetDriver.subscribeCov host a pid t i confirmed lifetime
  | .unsubscribeCov a pid t i => do let _ ← BacnetDriver.unsubscribeCov host a pid t i

def deviceAddr : Operation F → SocketAddr
  | .readPresentValue a _ | .readPropertyGeneric a .. | .readPropertiesMultiple a _ => a
  | .writeProperty a .. | .subscribeCov a .. | .unsubscribeCov a .. => a

def request : Operation F → UInt8 → List UInt8
  | .readPresentValue _ obj, id => encodeReadProperty id obj.objectType obj.inst 85 none
  | .readPropertyGeneric _ t i p, id => encodeReadProperty id t i p none
  | .readPropertiesMultiple _ specs, id => encodeReadPropertyMultiple id specs
  | .writeProperty _ t i p value priority, id => encodeWriteProperty id t i p value none priority
  | .subscribeCov _ pid t i confirmed lifetime, id =>
    encodeSubscribeCov id pid t i (some confirmed) lifetime
  | .unsubscribeCov _ pid t i, id => encodeSubscribeCov id pid t i none none

theorem perform_state (host : Host) (op : Operation F) (b : BacnetDriver F) :
    (op.perform host b).map Prod.snd =
      if b.connected then
        (b.session.exchange host.net op.deviceAddr op.request 3).map fun r =>
          { b with session := r.1 }
      else some b := by
  have hcommon : ∀ {α : Type} (otherwise : α) (addr : SocketAddr) (request : UInt8 → List UInt8)
      (f : Ended → α), ((do
        let _ ← whenConnected otherwise do
          let ended ← BacnetDriver.exchange host addr request
          return f ended
        : Task (BacnetDriver F) Unit) b).map Prod.snd =
      if b.connected then
        (b.session.exchange host.net addr request 3).map fun r => { b with session := r.1 }
      else some b := by
    intro α otherwise addr request f
    rw [bind_apply]
    unfold whenConnected
    split_ifs
    · rw [bind_apply]
      unfold BacnetDriver.exchange
      cases b.session.exchange host.net addr request 3 <;> rfl
    · rfl
  cases op with
  | readPresentValue a obj => exact hcommon _ _ _ _
  | readPropertyGeneric a t i p => exact hcommon _ _ _ _
  | readPropertiesMultiple a specs => exact hcommon _ _ _ _
  | writeProperty a t i p value priority => exact hcommon _ _ _ _
  | subscribeCov a pid t i confirmed lifetime => exact hcommon _ _ _ _
  | unsubscribeCov a pid t i => exact hcommon _ _ _ _

/-- A driver whose decoder has panicked does nothing more. -/
def step (host : Host) (s : Option (BacnetDriver F)) (op : Operation F) :
    Option (BacnetDriver F) :=
  s.bind fun b => (op.perform host b).map Prod.snd

/-- An operation that returns leaves the pending ids as they were. -/
def KeepsIds (host : Host) (s : Option (BacnetDriver F)) (op : Operation F) : Prop :=
  ∀ b ∈ s, ∀ b' ∈ step host s op,
    b'.session.transactions.pending.keys = b.session.transactions.pending.keys

/-- The socket does not fail before an answer under the id the operation will take. -/
def SocketHolds (host : Host) (s : Option (BacnetDriver F)) (op : Operation F) : Prop :=
  ∀ b ∈ s, b.connected → ∀ id ∈ b.session.transactions.freeId,
    ¬ SocketFails id (host.net b.exchanges op.deviceAddr (op.request id)) 4

def Idle (s : Option (BacnetDriver F)) : Prop :=
  ∀ b ∈ s, b.session.transactions.Reachable ∧
    ∀ id, b.session.transactions.pending.get id = none

omit [ValueCasts F] in
theorem keys_eq_iff {b b' : BacnetDriver F}
    (hb : ∀ id, b.session.transactions.pending.get id = none) :
    b'.session.transactions.pending.keys = b.session.transactions.pending.keys ↔
      ∀ id, b'.session.transactions.pending.get id = none := by
  rw [Finset.ext_iff]
  refine forall_congr' fun id => ?_
  have habsent := (Table.get_eq_none_iff _ _).1 (hb id)
  rw [Table.get_eq_none_iff]
  tauto

omit [ValueCasts F] in
theorem socketHolds_iff {host : Host} {b : BacnetDriver F} {op : Operation F} {id : UInt8}
    (hconnected : b.connected) (hfree : b.session.transactions.freeId = some id) :
    SocketHolds host (some b) op ↔
      ¬ ∃ e ∈ b.session.ending host.net op.deviceAddr op.request 3, e.IsFailure := by
  have hfails := @outcome_fails_iff id (host.net b.exchanges op.deviceAddr (op.request id)) 4 0
  simp only [Nat.zero_add] at hfails
  unfold Session.ending
  rw [hfree]
  change _ ↔ ¬ ∃ e ∈ outcome id (host.net b.exchanges op.deviceAddr (op.request id)) 4 0, _
  rw [hfails]
  constructor
  · exact fun h => h b rfl hconnected id hfree
  · rintro h _ ⟨⟩ - id' hid'
    rw [Option.mem_def, hfree] at hid'
    cases hid'
    exact h

/-- What one operation leaves behind in an idle driver: the id it took is pending
    exactly if the socket failed. -/
theorem step_idle (host : Host) {b : BacnetDriver F} (hb : Idle (some b)) (op : Operation F) :
    (step host (some b) op = none ∧ SocketHolds host (some b) op) ∨
      ∃ b', step host (some b) op = some b' ∧ b'.session.transactions.Reachable ∧
        ((∀ id, b'.session.transactions.pending.get id = none) ↔
          SocketHolds host (some b) op) := by
  obtain ⟨hreachable, hidle⟩ := hb b rfl
  change ((op.perform host b).map Prod.snd = none ∧ _) ∨
    ∃ b', (op.perform host b).map Prod.snd = some b' ∧ _
  rw [perform_state]
  split_ifs with hconnected
  · obtain ⟨id, hfree⟩ : ∃ id, b.session.transactions.freeId = some id := by
      cases hfree : b.session.transactions.freeId with
      | some id => exact ⟨id, rfl⟩
      | none => exact absurd (hidle 0) ((TransactionTable.freeId_none_iff _).1 hfree 0)
    have hholds := @socketHolds_iff _ host b op id hconnected hfree
    have hspec := Session.exchange_spec hreachable host.net op.deviceAddr op.request 3
    rw [hholds]
    split at hspec
    · rename_i hending
      rw [hspec, hending]
      refine .inl ⟨rfl, ?_⟩
      rintro ⟨e, ⟨⟩, -⟩
    · rename_i e hending
      obtain ⟨s', hs', hreachable', hreleased⟩ := hspec
      obtain ⟨halone, hpending⟩ := hreleased id hfree
      have hothers := halone fun other _ => hidle other
      rw [hs', hending]
      refine .inr ⟨_, rfl, hreachable', ?_⟩
      constructor
      · rintro hnone ⟨_, ⟨⟩, hfailure⟩
        have hid : s'.transactions.pending.get id = none := hnone id
        rw [hid] at hpending
        cases e with
        | answered result => exact hfailure
        | exhausted => exact hfailure
        | _ => cases hpending
      · intro hnot other
        change s'.transactions.pending.get other = none
        by_cases hother : other = id
        · rw [hother, hpending]
          cases e with
          | answered result => rfl
          | exhausted => rfl
          | noIds =>
            unfold Session.ending at hending
            rw [hfree] at hending
            exact absurd hending (outcome_ne_noIds 4 0)
          | _ => exact absurd ⟨_, rfl, trivial⟩ hnot
        · exact hothers other hother
  · refine .inr ⟨b, rfl, hreachable, iff_of_true hidle ?_⟩
    rintro _ ⟨⟩ hconnected'
    exact absurd hconnected' hconnected

theorem step_holds {host : Host} {s : Option (BacnetDriver F)} {op : Operation F} (hs : Idle s)
    (h : SocketHolds host s op) : Idle (step host s op) ∧ KeepsIds host s op := by
  cases s with
  | none => exact ⟨by rintro _ ⟨⟩, by rintro _ ⟨⟩⟩
  | some b =>
    rcases step_idle host hs op with ⟨hnone, -⟩ | ⟨b', hb', hreachable, hiff⟩
    · unfold KeepsIds
      rw [hnone]
      exact ⟨by rintro _ ⟨⟩, by rintro _ - _ ⟨⟩⟩
    · unfold KeepsIds
      rw [hb']
      refine ⟨?_, ?_⟩
      · rintro _ ⟨⟩
        exact ⟨hreachable, hiff.2 h⟩
      · rintro _ ⟨⟩ _ ⟨⟩
        exact (keys_eq_iff (hs b rfl).2).2 (hiff.2 h)

theorem step_fails {host : Host} {s : Option (BacnetDriver F)} {op : Operation F} (hs : Idle s)
    (h : ¬ SocketHolds host s op) : ¬ KeepsIds host s op := by
  intro hkeeps
  cases s with
  | none => exact h (by rintro _ ⟨⟩)
  | some b =>
    rcases step_idle host hs op with ⟨-, hholds⟩ | ⟨b', hb', -, hiff⟩
    · exact h hholds
    · exact h (hiff.1 ((keys_eq_iff (hs b rfl).2).1 (hkeeps b rfl b' hb')))

theorem step_reachable {host : Host} {b b' : BacnetDriver F} {op : Operation F}
    (hb : b.session.transactions.Reachable) (h : b' ∈ step host (some b) op) :
    b'.session.transactions.Reachable := by
  change (op.perform host b).map Prod.snd = some b' at h
  rw [perform_state] at h
  split_ifs at h
  · obtain ⟨⟨s', e⟩, hexchange, rfl⟩ := Option.map_eq_some_iff.1 h
    exact Session.exchange_reachable hb hexchange
  · cases h
    exact hb

end Operation

/-- What holds of a transaction table at all times: a waiter waits under one id, an id
    is handed out only while it is free and refused only when none is, and a waiter is
    completed at most once, with an APDU of its own id if with one. -/
structure TransactionTable.Orderly (t : TransactionTable) : Prop where
  distinct : ∀ id id' channel, t.pending.get id = some channel →
    t.pending.get id' = some channel → id = id'
  free : ∀ id rx, t.allocate.2 = some (id, rx) → t.pending.get id = none
  full : t.allocate.2 = none → ∀ id, t.pending.get id ≠ none
  once : (t.completions.map Prod.fst).Nodup
  own : ∀ c ∈ t.completions, ∃ id, t.channels[c.1]? = some id ∧
    ∀ apdu, c.2 = .ok apdu → apduInvokeId apdu = some id

theorem TransactionTable.Reachable.orderly {t : TransactionTable} (h : t.Reachable) :
    t.Orderly := by
  have hvalid := h.valid
  refine ⟨?_, ?_, ?_, hvalid.once, hvalid.own⟩
  · intro id id' channel hid hid'
    have hmade := hvalid.made id channel hid
    rw [hvalid.made id' channel hid'] at hmade
    exact (Option.some.inj hmade).symm
  · intro id rx hallocate
    rw [allocate_eq] at hallocate
    split at hallocate
    · rename_i hfree
      cases hallocate
      exact freeId_get hfree
    · cases hallocate
  · intro hallocate
    rw [allocate_eq] at hallocate
    split at hallocate
    · cases hallocate
    · rename_i hfree
      exact (freeId_none_iff t).1 hfree

/-- From a new table, every operation of a run leaves the pending ids as they were
    exactly if no operation's socket fails before its answer; and the table is orderly
    in any case. -/
theorem pending_ids_kept_iff (host : Host) (b : BacnetDriver F)
    (hnew : b.session.transactions = .new) (ops : List (Operation F)) :
    (Along (Operation.step host) (Operation.KeepsIds host) (some b) ops ↔
        Along (Operation.step host) (Operation.SocketHolds host) (some b) ops) ∧
      (∀ s ∈ states (Operation.step host) (some b) ops, ∀ b' ∈ s,
        b'.session.transactions.Reachable) ∧
      ∀ t : TransactionTable, t.Reachable → t.Orderly := by
  have hstart : b.session.transactions.Reachable := hnew ▸ .new
  refine ⟨?_, ?_, fun t ht => ht.orderly⟩
  · have hidle : Operation.Idle (some b) := by
      rintro _ ⟨⟩
      refine ⟨hstart, fun id => ?_⟩
      rw [hnew]
      rfl
    have hrun := @states_along_iff_along _ _ (Operation.step host) (Operation.SocketHolds host)
      (Operation.KeepsIds host) Operation.Idle (fun _ => True) (fun _ _ => trivial)
      (fun _ _ hs h => Operation.step_holds hs h)
      (fun _ _ hs h hkeeps => Operation.step_fails hs h hkeeps.2) (some b) ops hidle
    rw [← hrun]
    exact ⟨fun h => ⟨fun _ _ => trivial, h⟩, fun h => h.2⟩
  · refine states_always _ ?_ ?_ ops
    · intro s op hs b' hb'
      cases s with
      | none => cases hb'
      | some b => exact Operation.step_reachable (hs b rfl) hb'
    · rintro _ ⟨⟩
      exact hstart

def silentNet : Network := fun _ _ _ _ => ⟨none, [], none⟩

/-- No route to the network: every send fails. -/
def unreachableNet : Network := fun _ _ _ _ =>
  ⟨some "Network is unreachable (os error 101)", [], none⟩

def sampleAddr : SocketAddr := ⟨0xC0A80105, 47808⟩

def sampleObject : BacnetObject ℚ := ⟨100, 0, 1, 1, 0⟩

def sampleDriver : BacnetDriver ℚ :=
  (BacnetDriver.new (Table.empty.insert 7#32 sampleObject)).opened [(100, sampleAddr)]

theorem pending_ids_kept_silent :
    sampleDriver.session.transactions = .new ∧
      Along (Operation.step (.ascending silentNet (fun _ => 0) fun _ => ""))
        (Operation.KeepsIds (.ascending silentNet (fun _ => 0) fun _ => "")) (some sampleDriver)
        [.readPresentValue sampleAddr sampleObject, .subscribeCov sampleAddr 1 0 1 false none] := by
  refine ⟨rfl, (pending_ids_kept_iff _ sampleDriver rfl _).1.2 ?_⟩
  have hholds : ∀ (s : Option (BacnetDriver ℚ)) (op : Operation ℚ),
      Operation.SocketHolds (.ascending silentNet (fun _ => 0) fun _ => "") s op := by
    rintro s op b - - id - ⟨k, -, -, hne | ⟨-, hne⟩⟩
    · exact hne rfl
    · exact hne rfl
  exact ⟨hholds _ _, hholds _ _, trivial⟩

/-- A read whose request cannot be sent leaves its id pending. -/
theorem read_unsent_leaks :
    ¬ Along (Operation.step (.ascending unreachableNet (fun _ => 0) fun _ => ""))
        (Operation.KeepsIds (.ascending unreachableNet (fun _ => 0) fun _ => ""))
        (some sampleDriver) [.readPresentValue sampleAddr sampleObject] := by
  intro h
  refine Operation.step_fails ?_ ?_ h.1
  · rintro _ ⟨⟩
    exact ⟨.new, fun _ => rfl⟩
  · intro hholds
    refine hholds sampleDriver rfl rfl 0 rfl ⟨0, by decide, ?_, .inl (Option.some_ne_none _)⟩
    intro j hj
    exact absurd hj (Nat.not_lt_zero j)

end Operations

end Sandstar.Bacnet
