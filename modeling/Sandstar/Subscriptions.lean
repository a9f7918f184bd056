import Sandstar.Runs
import Sandstar.SetTable

set_option autoImplicit false

/-!
# Subscriptions (sox_handlers.rs)

The subscription manager keeps one relation between components and sessions in
two maps. `unsubscribe_all` walks the components of the session's own entry, so it
clears the session only because the two maps agree.
-/
namespace Sandstar
open SetTable

structure SubscriptionManager where
  subscriptions : Table UInt16 (Finset UInt16)
  bySession : Table UInt16 (Finset UInt16)

namespace SubscriptionManager

def new : SubscriptionManager := ⟨Table.empty, Table.empty⟩

def subscribe (m : SubscriptionManager) (sessionId compId : UInt16) : SubscriptionManager :=
  ⟨addTo m.subscriptions compId sessionId, addTo m.bySession sessionId compId⟩

def unsubscribe (m : SubscriptionManager) (sessionId compId : UInt16) : SubscriptionManager :=
  ⟨dropFrom m.subscriptions compId sessionId, dropFrom m.bySession sessionId compId⟩

def idList (ids : Finset UInt16) : List UInt16 := ids.sort (· ≤ ·)

def unsubscribeAll (m : SubscriptionManager) (sessionId : UInt16) : SubscriptionManager :=
  match m.bySession.get sessionId with
  | none => m
  | some comps =>
    ⟨(idList comps).foldl (fun subs compId => dropFrom subs compId sessionId) m.subscriptions,
      m.bySession.erase sessionId⟩

def subscribeEach (m : SubscriptionManager) (sessionId : UInt16) (compIds : List UInt16) :
    SubscriptionManager :=
  compIds.foldl (fun m compId => m.subscribe sessionId compId) m

def Present (m : SubscriptionManager) (sessionId : UInt16) : Prop :=
  (∃ compId sessions, m.subscriptions.get compId = some sessions ∧ sessionId ∈ sessions) ∨
    (m.bySession.get sessionId).isSome

def Paired (m : SubscriptionManager) : Prop := Converse m.subscriptions m.bySession

theorem new_paired : new.Paired := converse_empty

theorem subscribe_paired {m : SubscriptionManager} (h : m.Paired) (sessionId compId : UInt16) :
    (m.subscribe sessionId compId).Paired :=
  converse_addTo h compId sessionId

theorem unsubscribe_paired {m : SubscriptionManager} (h : m.Paired) (sessionId compId : UInt16) :
    (m.unsubscribe sessionId compId).Paired :=
  converse_dropFrom h compId sessionId

theorem subscribeEach_paired {m : SubscriptionManager} (h : m.Paired) (sessionId : UInt16)
    (compIds : List UInt16) : (m.subscribeEach sessionId compIds).Paired := by
  induction compIds generalizing m with
  | nil => exact h
  | cons compId compIds ih => exact ih (subscribe_paired h sessionId compId)

/-- While the maps agree, a session is present exactly when it watches something. -/
theorem present_iff {m : SubscriptionManager} (h : m.Paired) (sessionId : UInt16) :
    m.Present sessionId ↔ (members m.bySession sessionId).Nonempty := by
  constructor
  · rintro (⟨compId, sessions, hget, hmem⟩ | hsome)
    · have hmem' : sessionId ∈ members m.subscriptions compId := by
        unfold members
        rw [hget]
        exact hmem
      exact ⟨compId, (h.mem_iff compId sessionId).1 hmem'⟩
    · rw [Finset.nonempty_iff_ne_empty, ne_eq, ← get_eq_none_iff h.noEmpty_right]
      exact Option.isSome_iff_ne_none.1 hsome
  · intro hmem
    rw [Finset.nonempty_iff_ne_empty, ne_eq, ← get_eq_none_iff h.noEmpty_right] at hmem
    exact .inr (Option.isSome_iff_ne_none.2 hmem)

theorem new_not_present (sessionId : UInt16) : ¬ new.Present sessionId := by
  rw [present_iff new_paired]
  exact Finset.not_nonempty_empty

theorem present_subscribe {m : SubscriptionManager} (h : m.Paired) {sessionId k : UInt16}
    (compId : UInt16) (hk : (m.subscribe sessionId compId).Present k) :
    k = sessionId ∨ m.Present k := by
  rw [present_iff (subscribe_paired h sessionId compId)] at hk
  unfold subscribe at hk
  dsimp only at hk
  rw [members_addTo] at hk
  split_ifs at hk with heq
  · exact .inl heq
  · exact .inr ((present_iff h k).2 hk)

theorem present_subscribeEach {m : SubscriptionManager} (h : m.Paired) {sessionId k : UInt16}
    (compIds : List UInt16) (hk : (m.subscribeEach sessionId compIds).Present k) :
    k = sessionId ∨ m.Present k := by
  induction compIds generalizing m with
  | nil => exact .inr hk
  | cons compId compIds ih =>
    rcases ih (subscribe_paired h sessionId compId) hk with heq | hk
    · exact .inl heq
    · exact present_subscribe h compId hk

theorem present_unsubscribe {m : SubscriptionManager} (h : m.Paired) {sessionId k : UInt16}
    (compId : UInt16) (hk : (m.unsubscribe sessionId compId).Present k) : m.Present k := by
  rw [present_iff (unsubscribe_paired h sessionId compId)] at hk
  rw [present_iff h]
  unfold unsubscribe at hk
  dsimp only at hk
  rw [members_dropFrom] at hk
  split_ifs at hk with heq
  · rw [heq]
    exact hk.mono (Finset.erase_subset _ _)
  · exact hk

theorem members_unsubscribeAll {m : SubscriptionManager} (h : m.Paired) (sessionId compId : UInt16) :
    members (m.unsubscribeAll sessionId).subscriptions compId =
      (members m.subscriptions compId).erase sessionId := by
  unfold unsubscribeAll
  cases hget : m.bySession.get sessionId with
  | none =>
    dsimp only
    rw [Finset.erase_eq_of_notMem]
    rw [h.mem_iff]
    unfold members
    rw [hget]
    exact Finset.notMem_empty _
  | some comps =>
    dsimp only
    rw [members_dropAll]
    split_ifs with hmem
    · rfl
    · rw [Finset.erase_eq_of_notMem]
      rw [h.mem_iff]
      unfold members
      rw [hget]
      unfold idList at hmem
      rw [Finset.mem_sort] at hmem
      exact hmem

theorem members_unsubscribeAll_bySession (m : SubscriptionManager) (sessionId k : UInt16) :
    members (m.unsubscribeAll sessionId).bySession k =
      if k = sessionId then ∅ else members m.bySession k := by
  unfold unsubscribeAll
  cases hget : m.bySession.get sessionId with
  | none =>
    dsimp only
    split_ifs with heq
    · unfold members
      rw [heq, hget]
      rfl
    · rfl
  | some comps =>
    unfold members
    dsimp only
    rw [Table.get_erase]
    split_ifs with heq
    · rfl
    · rfl

theorem unsubscribeAll_paired {m : SubscriptionManager} (h : m.Paired) (sessionId : UInt16) :
    (m.unsubscribeAll sessionId).Paired where
  mem_iff compId k := by
    rw [members_unsubscribeAll h, members_unsubscribeAll_bySession, Finset.mem_erase]
    split_ifs with heq
    · simp [heq]
    · rw [← h.mem_iff]
      exact and_iff_right heq
  noEmpty_left := by
    unfold unsubscribeAll
    cases m.bySession.get sessionId with
    | none => exact h.noEmpty_left
    | some comps => exact noEmpty_dropAll _ h.noEmpty_left sessionId
  noEmpty_right := by
    unfold unsubscribeAll
    cases m.bySession.get sessionId with
    | none => exact h.noEmpty_right
    | some comps => exact noEmpty_erase h.noEmpty_right sessionId

theorem present_unsubscribeAll {m : SubscriptionManager} (h : m.Paired) (sessionId k : UInt16) :
    (m.unsubscribeAll sessionId).Present k ↔ k ≠ sessionId ∧ m.Present k := by
  rw [present_iff (unsubscribeAll_paired h sessionId), present_iff h,
    members_unsubscribeAll_bySession]
  split_ifs with heq
  · simp [heq]
  · exact (and_iff_right heq).symm

end SubscriptionManager
end Sandstar

/-!
# Runs of the subscription manager

The two maps stay converse to one another under every call, so what one of them
says of a session and a component the other says too.
-/
namespace Sandstar.SubscriptionManager
open SetTable Runs

inductive Call
  | subscribe (sessionId compId : UInt16)
  | unsubscribe (sessionId compId : UInt16)
  | unsubscribeAll (sessionId : UInt16)
deriving DecidableEq

def call (m : SubscriptionManager) : Call → SubscriptionManager
  | .subscribe sessionId compId => m.subscribe sessionId compId
  | .unsubscribe sessionId compId => m.unsubscribe sessionId compId
  | .unsubscribeAll sessionId => m.unsubscribeAll sessionId

/-- `is_subscribed` -/
def isSubscribed (m : SubscriptionManager) (sessionId compId : UInt16) : Bool :=
  match m.subscriptions.get compId with
  | none => false
  | some sessions => decide (sessionId ∈ sessions)

/-- The session's own entry names the component. -/
def watches (m : SubscriptionManager) (sessionId compId : UInt16) : Bool :=
  match m.bySession.get sessionId with
  | none => false
  | some comps => decide (compId ∈ comps)

theorem isSubscribed_iff (m : SubscriptionManager) (sessionId compId : UInt16) :
    m.isSubscribed sessionId compId = true ↔ sessionId ∈ members m.subscriptions compId := by
  unfold isSubscribed members
  cases m.subscriptions.get compId with
  | none => simp
  | some sessions => simp

theorem watches_iff (m : SubscriptionManager) (sessionId compId : UInt16) :
    m.watches sessionId compId = true ↔ compId ∈ members m.bySession sessionId := by
  unfold watches members
  cases m.bySession.get sessionId with
  | none => simp
  | some comps => simp

theorem call_paired {m : SubscriptionManager} (h : m.Paired) (c : Call) : (m.call c).Paired := by
  cases c with
  | subscribe sessionId compId => exact subscribe_paired h sessionId compId
  | unsubscribe sessionId compId => exact unsubscribe_paired h sessionId compId
  | unsubscribeAll sessionId => exact unsubscribeAll_paired h sessionId

theorem run_paired {m : SubscriptionManager} (h : m.Paired) (calls : List Call) :
    (run call m calls).Paired := by
  induction calls generalizing m with
  | nil => exact h
  | cons c calls ih => exact ih (call_paired h c)

/-- After any calls, the maps are converse to each other and hold no empty set, and clearing
    a session leaves it with no component. -/
theorem run_maps_converse (calls : List Call) (sessionId compId : UInt16) :
    ((run call new calls).isSubscribed sessionId compId =
        (run call new calls).watches sessionId compId) ∧
      (∀ sessions, (run call new calls).subscriptions.get compId = some sessions →
        sessions.Nonempty) ∧
      (∀ comps, (run call new calls).bySession.get sessionId = some comps → comps.Nonempty) ∧
      ((run call new calls).unsubscribeAll sessionId).isSubscribed sessionId compId = false := by
  have hpaired := run_paired new_paired calls
  refine ⟨?_, ?_, ?_, ?_⟩
  · rw [Bool.eq_iff_iff, isSubscribed_iff, watches_iff]
    exact hpaired.mem_iff compId sessionId
  · intro sessions hget
    exact Finset.nonempty_iff_ne_empty.2 (hpaired.noEmpty_left compId sessions hget)
  · intro comps hget
    exact Finset.nonempty_iff_ne_empty.2 (hpaired.noEmpty_right sessionId comps hget)
  · rw [Bool.eq_false_iff, ne_eq, isSubscribed_iff, members_unsubscribeAll hpaired]
    exact Finset.notMem_erase sessionId _

end Sandstar.SubscriptionManager
