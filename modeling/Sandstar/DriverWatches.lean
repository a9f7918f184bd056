import Sandstar.DriverPolling
import Sandstar.SetTable

set_option autoImplicit false

/-!
# Watches of the driver manager (watch_manager.rs, actor.rs)

The actor tells a driver that one of its points is watched, or no longer
watched, by comparing the watch manager before a command with the points the
command lists. `RemoveWatch` with an empty list drops every watch of the
subscriber and lists none of them.
-/
namespace Sandstar.Drivers

open SetTable

structure DriverWatchManager where
  watches : Table (BitVec 32) (Finset String)
  subscribers : Table String (Finset (BitVec 32))

namespace DriverWatchManager

def new : DriverWatchManager := ⟨Table.empty, Table.empty⟩

def subscribe (m : DriverWatchManager) (subscriberId : String) (pointIds : List (BitVec 32)) :
    DriverWatchManager :=
  pointIds.foldl
    (fun m pid => ⟨addTo m.watches pid subscriberId, addTo m.subscribers subscriberId pid⟩)
    { m with subscribers := m.subscribers.insert subscriberId (members m.subscribers subscriberId) }

def pointList (points : Finset (BitVec 32)) : List (BitVec 32) :=
  ((points.image BitVec.toFin).sort (· ≤ ·)).map BitVec.ofFin

def removeSubscriber (m : DriverWatchManager) (subscriberId : String) : DriverWatchManager :=
  match m.subscribers.get subscriberId with
  | none => m
  | some points =>
    ⟨(pointList points).foldl (fun watches pid => dropFrom watches pid subscriberId) m.watches,
      m.subscribers.erase subscriberId⟩

def unsubscribe (m : DriverWatchManager) (subscriberId : String) (pointIds : List (BitVec 32)) :
    DriverWatchManager :=
  if pointIds = [] then m.removeSubscriber subscriberId
  else
    ⟨pointIds.foldl (fun watches pid => dropFrom watches pid subscriberId) m.watches,
      match m.subscribers.get subscriberId with
      | none => m.subscribers
      | some points =>
        let rest := pointIds.foldl Finset.erase points
        if rest = ∅ then m.subscribers.erase subscriberId
        else m.subscribers.insert subscriberId rest⟩

def subscribersFor (m : DriverWatchManager) (pointId : BitVec 32) : Finset String :=
  members m.watches pointId

def isWatched (m : DriverWatchManager) (pointId : BitVec 32) : Bool :=
  match m.watches.get pointId with
  | none => false
  | some subs => subs ≠ ∅

end DriverWatchManager

/-- What the actor tells the drivers while it handles one command: at most one
    call of either kind for each driver. -/
structure Calls where
  onWatch : List (String × List DriverPointRef)
  onUnwatch : List (String × List DriverPointRef)

def Calls.none : Calls := ⟨[], []⟩

/-- The fields of `DriverManagerInner` that decide where calls go. Of the drivers
    only their ids are kept. -/
structure DriverManagerInner where
  drivers : Finset String
  pollScheduler : PollScheduler
  watchManager : DriverWatchManager
  pointDriverMap : Table (BitVec 32) String

inductive DriverError
  | configFault (message : String)
  | commFault (message : String)
  | notSupported (feature : String)
  | remoteStatus (message : String)
  | timeout (message : String)
  | internal (message : String)
  | hardwareNotFound (message : String)
deriving DecidableEq

inductive DriverCmd
  | register (id : String)
  | remove (id : String)
  | registerPoint (pointId : BitVec 32) (driverId : String)
  | addWatch (subscriber : String) (pointIds : List (BitVec 32))
  | removeWatch (subscriber : String) (pointIds : List (BitVec 32))
  | addPollBucket (driverId : String) (interval : ℕ) (points : List DriverPointRef)
deriving DecidableEq

namespace DriverManagerInner

def new : DriverManagerInner := ⟨∅, .new, .new, Table.empty⟩

def register (s : DriverManagerInner) (id : String) :
    DriverManagerInner × Except DriverError Unit :=
  if id ∈ s.drivers then (s, .error (.configFault ("driver '" ++ id ++ "' already registered")))
  else ({ s with drivers := insert id s.drivers }, .ok ())

def remove (s : DriverManagerInner) (id : String) : DriverManagerInner × Bool :=
  if id ∈ s.drivers then
    ({ s with
        drivers := s.drivers.erase id
        pollScheduler := s.pollScheduler.removeDriver id
        pointDriverMap := s.pointDriverMap.retain fun _ did => did ≠ id }, true)
  else (s, false)

def pushRef (s : DriverManagerInner) (byDriver : Table String (List DriverPointRef))
    (pid : BitVec 32) : Table String (List DriverPointRef) :=
  match s.pointDriverMap.get pid with
  | none => byDriver
  | some driverId => byDriver.insert driverId ((byDriver.get driverId).getD [] ++ [⟨pid, ""⟩])

def callsFor (s : DriverManagerInner) (pids : List (BitVec 32)) :
    List (String × List DriverPointRef) :=
  let byDriver := pids.foldl s.pushRef Table.empty
  (byDriver.keys.sort (· ≤ ·)).filterMap fun driverId =>
    if driverId ∈ s.drivers then (byDriver.get driverId).map (driverId, ·) else none

def addWatch (s : DriverManagerInner) (subscriber : String) (pointIds : List (BitVec 32)) :
    DriverManagerInner × Calls :=
  let newlyWatched := pointIds.filter fun pid => !s.watchManager.isWatched pid
  ({ s with watchManager := s.watchManager.subscribe subscriber pointIds },
    { Calls.none with onWatch := s.callsFor newlyWatched })

def removeWatch (s : DriverManagerInner) (subscriber : String) (pointIds : List (BitVec 32)) :
    DriverManagerInner × Calls :=
  let willUnwatch := pointIds.filter fun pid =>
    let subs := s.watchManager.subscribersFor pid
    subs.card = 1 ∧ subscriber ∈ subs
  ({ s with watchManager := s.watchManager.unsubscribe subscriber pointIds },
    { Calls.none with onUnwatch := s.callsFor willUnwatch })

/-- The body of the actor's loop, without the replies. -/
def handle (F : Type) [FloatCasts F] (s : DriverManagerInner) :
    DriverCmd → DriverManagerInner × Calls
  | .register id => ((s.register id).1, .none)
  | .remove id => ((s.remove id).1, .none)
  | .registerPoint pointId driverId =>
    ({ s with pointDriverMap := s.pointDriverMap.insert pointId driverId }, .none)
  | .addWatch subscriber pointIds => s.addWatch subscriber pointIds
  | .removeWatch subscriber pointIds => s.removeWatch subscriber pointIds
  | .addPollBucket driverId interval points =>
    ({ s with pollScheduler := s.pollScheduler.addBucket F driverId interval points }, .none)

/-- The registered driver a point belongs to. -/
def Owns (s : DriverManagerInner) (driverId : String) (pid : BitVec 32) : Prop :=
  driverId ∈ s.drivers ∧ s.pointDriverMap.get pid = some driverId

end DriverManagerInner

section Manager

variable {m : DriverWatchManager} {subscriber : String} {pids : List (BitVec 32)}

theorem isWatched_iff {pid : BitVec 32} :
    m.isWatched pid = true ↔ (members m.watches pid).Nonempty := by
  unfold DriverWatchManager.isWatched members
  cases m.watches.get pid with
  | none => simp
  | some subs => simp [Finset.nonempty_iff_ne_empty]

/-- What `subscribe` adds to both maps. -/
theorem mem_subscribe (m : DriverWatchManager) (subscriber : String) (pids : List (BitVec 32))
    (s : String) (pid : BitVec 32) :
    (s ∈ members (m.subscribe subscriber pids).watches pid ↔
        s ∈ members m.watches pid ∨ (s = subscriber ∧ pid ∈ pids)) ∧
      (pid ∈ members (m.subscribe subscriber pids).subscribers s ↔
        pid ∈ members m.subscribers s ∨ (s = subscriber ∧ pid ∈ pids)) := by
  unfold DriverWatchManager.subscribe
  rw [← members_insert_members m.subscribers subscriber s]
  generalize m.subscribers.insert subscriber (members m.subscribers subscriber) = subs
  obtain ⟨watches, -⟩ := m
  dsimp only
  induction pids generalizing watches subs with
  | nil => simp
  | cons p pids ih =>
    rw [List.foldl_cons]
    obtain ⟨hw, hs⟩ := ih (addTo subs subscriber p) (addTo watches p subscriber)
    rw [hw, hs, mem_addTo, mem_addTo]
    constructor
    · grind
    · grind

theorem mem_foldl_erase (points : Finset (BitVec 32)) (pids : List (BitVec 32)) (pid : BitVec 32) :
    pid ∈ pids.foldl Finset.erase points ↔ pid ∈ points ∧ pid ∉ pids := by
  induction pids generalizing points with
  | nil => simp
  | cons p pids ih =>
    rw [List.foldl_cons, ih, Finset.mem_erase, List.mem_cons]
    tauto

theorem mem_pointList (points : Finset (BitVec 32)) (pid : BitVec 32) :
    pid ∈ DriverWatchManager.pointList points ↔ pid ∈ points := by
  unfold DriverWatchManager.pointList
  rw [List.mem_map]
  constructor
  · rintro ⟨i, hi, rfl⟩
    rw [Finset.mem_sort, Finset.mem_image] at hi
    obtain ⟨p, hp, rfl⟩ := hi
    exact hp
  · intro h
    exact ⟨pid.toFin, (Finset.mem_sort _).2 (Finset.mem_image_of_mem _ h), rfl⟩

def Inverse (m : DriverWatchManager) : Prop :=
  ∀ pid s, s ∈ members m.watches pid ↔ pid ∈ members m.subscribers s

theorem mem_removeSubscriber (h : Inverse m) (subscriber s : String) (pid : BitVec 32) :
    (s ∈ members (m.removeSubscriber subscriber).watches pid ↔
        s ∈ members m.watches pid ∧ s ≠ subscriber) ∧
      (pid ∈ members (m.removeSubscriber subscriber).subscribers s ↔
        pid ∈ members m.subscribers s ∧ s ≠ subscriber) := by
  unfold DriverWatchManager.removeSubscriber
  cases hget : m.subscribers.get subscriber with
  | none =>
    have hnone : ∀ p, p ∉ members m.subscribers subscriber := by
      intro p
      unfold members
      rw [hget]
      exact Finset.notMem_empty p
    have hne : pid ∈ members m.subscribers s → s ≠ subscriber := by
      rintro hmem rfl
      exact hnone pid hmem
    dsimp only
    exact ⟨⟨fun hs => ⟨hs, hne ((h pid s).1 hs)⟩, And.left⟩, ⟨fun hp => ⟨hp, hne hp⟩, And.left⟩⟩
  | some points =>
    have hpoints : members m.subscribers subscriber = points := by
      unfold members
      rw [hget]
      rfl
    dsimp only
    constructor
    · rw [mem_dropAll, mem_pointList, ← hpoints, ← h pid subscriber]
      constructor
      · rintro ⟨hs, hne⟩
        refine ⟨hs, ?_⟩
        rintro rfl
        exact hne ⟨rfl, hs⟩
      · rintro ⟨hs, hne⟩
        exact ⟨hs, fun heq => hne heq.1⟩
    · unfold members
      rw [Table.get_erase]
      split_ifs with heq
      · simp [heq]
      · simp [heq]

/-- What `unsubscribe` takes from both maps; the empty list stands for every
    point. -/
theorem mem_unsubscribe (h : Inverse m) (subscriber : String) (pids : List (BitVec 32)) (s : String)
    (pid : BitVec 32) :
    (s ∈ members (m.unsubscribe subscriber pids).watches pid ↔
        s ∈ members m.watches pid ∧ ¬(s = subscriber ∧ (pids = [] ∨ pid ∈ pids))) ∧
      (pid ∈ members (m.unsubscribe subscriber pids).subscribers s ↔
        pid ∈ members m.subscribers s ∧ ¬(s = subscriber ∧ (pids = [] ∨ pid ∈ pids))) := by
  unfold DriverWatchManager.unsubscribe
  split_ifs with hnil
  · have hall : ¬(s = subscriber ∧ (pids = [] ∨ pid ∈ pids)) ↔ s ≠ subscriber := by
      simp [hnil]
    rw [hall]
    exact mem_removeSubscriber h subscriber s pid
  · have hsome : (pids = [] ∨ pid ∈ pids) ↔ pid ∈ pids := or_iff_right hnil
    rw [hsome]
    dsimp only
    refine ⟨mem_dropAll pids m.watches subscriber s pid, ?_⟩
    cases hget : m.subscribers.get subscriber with
    | none =>
      dsimp only
      constructor
      · intro hp
        refine ⟨hp, ?_⟩
        rintro ⟨rfl, -⟩
        unfold members at hp
        rw [hget] at hp
        exact absurd hp (Finset.notMem_empty pid)
      · exact And.left
    | some points =>
      have hpoints : members m.subscribers subscriber = points := by
        unfold members
        rw [hget]
        rfl
      have hrest := mem_foldl_erase points pids pid
      dsimp only
      by_cases hs : s = subscriber
      · subst hs
        rw [hpoints]
        have hmem : members (if List.foldl Finset.erase points pids = ∅ then m.subscribers.erase s
            else m.subscribers.insert s (List.foldl Finset.erase points pids)) s =
            List.foldl Finset.erase points pids := by
          unfold members
          split_ifs with hempty
          · rw [Table.get_erase_self, hempty]
            rfl
          · rw [Table.get_insert_self]
            rfl
        rw [hmem, hrest]
        simp
      · have hmem : members (if List.foldl Finset.erase points pids = ∅ then
            m.subscribers.erase subscriber
            else m.subscribers.insert subscriber (List.foldl Finset.erase points pids)) s =
            members m.subscribers s := by
          unfold members
          split_ifs
          · rw [Table.get_erase_ne _ hs]
          · rw [Table.get_insert_ne _ _ hs]
        rw [hmem]
        simp [hs]

end Manager

section Calls

variable {s : DriverManagerInner}

def Named (calls : List (String × List DriverPointRef)) (driverId : String) (pid : BitVec 32) :
    Prop :=
  ∃ refs, (driverId, refs) ∈ calls ∧ ∃ r ∈ refs, r.pointId = pid

theorem mem_collected (pids : List (BitVec 32)) (byDriver : Table String (List DriverPointRef))
    (driverId : String) (pid : BitVec 32) :
    (∃ refs, (pids.foldl s.pushRef byDriver).get driverId = some refs ∧
        ∃ r ∈ refs, r.pointId = pid) ↔
      (∃ refs, byDriver.get driverId = some refs ∧ ∃ r ∈ refs, r.pointId = pid) ∨
        (pid ∈ pids ∧ s.pointDriverMap.get pid = some driverId) := by
  induction pids generalizing byDriver with
  | nil => simp
  | cons p pids ih =>
    rw [List.foldl_cons, ih, List.mem_cons]
    unfold DriverManagerInner.pushRef
    cases howner : s.pointDriverMap.get p with
    | none =>
      dsimp only
      have hp : ¬(pid = p ∧ s.pointDriverMap.get pid = some driverId) := by
        rintro ⟨rfl, hp⟩
        rw [howner] at hp
        cases hp
      rw [or_and_right, or_iff_right hp]
    | some d =>
      dsimp only
      rw [Table.get_insert]
      split_ifs with hd
      · subst hd
        have hpush : (∃ refs, some ((byDriver.get driverId).getD [] ++ [⟨p, ""⟩]) = some refs ∧
            ∃ r ∈ refs, r.pointId = pid) ↔
            (∃ refs, byDriver.get driverId = some refs ∧ ∃ r ∈ refs, r.pointId = pid) ∨ p = pid := by
          cases byDriver.get driverId with
          | none => simp
          | some refs => simp [or_and_right, exists_or]
        rw [hpush]
        grind
      · grind

theorem named_callsFor {pids : List (BitVec 32)} {driverId : String} {pid : BitVec 32} :
    Named (s.callsFor pids) driverId pid ↔ s.Owns driverId pid ∧ pid ∈ pids := by
  have hcollected := mem_collected (s := s) pids Table.empty driverId pid
  unfold Named DriverManagerInner.callsFor DriverManagerInner.Owns
  simp only [List.mem_filterMap, Finset.mem_sort, Table.get_empty, reduceCtorEq, false_and,
    exists_false, false_or] at hcollected ⊢
  constructor
  · rintro ⟨refs, ⟨d, -, hd⟩, hrefs⟩
    split_ifs at hd with hmem
    rw [Option.map_eq_some_iff] at hd
    obtain ⟨refs', hget, heq⟩ := hd
    cases heq
    obtain ⟨hpid, howner⟩ := hcollected.1 ⟨refs, hget, hrefs⟩
    exact ⟨⟨hmem, howner⟩, hpid⟩
  · rintro ⟨⟨hmem, howner⟩, hpid⟩
    obtain ⟨refs, hget, hrefs⟩ := hcollected.2 ⟨hpid, howner⟩
    refine ⟨refs, ⟨driverId, (Table.mem_keys _ _).2 ⟨refs, hget⟩, ?_⟩, hrefs⟩
    rw [if_pos hmem, hget]
    rfl

theorem callsFor_nil (s : DriverManagerInner) : s.callsFor [] = [] := by
  simp [DriverManagerInner.callsFor, Table.empty]

theorem callsFor_once (s : DriverManagerInner) (pids : List (BitVec 32)) :
    ((s.callsFor pids).map Prod.fst).Nodup := by
  unfold DriverManagerInner.callsFor
  dsimp only
  generalize pids.foldl s.pushRef Table.empty = byDriver
  have hnodup : (byDriver.keys.sort (· ≤ ·)).Nodup := Finset.sort_nodup _ _
  refine List.Sublist.nodup ?_ hnodup
  generalize byDriver.keys.sort (· ≤ ·) = ids
  induction ids with
  | nil => exact .slnil
  | cons d ids ih =>
    rw [List.filterMap_cons]
    split
    · exact ih.cons d
    · rename_i call hcall
      have hfst : call.1 = d := by
        split_ifs at hcall
        obtain ⟨refs, -, rfl⟩ := Option.map_eq_some_iff.1 hcall
        rfl
      rw [List.map_cons, hfst]
      exact ih.cons_cons d

end Calls

section Watching

/-- The actor beside the watches that are open: what `AddWatch` has added and
    `RemoveWatch` has not taken back. -/
structure WatchWorld where
  inner : DriverManagerInner
  watching : Set (String × BitVec 32)

def watchingAfter (watching : Set (String × BitVec 32)) : DriverCmd → Set (String × BitVec 32)
  | .addWatch subscriber pids => {e | e ∈ watching ∨ (e.1 = subscriber ∧ e.2 ∈ pids)}
  | .removeWatch subscriber pids =>
    {e | e ∈ watching ∧ ¬(e.1 = subscriber ∧ (pids = [] ∨ e.2 ∈ pids))}
  | _ => watching

def HasWatcher (watching : Set (String × BitVec 32)) (pid : BitVec 32) : Prop :=
  ∃ s, (s, pid) ∈ watching

namespace WatchWorld

def start : WatchWorld := ⟨.new, ∅⟩

variable (F : Type) [FloatCasts F]

def step (w : WatchWorld) (c : DriverCmd) : WatchWorld :=
  ⟨(w.inner.handle F c).1, watchingAfter w.watching c⟩

/-- The two maps of the watch manager hold the same pairs, those of the open
    watches. -/
structure Paired (w : WatchWorld) : Prop where
  inverse : Inverse w.inner.watchManager
  current : ∀ pid s, s ∈ members w.inner.watchManager.watches pid ↔ (s, pid) ∈ w.watching

/-- The calls made for a command name exactly the points whose first watcher came
    or whose last one went, each to the driver that owns it and in one call. -/
structure Delivers (w : WatchWorld) (c : DriverCmd) : Prop where
  onWatch : ∀ d pid, Named (w.inner.handle F c).2.onWatch d pid ↔
    w.inner.Owns d pid ∧ ¬HasWatcher w.watching pid ∧ HasWatcher (watchingAfter w.watching c) pid
  onUnwatch : ∀ d pid, Named (w.inner.handle F c).2.onUnwatch d pid ↔
    w.inner.Owns d pid ∧ HasWatcher w.watching pid ∧ ¬HasWatcher (watchingAfter w.watching c) pid
  once : ((w.inner.handle F c).2.onWatch.map Prod.fst).Nodup ∧
    ((w.inner.handle F c).2.onUnwatch.map Prod.fst).Nodup

/-- The command does not drop all watches of a subscriber that is the last one of
    a point with a driver. -/
def SparesLast (w : WatchWorld) (c : DriverCmd) : Prop :=
  ∀ subscriber, c = .removeWatch subscriber [] →
    ∀ d pid, w.inner.Owns d pid → ¬∀ s, (s, pid) ∈ w.watching ↔ s = subscriber

variable {F} {w : WatchWorld}

theorem paired_start : start.Paired :=
  ⟨fun _ _ => by simp [start, DriverManagerInner.new, DriverWatchManager.new],
    fun _ _ => by simp [start, DriverManagerInner.new, DriverWatchManager.new]⟩

theorem handle_watchManager (s : DriverManagerInner) (c : DriverCmd)
    (hadd : ∀ subscriber pids, c ≠ .addWatch subscriber pids)
    (hremove : ∀ subscriber pids, c ≠ .removeWatch subscriber pids) (watching) :
    (s.handle F c).1.watchManager = s.watchManager ∧ (s.handle F c).2 = .none ∧
      watchingAfter watching c = watching := by
  cases c with
  | register id =>
    refine ⟨?_, rfl, rfl⟩
    simp only [DriverManagerInner.handle, DriverManagerInner.register]
    split <;> rfl
  | remove id =>
    refine ⟨?_, rfl, rfl⟩
    simp only [DriverManagerInner.handle, DriverManagerInner.remove]
    split <;> rfl
  | registerPoint pointId driverId => exact ⟨rfl, rfl, rfl⟩
  | addWatch subscriber pids => exact absurd rfl (hadd subscriber pids)
  | removeWatch subscriber pids => exact absurd rfl (hremove subscriber pids)
  | addPollBucket driverId interval points => exact ⟨rfl, rfl, rfl⟩

theorem paired_addWatch (h : w.Paired) (subscriber : String) (pids : List (BitVec 32)) :
    (w.step F (.addWatch subscriber pids)).Paired := by
  have hsub := mem_subscribe w.inner.watchManager subscriber pids
  constructor
  · intro pid s
    exact (hsub s pid).1.trans ((or_congr_left (h.inverse pid s)).trans (hsub s pid).2.symm)
  · intro pid s
    exact (hsub s pid).1.trans (or_congr_left (h.current pid s))

theorem paired_removeWatch (h : w.Paired) (subscriber : String) (pids : List (BitVec 32)) :
    (w.step F (.removeWatch subscriber pids)).Paired := by
  have hsub := mem_unsubscribe h.inverse subscriber pids
  constructor
  · intro pid s
    exact (hsub s pid).1.trans ((and_congr_left' (h.inverse pid s)).trans (hsub s pid).2.symm)
  · intro pid s
    exact (hsub s pid).1.trans (and_congr_left' (h.current pid s))

theorem paired_step (h : w.Paired) (c : DriverCmd) : (w.step F c).Paired := by
  by_cases hadd : ∃ subscriber pids, c = .addWatch subscriber pids
  · obtain ⟨subscriber, pids, rfl⟩ := hadd
    exact paired_addWatch h subscriber pids
  by_cases hremove : ∃ subscriber pids, c = .removeWatch subscriber pids
  · obtain ⟨subscriber, pids, rfl⟩ := hremove
    exact paired_removeWatch h subscriber pids
  push Not at hadd hremove
  obtain ⟨hmanager, -, hwatching⟩ := @handle_watchManager F _ w.inner c hadd hremove w.watching
  constructor
  · unfold step
    dsimp only
    rw [hmanager]
    exact h.inverse
  · unfold step
    dsimp only
    rw [hmanager, hwatching]
    exact h.current

theorem not_named_nil {d : String} {pid : BitVec 32} : ¬Named [] d pid := by
  rintro ⟨refs, hrefs, -⟩
  cases hrefs

theorem isWatched_iff_hasWatcher (h : w.Paired) {pid : BitVec 32} :
    w.inner.watchManager.isWatched pid = true ↔ HasWatcher w.watching pid := by
  rw [isWatched_iff]
  exact exists_congr fun s => h.current pid s

/-- The first subscribers of the listed points. -/
theorem delivers_addWatch (h : w.Paired) (subscriber : String) (pids : List (BitVec 32)) :
    w.Delivers F (.addWatch subscriber pids) := by
  constructor
  · intro d pid
    refine named_callsFor.trans (and_congr_right fun _ => ?_)
    rw [List.mem_filter, Bool.not_eq_true', ← Bool.not_eq_true, isWatched_iff_hasWatcher h,
      and_comm]
    refine and_congr_right fun hnot => ?_
    constructor
    · intro hmem
      exact ⟨subscriber, .inr ⟨rfl, hmem⟩⟩
    · rintro ⟨s, hs | hs⟩
      · exact absurd ⟨s, hs⟩ hnot
      · exact hs.2
  · intro d pid
    refine iff_of_false not_named_nil ?_
    rintro ⟨-, ⟨s, hs⟩, hnot⟩
    exact hnot ⟨s, .inl hs⟩
  · exact ⟨callsFor_once _ _, List.nodup_nil⟩

/-- A point loses its last watcher when the subscriber that leaves it is the only
    one. -/
theorem last_leaves_iff (watching : Set (String × BitVec 32)) (subscriber : String)
    (pids : List (BitVec 32)) (pid : BitVec 32) :
    (HasWatcher watching pid ∧ ¬HasWatcher (watchingAfter watching (.removeWatch subscriber pids)) pid) ↔
      (pids = [] ∨ pid ∈ pids) ∧ ∀ s, (s, pid) ∈ watching ↔ s = subscriber := by
  constructor
  · rintro ⟨⟨s, hs⟩, hnot⟩
    have hleft : ∀ s, (s, pid) ∈ watching → s = subscriber ∧ (pids = [] ∨ pid ∈ pids) := by
      intro s hs
      by_contra hstays
      exact hnot ⟨s, hs, hstays⟩
    obtain ⟨rfl, hlisted⟩ := hleft s hs
    refine ⟨hlisted, fun s' => ⟨fun hs' => (hleft s' hs').1, ?_⟩⟩
    rintro rfl
    exact hs
  · rintro ⟨hlisted, honly⟩
    refine ⟨⟨subscriber, (honly subscriber).2 rfl⟩, ?_⟩
    rintro ⟨s, hs, hstays⟩
    exact hstays ⟨(honly s).1 hs, hlisted⟩

theorem onUnwatch_iff (h : w.Paired) (subscriber : String) (pids : List (BitVec 32)) (d : String)
    (pid : BitVec 32) :
    Named (w.inner.handle F (.removeWatch subscriber pids)).2.onUnwatch d pid ↔
      w.inner.Owns d pid ∧ pid ∈ pids ∧ ∀ s, (s, pid) ∈ w.watching ↔ s = subscriber := by
  refine named_callsFor.trans (and_congr_right fun _ => ?_)
  rw [List.mem_filter]
  refine and_congr_right fun _ => ?_
  have honly : (∀ s, (s, pid) ∈ w.watching ↔ s = subscriber) ↔
      w.inner.watchManager.subscribersFor pid = {subscriber} := by
    rw [Finset.ext_iff]
    refine forall_congr' fun s => ?_
    rw [Finset.mem_singleton, ← h.current pid s]
    rfl
  rw [honly, decide_eq_true_iff]
  constructor
  · rintro ⟨hcard, hmem⟩
    obtain ⟨s, hs⟩ := Finset.card_eq_one.1 hcard
    rw [hs, Finset.mem_singleton] at hmem
    rw [hs, hmem]
  · intro hs
    rw [hs]
    exact ⟨Finset.card_singleton _, Finset.mem_singleton_self _⟩

theorem delivers_removeWatch_iff (h : w.Paired) (subscriber : String) (pids : List (BitVec 32)) :
    w.Delivers F (.removeWatch subscriber pids) ↔ w.SparesLast (.removeWatch subscriber pids) := by
  constructor
  · intro hdelivers sub hc d pid hown honly
    cases hc
    have hedge := (last_leaves_iff w.watching subscriber [] pid).2 ⟨.inl rfl, honly⟩
    have hnamed := (hdelivers.onUnwatch d pid).2 ⟨hown, hedge⟩
    rw [onUnwatch_iff h] at hnamed
    exact absurd hnamed.2.1 List.not_mem_nil
  · intro hspares
    refine ⟨?_, ?_, List.nodup_nil, callsFor_once _ _⟩
    · intro d pid
      refine iff_of_false not_named_nil ?_
      rintro ⟨-, hnot, ⟨s, hs⟩⟩
      exact hnot ⟨s, hs.1⟩
    · intro d pid
      rw [onUnwatch_iff h]
      refine and_congr_right fun hown => ?_
      rw [last_leaves_iff]
      refine and_congr_left fun honly => ?_
      refine ⟨Or.inr, ?_⟩
      rintro (rfl | hmem)
      · exact absurd honly (hspares subscriber rfl d pid hown)
      · exact hmem

theorem delivers_iff (h : w.Paired) (c : DriverCmd) : w.Delivers F c ↔ w.SparesLast c := by
  by_cases hadd : ∃ subscriber pids, c = .addWatch subscriber pids
  · obtain ⟨subscriber, pids, rfl⟩ := hadd
    exact iff_of_true (delivers_addWatch h subscriber pids) (nofun)
  by_cases hremove : ∃ subscriber pids, c = .removeWatch subscriber pids
  · obtain ⟨subscriber, pids, rfl⟩ := hremove
    exact delivers_removeWatch_iff h subscriber pids
  push Not at hadd hremove
  obtain ⟨-, hcalls, hwatching⟩ := @handle_watchManager F _ w.inner c hadd hremove w.watching
  refine iff_of_true ⟨?_, ?_, ?_⟩ fun sub hc => absurd hc (hremove sub [])
  · intro d pid
    rw [hcalls, hwatching]
    exact iff_of_false not_named_nil fun h => h.2.1 h.2.2
  · intro d pid
    rw [hcalls, hwatching]
    exact iff_of_false not_named_nil fun h => h.2.2 h.2.1
  · rw [hcalls]
    exact ⟨List.nodup_nil, List.nodup_nil⟩

end WatchWorld

open WatchWorld

/-- In every run the two maps stay inverse, and the drivers are told of every
    first and last watcher of their points exactly if no subscriber drops all of
    its watches while it is the last one of a point with a driver. -/
theorem watches_delivered_iff (F : Type) [FloatCasts F] (cmds : List DriverCmd) :
    (∀ w ∈ Runs.states (step F) start cmds, w.Paired) ∧
      (Runs.Along (step F) (Delivers F) start cmds ↔
        Runs.Along (step F) SparesLast start cmds) := by
  refine ⟨?_, ?_⟩
  · exact @Runs.states_always _ _ (step F) Paired (fun _ c h => paired_step h c) _ paired_start cmds
  · exact Runs.along_congr (step F) (fun _ c h _ => paired_step h c) (fun _ c h _ => delivers_iff h c)
      paired_start (Runs.along_true (step F) start cmds)

def oneWatch : WatchWorld :=
  Runs.run (step ℚ) start [.register "drv-1", .registerPoint 7 "drv-1", .addWatch "s1" [7]]

/-- When the subscriber drops all of its watches, the driver is told nothing. -/
theorem unsubscribe_all_untold :
    oneWatch.inner.Owns "drv-1" 7 ∧ (oneWatch.inner.handle ℚ (.removeWatch "s1" [])).2 = .none ∧
      ¬Runs.Along (step ℚ) (Delivers ℚ) start
        [.register "drv-1", .registerPoint 7 "drv-1", .addWatch "s1" [7], .removeWatch "s1" []] := by
  have howns : oneWatch.inner.Owns "drv-1" 7 := by
    constructor
    · decide
    · decide
  have huntold : (oneWatch.inner.handle ℚ (.removeWatch "s1" [])).2 = .none := by
    simp [DriverManagerInner.handle, DriverManagerInner.removeWatch, callsFor_nil, Calls.none]
  refine ⟨howns, huntold, ?_⟩
  rintro ⟨-, -, -, hdelivers, -⟩
  have hnamed := (hdelivers.onUnwatch "drv-1" 7).2 ⟨howns, ⟨"s1", .inr ⟨rfl, by simp⟩⟩, ?_⟩
  · change Named (oneWatch.inner.handle ℚ (.removeWatch "s1" [])).2.onUnwatch "drv-1" 7 at hnamed
    rw [huntold] at hnamed
    exact not_named_nil hnamed
  · simp [HasWatcher, step, start, watchingAfter]

end Watching

end Sandstar.Drivers
