import Sandstar.RoxWarp
import Sandstar.Runs

set_option autoImplicit false

/-!
# The push loops

A change is recorded in two steps, and the loop that pushes deltas over a
connection reads the version counter and the map of points in two steps as well.
Both loops of the source are here: the one of the listening side, which reads the
counter first, and the one of the connecting side, whose initial sync reads the
points first.
-/
namespace Sandstar.RoxWarp
open DeltaEngine Runs

variable {F O : Type}

inductive PushPhase (F O : Type)
  | offline
  | syncVersion
  | syncPoints (current : UInt64)
  | askPoints
  | askVersion (deltas : List (VersionedPoint F O))
  | active (lastSentVersion : UInt64)
  | reading (lastSentVersion current : UInt64)

/-- An engine with the changes that have taken their version and not yet their place
    in the map, and one connection: the version the other side was known to hold when
    the connection began, and all points pushed over it since. `recorded` are the
    channels whose latest point was recorded here. -/
structure PushState (F O : Type) where
  engine : DeltaEngine F O
  pending : List (VersionedPoint F O)
  recorded : Set UInt32
  phase : PushPhase F O
  known : UInt64
  pushed : List (VersionedPoint F O)

inductive PushEvent (F O : Type)
  | connect (side : Side) (peerHasOurVersion : UInt64)
  | disconnect
  | takeVersion (channel : UInt32) (value : F) (unit status : String) (nowMs : ℤ)
  | insertPoint (i : ℕ)
  | applyRemoteDelta (peerId : String) (points : List (VersionedPoint F O))
  | ackPeer (peerId : String) (version : UInt64)
  | loop (order : HashOrder)

def PushState.new (nodeId : String) (origin : O) : PushState F O :=
  ⟨DeltaEngine.new nodeId origin, [], ∅, .offline, 0, []⟩

/-- A new connection. The listening side starts from the version it keeps for the peer,
    the connecting side from the version in the welcome of the other. -/
def PushState.connect (peer : String) (s : PushState F O) (side : Side)
    (peerHasOurVersion : UInt64) : PushState F O :=
  match s.phase with
  | .offline =>
    match side with
    | .listener =>
      { s with phase := .syncVersion, known := s.engine.peerVersion peer, pushed := [] }
    | .peer => { s with phase := .askPoints, known := peerHasOurVersion, pushed := [] }
  | _ => s

def PushState.insertPoint (s : PushState F O) (i : ℕ) : PushState F O :=
  match s.pending[i]? with
  | some point =>
    { s with
      engine := s.engine.insertPoint point
      pending := s.pending.eraseIdx i
      recorded := insert point.channel s.recorded }
  | none => s

/-- The next read of the loop, with the delta that follows it. -/
def PushState.loop (s : PushState F O) (order : HashOrder) : PushState F O :=
  match s.phase with
  | .offline => s
  | .syncVersion => { s with phase := .syncPoints s.engine.version }
  | .syncPoints current =>
    let deltas := s.engine.deltaSince (order.of s.engine) s.known
    { s with phase := .active current, pushed := s.pushed ++ deltas }
  | .askPoints => { s with phase := .askVersion (s.engine.deltaSince (order.of s.engine) s.known) }
  | .askVersion deltas =>
    { s with phase := .active s.engine.version, pushed := s.pushed ++ deltas }
  | .active lastSentVersion =>
    if lastSentVersion < s.engine.version then
      { s with phase := .reading lastSentVersion s.engine.version }
    else s
  | .reading lastSentVersion current =>
    let deltas := s.engine.deltaSince (order.of s.engine) lastSentVersion
    if !deltas.isEmpty then { s with phase := .active current, pushed := s.pushed ++ deltas }
    else { s with phase := .active lastSentVersion }

def PushPhase.lastSent : PushPhase F O → Option UInt64
  | .active lastSentVersion | .reading lastSentVersion _ => some lastSentVersion
  | _ => none

/-- The step does not run into a change between its two steps. The counter has not
    reached its maximum when a version is taken; when the loop reads points after the
    counter and then moves on, no change up to the counter it has read is waiting for
    the map; when it reads the counter after the points, nothing is waiting and nothing
    new has come into the map since. -/
def Undisturbed (s : PushState F O) : PushEvent F O → Prop
  | .takeVersion _ _ _ _ _ => s.engine.version < s.engine.version + 1
  | .loop _ =>
    match s.phase with
    | .syncPoints current => ∀ q ∈ s.pending, current < q.version
    | .askVersion deltas =>
      s.pending = [] ∧ ∀ c ∈ s.recorded, ∀ p, s.engine.points.get c = some p →
        s.known < p.version → p ∈ deltas
    | .reading lastSentVersion current =>
      (∃ c p, s.engine.points.get c = some p ∧ lastSentVersion < p.version) →
        ∀ q ∈ s.pending, current < q.version
    | _ => True
  | _ => True

section Invariant

/-- Everything up to `last` has been pushed, and what waits for the map is later. -/
structure CaughtUp (s : PushState F O) (last : UInt64) : Prop where
  le_version : last ≤ s.engine.version
  pending_later : ∀ q ∈ s.pending, last < q.version
  recorded_pushed : ∀ c ∈ s.recorded, ∀ p, s.engine.points.get c = some p →
    s.known < p.version → p.version ≤ last → p ∈ s.pushed

/-- The invariant of the push loop. -/
structure InStep (s : PushState F O) : Prop where
  pending_le : ∀ q ∈ s.pending, q.version ≤ s.engine.version
  recorded_le : ∀ c ∈ s.recorded, ∀ p, s.engine.points.get c = some p →
    p.version ≤ s.engine.version
  caughtUp : ∀ last, s.phase.lastSent = some last → CaughtUp s last
  current_le : ∀ current, (s.phase = .syncPoints current ∨ ∃ last, s.phase = .reading last current) →
    current ≤ s.engine.version

/-- The invariant survives every step that leaves the loop where it is: what waits for
    the map is old or newer than the counter was, and what the map holds is old or waited. -/
theorem InStep.edit {s s' : PushState F O} (h : InStep s) (hphase : s'.phase = s.phase)
    (hknown : s'.known = s.known) (hpushed : s'.pushed = s.pushed)
    (hversion : s.engine.version ≤ s'.engine.version)
    (hpending : ∀ q ∈ s'.pending, q ∈ s.pending ∨
      s.engine.version < q.version ∧ q.version ≤ s'.engine.version)
    (hrecorded : ∀ c ∈ s'.recorded, ∀ p, s'.engine.points.get c = some p →
      (c ∈ s.recorded ∧ s.engine.points.get c = some p) ∨ p ∈ s.pending) :
    InStep s' where
  pending_le := by
    intro q hq
    rcases hpending q hq with hq | hq
    · exact UInt64.le_trans (h.pending_le q hq) hversion
    · exact hq.2
  recorded_le := by
    intro c hc p hp
    apply UInt64.le_trans ?_ hversion
    rcases hrecorded c hc p hp with hold | hwaited
    · exact h.recorded_le c hold.1 p hold.2
    · exact h.pending_le p hwaited
  caughtUp := by
    intro last hlast
    rw [hphase] at hlast
    have hcaught := h.caughtUp last hlast
    refine ⟨UInt64.le_trans hcaught.le_version hversion, ?_, ?_⟩
    · intro q hq
      rcases hpending q hq with hq | hq
      · exact hcaught.pending_later q hq
      · exact UInt64.lt_of_le_of_lt hcaught.le_version hq.1
    · intro c hc p hp hnew hle
      rw [hknown] at hnew
      rw [hpushed]
      rcases hrecorded c hc p hp with hold | hwaited
      · exact hcaught.recorded_pushed c hold.1 p hold.2 hnew hle
      · exact absurd hle (UInt64.not_le.2 (hcaught.pending_later p hwaited))
  current_le := by
    intro current hcurrent
    rw [hphase] at hcurrent
    exact UInt64.le_trans (h.current_le current hcurrent) hversion

/-- A step of the loop alone: engine and changes stay, and the new phase has to be justified. -/
theorem InStep.move {s s' : PushState F O} (h : InStep s) (hengine : s'.engine = s.engine)
    (hpending : s'.pending = s.pending) (hrecorded : s'.recorded = s.recorded)
    (hcaught : ∀ last, s'.phase.lastSent = some last → CaughtUp s' last)
    (hcurrent : ∀ current, (s'.phase = .syncPoints current ∨
      ∃ last, s'.phase = .reading last current) → current ≤ s.engine.version) :
    InStep s' where
  pending_le := by
    rw [hpending, hengine]
    exact h.pending_le
  recorded_le := by
    rw [hrecorded, hengine]
    exact h.recorded_le
  caughtUp := hcaught
  current_le := by
    rw [hengine]
    exact hcurrent

end Invariant

section Progress

def PushState.Holds (s : PushState F O) (c : UInt32) (p : VersionedPoint F O) : Prop :=
  c ∈ s.recorded ∧ s.engine.points.get c = some p

end Progress

end Sandstar.RoxWarp
