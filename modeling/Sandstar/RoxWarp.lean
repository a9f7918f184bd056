import Sandstar.Table

set_option autoImplicit false

/-!
# The roxWarp delta engine

Points with their versions, the table of versions kept for each peer, and the
messages that move points between nodes. Translated from `cluster.rs`, `delta.rs`,
`handler.rs` and `peer.rs`. The two delta engines of the source have the same
text; the points of the second one carry the id of their node besides, which is
the parameter `O` here. Where the source collects the values of a hash map, the
order in which the map lists its channels is a parameter.
-/
namespace Sandstar.RoxWarp

structure VersionedPoint (F O : Type) where
  channel : UInt32
  value : F
  unit : String
  status : String
  version : UInt64
  timestamp : ℤ
  origin : O
deriving DecidableEq, Repr

structure DeltaEngine (F O : Type) where
  nodeId : String
  /-- What the engine puts into the points it records. -/
  origin : O
  version : UInt64
  points : Table UInt32 (VersionedPoint F O)
  peerVersions : Table String UInt64

namespace DeltaEngine

variable {F O : Type}

def new (nodeId : String) (origin : O) : DeltaEngine F O :=
  ⟨nodeId, origin, 0, Table.empty, Table.empty⟩

section Recording

/-- The first step of `record_change`: the version counter goes up, and the point
    takes the new version and the time of day. -/
def takeVersion (e : DeltaEngine F O) (channel : UInt32) (value : F) (unit status : String)
    (nowMs : ℤ) : DeltaEngine F O × VersionedPoint F O :=
  let version := e.version + 1
  ({ e with version := version }, ⟨channel, value, unit, status, version, nowMs, e.origin⟩)

/-- The second step: the point goes into the map under its lock. -/
def insertPoint (e : DeltaEngine F O) (point : VersionedPoint F O) : DeltaEngine F O :=
  { e with points := e.points.insert point.channel point }

def recordChange (e : DeltaEngine F O) (channel : UInt32) (value : F) (unit status : String)
    (nowMs : ℤ) : DeltaEngine F O × UInt64 :=
  let (e, point) := e.takeVersion channel value unit status nowMs
  (e.insertPoint point, point.version)

end Recording

section Deltas

def deltaSince (e : DeltaEngine F O) (order : List UInt32) (sinceVersion : UInt64) :
    List (VersionedPoint F O) :=
  (order.filterMap e.points.get).filter fun p => decide (sinceVersion < p.version)

def peerVersion (e : DeltaEngine F O) (peerId : String) : UInt64 :=
  (e.peerVersions.get peerId).getD 0

def deltaForPeer (e : DeltaEngine F O) (order : List UInt32) (peerId : String) :
    UInt64 × List (VersionedPoint F O) :=
  (e.version, e.deltaSince order (e.peerVersion peerId))

def ackPeer (e : DeltaEngine F O) (peerId : String) (version : UInt64) : DeltaEngine F O :=
  { e with peerVersions := e.peerVersions.insert peerId version }

def mergePoint (points : Table UInt32 (VersionedPoint F O)) (point : VersionedPoint F O) :
    Table UInt32 (VersionedPoint F O) :=
  match points.get point.channel with
  | some existing =>
    if existing.timestamp < point.timestamp then points.insert point.channel point else points
  | none => points.insert point.channel point

def maxVersion (points : List (VersionedPoint F O)) : UInt64 :=
  points.foldl (fun maxVer p => max maxVer p.version) 0

def applyRemoteDelta (e : DeltaEngine F O) (peerId : String) (points : List (VersionedPoint F O)) :
    DeltaEngine F O :=
  let e := { e with points := points.foldl mergePoint e.points }
  let maxVer := maxVersion points
  if 0 < maxVer then { e with peerVersions := e.peerVersions.insert peerId maxVer } else e

def IterationOrder (e : DeltaEngine F O) (order : List UInt32) : Prop :=
  order.Nodup ∧ ∀ c, c ∈ order ↔ c ∈ e.points.keys

def fullState (e : DeltaEngine F O) (order : List UInt32) : UInt64 × List (VersionedPoint F O) :=
  (e.version, order.filterMap e.points.get)

def getVersionVector (e : DeltaEngine F O) : Table String UInt64 :=
  e.peerVersions.insert e.nodeId e.version

end Deltas

end DeltaEngine

section Nodes

variable {F O : Type}

/-- The two ends of a connection: the node that listens, and the one that connects. -/
inductive Side
  | listener
  | peer
deriving DecidableEq, Repr

def Side.other : Side → Side
  | .listener => .peer
  | .peer => .listener

/-- An order in which the hash maps of a node list their channels. -/
structure HashOrder where
  list : Finset UInt32 → List UInt32
  nodup : ∀ s, (list s).Nodup
  mem_list : ∀ s c, c ∈ list s ↔ c ∈ s

def HashOrder.of (order : HashOrder) (e : DeltaEngine F O) : List UInt32 :=
  order.list e.points.keys

noncomputable def HashOrder.some : HashOrder :=
  ⟨Finset.toList, Finset.nodup_toList, fun _ _ => Finset.mem_toList⟩

theorem HashOrder.iterationOrder (order : HashOrder) (e : DeltaEngine F O) :
    e.IterationOrder (order.of e) :=
  ⟨order.nodup _, order.mem_list _⟩

end Nodes

section Messages

variable {F O : Type}

inductive WarpMessage (F O : Type)
  | delta (nodeId : String) (fromVersion toVersion : UInt64) (points : List (VersionedPoint F O))
  | ack (nodeId : String) (version : UInt64)
  | versions (nodeId : String) (versions : Table String UInt64)
  | deltaReq (nodeId : String) (wantFrom : Table String UInt64)
  | fullReq (nodeId : String)
  | full (nodeId : String) (version : UInt64) (points : List (VersionedPoint F O))
  | heartbeat (nodeId : String) (timestamp : ℤ)

def answerVersions (e : DeltaEngine F O) (order : List UInt32) (versions : Table String UInt64) :
    Option (WarpMessage F O) :=
  let peerHas := (versions.get e.nodeId).getD 0
  if peerHas < e.version then
    let deltas := e.deltaSince order peerHas
    if !deltas.isEmpty then some (.delta e.nodeId peerHas e.version deltas) else none
  else none

/-- `process_warp_message` of the listening side, whose configured id is that of its engine. -/
def processWarpMessage (e : DeltaEngine F O) (order : List UInt32) :
    WarpMessage F O → DeltaEngine F O × Option (WarpMessage F O)
  | .delta nodeId _ toVersion points =>
    (e.applyRemoteDelta nodeId points, some (.ack e.nodeId toVersion))
  | .ack nodeId version => (e.ackPeer nodeId version, none)
  | .versions _ versions => (e, answerVersions e order versions)
  | .deltaReq _ wantFrom =>
    let since := (wantFrom.get e.nodeId).getD 0
    (e, some (.delta e.nodeId since e.version (e.deltaSince order since)))
  | .fullReq _ =>
    let (version, points) := e.fullState order
    (e, some (.full e.nodeId version points))
  | .full _ _ _ | .heartbeat _ _ => (e, none)

def processPeerMessage (e : DeltaEngine F O) (order : List UInt32) :
    WarpMessage F O → DeltaEngine F O × Option (WarpMessage F O)
  | .delta nodeId _ toVersion points =>
    (e.applyRemoteDelta nodeId points, some (.ack e.nodeId toVersion))
  | .ack nodeId version => (e.ackPeer nodeId version, none)
  | .versions _ versions => (e, answerVersions e order versions)
  | .full nodeId _ points => (e.applyRemoteDelta nodeId points, none)
  | .deltaReq _ _ | .fullReq _ | .heartbeat _ _ => (e, none)

end Messages

namespace DeltaEngine

variable {F O : Type}

theorem mem_deltaSince {e : DeltaEngine F O} {order : List UInt32} {since : UInt64}
    {p : VersionedPoint F O} :
    p ∈ e.deltaSince order since ↔
      (∃ c ∈ order, e.points.get c = some p) ∧ since < p.version := by
  unfold deltaSince
  rw [List.mem_filter, List.mem_filterMap]
  simp

theorem IterationOrder.mem {e : DeltaEngine F O} {order : List UInt32} (h : e.IterationOrder order)
    {c : UInt32} {p : VersionedPoint F O} (hp : e.points.get c = some p) : c ∈ order :=
  (h.2 c).2 ((Table.mem_keys e.points c).2 ⟨p, hp⟩)

/-- A delta holds the point of a channel exactly if its version is later. -/
theorem IterationOrder.mem_deltaSince {e : DeltaEngine F O} {order : List UInt32}
    (h : e.IterationOrder order) {since : UInt64} {c : UInt32} {p : VersionedPoint F O}
    (hp : e.points.get c = some p) : since < p.version → p ∈ e.deltaSince order since :=
  fun hlt => DeltaEngine.mem_deltaSince.2 ⟨⟨c, h.mem hp, hp⟩, hlt⟩

def Supersedes (points : List (VersionedPoint F O)) (c : UInt32) (p : VersionedPoint F O) : Prop :=
  ∃ d ∈ points, d.channel = c ∧ p.timestamp < d.timestamp

theorem get_mergePoint_ne {points : Table UInt32 (VersionedPoint F O)} {d : VersionedPoint F O}
    {c : UInt32} (h : c ≠ d.channel) : (mergePoint points d).get c = points.get c := by
  unfold mergePoint
  cases points.get d.channel with
  | none => exact Table.get_insert_ne points d h
  | some existing =>
    dsimp only
    split_ifs
    · exact Table.get_insert_ne points d h
    · rfl

theorem get_mergePoint_self (points : Table UInt32 (VersionedPoint F O)) (d : VersionedPoint F O) :
    (mergePoint points d).get d.channel = match points.get d.channel with
      | some existing => if existing.timestamp < d.timestamp then some d else some existing
      | none => some d := by
  unfold mergePoint
  cases h : points.get d.channel with
  | none => exact Table.get_insert_self points _ d
  | some existing =>
    dsimp only
    split_ifs
    · exact Table.get_insert_self points _ d
    · exact h

theorem get_foldl_mergePoint_kept {ds : List (VersionedPoint F O)}
    {points : Table UInt32 (VersionedPoint F O)} {c : UInt32} {p : VersionedPoint F O}
    (hp : points.get c = some p) (h : ¬ Supersedes ds c p) :
    (ds.foldl mergePoint points).get c = some p := by
  induction ds generalizing points with
  | nil => exact hp
  | cons d ds ih =>
    apply ih
    · by_cases hc : c = d.channel
      · subst hc
        rw [get_mergePoint_self, hp]
        dsimp only
        rw [if_neg fun hlt => h ⟨d, List.mem_cons_self, rfl, hlt⟩]
      · rw [get_mergePoint_ne hc, hp]
    · rintro ⟨d', hd', hchannel, hlt⟩
      exact h ⟨d', List.mem_cons_of_mem d hd', hchannel, hlt⟩

theorem applyRemoteDelta_points (e : DeltaEngine F O) (peerId : String)
    (points : List (VersionedPoint F O)) :
    (e.applyRemoteDelta peerId points).points = points.foldl mergePoint e.points := by
  unfold applyRemoteDelta
  dsimp only
  split_ifs <;> rfl

theorem applyRemoteDelta_peerVersion (e : DeltaEngine F O) (peerId : String)
    (points : List (VersionedPoint F O)) (p : String) :
    (e.applyRemoteDelta peerId points).peerVersion p =
      if p = peerId ∧ 0 < maxVersion points then maxVersion points else e.peerVersion p := by
  unfold applyRemoteDelta peerVersion
  dsimp only
  by_cases hmax : 0 < maxVersion points
  · rw [if_pos hmax]
    dsimp only
    rw [Table.get_insert]
    by_cases hp : p = peerId
    · simp [hp, hmax]
    · simp [hp]
  · simp [hmax]

theorem ackPeer_peerVersion (e : DeltaEngine F O) (peerId : String) (version : UInt64)
    (p : String) :
    (e.ackPeer peerId version).peerVersion p = if p = peerId then version else e.peerVersion p := by
  unfold ackPeer peerVersion
  dsimp only
  rw [Table.get_insert]
  split_ifs <;> rfl

end DeltaEngine
end Sandstar.RoxWarp
