import Sandstar.RoxWarp
import Sandstar.Runs

set_option autoImplicit false

/-!
# Completeness of the delta towards a peer

The version kept for a peer is written by two hands: by the acknowledgements of
the peer, in our numbering, and by the deltas of the peer, in its own. The delta
towards the peer is complete exactly as long as the second hand never writes a
version at or above an unacknowledged change of ours.
-/
namespace Sandstar.RoxWarp
open DeltaEngine Runs

variable {F O : Type}

inductive DeltaOp (F O : Type)
  | record (channel : UInt32) (value : F) (unit status : String) (nowMs : ℤ)
  | apply (peerId : String) (points : List (VersionedPoint F O))
  | ack (peerId : String) (version : UInt64)

/-- A delta engine with the history that matters to one peer: the channels whose
    latest change was recorded here, and the highest version the peer has acknowledged. -/
structure DeltaLedger (F O : Type) where
  engine : DeltaEngine F O
  recorded : Set UInt32
  acked : UInt64

def DeltaLedger.new (nodeId : String) (origin : O) : DeltaLedger F O :=
  ⟨DeltaEngine.new nodeId origin, ∅, 0⟩

/-- One operation on the engine, with its entry in the history towards `peer`. -/
def deltaStep (peer : String) (s : DeltaLedger F O) : DeltaOp F O → DeltaLedger F O
  | .record channel value unit status nowMs =>
    ⟨(s.engine.recordChange channel value unit status nowMs).1, insert channel s.recorded, s.acked⟩
  | .apply peerId points =>
    ⟨s.engine.applyRemoteDelta peerId points,
      {c ∈ s.recorded | ∃ p, s.engine.points.get c = some p ∧ ¬ Supersedes points c p}, s.acked⟩
  | .ack peerId version =>
    ⟨s.engine.ackPeer peerId version, s.recorded,
      if peerId = peer then max s.acked version else s.acked⟩

/-- The delta towards the peer holds every recorded point whose change the peer
    has not acknowledged. -/
def DeltaComplete (peer : String) (s : DeltaLedger F O) : Prop :=
  ∀ c ∈ s.recorded, ∀ p, s.engine.points.get c = some p → s.acked < p.version →
    ∀ order, s.engine.IterationOrder order → p ∈ (s.engine.deltaForPeer order peer).2

/-- The operation keeps the version stored for the peer below every change of ours
    the peer has not acknowledged: a recorded change takes a version above it, and a
    delta of the peer leaves no unacknowledged change at or below its own versions. -/
def KeepsBelow (peer : String) (s : DeltaLedger F O) : DeltaOp F O → Prop
  | .record _ _ _ _ _ =>
    s.acked < s.engine.version + 1 → s.engine.peerVersion peer < s.engine.version + 1
  | .apply peerId points =>
    peerId = peer → 0 < maxVersion points → ∀ c ∈ s.recorded, ∀ p,
      s.engine.points.get c = some p → ¬ Supersedes points c p → s.acked < p.version →
        maxVersion points < p.version
  | .ack _ _ => True

/-- Completeness without the delta: what is kept for the peer lies below the open changes. -/
theorem deltaComplete_iff {peer : String} {s : DeltaLedger F O} :
    DeltaComplete peer s ↔ ∀ c ∈ s.recorded, ∀ p, s.engine.points.get c = some p →
      s.acked < p.version → s.engine.peerVersion peer < p.version := by
  constructor
  · intro h c hc p hp hopen
    exact (mem_deltaSince.1 (h c hc p hp hopen _ (HashOrder.some.iterationOrder s.engine))).2
  · intro h c hc p hp hopen order horder
    exact horder.mem_deltaSince hp (h c hc p hp hopen)

theorem new_deltaComplete (peer nodeId : String) (origin : O) :
    DeltaComplete peer (DeltaLedger.new nodeId origin : DeltaLedger F O) := by
  intro c hc
  exact absurd hc (Set.notMem_empty c)

theorem lt_of_max_lt_right {a b c : UInt64} (h : max a b < c) : b < c := by
  have hmax : max a b = if a ≤ b then b else a := rfl
  rw [hmax] at h
  split_ifs at h with hle
  · exact h
  · exact UInt64.lt_trans (UInt64.not_le.1 hle) h

theorem deltaStep_complete {peer : String} {s : DeltaLedger F O} {op : DeltaOp F O}
    (h : DeltaComplete peer s) (hop : KeepsBelow peer s op) :
    DeltaComplete peer (deltaStep peer s op) := by
  rw [deltaComplete_iff] at h ⊢
  cases op with
  | record channel value unit status nowMs =>
    intro c hc p hp hopen
    change (s.engine.points.insert channel _).get c = some p at hp
    rw [Table.get_insert] at hp
    split_ifs at hp with hchannel
    · cases hp
      exact hop hopen
    · rcases hc with hc | hc
      · exact absurd hc hchannel
      · exact h c hc p hp hopen
  | apply peerId points =>
    intro c hc p hp hopen
    obtain ⟨hrecorded, q, hold, hkept⟩ := hc
    change (s.engine.applyRemoteDelta peerId points).points.get c = some p at hp
    change (s.engine.applyRemoteDelta peerId points).peerVersion peer < p.version
    rw [applyRemoteDelta_points] at hp
    rw [applyRemoteDelta_peerVersion]
    rw [get_foldl_mergePoint_kept hold hkept] at hp
    injection hp with hqp
    subst hqp
    split_ifs with hmax
    · exact hop hmax.1.symm hmax.2 c hrecorded q hold hkept hopen
    · exact h c hrecorded q hold hopen
  | ack peerId version =>
    intro c hc p hp hopen
    change (if peerId = peer then max s.acked version else s.acked) < p.version at hopen
    change (s.engine.ackPeer peerId version).peerVersion peer < p.version
    rw [ackPeer_peerVersion]
    by_cases hpeer : peerId = peer
    · rw [if_pos hpeer] at hopen
      rw [if_pos hpeer.symm]
      exact lt_of_max_lt_right hopen
    · rw [if_neg hpeer] at hopen
      rw [if_neg (Ne.symm hpeer)]
      exact h c hc p hp hopen

/-- A step that does not keep below leaves an open change out of the delta at once. -/
theorem deltaStep_incomplete {peer : String} {s : DeltaLedger F O} {op : DeltaOp F O}
    (hop : ¬ KeepsBelow peer s op) : ¬ DeltaComplete peer (deltaStep peer s op) := by
  intro hcomplete
  rw [deltaComplete_iff] at hcomplete
  apply hop
  cases op with
  | record channel value unit status nowMs =>
    intro hopen
    exact hcomplete channel (Set.mem_insert _ _) _ (Table.get_insert_self _ _ _) hopen
  | apply peerId points =>
    intro hpeer hmax c hc p hp hkept hopen
    have hget : (s.engine.applyRemoteDelta peerId points).points.get c = some p := by
      rw [applyRemoteDelta_points]
      exact get_foldl_mergePoint_kept hp hkept
    have hbelow := hcomplete c ⟨hc, p, hp, hkept⟩ p hget hopen
    change (s.engine.applyRemoteDelta peerId points).peerVersion peer < p.version at hbelow
    rw [applyRemoteDelta_peerVersion, if_pos ⟨hpeer.symm, hmax⟩] at hbelow
    exact hbelow
  | ack peerId version => trivial

/-- In every state of a run the delta towards the peer is complete exactly if every
    operation of the run keeps the peer's version below our open changes. -/
theorem delta_complete_iff_keepsBelow (peer nodeId : String) (origin : O)
    (ops : List (DeltaOp F O)) :
    (∀ s ∈ states (deltaStep peer) (DeltaLedger.new nodeId origin) ops, DeltaComplete peer s) ↔
      Along (deltaStep peer) (KeepsBelow peer) (DeltaLedger.new nodeId origin) ops :=
  states_iff_along (deltaStep peer) (fun _ h => h) (fun _ _ h hop => deltaStep_complete h hop)
    (fun _ _ _ hop => deltaStep_incomplete hop) (new_deltaComplete peer nodeId origin)

/-- Our first change, then a delta of the peer that stands at version five in its own
    numbering: the change was never acknowledged, and the delta towards the peer is empty. -/
theorem delta_omits_unacknowledged_change :
    ¬ DeltaComplete "B" (run (deltaStep "B") (DeltaLedger.new "A" () : DeltaLedger ℤ Unit)
      [.record 1 20 "°F" "ok" 1000, .apply "B" [⟨2, 30, "°F", "ok", 5, 1000, ()⟩]]) := by
  intro h
  rw [deltaComplete_iff] at h
  have hbelow := h 1 ⟨Or.inl rfl, ⟨1, 20, "°F", "ok", 1, 1000, ()⟩, by decide, by
    rintro ⟨d, hd, hchannel, -⟩
    rw [List.mem_singleton.1 hd] at hchannel
    exact absurd hchannel (by decide)⟩ ⟨1, 20, "°F", "ok", 1, 1000, ()⟩ (by decide) (by decide)
  exact absurd hbelow (by decide)

end Sandstar.RoxWarp
