import Sandstar.RoxWarp
import Sandstar.LatestWins
import Sandstar.KeyedFold

set_option autoImplicit false

/-!
# Remote deltas in any order

Each channel of a delta engine is a cell that the last writer wins. So what a family of
remote points leaves behind does not depend on how they were ordered, batched or repeated,
and it is the same in `cluster.rs`, whose points have no origin, and in `delta.rs`.
-/
namespace Sandstar.RoxWarp

open DeltaEngine LatestWins

/-- The engine of `cluster.rs`. -/
abbrev ClusterEngine (F : Type) := DeltaEngine F Unit

/-- The engine of `delta.rs`, whose points carry the id of their node. -/
abbrev SyncEngine (F : Type) := DeltaEngine F String

section Cells

variable {F O : Type}

def VersionedPoint.forget (p : VersionedPoint F O) : VersionedPoint F Unit :=
  ⟨p.channel, p.value, p.unit, p.status, p.version, p.timestamp, ()⟩

theorem get_mergePoint (points : Table UInt32 (VersionedPoint F O)) (d : VersionedPoint F O)
    (c : UInt32) : (mergePoint points d).get c =
      if c = d.channel then pick VersionedPoint.timestamp (points.get c) d else points.get c := by
  by_cases hc : c = d.channel
  · subst hc
    rw [if_pos rfl, get_mergePoint_self]
    cases points.get d.channel <;> rfl
  · rw [if_neg hc, get_mergePoint_ne hc]

theorem get_foldl_mergePoint (ds : List (VersionedPoint F O))
    (points : Table UInt32 (VersionedPoint F O)) (c : UInt32) :
    (ds.foldl mergePoint points).get c =
      (ds.filter (·.channel = c)).foldl (pick VersionedPoint.timestamp) (points.get c) :=
  KeyedFold.view_foldl get_mergePoint ds points c

def DeltaEngine.deliver (e : DeltaEngine F O)
    (batches : List (String × List (VersionedPoint F O))) : DeltaEngine F O :=
  batches.foldl (fun e b => e.applyRemoteDelta b.1 b.2) e

theorem deliver_points (e : DeltaEngine F O)
    (batches : List (String × List (VersionedPoint F O))) :
    (e.deliver batches).points = (batches.flatMap Prod.snd).foldl mergePoint e.points := by
  unfold DeltaEngine.deliver
  induction batches generalizing e with
  | nil => rfl
  | cons b batches ih =>
    rw [List.foldl_cons, ih, applyRemoteDelta_points, List.flatMap_cons, List.foldl_append]

/-- The batches hold the points of the family, in some order and with any repetitions. -/
def Delivers (family : List (VersionedPoint F O))
    (batches : List (String × List (VersionedPoint F O))) : Prop :=
  ∀ p, p ∈ batches.flatMap Prod.snd ↔ p ∈ family

def DistinctTimes (family : List (VersionedPoint F O)) : Prop :=
  ∀ p ∈ family, ∀ q ∈ family, p.channel = q.channel → p.timestamp = q.timestamp → p = q

/-- The latest of the point that an engine holds in a channel and the family's points for it. -/
def LatestOf (e : DeltaEngine F O) (family : List (VersionedPoint F O)) (c : UInt32) :
    Option (VersionedPoint F O) → Prop :=
  IsLatest VersionedPoint.timestamp (e.points.get c) (family.filter (·.channel = c))

variable {family : List (VersionedPoint F O)}
  {batches batches' : List (String × List (VersionedPoint F O))}

theorem LatestOf.same {e : DeltaEngine F O} {offered : List (VersionedPoint F O)}
    (hsame : ∀ p, p ∈ offered ↔ p ∈ family) {c : UInt32} {r : Option (VersionedPoint F O)}
    (h : LatestOf e offered c r) : LatestOf e family c r := by
  have hfilter : ∀ p, p ∈ offered.filter (·.channel = c) ↔ p ∈ family.filter (·.channel = c) := by
    intro p
    rw [List.mem_filter, List.mem_filter, hsame]
  refine ⟨fun p hp => (h.source p hp).imp_right (hfilter p).1, ?_, h.held_first⟩
  intro q hq
  exact h.latest q (hq.imp_right (hfilter q).2)

theorem latestOf_deliver (e : DeltaEngine F O) (h : Delivers family batches) (c : UInt32) :
    LatestOf e family c ((e.deliver batches).points.get c) := by
  apply LatestOf.same h
  rw [deliver_points, get_foldl_mergePoint]
  exact isLatest_foldl _ _

theorem LatestOf.unique {e : DeltaEngine F O} (hdistinct : DistinctTimes family) {c : UInt32}
    {r r' : Option (VersionedPoint F O)} (h : LatestOf e family c r) (h' : LatestOf e family c r') :
    r = r' := by
  refine IsLatest.unique h h' (fun _ => Iff.rfl) ?_
  intro p hp q hq htie
  obtain ⟨hp, hpc⟩ := List.mem_filter.1 hp
  obtain ⟨hq, hqc⟩ := List.mem_filter.1 hq
  simp only [decide_eq_true_eq] at hpc hqc
  exact hdistinct p hp q hq (hpc.trans hqc.symm) htie

end Cells

section Engines

variable {F : Type} {family : List (VersionedPoint F String)}

theorem latestOf_forget {sync : SyncEngine F} {cluster : ClusterEngine F} {c : UInt32}
    (hheld : cluster.points.get c = (sync.points.get c).map VersionedPoint.forget)
    {r : Option (VersionedPoint F String)} (h : LatestOf sync family c r) :
    LatestOf cluster (family.map VersionedPoint.forget) c (r.map VersionedPoint.forget) := by
  have hmap : IsLatest VersionedPoint.timestamp
      ((sync.points.get c).map VersionedPoint.forget)
      ((family.filter (·.channel = c)).map VersionedPoint.forget)
      (r.map VersionedPoint.forget) := IsLatest.map h VersionedPoint.forget fun _ => rfl
  unfold LatestOf
  rw [hheld, List.filter_map]
  exact hmap

theorem distinctTimes_forget (h : DistinctTimes family) :
    DistinctTimes (family.map VersionedPoint.forget) := by
  intro p' hp' q' hq' hchannel htie
  obtain ⟨p, hp, rfl⟩ := List.mem_map.1 hp'
  obtain ⟨q, hq, rfl⟩ := List.mem_map.1 hq'
  rw [h p hp q hq hchannel htie]

/-- However a family of remote points is ordered, batched and repeated, each channel is left
    with the latest of the point it had and those of the family. Two engines that deliver the
    same family end with the same points, be they of one implementation or of both. -/
theorem remote_merge_join (hdistinct : DistinctTimes family) (sync : SyncEngine F)
    (cluster : ClusterEngine F)
    (hheld : ∀ c, cluster.points.get c = (sync.points.get c).map VersionedPoint.forget) :
    (∀ batches, Delivers family batches → ∀ c,
      LatestOf sync family c ((sync.deliver batches).points.get c)) ∧
    (∀ batches, Delivers (family.map VersionedPoint.forget) batches → ∀ c,
      LatestOf cluster (family.map VersionedPoint.forget) c
        ((cluster.deliver batches).points.get c)) ∧
    (∀ batches batches', Delivers family batches → Delivers family batches' →
      (sync.deliver batches).points = (sync.deliver batches').points) ∧
    ∀ batches batches', Delivers family batches →
      Delivers (family.map VersionedPoint.forget) batches' → ∀ c,
      (cluster.deliver batches').points.get c =
        ((sync.deliver batches).points.get c).map VersionedPoint.forget := by
  refine ⟨fun batches h c => latestOf_deliver sync h c,
    fun batches h c => latestOf_deliver cluster h c, ?_, ?_⟩
  · intro batches batches' h h'
    apply Table.ext
    intro c
    exact (latestOf_deliver sync h c).unique hdistinct (latestOf_deliver sync h' c)
  · intro batches batches' h h' c
    exact (latestOf_deliver cluster h' c).unique (distinctTimes_forget hdistinct)
      (latestOf_forget (hheld c) (latestOf_deliver sync h c))

def earlyPoint : VersionedPoint ℤ String := ⟨1, 70, "degF", "ok", 1, 10, "b"⟩

def latePoint : VersionedPoint ℤ String := ⟨1, 90, "degF", "ok", 2, 20, "b"⟩

/-- Two points of a channel, the later one first and the earlier one twice. -/
theorem remote_merge_join_two :
    (((new "a" "a" : SyncEngine ℤ).deliver [("b", [latePoint]), ("c", [earlyPoint, earlyPoint])]).points =
      ((new "a" "a" : SyncEngine ℤ).deliver [("b", [earlyPoint, latePoint])]).points) ∧
    ((new "a" "a" : SyncEngine ℤ).deliver
      [("b", [latePoint]), ("c", [earlyPoint, earlyPoint])]).points.get 1 = some latePoint := by
  have hdistinct : DistinctTimes [earlyPoint, latePoint] := by
    unfold DistinctTimes
    decide
  have hjoin := remote_merge_join hdistinct (new "a" "a") (new "a" ()) fun _ => rfl
  refine ⟨hjoin.2.2.1 _ _ ?_ fun _ => Iff.rfl, by decide⟩
  intro p
  simp only [List.flatMap_cons, List.flatMap_nil, List.cons_append, List.nil_append, List.mem_cons,
    List.not_mem_nil]
  tauto

end Engines

end Sandstar.RoxWarp
