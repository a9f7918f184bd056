import Sandstar.RoxWarp
import Sandstar.Runs

set_option autoImplicit false

/-!
# Gossip between two nodes

Two delta engines joined by a connection, its messages in flight included. After
any run of changes and messages, one last exchange of deltas leaves both nodes
with the same points exactly if each delta reaches back to the versions it has to
carry and no two points tie on the timestamp with different values.
-/
namespace Sandstar.RoxWarp
open DeltaEngine Runs

variable {F O : Type}

section Deltas

/-- The ways a node makes its delta: from the version it keeps for the peer, or
    from a version it was told. -/
inductive Ask
  | forPeer
  | since (version : UInt64)

def Ask.delta (ask : Ask) (e : DeltaEngine F O) (order : HashOrder) (peerId : String) :
    List (VersionedPoint F O) :=
  match ask with
  | .forPeer => (e.deltaForPeer (order.of e) peerId).2
  | .since version => e.deltaSince (order.of e) version

def Ask.from (ask : Ask) (e : DeltaEngine F O) (peerId : String) : UInt64 :=
  match ask with
  | .forPeer => e.peerVersion peerId
  | .since version => version

theorem Ask.delta_eq (ask : Ask) (e : DeltaEngine F O) (order : HashOrder) (peerId : String) :
    ask.delta e order peerId = e.deltaSince (order.of e) (ask.from e peerId) := by
  cases ask <;> rfl

end Deltas

section Merging

/-- Every point lies under its own channel. -/
def Keyed (e : DeltaEngine F O) : Prop := ∀ c p, e.points.get c = some p → p.channel = c

/-- What a channel holds after a delta that starts after `since`, when it held
    `here` and the sender holds `there`. -/
def merged (since : UInt64) (here there : Option (VersionedPoint F O)) :
    Option (VersionedPoint F O) :=
  match here, there with
  | here, none => here
  | none, some d => if since < d.version then some d else none
  | some p, some d => if since < d.version ∧ p.timestamp < d.timestamp then some d else some p

theorem get_foldl_mergePoint_absent {ds : List (VersionedPoint F O)} {c : UInt32}
    (points : Table UInt32 (VersionedPoint F O)) (h : ∀ d ∈ ds, d.channel ≠ c) :
    (ds.foldl mergePoint points).get c = points.get c := by
  induction ds generalizing points with
  | nil => rfl
  | cons d ds ih =>
    rw [List.foldl_cons, ih _ fun d' hd' => h d' (List.mem_cons_of_mem d hd')]
    exact get_mergePoint_ne (Ne.symm (h d List.mem_cons_self))

/-- The delta of a node, channel by channel. The induction runs over the listed
    channels: each is listed once, so later points leave the channel alone. -/
theorem get_foldl_mergePoint_deltaSince {e : DeltaEngine F O} (he : Keyed e) {since : UInt64}
    {order : List UInt32} (hnodup : order.Nodup) (points : Table UInt32 (VersionedPoint F O))
    {c : UInt32} (hc : c ∈ order) :
    ((e.deltaSince order since).foldl mergePoint points).get c =
      merged since (points.get c) (e.points.get c) := by
  induction order generalizing points with
  | nil => cases hc
  | cons k ks ih =>
    have habsent : k ∉ ks := (List.nodup_cons.1 hnodup).1
    have hrest : ∀ d ∈ e.deltaSince ks since, d.channel ≠ k := by
      intro d hd heq
      obtain ⟨⟨k', hk', hget⟩, -⟩ := mem_deltaSince.1 hd
      rw [he k' d hget] at heq
      exact habsent (heq ▸ hk')
    cases hget : e.points.get k with
    | none =>
      have hcons : e.deltaSince (k :: ks) since = e.deltaSince ks since := by
        simp [deltaSince, hget]
      rw [hcons]
      by_cases hck : c = k
      · subst hck
        rw [get_foldl_mergePoint_absent points hrest, hget]
        cases points.get c <;> rfl
      · exact ih (List.nodup_cons.1 hnodup).2 points ((List.mem_cons.1 hc).resolve_left hck)
    | some d =>
      have hchannel : d.channel = k := he k d hget
      by_cases hlt : since < d.version
      · have hcons : e.deltaSince (k :: ks) since = d :: e.deltaSince ks since := by
          simp [deltaSince, hget, hlt]
        rw [hcons, List.foldl_cons]
        by_cases hck : c = k
        · subst hck
          rw [get_foldl_mergePoint_absent _ hrest, hget]
          have hself := get_mergePoint_self points d
          rw [hchannel] at hself
          rw [hself]
          cases points.get c with
          | none => simp [merged, hlt]
          | some p => simp [merged, hlt]
        · rw [ih (List.nodup_cons.1 hnodup).2 _ ((List.mem_cons.1 hc).resolve_left hck)]
          rw [get_mergePoint_ne (hchannel ▸ hck)]
      · have hcons : e.deltaSince (k :: ks) since = e.deltaSince ks since := by
          simp [deltaSince, hget, hlt]
        rw [hcons]
        by_cases hck : c = k
        · subst hck
          rw [get_foldl_mergePoint_absent points hrest, hget]
          cases points.get c with
          | none => simp [merged, hlt]
          | some p => simp [merged, hlt]
        · exact ih (List.nodup_cons.1 hnodup).2 points ((List.mem_cons.1 hc).resolve_left hck)

theorem get_applyRemoteDelta {e : DeltaEngine F O} (he : Keyed e) (target : DeltaEngine F O)
    (order : HashOrder) (peerId : String) (since : UInt64) (c : UInt32) :
    (target.applyRemoteDelta peerId (e.deltaSince (order.of e) since)).points.get c =
      merged since (target.points.get c) (e.points.get c) := by
  rw [applyRemoteDelta_points]
  by_cases hc : c ∈ order.of e
  · exact get_foldl_mergePoint_deltaSince he (order.nodup _) _ hc
  · have hnone : e.points.get c = none := by
      rw [Option.eq_none_iff_forall_ne_some]
      intro p hp
      exact hc ((order.mem_list _ c).2 ((Table.mem_keys e.points c).2 ⟨p, hp⟩))
    rw [get_foldl_mergePoint_absent, hnone]
    · cases target.points.get c <;> rfl
    · intro d hd heq
      obtain ⟨⟨k, -, hget⟩, -⟩ := mem_deltaSince.1 hd
      rw [he k d hget] at heq
      rw [heq, hnone] at hget
      cases hget

theorem le_foldl_max (ds : List (VersionedPoint F O)) (n : UInt64) :
    n ≤ ds.foldl (fun maxVer p => max maxVer p.version) n ∧
      ∀ p ∈ ds, p.version ≤ ds.foldl (fun maxVer p => max maxVer p.version) n := by
  induction ds generalizing n with
  | nil => exact ⟨UInt64.le_refl n, fun p hp => absurd hp List.not_mem_nil⟩
  | cons d ds ih =>
    have hmax : max n d.version = if n ≤ d.version then d.version else n := rfl
    have hleft : n ≤ max n d.version := by
      rw [hmax]
      split_ifs with h
      · exact h
      · exact UInt64.le_refl n
    have hright : d.version ≤ max n d.version := by
      rw [hmax]
      split_ifs with h
      · exact UInt64.le_refl _
      · exact (UInt64.le_total _ _).resolve_left h
    obtain ⟨hstart, hmem⟩ := ih (max n d.version)
    refine ⟨UInt64.le_trans hleft hstart, ?_⟩
    intro p hp
    rcases List.mem_cons.1 hp with rfl | hp
    · exact UInt64.le_trans hright hstart
    · exact hmem p hp

end Merging

section Protocol

structure Gossip (F O : Type) where
  node : Side → DeltaEngine F O
  inbox : Side → List (WarpMessage F O)

inductive GossipEvent (F : Type)
  | record (side : Side) (channel : UInt32) (value : F) (unit status : String) (nowMs : ℤ)
  | push (side : Side) (ask : Ask) (order : HashOrder)
  | announce (side : Side)
  | requestDelta (side : Side) (wantFrom : Table String UInt64)
  | requestFull (side : Side)
  | deliver (side : Side) (order : HashOrder)

def Gossip.new (nodeId : Side → String) (origin : Side → O) : Gossip F O :=
  ⟨fun side => DeltaEngine.new (nodeId side) (origin side), fun _ => []⟩

def Gossip.setNode (w : Gossip F O) (side : Side) (e : DeltaEngine F O) : Gossip F O :=
  { w with node := Function.update w.node side e }

def Gossip.post (w : Gossip F O) (side : Side) (msg : WarpMessage F O) : Gossip F O :=
  { w with inbox := Function.update w.inbox side.other (w.inbox side.other ++ [msg]) }

def Side.process (side : Side) (e : DeltaEngine F O) (order : List UInt32)
    (msg : WarpMessage F O) : DeltaEngine F O × Option (WarpMessage F O) :=
  match side with
  | .listener => processWarpMessage e order msg
  | .peer => processPeerMessage e order msg

/-- The first message under way to a side is processed there, and the answer sent back. -/
def Gossip.deliver (w : Gossip F O) (side : Side) (order : HashOrder) : Gossip F O :=
  match w.inbox side with
  | [] => w
  | msg :: rest =>
    let w := { w with inbox := Function.update w.inbox side rest }
    let (e, answer) := side.process (w.node side) (order.of (w.node side)) msg
    let w := w.setNode side e
    match answer with
    | some reply => w.post side reply
    | none => w

def gossipStep (w : Gossip F O) : GossipEvent F → Gossip F O
  | .record side channel value unit status nowMs =>
    w.setNode side ((w.node side).recordChange channel value unit status nowMs).1
  | .push side ask order =>
    let e := w.node side
    let peerId := (w.node side.other).nodeId
    w.post side (.delta e.nodeId (ask.from e peerId) e.version (ask.delta e order peerId))
  | .announce side =>
    let e := w.node side
    w.post side (.versions e.nodeId e.getVersionVector)
  | .requestDelta side wantFrom => w.post side (.deltaReq (w.node side).nodeId wantFrom)
  | .requestFull side => w.post side (.fullReq (w.node side).nodeId)
  | .deliver side order => w.deliver side order

/-- Each node's points lie under their channels. -/
def Gossip.Keyed (w : Gossip F O) : Prop := ∀ side, RoxWarp.Keyed (w.node side)

theorem keyed_insert {points : Table UInt32 (VersionedPoint F O)} {d : VersionedPoint F O}
    (h : ∀ c p, points.get c = some p → p.channel = c) :
    ∀ c p, (points.insert d.channel d).get c = some p → p.channel = c := by
  intro c p hp
  rw [Table.get_insert] at hp
  split_ifs at hp with hc
  · cases hp
    exact hc.symm
  · exact h c p hp

theorem keyed_foldl_mergePoint (ds : List (VersionedPoint F O))
    {points : Table UInt32 (VersionedPoint F O)}
    (h : ∀ c p, points.get c = some p → p.channel = c) :
    ∀ c p, (ds.foldl mergePoint points).get c = some p → p.channel = c := by
  induction ds generalizing points with
  | nil => exact h
  | cons d ds ih =>
    apply ih
    unfold mergePoint
    split
    · split_ifs
      · exact keyed_insert h
      · exact h
    · exact keyed_insert h

theorem Keyed.applyRemoteDelta {e : DeltaEngine F O} (h : Keyed e) (peerId : String)
    (ds : List (VersionedPoint F O)) : Keyed (e.applyRemoteDelta peerId ds) := by
  unfold Keyed
  rw [applyRemoteDelta_points]
  exact keyed_foldl_mergePoint ds h

theorem Keyed.process {e : DeltaEngine F O} (h : Keyed e) (side : Side) (order : List UInt32)
    (msg : WarpMessage F O) : Keyed (side.process e order msg).1 := by
  cases side <;> cases msg <;> first | exact h | exact h.applyRemoteDelta _ _

theorem Gossip.Keyed.setNode {w : Gossip F O} (h : w.Keyed) {side : Side} {e : DeltaEngine F O}
    (he : RoxWarp.Keyed e) : (w.setNode side e).Keyed := by
  intro s
  by_cases hs : s = side
  · subst hs
    simp only [Gossip.setNode, Function.update_self]
    exact he
  · simp only [Gossip.setNode, Function.update_of_ne hs]
    exact h s

theorem Gossip.Keyed.deliver {w : Gossip F O} (h : w.Keyed) (side : Side) (order : HashOrder) :
    (w.deliver side order).Keyed := by
  unfold Gossip.deliver
  split
  · exact h
  · rename_i msg rest _
    have hprocess := (h side).process side (order.of (w.node side)) msg
    dsimp only
    split
    · exact Gossip.Keyed.setNode h hprocess
    · exact Gossip.Keyed.setNode h hprocess

theorem gossipStep_keyed {w : Gossip F O} (h : w.Keyed) (event : GossipEvent F) :
    (gossipStep w event).Keyed := by
  cases event with
  | record side channel value unit status nowMs => exact h.setNode (keyed_insert (h side))
  | push side ask order => exact h
  | announce side => exact h
  | requestDelta side wantFrom => exact h
  | requestFull side => exact h
  | deliver side order => exact h.deliver side order

theorem run_gossipStep_keyed (nodeId : Side → String) (origin : Side → O)
    (events : List (GossipEvent F)) :
    (run gossipStep (Gossip.new nodeId origin) events).Keyed := by
  have hnew : (Gossip.new nodeId origin : Gossip F O).Keyed := by
    intro side c p hp
    cases hp
  exact states_always (I := Gossip.Keyed) gossipStep (fun _ event h => gossipStep_keyed h event)
    hnew events _ (run_mem_states gossipStep _ events)

end Protocol

section Exchange

/-- The last exchange: the deltas cross on the way, or the second node makes its
    delta after it has applied the first one's. -/
inductive Schedule
  | crossing
  | first (side : Side)

variable (ask : Side → Ask) (order : Side → HashOrder)

def sideDelta (node : Side → DeltaEngine F O) (side : Side) : List (VersionedPoint F O) :=
  (ask side).delta (node side) (order side) (node side.other).nodeId

def receiveDelta (node : Side → DeltaEngine F O) (side : Side)
    (delta : List (VersionedPoint F O)) : Side → DeltaEngine F O :=
  Function.update node side.other
    ((node side.other).applyRemoteDelta (node side).nodeId delta)

def Schedule.sending (schedule : Schedule) (node : Side → DeltaEngine F O) (side : Side) :
    Side → DeltaEngine F O :=
  match schedule with
  | .crossing => node
  | .first starter =>
    if side = starter then node else receiveDelta node starter (sideDelta ask order node starter)

def exchange (schedule : Schedule) (node : Side → DeltaEngine F O) : Side → DeltaEngine F O :=
  fun side => (node side).applyRemoteDelta (node side.other).nodeId
    (sideDelta ask order (schedule.sending ask order node side.other) side.other)

def shown (p : Option (VersionedPoint F O)) : Option (F × ℤ) :=
  p.map fun p => (p.value, p.timestamp)

/-- Both nodes hold the same value and timestamp for every channel. -/
def Converged (node : Side → DeltaEngine F O) : Prop :=
  ∀ c, shown ((node .listener).points.get c) = shown ((node .peer).points.get c)

/-- What the exchange has to bring over for one channel: a point the other side
    lacks or holds an earlier one of lies after the version its node's delta starts
    from; of two points with one timestamp there is nothing to bring, so they must
    carry one value. -/
def Reaches (from₁ from₂ : UInt64) : Option (VersionedPoint F O) → Option (VersionedPoint F O) → Prop
  | none, none => True
  | some p, none => from₁ < p.version
  | none, some q => from₂ < q.version
  | some p, some q =>
    (q.timestamp < p.timestamp → from₁ < p.version) ∧
      (p.timestamp < q.timestamp → from₂ < q.version) ∧
      (p.timestamp = q.timestamp → p.value = q.value)

def Schedule.from (schedule : Schedule) (node : Side → DeltaEngine F O) (side : Side) : UInt64 :=
  let sending := schedule.sending ask order node side
  (ask side).from (sending side) (sending side.other).nodeId

end Exchange

section Agreement

variable {p q : Option (VersionedPoint F O)}

theorem shown_merged_crossing (from₁ from₂ : UInt64) :
    shown (merged from₂ p q) = shown (merged from₁ q p) ↔ Reaches from₁ from₂ p q := by
  cases p with
  | none =>
    cases q with
    | none => simp [merged, Reaches]
    | some q => by_cases h : from₂ < q.version <;> simp [merged, Reaches, shown, h]
  | some p =>
    cases q with
    | none => by_cases h : from₁ < p.version <;> simp [merged, Reaches, shown, h]
    | some q =>
      rcases lt_trichotomy p.timestamp q.timestamp with hlt | heq | hgt
      · have hne := ne_of_lt hlt
        have hnot := not_lt_of_gt hlt
        by_cases h : from₂ < q.version <;> simp [merged, Reaches, shown, h, hlt, hne, hnot]
      · simp [merged, Reaches, shown, heq]
      · have hne := (ne_of_lt hgt).symm
        have hnot := not_lt_of_gt hgt
        by_cases h : from₁ < p.version <;> simp [merged, Reaches, shown, h, hgt, hne, hnot]

theorem merged_merged (from₁ from₂ : UInt64) :
    merged from₂ p (merged from₁ q p) = merged from₂ p q := by
  cases p with
  | none => cases q <;> rfl
  | some p =>
    cases q with
    | none => by_cases h : from₁ < p.version <;> simp [merged, h]
    | some q =>
      by_cases h : from₁ < p.version ∧ q.timestamp < p.timestamp
      · have hnot := not_lt_of_gt h.2
        simp [merged, h, hnot]
      · simp [merged, h]

end Agreement

section Convergence

variable {ask : Side → Ask} {order : Side → HashOrder} {node : Side → DeltaEngine F O}

theorem get_receive_sideDelta (h : ∀ side, Keyed (node side)) (target : DeltaEngine F O)
    (side : Side) (peerId : String) (c : UInt32) :
    (target.applyRemoteDelta peerId (sideDelta ask order node side)).points.get c =
      merged ((ask side).from (node side) (node side.other).nodeId) (target.points.get c)
        ((node side).points.get c) := by
  unfold sideDelta
  rw [Ask.delta_eq]
  exact get_applyRemoteDelta (h side) target (order side) peerId _ c

theorem keyed_receiveDelta (h : ∀ side, Keyed (node side)) (side : Side)
    (delta : List (VersionedPoint F O)) : ∀ s, Keyed (receiveDelta node side delta s) := by
  intro s
  unfold receiveDelta
  by_cases hs : s = side.other
  · subst hs
    rw [Function.update_self]
    exact (h side.other).applyRemoteDelta _ _
  · rw [Function.update_of_ne hs]
    exact h s

theorem get_exchange (h : ∀ side, Keyed (node side)) (schedule : Schedule) (side : Side)
    (c : UInt32) :
    (exchange ask order schedule node side).points.get c =
      merged (schedule.from ask order node side.other) ((node side).points.get c)
        ((node side.other).points.get c) := by
  unfold exchange Schedule.from
  cases schedule with
  | crossing => exact get_receive_sideDelta h _ _ _ c
  | first starter =>
    by_cases hstart : side.other = starter
    · simp only [Schedule.sending, if_pos hstart]
      exact get_receive_sideDelta h _ _ _ c
    · have hside : side = starter := by
        cases side <;> cases starter <;> first | rfl | exact absurd rfl hstart
      subst hside
      simp only [Schedule.sending, if_neg hstart]
      rw [get_receive_sideDelta (keyed_receiveDelta h _ _)]
      have hsecond : (receiveDelta node side (sideDelta ask order node side) side.other).points.get c =
          merged ((ask side).from (node side) (node side.other).nodeId)
            ((node side.other).points.get c) ((node side).points.get c) := by
        unfold receiveDelta
        rw [Function.update_self]
        exact get_receive_sideDelta h _ _ _ c
      rw [hsecond, merged_merged]

theorem converged_exchange_iff (h : ∀ side, Keyed (node side)) (schedule : Schedule) :
    Converged (exchange ask order schedule node) ↔
      ∀ c, Reaches (schedule.from ask order node .listener) (schedule.from ask order node .peer)
        ((node .listener).points.get c) ((node .peer).points.get c) := by
  apply forall_congr'
  intro c
  rw [get_exchange h, get_exchange h]
  exact shown_merged_crossing _ _

/-- After any run of changes and messages, one more exchange makes the nodes agree on
    every channel exactly if the deltas reach every point the other side is to take,
    and points that tie on the timestamp carry the same value. -/
theorem gossip_converges_iff_reaches (nodeId : Side → String) (origin : Side → O)
    (events : List (GossipEvent F)) (ask : Side → Ask) (order : Side → HashOrder)
    (schedule : Schedule) :
    let node := (run gossipStep (Gossip.new nodeId origin) events).node
    Converged (exchange ask order schedule node) ↔
      ∀ c, Reaches (schedule.from ask order node .listener) (schedule.from ask order node .peer)
        ((node .listener).points.get c) ((node .peer).points.get c) :=
  converged_exchange_iff (run_gossipStep_keyed nodeId origin events) schedule

def recordedNodes (events : List (GossipEvent ℤ)) : Side → DeltaEngine ℤ Unit :=
  (run gossipStep (Gossip.new (fun side => if side = .listener then "A" else "B") fun _ => ())
    events).node

theorem recordedNodes_keyed (events : List (GossipEvent ℤ)) :
    ∀ side, Keyed (recordedNodes events side) :=
  run_gossipStep_keyed _ _ events

/-- Two changes at the listener, one at the peer, and the deltas for the peer one after
    the other: the listener's second version hides the peer's first. And two changes of
    one channel in one millisecond: each node keeps its own. -/
theorem gossip_diverges :
    ¬ Converged (exchange (fun _ => .forPeer) (fun _ => HashOrder.some) (.first .listener)
        (recordedNodes [.record .listener 1 20 "°F" "ok" 1000,
          .record .listener 2 30 "°F" "ok" 2000, .record .peer 3 40 "°F" "ok" 3000])) ∧
      ¬ Converged (exchange (fun _ => .forPeer) (fun _ => HashOrder.some) .crossing
        (recordedNodes [.record .listener 1 20 "°F" "ok" 1000,
          .record .peer 1 30 "°F" "ok" 1000])) := by
  constructor
  · intro h
    rw [converged_exchange_iff (recordedNodes_keyed _)] at h
    have hpeer := h 3
    change _ < (1 : UInt64) at hpeer
    set node := recordedNodes [.record .listener 1 20 "°F" "ok" 1000,
      .record .listener 2 30 "°F" "ok" 2000, .record .peer 3 40 "°F" "ok" 3000] with hnode
    have hsecond : (⟨2, 30, "°F", "ok", 2, 2000, ()⟩ : VersionedPoint ℤ Unit) ∈
        sideDelta (fun _ => .forPeer) (fun _ => HashOrder.some) node .listener := by
      apply mem_deltaSince.2
      refine ⟨⟨2, ?_, by decide⟩, by decide⟩
      exact (HashOrder.some.mem_list _ 2).2 (by decide)
    have hle := (le_foldl_max _ 0).2 _ hsecond
    have hfrom : (2 : UInt64) ≤ (Schedule.first Side.listener).from (fun _ => .forPeer)
        (fun _ => HashOrder.some) node .peer := by
      change (2 : UInt64) ≤ ((node .peer).applyRemoteDelta "A" (sideDelta (fun _ => .forPeer)
        (fun _ => HashOrder.some) node .listener)).peerVersion "A"
      rw [applyRemoteDelta_peerVersion, if_pos]
      · exact hle
      · exact ⟨rfl, UInt64.lt_of_lt_of_le (by decide) hle⟩
    exact absurd (UInt64.lt_of_le_of_lt hfrom hpeer) (by decide)
  · intro h
    rw [converged_exchange_iff (recordedNodes_keyed _)] at h
    exact absurd ((h 1).2.2 rfl) (by decide)

end Convergence

end Sandstar.RoxWarp
