import Sandstar.TreeLinks

set_option autoImplicit false

/-!
# Acyclic dataflow

`would_create_cycle` follows the links stored on the components it visits. It is
sound as long as every edge is stored on the component it leaves; a link from a
component that does not exist yet, or a SOX delete of a component with outgoing
links, leaves edges that the search cannot see.
-/
namespace Sandstar.TreeCycles
open ComponentTree SoxSlots TreeRequests TreeEdits TreeLinks LinkStore

def DataflowEdge (t : ComponentTree) (a b : UInt16) : Prop :=
  ∃ id c, t.get id = some c ∧ ∃ l ∈ c.links, l.fromComp = a ∧ l.toComp = b ∧ a ≠ b

def DataflowAcyclic (t : ComponentTree) : Prop :=
  ∀ a, ¬ Relation.TransGen (DataflowEdge t) a a

theorem dataflowEdge_iff (t : ComponentTree) (a b : UInt16) :
    DataflowEdge t a b ↔ Edge Link.fromComp Link.toComp (linkStore t) a b := by
  constructor
  · rintro ⟨id, c, hc, l, hl, hab⟩
    exact ⟨id, l, stored_iff.2 ⟨c, hc, hl⟩, hab⟩
  · rintro ⟨id, l, hl, hab⟩
    obtain ⟨c, hc, hm⟩ := stored_iff.1 hl
    exact ⟨id, c, hc, l, hm, hab⟩

theorem dataflowAcyclic_iff (t : ComponentTree) :
    DataflowAcyclic t ↔ Acyclic Link.fromComp Link.toComp (linkStore t) := by
  have he : DataflowEdge t = Edge Link.fromComp Link.toComp (linkStore t) :=
    funext fun a => funext fun b => propext (dataflowEdge_iff t a b)
  unfold DataflowAcyclic Acyclic
  rw [he]

section Search

variable {t : ComponentTree} {fromComp : UInt16}

structure Frontier (t : ComponentTree) (fromComp : UInt16) (stack : List UInt16)
    (visited : Finset UInt16) : Prop where
  source : fromComp ∉ visited
  step : ∀ v ∈ visited, ∀ w, DataflowEdge t v w → w ∈ visited ∨ w ∈ stack

structure Closed (t : ComponentTree) (fromComp : UInt16) (C : Set UInt16) : Prop where
  source : fromComp ∉ C
  step : ∀ v ∈ C, ∀ w, DataflowEdge t v w → w ∈ C

theorem Closed.reaches {C : Set UInt16} (h : Closed t fromComp C) {a b : UInt16} (ha : a ∈ C)
    (hb : Relation.ReflTransGen (DataflowEdge t) a b) : b ∈ C := by
  induction hb with
  | refl => exact ha
  | tail _ he ih => exact h.step _ ih _ he

theorem Closed.not_reaches {C : Set UInt16} (h : Closed t fromComp C) {a : UInt16} (ha : a ∈ C) :
    ¬ Relation.ReflTransGen (DataflowEdge t) a fromComp :=
  fun hr => h.source (h.reaches ha hr)

theorem Frontier.closed {visited : Finset UInt16} (h : Frontier t fromComp [] visited) :
    Closed t fromComp visited := by
  refine ⟨h.source, fun v hv w hw => ?_⟩
  rcases h.step v hv w hw with hw | hw
  · exact hw
  · cases hw

theorem mem_outgoing {current w : UInt16} {visited : Finset UInt16} {l : Link}
    (hl : Stored (linkStore t) current l) (hs : l.fromComp = current) (hw : l.toComp = w)
    (hv : w ∉ visited) : w ∈ t.outgoing current visited := by
  obtain ⟨c, hc, hm⟩ := stored_iff.1 hl
  unfold ComponentTree.outgoing
  rw [hc]
  refine List.mem_map.2 ⟨l, List.mem_filter.2 ⟨hm, ?_⟩, hw⟩
  subst hw
  exact decide_eq_true ⟨hs, hv⟩

theorem Frontier.expand (hsrc : AtSource Link.fromComp Link.toComp (linkStore t))
    {current : UInt16} {stack : List UInt16} {visited : Finset UInt16}
    (h : Frontier t fromComp (current :: stack) visited) (hne : current ≠ fromComp) :
    Frontier t fromComp ((t.outgoing current (insert current visited)).reverse ++ stack)
      (insert current visited) := by
  refine ⟨?_, fun v hv w hw => ?_⟩
  · rw [Finset.mem_insert]
    rintro (e | e)
    · exact hne e.symm
    · exact h.source e
  · by_cases hwv : w ∈ insert current visited
    · exact Or.inl hwv
    · refine Or.inr (List.mem_append.2 ?_)
      rcases Finset.mem_insert.1 hv with rfl | hv
      · obtain ⟨k, l, hl, hs, ht, hab⟩ := (dataflowEdge_iff t v w).1 hw
        have hstored := hsrc k l hl (by rw [hs, ht]; exact hab)
        rw [hs] at hstored
        exact Or.inl (List.mem_reverse.2 (mem_outgoing hstored hs ht hwv))
      · rcases h.step v hv w hw with hw | hw
        · exact absurd (Finset.mem_insert_of_mem hw) hwv
        · rcases List.mem_cons.1 hw with rfl | hw
          · exact absurd (Finset.mem_insert_self _ _) hwv
          · exact Or.inr hw

theorem Frontier.pop {current : UInt16} {stack : List UInt16} {visited : Finset UInt16}
    (h : Frontier t fromComp (current :: stack) visited) (hseen : current ∈ visited) :
    Frontier t fromComp stack visited := by
  refine ⟨h.source, fun v hv w hw => ?_⟩
  rcases h.step v hv w hw with hw | hw
  · exact .inl hw
  · rcases List.mem_cons.1 hw with rfl | hw
    · exact .inl hseen
    · exact .inr hw

/-- A search that answers no has explored a closed set around its stack, of at most one
    more component for each unit of its budget. -/
theorem search_closed (hsrc : AtSource Link.fromComp Link.toComp (linkStore t)) (budget : ℕ)
    (stack : List UInt16) (visited : Finset UInt16)
    (hs : search t fromComp budget stack visited = false)
    (h : Frontier t fromComp stack visited) :
    ∃ C : Finset UInt16, Closed t fromComp C ∧ (∀ v ∈ stack, v ∈ C) ∧ (∀ v ∈ visited, v ∈ C) ∧
      C.card ≤ visited.card + budget := by
  induction budget generalizing stack visited with
  | zero =>
    have hnil : stack = [] := by
      cases stack with
      | nil => rfl
      | cons v vs => cases hs
    subst hnil
    exact ⟨visited, h.closed, fun v hv => absurd hv List.not_mem_nil, fun v hv => hv, le_rfl⟩
  | succ budget ih =>
    change visit t fromComp (search t fromComp budget) stack visited = false at hs
    induction stack with
    | nil =>
      exact ⟨visited, h.closed, fun v hv => absurd hv List.not_mem_nil, fun v hv => hv,
        Nat.le_add_right _ _⟩
    | cons current stack ihs =>
      unfold visit at hs
      split_ifs at hs with hf hv
      · obtain ⟨C, hC, hstack, hvis, hcard⟩ := ihs (h.pop hv) hs
        refine ⟨C, hC, fun v hm => ?_, hvis, hcard⟩
        rcases List.mem_cons.1 hm with rfl | hm
        · exact hvis v hv
        · exact hstack v hm
      · obtain ⟨C, hC, hstack, hvis, hcard⟩ := ih _ _ hs (h.expand hsrc hf)
        refine ⟨C, hC, fun v hm => ?_, fun v hm => hvis v (Finset.mem_insert_of_mem hm), ?_⟩
        · rcases List.mem_cons.1 hm with rfl | hm
          · exact hvis v (Finset.mem_insert_self _ _)
          · exact hstack v (List.mem_append_right _ hm)
        · rw [Finset.card_insert_of_notMem hv] at hcard
          omega

theorem wouldCreateCycle_closed (hsrc : AtSource Link.fromComp Link.toComp (linkStore t))
    {toComp : UInt16} (h : t.wouldCreateCycle fromComp toComp = false) (hne : fromComp ≠ toComp) :
    ∃ C : Finset UInt16, Closed t fromComp C ∧ toComp ∈ C ∧ C.card ≤ maxDepth := by
  unfold ComponentTree.wouldCreateCycle at h
  rw [if_neg hne] at h
  obtain ⟨C, hC, hstack, -, hcard⟩ := search_closed hsrc _ _ _ h
    ⟨Finset.notMem_empty _, fun v hv => absurd hv (Finset.notMem_empty v)⟩
  rw [Finset.card_empty, Nat.zero_add] at hcard
  exact ⟨C, hC, hstack toComp List.mem_cons_self, hcard⟩

/-- When every edge is stored at its source, the check lets through only links whose
    target does not lead back to the source. -/
theorem wouldCreateCycle_sound (hsrc : AtSource Link.fromComp Link.toComp (linkStore t))
    {toComp : UInt16} (h : t.wouldCreateCycle fromComp toComp = false) (hne : fromComp ≠ toComp) :
    ¬ Relation.ReflTransGen (DataflowEdge t) toComp fromComp := by
  obtain ⟨C, hC, hto, -⟩ := wouldCreateCycle_closed hsrc h hne
  exact hC.not_reaches hto

end Search

/-- No link to another component is stored at `id` as its source. -/
def NoOutgoing (t : ComponentTree) (id : UInt16) : Prop :=
  ∀ c, t.get id = some c → ∀ l ∈ c.links, l.fromComp = id → l.toComp = id

/-- The source of a new link exists, and neither a SOX delete nor a wrapped id takes
    away a component that edges leave. -/
def SourcedEdit (t : ComponentTree) : TreeEdit → Prop
  | .insert comp => NoOutgoing t comp.compId
  | .drop id => NoOutgoing t id
  | .link l => (t.get l.fromComp).isSome
  | _ => True

structure Sourced (f : LinkStore UInt16 Link) : Prop where
  atSource : AtSource Link.fromComp Link.toComp f
  loc : Local Link.fromComp Link.toComp f
  acyclic : Acyclic Link.fromComp Link.toComp f

theorem NoOutgoing.stored {t : ComponentTree} {id : UInt16} (h : NoOutgoing t id) (l : Link)
    (hl : Stored (linkStore t) id l) (hs : l.fromComp = id) : l.toComp = id := by
  obtain ⟨c, hc, hm⟩ := stored_iff.1 hl
  exact h c hc l hm hs

theorem link_sourced {t : ComponentTree} {l : Link} (h : Sourced (linkStore t))
    (hadm : linkAccepted t l) (hs : (t.get l.fromComp).isSome) :
    Sourced (linkStore (t.storeLink l)) := by
  have hcheck : t.wouldCreateCycle l.fromComp l.toComp = false := by
    simpa using (Bool.and_eq_true_iff.1 hadm).2
  rw [linkStore_storeLink]
  refine ⟨store_atSource h.atSource ?_, store_local h.loc, store_acyclic h.acyclic fun hne hr => ?_⟩
  · rw [linkStore_isSome]
    exact hs
  · refine wouldCreateCycle_sound h.atSource hcheck hne (Relation.ReflTransGen.mono ?_ _ _ hr)
    exact fun a b he => (dataflowEdge_iff t a b).2 he

theorem applyEdit_sourced (t : ComponentTree) (e : TreeEdit) (h : Sourced (linkStore t))
    (hadm : Admissible t e) (hok : SourcedEdit t e) : Sourced (linkStore (applyEdit t e)) := by
  cases e with
  | keep => exact h
  | insert comp =>
    have hsub : ∀ k l, Stored (clear (linkStore t) comp.compId) k l → Stored (linkStore t) k l :=
      fun k l hl => (stored_clear.1 hl).2
    rw [linkStore_insert hadm.2.2.2]
    exact ⟨clear_atSource h.atSource (NoOutgoing.stored hok), h.loc.mono hsub, h.acyclic.mono hsub⟩
  | drop id =>
    cases hc : t.get id with
    | none =>
      rw [drop_absent hc]
      exact h
    | some c =>
      have hsub : ∀ k l, Stored (delete (linkStore t) id) k l → Stored (linkStore t) k l :=
        fun k l hl => (stored_delete.1 hl).2
      rw [linkStore_drop hc]
      exact ⟨delete_atSource h.atSource (NoOutgoing.stored hok), h.loc.mono hsub,
        h.acyclic.mono hsub⟩
  | dropLinked id =>
    cases hc : t.get id with
    | none =>
      rw [dropLinked_absent hc]
      exact h
    | some c =>
      have hempty : ∀ l, ¬ Stored (detach Link.fromComp Link.toComp (linkStore t) c.links) id l :=
        fun l => not_stored_detach (h.loc id) (view_of_get hc)
      have hsub : ∀ k l, Stored (linkStore (applyEdit t (.dropLinked id))) k l →
          Stored (linkStore t) k l := by
        intro k l hl
        rw [linkStore_dropLinked hc] at hl
        exact (stored_detach.1 (stored_delete.1 hl).2).1
      refine ⟨?_, h.loc.mono hsub, h.acyclic.mono hsub⟩
      rw [linkStore_dropLinked hc]
      exact delete_atSource (detach_atSource h.atSource h.loc c.links)
        fun l hl => absurd hl (hempty l)
  | rename id name => rw [linkStore_rename]; exact h
  | link l => exact link_sourced h hadm hok
  | unlink l =>
    have hsub : ∀ k m, Stored (linkStore (t.eraseLink l)) k m → Stored (linkStore t) k m := by
      intro k m hm
      rw [linkStore_eraseLink] at hm
      exact (stored_erase.1 hm).1
    change Sourced (linkStore (t.eraseLink l))
    refine ⟨?_, h.loc.mono hsub, h.acyclic.mono hsub⟩
    rw [linkStore_eraseLink]
    exact erase_atSource h.atSource h.loc
  | reorder id children => rw [linkStore_reorder]; exact h
  | slots id f => rw [linkStore_slots]; exact h

theorem fromChannels_sourced (chs : List ChannelInfo) (db : ManifestDb) :
    Sourced (linkStore (fromChannelsWithManifest chs db)) := by
  have hnone := fromChannels_unlinked chs db
  refine ⟨fun k l hl => absurd hl (hnone k l), fun k l hl => absurd hl (hnone k l), fun a ha => ?_⟩
  obtain ⟨b, ⟨k, l, hl, -⟩, -⟩ := Relation.TransGen.head'_iff.1 ha
  exact hnone k l hl

/-- Along every run of requests from a fresh tree that links existing sources only and
    SOX-deletes only components without outgoing links, the dataflow stays acyclic. -/
theorem requests_dataflowAcyclic (chs : List ChannelInfo) (db : ManifestDb) (ops : List TreeOp)
    (hok : AlongEdits SourcedEdit (fromChannelsWithManifest chs db) ops) :
    ∀ t ∈ Runs.states applyOp (fromChannelsWithManifest chs db) ops, DataflowAcyclic t := by
  intro t ht
  rw [dataflowAcyclic_iff]
  exact (requests_invariant (I := fun t => Sourced (linkStore t)) (fun t => Iff.rfl)
    applyEdit_sourced (fromChannels_sourced chs db) hok t ht).acyclic

def sourcedRun : List TreeOp :=
  [.addComp 6 2 14 "a", .addComp 6 2 3 "b", .addLink ⟨7, 1, 8, 2⟩]

theorem sourcedRun_dataflowAcyclic :
    AlongEdits SourcedEdit (fromChannelsWithManifest [] ManifestDb.new) sourcedRun ∧
      ∀ t ∈ Runs.states applyOp (fromChannelsWithManifest [] ManifestDb.new) sourcedRun,
        DataflowAcyclic t := by
  have hok : AlongEdits SourcedEdit (fromChannelsWithManifest [] ManifestDb.new) sourcedRun :=
    ⟨fun c hc => (nomatch hc), fun c hc => (nomatch hc), rfl, trivial⟩
  exact ⟨hok, requests_dataflowAcyclic [] ManifestDb.new sourcedRun hok⟩

/-- A link from id 7 before there is such a component, the component, and the link back. -/
def cyclicRun : List TreeOp :=
  [.addLink ⟨7, 1, 6, 0⟩, .addComp 6 2 14 "a", .addLink ⟨6, 0, 7, 1⟩]

theorem cyclicRun_not_dataflowAcyclic :
    ¬ ∀ t ∈ Runs.states applyOp (fromChannels []) cyclicRun, DataflowAcyclic t := by
  intro h
  have ha := h _ (Runs.run_mem_states applyOp (fromChannels []) cyclicRun)
  have hout : DataflowEdge (Runs.run applyOp (fromChannels []) cyclicRun) 7 6 :=
    ⟨6, _, rfl, ⟨7, 1, 6, 0⟩, by decide, rfl, rfl, by decide⟩
  have hback : DataflowEdge (Runs.run applyOp (fromChannels []) cyclicRun) 6 7 :=
    ⟨6, _, rfl, ⟨6, 0, 7, 1⟩, by decide, rfl, rfl, by decide⟩
  exact ha 7 (.tail (.single hout) hback)

end Sandstar.TreeCycles
