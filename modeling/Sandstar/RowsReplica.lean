import Sandstar.RowsIds
import Sandstar.RowsPushes
import Sandstar.Runs

set_option autoImplicit false

/-!
# Copies that RoWS clients hold

A client takes the components that it subscribes to as they are and applies what it is
pushed. The pushes carry changes only, and they say neither that slots are gone nor
which children a component has when it is first seen; so a copy is exact after a tick
where neither was needed.
-/
namespace Sandstar.Rows
open ComponentTree Runs

structure Follower where
  server : RowsState
  sess : Session
  client : Client

def Follower.start (server : RowsState) : Follower :=
  ⟨server, Session.new, fun _ => Copy.empty⟩

def tagsNow (s : RowsState) (id : UInt16) : Table String TagJson :=
  (s.dynStore.map fun store => currentTags store id).getD Table.empty

def copyOf (s : RowsState) (id : UInt16) : Copy :=
  match s.tree.get id with
  | some comp => ⟨true, fun i => (slotValues comp)[i]?, comp.children, tagsNow s id⟩
  | none => ⟨false, fun _ => none, [], tagsNow s id⟩

def Client.learn (s : RowsState) (client : Client) : Answer → Client
  | .subscribed compIds _ => fun id => if id ∈ compIds then copyOf s id else client id
  | .unsubscribed compIds _ => fun id => if id ∈ compIds then Copy.empty else client id
  | _ => client

/-- Others change the tree and the tags in any way. -/
inductive Act
  | mutate (tree : ComponentTree) (store : DynSlotStore)
  | request (text : Option Json)
  | tick

/-- A session that panics has ended. -/
def step (p : Platform) (order : IdOrder) (state : Option Follower) (act : Act) :
    Option Follower :=
  state.bind fun f =>
    match act with
    | .mutate tree store =>
      some ⟨⟨tree, f.server.dynStore.map fun _ => store⟩, f.sess, f.client⟩
    | .request text =>
      (handleClientMsg p f.server f.sess text).map fun (server, sess, reply) =>
        ⟨server, sess, f.client.learn server reply.answer⟩
    | .tick =>
      let (sess, msgs) := buildCovMessages order f.server f.sess
      some ⟨f.server, sess, f.client.applyAll msgs⟩

/-- The client holds each subscribed component as it is, or knows that it is gone. -/
def Mirrors (f : Follower) : Prop :=
  ∀ id ∈ f.sess.subscribed,
    if (f.server.tree.get id).isSome then f.client id = copyOf f.server id
    else (f.client id).present = false

def MirrorsAfter (p : Platform) (order : IdOrder) (state : Option Follower) (act : Act) : Prop :=
  act = .tick → ∀ f, step p order state act = some f → Mirrors f

structure Followed (s : RowsState) (σ : Slice) (id : UInt16) (comp : VirtualComponent) : Prop where
  tags : s.dynStore.isSome ∧ σ.tags.getD Table.empty ≠ tagsNow s id ∨ σ.copy.tags = tagsNow s id
  kept : σ.copy.present = true → ∀ old, σ.cov = some old → old.length ≤ comp.slots.length
  appeared : σ.copy.present = false → (∀ i < comp.slots.length, Fresh σ.cov comp i) ∧
    (childrenMoved σ.tree comp.children = true ∨ comp.children = [] ∧ comp.slots ≠ [])

def FollowedBefore (state : Option Follower) (act : Act) : Prop :=
  act = .tick → ∀ f, state = some f → ∀ id ∈ f.sess.subscribed, ∀ comp,
    f.server.tree.get id = some comp → Followed f.server (slice f.sess f.client id) id comp

/-- The caches are what the client holds. -/
structure Kept (σ : Slice) : Prop where
  present : σ.copy.present = true →
    ∃ old, σ.cov = some old ∧ σ.copy.slots = (fun i => old[i]?) ∧ σ.tree = some σ.copy.children
  absent : σ.copy.present = false → σ.copy.slots = (fun _ => none) ∧ σ.copy.children = []

section Slices

variable {s : RowsState} {σ : Slice} {id : UInt16} {comp : VirtualComponent} {compact : Bool}

theorem copy_covSlice {tree : ComponentTree} (h : tree.get id = some comp) :
    (covSlice tree compact id σ).copy =
      ⟨σ.copy.present || childrenMoved σ.tree comp.children ||
          decide (∃ i < comp.slots.length, Fresh σ.cov comp i),
        fun i => if Fresh σ.cov comp i then (slotValues comp)[i]? else σ.copy.slots i,
        if childrenMoved σ.tree comp.children then comp.children else σ.copy.children,
        σ.copy.tags⟩ := by
  unfold covSlice
  rw [h]
  dsimp only
  rw [List.foldl_append, apply_childrenMessages, apply_slotMessages]
  cases childrenMoved σ.tree comp.children <;> simp

theorem copy_tickSlice (s : RowsState) (σ : Slice) (id : UInt16) (compact : Bool) :
    (tickSlice s compact id σ).copy =
      { (covSlice s.tree compact id σ).copy with
        tags := if s.dynStore.isSome ∧
            (covSlice s.tree compact id σ).tags.getD Table.empty ≠ tagsNow s id then tagsNow s id
          else (covSlice s.tree compact id σ).copy.tags } := by
  unfold tickSlice tagsSlice tagsNow
  cases s.dynStore with
  | none => rfl
  | some store =>
    by_cases hsame : (covSlice s.tree compact id σ).tags.getD Table.empty = currentTags store id
    · simp [hsame]
    · simp [hsame, Copy.apply]

theorem slots_exact_iff {cached : Option (List JsonScalar)} {slots : ℕ → Option JsonScalar} :
    (fun i => if Fresh cached comp i then (slotValues comp)[i]? else slots i) =
        (fun i => (slotValues comp)[i]?) ↔
      ∀ i, ¬ Fresh cached comp i → slots i = (slotValues comp)[i]? := by
  rw [funext_iff]
  refine forall_congr' fun i => ?_
  by_cases hfresh : Fresh cached comp i <;> simp [hfresh]

theorem length_slotValues (comp : VirtualComponent) :
    (slotValues comp).length = comp.slots.length := List.length_map _

theorem slots_kept_iff {old : List JsonScalar} :
    (∀ i, ¬ Fresh (some old) comp i → old[i]? = (slotValues comp)[i]?) ↔
      old.length ≤ comp.slots.length := by
  constructor
  · intro h
    by_contra hlength
    have hlast := h comp.slots.length fun hfresh => absurd hfresh.1 (Nat.lt_irrefl _)
    rw [List.getElem?_eq_none (length_slotValues comp).le, List.getElem?_eq_none_iff] at hlast
    exact hlength hlast
  · intro hlength i hfresh
    by_cases hi : i < comp.slots.length
    · by_contra hne
      exact hfresh ⟨hi, hne⟩
    · have hnew := (length_slotValues comp).le.trans (Nat.not_lt.1 hi)
      rw [List.getElem?_eq_none hnew, List.getElem?_eq_none (hlength.trans (Nat.not_lt.1 hi))]

theorem slots_appeared_iff {cached : Option (List JsonScalar)} :
    (∀ i, ¬ Fresh cached comp i → none = (slotValues comp)[i]?) ↔
      ∀ i < comp.slots.length, Fresh cached comp i := by
  constructor
  · intro h i hi
    by_contra hfresh
    have hlength := List.getElem?_eq_none_iff.1 (h i hfresh).symm
    rw [length_slotValues] at hlength
    omega
  · intro h i hfresh
    by_cases hi : i < comp.slots.length
    · exact absurd (h i hi) hfresh
    · exact (List.getElem?_eq_none ((length_slotValues comp).le.trans (Nat.not_lt.1 hi))).symm

theorem hasSlots {cached : Option (List JsonScalar)}
    (h : ∃ i < comp.slots.length, Fresh cached comp i) : comp.slots ≠ [] := by
  obtain ⟨i, hi, -⟩ := h
  exact List.length_pos_iff.1 ((Nat.zero_le i).trans_lt hi)

theorem tickSlice_exact_iff (h : s.tree.get id = some comp) (hkept : Kept σ) :
    (tickSlice s compact id σ).copy = copyOf s id ↔ Followed s σ id comp := by
  have hcopyOf : copyOf s id = ⟨true, fun i => (slotValues comp)[i]?, comp.children, tagsNow s id⟩ := by
    unfold copyOf
    rw [h]
  have htags : (covSlice s.tree compact id σ).tags = σ.tags := by
    unfold covSlice
    rw [h]
  have hnow : (if s.dynStore.isSome ∧ σ.tags.getD Table.empty ≠ tagsNow s id then tagsNow s id
      else σ.copy.tags) = tagsNow s id ↔
        s.dynStore.isSome ∧ σ.tags.getD Table.empty ≠ tagsNow s id ∨ σ.copy.tags = tagsNow s id := by
    split_ifs with hpushed <;> simp [hpushed]
  rw [copy_tickSlice, htags, copy_covSlice h, hcopyOf, Copy.mk.injEq, hnow, slots_exact_iff]
  cases hpresent : σ.copy.present with
  | true =>
    obtain ⟨old, hcov, hslots, htree⟩ := hkept.present hpresent
    have hchildren : (if childrenMoved σ.tree comp.children then comp.children
        else σ.copy.children) = comp.children := by
      rw [htree]
      by_cases hsame : σ.copy.children = comp.children <;> simp [childrenMoved, hsame]
    rw [hcov, hslots, slots_kept_iff]
    constructor
    · rintro ⟨-, hlength, -, htags⟩
      refine ⟨htags, fun _ old' hold => ?_,
        fun habsent => Bool.noConfusion (hpresent.symm.trans habsent)⟩
      cases hcov.symm.trans hold
      exact hlength
    · intro hfollowed
      exact ⟨rfl, hfollowed.kept hpresent old hcov, hchildren, hfollowed.tags⟩
  | false =>
    obtain ⟨hslots, hchildren⟩ := hkept.absent hpresent
    rw [hslots, hchildren, slots_appeared_iff]
    constructor
    · rintro ⟨hseen, hfresh, hsame, htags⟩
      refine ⟨htags, fun hpresent' => Bool.noConfusion (hpresent'.symm.trans hpresent),
        fun _ => ⟨hfresh, ?_⟩⟩
      cases hmoved : childrenMoved σ.tree comp.children with
      | true => exact Or.inl rfl
      | false =>
        simp only [hmoved, Bool.false_or, decide_eq_true_eq] at hseen
        simp only [hmoved, Bool.false_eq_true, if_false] at hsame
        exact Or.inr ⟨hsame.symm, hasSlots hseen⟩
    · intro hfollowed
      obtain ⟨hfresh, hmoved | ⟨hnil, hslots⟩⟩ := hfollowed.appeared hpresent
      · rw [hmoved]
        exact ⟨rfl, hfresh, rfl, hfollowed.tags⟩
      · have hfirst := List.length_pos_iff.2 hslots
        have hseen : ∃ i < comp.slots.length, Fresh σ.cov comp i := ⟨0, hfirst, hfresh 0 hfirst⟩
        rw [decide_eq_true hseen, hnil, ite_self]
        exact ⟨Bool.or_true _, hfresh, rfl, hfollowed.tags⟩

end Slices

def Caching (f : Follower) : Prop := ∀ id, Kept (slice f.sess f.client id)

section Steps

variable {p : Platform} {order : IdOrder} {s s' : RowsState} {sess sess' : Session}
  {client : Client} {f f' : Follower} {cmd : RowsCmd} {answer : Answer}

theorem Kept.congr {σ τ : Slice} (h : Kept σ) (hcov : τ.cov = σ.cov) (htree : τ.tree = σ.tree)
    (hcopy : τ.copy.present = σ.copy.present ∧ τ.copy.slots = σ.copy.slots ∧
      τ.copy.children = σ.copy.children) : Kept τ := by
  obtain ⟨hpresent, hslots, hchildren⟩ := hcopy
  constructor
  · rw [hpresent, hcov, htree, hslots, hchildren]
    exact h.present
  · rw [hpresent, hslots, hchildren]
    exact h.absent

theorem kept_absent {σ : Slice} {tags : Table String TagJson}
    (h : σ.copy = ⟨false, fun _ => none, [], tags⟩) : Kept σ := by
  constructor <;> rw [h]
  · nofun
  · exact fun _ => ⟨rfl, rfl⟩

theorem kept_exact {comp : VirtualComponent} {id : UInt16} {σ : Slice}
    (h : s.tree.get id = some comp) (hcopy : σ.copy = copyOf s id)
    (hcov : σ.cov = some (slotValues comp)) (htree : σ.tree = some comp.children) : Kept σ := by
  have hpresent : σ.copy = ⟨true, fun i => (slotValues comp)[i]?, comp.children, tagsNow s id⟩ := by
    rw [hcopy, copyOf, h]
  constructor <;> rw [hpresent]
  · exact fun _ => ⟨slotValues comp, hcov, rfl, htree⟩
  · nofun

theorem caches_primed (tree : ComponentTree) (ids : List UInt16) (sess : Session) (a : UInt16) :
    (ids.foldl (primeCache tree) sess).covCache.get a =
        ((if a ∈ ids then tree.get a else none).map slotValues).or (sess.covCache.get a) ∧
      (ids.foldl (primeCache tree) sess).treeCache.get a =
        ((if a ∈ ids then tree.get a else none).map VirtualComponent.children).or
          (sess.treeCache.get a) := by
  induction ids generalizing sess with
  | nil => simp
  | cons id ids ih =>
    rw [List.foldl_cons, (ih _).1, (ih _).2]
    unfold primeCache
    by_cases ha : a = id
    · subst ha
      cases tree.get a <;> by_cases hids : a ∈ ids <;> simp [hids]
    · cases tree.get id <;> simp [ha, Table.get_insert]

theorem caches_dropped {ids : List UInt16} {a : UInt16} (ha : a ∉ ids) (sess : Session) :
    (ids.foldl dropSubscription sess).covCache.get a = sess.covCache.get a ∧
      (ids.foldl dropSubscription sess).treeCache.get a = sess.treeCache.get a := by
  induction ids generalizing sess with
  | nil => exact ⟨rfl, rfl⟩
  | cons id ids ih =>
    obtain ⟨hid, hids⟩ := List.ne_and_not_mem_of_not_mem_cons ha
    obtain ⟨hcov, htree⟩ := ih hids (dropSubscription sess id)
    rw [List.foldl_cons, hcov, htree]
    exact ⟨Table.get_erase_ne _ hid, Table.get_erase_ne _ hid⟩

theorem caching_subscribe (h : Caching ⟨s, sess, client⟩) (ids : List UInt16) :
    Caching ⟨s, (handleSubscribe s sess ids).1, client.learn s (handleSubscribe s sess ids).2⟩ := by
  intro a
  obtain ⟨hcov, htree⟩ := caches_primed s.tree ids
    ⟨sess.subscribed ∪ ids.toFinset, sess.covCache, sess.treeCache, sess.tagsCache,
      sess.compactCov⟩ a
  by_cases ha : a ∈ ids
  · have hcopy : client.learn s (handleSubscribe s sess ids).2 a = copyOf s a := if_pos ha
    cases hcomp : s.tree.get a with
    | none => exact kept_absent (hcopy.trans (by rw [copyOf, hcomp]))
    | some comp =>
      rw [if_pos ha, hcomp] at hcov htree
      exact kept_exact hcomp hcopy hcov htree
  · have hcopy : client.learn s (handleSubscribe s sess ids).2 a = client a := if_neg ha
    rw [if_neg ha] at hcov htree
    exact (h a).congr hcov htree (by simp [slice, hcopy])

theorem caching_unsubscribe (h : Caching ⟨s, sess, client⟩) (ids : List UInt16) :
    Caching ⟨s, (handleUnsubscribe sess ids).1, client.learn s (handleUnsubscribe sess ids).2⟩ := by
  intro a
  by_cases ha : a ∈ ids
  · have hcopy : client.learn s (handleUnsubscribe sess ids).2 a = Copy.empty := if_pos ha
    exact kept_absent hcopy
  · have hcopy : client.learn s (handleUnsubscribe sess ids).2 a = client a := if_neg ha
    obtain ⟨hcov, htree⟩ := caches_dropped ha sess
    exact (h a).congr hcov htree (by simp [slice, hcopy])

theorem learn_answerOf (reply : TreeRequests.RowsReply) :
    client.learn s (answerOf reply) = client := by
  cases reply <;> rfl

theorem learn_handleSetTags (compId : UInt16) (tags : Json) :
    client.learn s' (handleSetTags p s compId tags).2 = client := by
  unfold handleSetTags
  cases s.dynStore with
  | none => rfl
  | some store =>
    cases tags.asObject with
    | none => rfl
    | some fields =>
      dsimp only
      rcases setEach p store compId fields with ⟨store', e | _⟩ <;> rfl

theorem caching_execute (h : Caching ⟨s, sess, client⟩)
    (hexec : execute p s sess cmd = some (s', sess', answer)) :
    Caching ⟨s', sess', client.learn s' answer⟩ := by
  cases cmd with
  | subscribe ids =>
    cases hexec
    exact caching_subscribe h ids
  | unsubscribe ids =>
    cases hexec
    exact caching_unsubscribe h ids
  | ping | readTree | palette | setFormat => cases hexec; exact h
  | nameTable => cases hexec; exact h
  | writeSlot | addComp | deleteComp | rename | addLink | deleteLink | updatePos | invoke =>
    cases hexec
    rw [learn_answerOf]
    exact h
  | readComp compId =>
    cases hexec
    unfold handleReadComp
    cases s.tree.get compId <;> exact h
  | readTags compId =>
    cases hexec
    unfold handleReadTags
    cases s.dynStore <;> exact h
  | setTags compId tags =>
    cases hexec
    change Caching ⟨(handleSetTags p s compId tags).1, sess,
      client.learn (handleSetTags p s compId tags).1 (handleSetTags p s compId tags).2⟩
    rw [learn_handleSetTags]
    exact h
  | deleteTag compId key =>
    obtain ⟨⟨s₁, answer₁⟩, hdelete, heq⟩ := Option.map_eq_some_iff.1 hexec
    cases heq
    unfold handleDeleteTag at hdelete
    cases hstore : s.dynStore with
    | none =>
      rw [hstore] at hdelete
      cases hdelete
      exact h
    | some store =>
      rw [hstore] at hdelete
      obtain ⟨removed, -, heq⟩ := Option.map_eq_some_iff.1 hdelete
      cases heq
      exact h

theorem caching_request (h : Caching f) (text : Option Json)
    (hstep : step p order (some f) (.request text) = some f') : Caching f' := by
  obtain ⟨⟨s', sess', reply⟩, hreply, rfl⟩ := Option.map_eq_some_iff.1 hstep
  unfold handleClientMsg at hreply
  cases text with
  | none =>
    cases hreply
    exact h
  | some msg =>
    dsimp only at hreply
    split at hreply
    · cases hreply
      exact h
    · obtain ⟨⟨s₁, sess₁, answer⟩, hexec, heq⟩ := Option.map_eq_some_iff.1 hreply
      cases heq
      exact caching_execute h hexec

theorem kept_covSlice_gone {tree : ComponentTree} {σ : Slice} {id : UInt16} {compact : Bool}
    (h : tree.get id = none) (hkept : Kept σ) :
    Kept (covSlice tree compact id σ) ∧ (covSlice tree compact id σ).copy.present = false := by
  unfold covSlice
  rw [h]
  dsimp only
  split_ifs with htree
  · exact ⟨kept_absent rfl, rfl⟩
  · refine ⟨hkept, ?_⟩
    by_contra hpresent
    obtain ⟨old, -, -, hcached⟩ := hkept.present (Bool.eq_true_of_not_eq_false hpresent)
    rw [hcached] at htree
    exact htree rfl

theorem tickSlice_caches (s : RowsState) (σ : Slice) (id : UInt16) (compact : Bool) :
    (tickSlice s compact id σ).cov = (covSlice s.tree compact id σ).cov ∧
      (tickSlice s compact id σ).tree = (covSlice s.tree compact id σ).tree := by
  unfold tickSlice tagsSlice
  cases s.dynStore with
  | none => exact ⟨rfl, rfl⟩
  | some store =>
    dsimp only
    split_ifs <;> exact ⟨rfl, rfl⟩

theorem kept_tickSlice_gone {s : RowsState} {σ : Slice} {id : UInt16} {compact : Bool}
    (h : s.tree.get id = none) (hkept : Kept σ) :
    Kept (tickSlice s compact id σ) ∧ (tickSlice s compact id σ).copy.present = false := by
  obtain ⟨hcov, hgone⟩ : Kept (covSlice s.tree compact id σ) ∧
    (covSlice s.tree compact id σ).copy.present = false := kept_covSlice_gone h hkept
  obtain ⟨hcovs, htrees⟩ := tickSlice_caches s σ id compact
  have hcopy := copy_tickSlice s σ id compact
  exact ⟨hcov.congr hcovs htrees (by rw [hcopy]; exact ⟨rfl, rfl, rfl⟩), by rw [hcopy]; exact hgone⟩

theorem kept_tickSlice {s : RowsState} {σ : Slice} {id : UInt16} {comp : VirtualComponent}
    {compact : Bool} (h : s.tree.get id = some comp) (hkept : Kept σ)
    (hfollowed : Followed s σ id comp) : Kept (tickSlice s compact id σ) := by
  obtain ⟨hcov, htree⟩ := tickSlice_caches s σ id compact
  refine kept_exact h ((tickSlice_exact_iff h hkept).2 hfollowed) (hcov.trans ?_) (htree.trans ?_)
  · rw [covSlice, h]
  · rw [covSlice, h]

theorem slice_tick (hstep : step p order (some f) .tick = some f') (id : UInt16) :
    slice f'.sess f'.client id =
      if id ∈ f.sess.subscribed then
        tickSlice f.server f.sess.compactCov id (slice f.sess f.client id)
      else slice f.sess f.client id := by
  cases hstep
  exact slice_buildCovMessages order f.server f.sess f.client id

theorem server_tick (hstep : step p order (some f) .tick = some f') :
    f'.server = f.server ∧ f'.sess.subscribed = f.sess.subscribed := by
  cases hstep
  exact ⟨rfl, buildCovMessages_subscribed order f.server f.sess⟩

theorem caching_tick (h : Caching f) (hstep : step p order (some f) .tick = some f')
    (hfollowed : FollowedBefore (some f) .tick) : Caching f' := by
  intro id
  rw [slice_tick hstep]
  split_ifs with hid
  · cases hcomp : f.server.tree.get id with
    | none => exact (kept_tickSlice_gone hcomp (h id)).1
    | some comp => exact kept_tickSlice hcomp (h id) (hfollowed rfl f rfl id hid comp hcomp)
  · exact h id

theorem mirrors_tick_iff (h : Caching f) (hstep : step p order (some f) .tick = some f') :
    Mirrors f' ↔ FollowedBefore (some f) .tick := by
  obtain ⟨hserver, hsubscribed⟩ := server_tick hstep
  have hcopy : ∀ id ∈ f.sess.subscribed, f'.client id =
      (tickSlice f.server f.sess.compactCov id (slice f.sess f.client id)).copy := by
    intro id hid
    have hslice := congrArg Slice.copy (slice_tick hstep id)
    rw [if_pos hid] at hslice
    exact hslice
  unfold Mirrors
  rw [hserver, hsubscribed]
  constructor
  · rintro hmirrors - _ ⟨⟩ id hid comp hcomp
    have hexact := hmirrors id hid
    rw [hcomp, hcopy id hid] at hexact
    exact (tickSlice_exact_iff hcomp (h id)).1 hexact
  · intro hfollowed id hid
    rw [hcopy id hid]
    cases hcomp : f.server.tree.get id with
    | none => exact (kept_tickSlice_gone hcomp (h id)).2
    | some comp =>
      exact (tickSlice_exact_iff hcomp (h id)).2 (hfollowed rfl f rfl id hid comp hcomp)

theorem caching_step {state : Option Follower} {act : Act} (h : ∀ f, state = some f → Caching f)
    (hfollowed : FollowedBefore state act) :
    ∀ f', step p order state act = some f' → Caching f' := by
  intro f' hstep
  cases state with
  | none => cases hstep
  | some f =>
    cases act with
    | mutate tree store =>
      cases hstep
      exact h f rfl
    | request text => exact caching_request (h f rfl) text hstep
    | tick => exact caching_tick (h f rfl) hstep hfollowed

theorem mirrorsAfter_iff {state : Option Follower} {act : Act}
    (h : ∀ f, state = some f → Caching f) :
    MirrorsAfter p order state act ↔ FollowedBefore state act := by
  by_cases hact : act = .tick
  · subst hact
    cases state with
    | none =>
      constructor
      · rintro - - f ⟨⟩
      · rintro - - f ⟨⟩
    | some f =>
      obtain ⟨f', hstep⟩ : ∃ f', step p order (some f) .tick = some f' := ⟨_, rfl⟩
      rw [← mirrors_tick_iff (h f rfl) hstep]
      constructor
      · exact fun hmirrors => hmirrors rfl f' hstep
      · rintro hmirrors - f'' hstep'
        cases hstep.symm.trans hstep'
        exact hmirrors
  · exact ⟨fun _ htick => absurd htick hact, fun _ htick => absurd htick hact⟩

end Steps

/-- A client's copies are exact after every tick of a run where at each tick the pushes
    could tell what had changed. -/
theorem mirrors_along_iff (p : Platform) (order : IdOrder) (server : RowsState)
    (acts : List Act) :
    Along (step p order) (MirrorsAfter p order) (some (Follower.start server)) acts ↔
      Along (step p order) FollowedBefore (some (Follower.start server)) acts := by
  have hstart : ∀ f, some (Follower.start server) = some f → Caching f := by
    rintro _ ⟨⟩ id
    exact kept_absent rfl
  have hruns : (∀ state ∈ states (step p order) (some (Follower.start server)) acts, True) ∧
      Along (step p order) (MirrorsAfter p order) (some (Follower.start server)) acts ↔
        Along (step p order) FollowedBefore (some (Follower.start server)) acts :=
    states_along_iff_along (step p order) (I := fun state => ∀ f, state = some f → Caching f)
      (fun _ _ => trivial)
      (fun state act hI hok => ⟨caching_step hI hok, (mirrorsAfter_iff hI).2 hok⟩)
      (fun state act hI hbad hQ => hbad ((mirrorsAfter_iff hI).1 hQ.2)) hstart
  simpa using hruns

def ascendingIds : IdOrder :=
  ⟨Table.ascending UInt16, Table.ascending_nodup UInt16, Table.mem_ascending UInt16⟩

def subscribeRequest (compId : UInt64) : Json :=
  .obj [("op", .scalar (.str "subscribe")), ("compIds", .arr [.scalar (.posInt compId)])]

def addCompRequest (parentId : UInt64) (name : String) : Json :=
  .obj [("op", .scalar (.str "addComp")), ("parentId", .scalar (.posInt parentId)),
    ("kitId", .scalar (.posInt 2)), ("typeId", .scalar (.posInt 14)),
    ("name", .scalar (.str name))]

def createdRun : List Act :=
  [.request (some (subscribeRequest 7)), .tick, .request (some (addCompRequest 6 "a")),
    .request (some (addCompRequest 7 "b"))]

/-- The client of a created component is not told of its child. -/
theorem created_not_mirrored :
    ¬ Along (step plainPlatform ascendingIds) (MirrorsAfter plainPlatform ascendingIds)
      (some (Follower.start ⟨fromChannels [], none⟩)) (createdRun ++ [.tick]) := by
  intro h
  obtain ⟨-, hlast, -⟩ := (along_append _).1 h
  have hend : (step plainPlatform ascendingIds (run (step plainPlatform ascendingIds)
      (some (Follower.start ⟨fromChannels [], none⟩)) createdRun) .tick).map (fun f =>
        (decide (7 ∈ f.sess.subscribed), (f.client 7).children,
          (f.server.tree.get 7).map VirtualComponent.children)) = some (true, [], some [8]) := by
    decide +kernel
  obtain ⟨f, hf, hheld⟩ := Option.map_eq_some_iff.1 hend
  simp only [Prod.mk.injEq, decide_eq_true_eq] at hheld
  obtain ⟨hsubscribed, hchildren, htree⟩ := hheld
  obtain ⟨comp, hcomp, hnew⟩ := Option.map_eq_some_iff.1 htree
  have hexact := hlast rfl f hf 7 hsubscribed
  rw [hcomp, Option.isSome_some, if_pos rfl] at hexact
  have hcopy := congrArg Copy.children hexact
  rw [hchildren, copyOf, hcomp] at hcopy
  exact absurd (hcopy.trans hnew) (by decide)

end Sandstar.Rows
