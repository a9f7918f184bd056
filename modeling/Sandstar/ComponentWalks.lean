import Sandstar.ComponentStore
import Sandstar.TreeWalks

set_option autoImplicit false

/-!
# The execution orders

The loops of `execution_order` and `execution_order_post` take the whole subtree of the
component on top of their stack before they look at what lies below it. So they end, with
the recursive pre-order and post-order of the tree below the root.
-/
namespace Sandstar.Components

namespace ComponentStore

open TreeWalks TreeWalks.RoseTree

variable {s : ComponentStore}

theorem get_kids {id : ℕ} {cs : List ℕ} (h : s.kids id = some cs) :
    ∃ c, s.get id = some c ∧ c.children = cs :=
  Option.map_eq_some_iff.1 h

mutual

/-- The loop replaces a tree on its stack by the pre-order of the tree in its output, in as
    many rounds as the tree has components. -/
theorem orderLoop_tree (t : RoseTree ℕ) (h : Unfolds s.kids t) (n : ℕ) (stack order : List ℕ) :
    s.orderLoop (n + t.pre.length) (t.root :: stack) order =
      s.orderLoop n stack (order ++ t.pre) := by
  cases t with
  | node k ts =>
    obtain ⟨c, hc, hchildren⟩ := get_kids h.kids_eq
    have hrest := orderLoop_trees ts h.children n stack (order ++ [k])
    rw [pre, List.length_cons, ← Nat.add_assoc, root]
    simp only [orderLoop, hc, hchildren]
    rw [hrest, List.append_assoc, List.singleton_append]

theorem orderLoop_trees (ts : List (RoseTree ℕ)) (h : ∀ t ∈ ts, Unfolds s.kids t) (n : ℕ)
    (stack order : List ℕ) :
    s.orderLoop (n + (preAll ts).length) (ts.map root ++ stack) order =
      s.orderLoop n stack (order ++ preAll ts) := by
  cases ts with
  | nil => rw [preAll, List.append_nil]; rfl
  | cons t ts =>
    have hhead := orderLoop_tree t (h t List.mem_cons_self) (n + (preAll ts).length)
      (ts.map root ++ stack) order
    have htail := orderLoop_trees ts (fun t' ht' => h t' (List.mem_cons_of_mem _ ht')) n stack
      (order ++ t.pre)
    rw [preAll, List.length_append, Nat.add_comm t.pre.length, ← Nat.add_assoc, List.map_cons,
      List.cons_append, hhead, htail, List.append_assoc]

end

mutual

/-- Each component of the tree takes two rounds, one to push its children and one to emit
    it. -/
theorem postLoop_tree (t : RoseTree ℕ) (h : Unfolds s.kids t) (n : ℕ)
    (stack : List (ℕ × Bool)) (order : List ℕ) :
    s.postLoop (n + 2 * t.post.length) ((t.root, false) :: stack) order =
      s.postLoop n stack (order ++ t.post) := by
  cases t with
  | node k ts =>
    obtain ⟨c, hc, hchildren⟩ := get_kids h.kids_eq
    have hrest := postLoop_trees ts h.children (n + 1) ((k, true) :: stack) order
    have hrounds : n + 2 * (post (.node k ts)).length = n + 1 + 2 * (postAll ts).length + 1 := by
      rw [post, List.length_append, List.length_singleton]
      omega
    rw [hrounds, root]
    simp only [postLoop, hc, hchildren]
    rw [hrest, post, ← List.append_assoc]
    rfl

theorem postLoop_trees (ts : List (RoseTree ℕ)) (h : ∀ t ∈ ts, Unfolds s.kids t) (n : ℕ)
    (stack : List (ℕ × Bool)) (order : List ℕ) :
    s.postLoop (n + 2 * (postAll ts).length) ((ts.map root).map (·, false) ++ stack) order =
      s.postLoop n stack (order ++ postAll ts) := by
  cases ts with
  | nil => rw [postAll, List.append_nil]; rfl
  | cons t ts =>
    have hhead := postLoop_tree t (h t List.mem_cons_self) (n + 2 * (postAll ts).length)
      ((ts.map root).map (·, false) ++ stack) order
    have htail := postLoop_trees ts (fun t' ht' => h t' (List.mem_cons_of_mem _ ht')) n stack
      (order ++ t.post)
    have hrounds : n + 2 * (postAll (t :: ts)).length =
        n + 2 * (postAll ts).length + 2 * t.post.length := by
      rw [postAll, List.length_append]
      omega
    rw [hrounds, List.map_cons, List.map_cons, List.cons_append, hhead, htail, postAll,
      List.append_assoc]

end

theorem executionOrder_tree {t : RoseTree ℕ} (h : Unfolds s.kids t) {n : ℕ}
    (hn : t.pre.length < n) : s.executionOrder n t.root = some t.pre := by
  obtain ⟨m, rfl⟩ : ∃ m, n = m + 1 + t.pre.length := ⟨n - t.pre.length - 1, by omega⟩
  unfold executionOrder
  rw [orderLoop_tree t h, List.nil_append]
  rfl

theorem executionOrderPost_tree {t : RoseTree ℕ} (h : Unfolds s.kids t) {n : ℕ}
    (hn : 2 * t.post.length < n) : s.executionOrderPost n t.root = some t.post := by
  obtain ⟨m, rfl⟩ : ∃ m, n = m + 1 + 2 * t.post.length := ⟨n - 2 * t.post.length - 1, by omega⟩
  unfold executionOrderPost
  rw [postLoop_tree t h, List.nil_append]
  rfl

theorem component_tree (htidy : s.Tidy) (hranked : s.Ranked) {id : ℕ}
    (hid : s.contains id = true) : ∃ t, Unfolds s.kids t ∧ t.root = id := by
  obtain ⟨rank, hrank⟩ := (isForest htidy hranked).ranked
  obtain ⟨c, hc⟩ := Option.isSome_iff_exists.1 hid
  have hkids : s.kids id = some c.children := Option.map_eq_some_iff.2 ⟨c, hc, rfl⟩
  have hslots : ∀ k cs, s.kids k = some cs → k ∈ Finset.range s.slots.length := by
    intro k cs hk
    obtain ⟨d, hd, -⟩ := get_kids hk
    exact Finset.mem_range.2 (get_lt hd)
  refine exists_tree hslots ?_ hrank hkids
  intro k cs child hk hchild
  obtain ⟨d, hd, rfl⟩ := get_kids hk
  obtain ⟨e, he, -⟩ := htidy.linked k d child hd hchild
  exact ⟨e.children, Option.map_eq_some_iff.2 ⟨e, he, rfl⟩⟩

/-- Below every component of a store without cycles, whose children lists agree with the
    parents, there is exactly one tree; both loops end, with its recursive orders. -/
theorem walks_recursive (htidy : s.Tidy) (hranked : s.Ranked) (rootId : ℕ)
    (hroot : s.contains rootId = true) :
    ∃ t, (Unfolds s.kids t ∧ t.root = rootId) ∧
      (∀ u, Unfolds s.kids u → u.root = rootId → u = t) ∧
      (∀ n, t.pre.length < n → s.executionOrder n rootId = some t.pre) ∧
      ∀ n, 2 * t.post.length < n → s.executionOrderPost n rootId = some t.post := by
  obtain ⟨t, ht, rfl⟩ := component_tree htidy hranked hroot
  exact ⟨t, ⟨ht, rfl⟩, fun u hu hsame => hu.unique ht hsame, fun n hn => executionOrder_tree ht hn,
    fun n hn => executionOrderPost_tree ht hn⟩

end ComponentStore

open ComponentStore TreeWalks

theorem histories_tidy (maxComponents : BitVec 32) {acts : List Act}
    (hacts : Runs.Along apply (fun s a => Allowed s a ∧ FreesRoots s a) (new maxComponents) acts) :
    ∀ t ∈ Runs.states apply (new maxComponents) acts, t.Tidy ∧ t.Ranked := by
  have hall := Runs.states_invariant apply (I := fun s => s.Accounted ∧ s.Tidy ∧ s.Ranked)
    (fun s a h ha => ⟨accounted_apply h.1 ha.1, tidy_apply h.1 h.2.1 h.2.2 ha.1 ha.2⟩)
    ⟨accounted_new maxComponents, tidy_new maxComponents, ranked_new maxComponents⟩ hacts
  exact fun t ht => (hall t ht).2

/-- A root with two children, the first of which has a child of its own. -/
def family : ComponentStore :=
  Runs.run apply (new 4) [.create 0 nullId, .create 0 0, .create 0 0, .create 0 1]

theorem walks_recursive_family :
    family.Tidy ∧ family.Ranked ∧ family.contains 0 = true ∧
    family.executionOrder 5 0 = some [0, 1, 3, 2] ∧
    family.executionOrderPost 9 0 = some [3, 1, 2, 0] ∧
    ∃ t, Unfolds family.kids t ∧ t.root = 0 ∧ (∀ n, t.pre.length < n →
      family.executionOrder n 0 = some t.pre) := by
  have hacts : Runs.Along apply (fun s a => Allowed s a ∧ FreesRoots s a) (new 4)
      [.create 0 nullId, .create 0 0, .create 0 0, .create 0 1] :=
    ⟨⟨Or.inl rfl, trivial⟩, ⟨Or.inr rfl, trivial⟩, ⟨Or.inr rfl, trivial⟩, ⟨Or.inr rfl, trivial⟩,
      trivial⟩
  have hkept := histories_tidy 4 hacts family (Runs.run_mem_states apply _ _)
  obtain ⟨t, ⟨ht, hroot⟩, -, hpre, -⟩ := walks_recursive hkept.1 hkept.2 0 rfl
  exact ⟨hkept.1, hkept.2, rfl, by decide, by decide, t, ht, hroot, hpre⟩

end Sandstar.Components
