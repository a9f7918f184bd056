import Mathlib

set_option autoImplicit false

namespace Sandstar.TreeWalks

inductive RoseTree (K : Type)
  | node (root : K) (children : List (RoseTree K))

variable {K : Type}

namespace RoseTree

def root : RoseTree K → K
  | node k _ => k

mutual

/-- A node before its children, these in their order. -/
def pre : RoseTree K → List K
  | node k ts => k :: preAll ts

def preAll : List (RoseTree K) → List K
  | [] => []
  | t :: ts => t.pre ++ preAll ts

end

mutual

/-- A node after its children, these in their order. -/
def post : RoseTree K → List K
  | node k ts => postAll ts ++ [k]

def postAll : List (RoseTree K) → List K
  | [] => []
  | t :: ts => t.post ++ postAll ts

end

end RoseTree

open RoseTree

/-- The tree is the one that `kids` gives below its root. -/
inductive Unfolds (kids : K → Option (List K)) : RoseTree K → Prop
  | node {k : K} {ts : List (RoseTree K)} (hkids : kids k = some (ts.map root))
      (hchildren : ∀ t ∈ ts, Unfolds kids t) : Unfolds kids (.node k ts)

variable {kids : K → Option (List K)}

theorem Unfolds.kids_eq {k : K} {ts : List (RoseTree K)} (h : Unfolds kids (.node k ts)) :
    kids k = some (ts.map root) := by
  cases h with
  | node hkids _ => exact hkids

theorem Unfolds.children {k : K} {ts : List (RoseTree K)} (h : Unfolds kids (.node k ts)) :
    ∀ t ∈ ts, Unfolds kids t := by
  cases h with
  | node _ hchildren => exact hchildren

theorem map_root_inj {ts us : List (RoseTree K)} (hroots : ts.map root = us.map root)
    (h : ∀ t ∈ ts, ∀ u ∈ us, t.root = u.root → t = u) : ts = us := by
  induction ts generalizing us with
  | nil =>
    cases us with
    | nil => rfl
    | cons u us => cases hroots
  | cons t ts ih =>
    cases us with
    | nil => cases hroots
    | cons u us =>
      obtain ⟨hroot, hrest⟩ := List.cons.inj hroots
      have hhead := h t List.mem_cons_self u List.mem_cons_self hroot
      have htail := ih hrest fun t' ht' u' hu' =>
        h t' (List.mem_cons_of_mem _ ht') u' (List.mem_cons_of_mem _ hu')
      rw [hhead, htail]

theorem Unfolds.unique {t u : RoseTree K} (ht : Unfolds kids t) (hu : Unfolds kids u)
    (hroot : t.root = u.root) : t = u := by
  induction ht generalizing u with
  | node hkids _ ih =>
    cases hu with
    | node hkids' hchildren' =>
      cases hroot
      rw [hkids] at hkids'
      have hsame := map_root_inj (Option.some.inj hkids')
        fun t ht u hu hroot => ih t ht (hchildren' u hu) hroot
      rw [hsame]

theorem exists_trees {cs : List K} (h : ∀ c ∈ cs, ∃ t, Unfolds kids t ∧ t.root = c) :
    ∃ ts : List (RoseTree K), ts.map root = cs ∧ ∀ t ∈ ts, Unfolds kids t := by
  induction cs with
  | nil => exact ⟨[], rfl, nofun⟩
  | cons c cs ih =>
    obtain ⟨t, ht, hroot⟩ := h c List.mem_cons_self
    obtain ⟨ts, hroots, hts⟩ := ih fun c' hc' => h c' (List.mem_cons_of_mem _ hc')
    refine ⟨t :: ts, by rw [List.map_cons, hroot, hroots], ?_⟩
    intro t' ht'
    rcases List.mem_cons.1 ht' with rfl | ht'
    · exact ht
    · exact hts t' ht'

/-- Below a node that exists there is a tree, if the nodes are finitely many, no child is
    missing, and parents come before their children in some order. -/
theorem exists_tree {rank : K → ℕ} {nodes : Finset K}
    (hnodes : ∀ k cs, kids k = some cs → k ∈ nodes)
    (hpresent : ∀ k cs c, kids k = some cs → c ∈ cs → ∃ ds, kids c = some ds)
    (hrank : ∀ k cs c, kids k = some cs → c ∈ cs → rank k < rank c) {k : K} {cs : List K}
    (hk : kids k = some cs) : ∃ t, Unfolds kids t ∧ t.root = k := by
  classical
  -- the nodes ranked above a child are fewer than those above its parent
  induction hn : (nodes.filter fun c => rank k < rank c).card using Nat.strong_induction_on
    generalizing k cs with
  | _ n ih =>
    have hbelow : ∀ c ∈ cs, ∃ t, Unfolds kids t ∧ t.root = c := by
      intro c hc
      obtain ⟨ds, hds⟩ := hpresent k cs c hk hc
      have hlt := hrank k cs c hk hc
      refine ih _ ?_ hds rfl
      rw [← hn]
      apply Finset.card_lt_card
      refine Finset.ssubset_iff_of_subset ?_ |>.2 ⟨c, ?_, ?_⟩
      · intro d hd
        rw [Finset.mem_filter] at hd ⊢
        exact ⟨hd.1, hlt.trans hd.2⟩
      · exact Finset.mem_filter.2 ⟨hnodes c ds hds, hlt⟩
      · intro hc'
        exact lt_irrefl _ (Finset.mem_filter.1 hc').2
    obtain ⟨ts, hroots, hts⟩ := exists_trees hbelow
    exact ⟨.node k ts, .node (by rw [hk, hroots]) hts, rfl⟩

end Sandstar.TreeWalks
