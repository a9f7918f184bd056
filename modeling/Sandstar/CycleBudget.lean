import Sandstar.TreeCycles

set_option autoImplicit false

/-!
# The budget of the cycle check

The search is meant to give up on deep graphs, but what it counts is the components it has
visited. It says yes once it has visited `MAX_DEPTH` of them and still has one on its
stack: a wide graph without any cycle is refused as well.
-/
namespace Sandstar.CycleBudget
open ComponentTree TreeCycles TreeLinks LinkStore

variable {t : ComponentTree} {fromComp : UInt16}

/-- The components that the dataflow leads to from `a`. -/
def reached (t : ComponentTree) (a : UInt16) : Set UInt16 :=
  {b | Relation.ReflTransGen (DataflowEdge t) a b}

/-- The loop's variables; the head of the list is the top of the stack. -/
structure Dfs where
  stack : List UInt16
  visited : Finset UInt16
  depth : ℕ

def Dfs.start (toComp : UInt16) : Dfs := ⟨[toComp], ∅, 0⟩

/-- One round of the loop: an answer, or the variables of the next round. -/
def round (t : ComponentTree) (fromComp : UInt16) (s : Dfs) : Bool ⊕ Dfs :=
  match s.stack with
  | [] => .inl false
  | current :: stack =>
    if current = fromComp then .inl true
    else if maxDepth ≤ s.depth then .inl true
    else if current ∈ s.visited then .inr ⟨stack, s.visited, s.depth⟩
    else .inr ⟨(t.outgoing current (insert current s.visited)).reverse ++ stack,
      insert current s.visited, s.depth + 1⟩

/-- The answer of the loop, if it comes within the given number of rounds. -/
def rounds (t : ComponentTree) (fromComp : UInt16) : ℕ → Dfs → Option Bool
  | 0, _ => none
  | n + 1, s => match round t fromComp s with
    | .inl answer => some answer
    | .inr s => rounds t fromComp n s

theorem rounds_mono {n : ℕ} {s : Dfs} {answer : Bool} (h : rounds t fromComp n s = some answer)
    {m : ℕ} (hm : n ≤ m) : rounds t fromComp m s = some answer := by
  induction n generalizing s m with
  | zero => cases h
  | succ n ih =>
    obtain ⟨m, rfl⟩ : ∃ k, m = k + 1 := ⟨m - 1, by omega⟩
    unfold rounds at h ⊢
    cases hround : round t fromComp s with
    | inl a =>
      rw [hround] at h
      exact h
    | inr s' =>
      rw [hround] at h
      exact ih h (by omega)

/-- The loop ends, with the answer of the search: a round takes one component off the
    stack or one from the budget. -/
theorem rounds_search (budget : ℕ) (stack : List UInt16) (visited : Finset UInt16) (depth : ℕ)
    (hdepth : depth + budget = maxDepth) :
    ∃ n, rounds t fromComp n ⟨stack, visited, depth⟩ =
      some (search t fromComp budget stack visited) := by
  induction budget generalizing stack visited depth with
  | zero =>
    refine ⟨1, ?_⟩
    cases stack with
    | nil => rfl
    | cons current stack =>
      have hfull : maxDepth ≤ depth := by omega
      unfold rounds round
      dsimp only
      by_cases hfrom : current = fromComp
      · rw [if_pos hfrom]
        rfl
      · rw [if_neg hfrom, if_pos hfull]
        rfl
  | succ budget ih =>
    change ∃ n, _ = some (visit t fromComp (search t fromComp budget) stack visited)
    have hopen : ¬ maxDepth ≤ depth := by omega
    induction stack with
    | nil => exact ⟨1, rfl⟩
    | cons current stack ihs =>
      unfold visit
      by_cases hfrom : current = fromComp
      · refine ⟨1, ?_⟩
        unfold rounds round
        dsimp only
        rw [if_pos hfrom, if_pos hfrom]
      · rw [if_neg hfrom]
        by_cases hvisited : current ∈ visited
        · obtain ⟨n, hn⟩ := ihs
          refine ⟨n + 1, ?_⟩
          unfold rounds round
          dsimp only
          rw [if_neg hfrom, if_neg hopen, if_pos hvisited, if_pos hvisited]
          exact hn
        · obtain ⟨n, hn⟩ := ih ((t.outgoing current (insert current visited)).reverse ++ stack)
            (insert current visited) (depth + 1) (by omega)
          refine ⟨n + 1, ?_⟩
          unfold rounds round
          dsimp only
          rw [if_neg hfrom, if_neg hopen, if_neg hvisited, if_neg hvisited]
          exact hn

theorem rounds_answer {toComp : UInt16} (hne : fromComp ≠ toComp) :
    ∃ n, ∀ m, n ≤ m →
      rounds t fromComp m (.start toComp) = some (t.wouldCreateCycle fromComp toComp) := by
  obtain ⟨n, hn⟩ : ∃ n, rounds t fromComp n (.start toComp) =
      some (search t fromComp maxDepth [toComp] ∅) :=
    rounds_search maxDepth [toComp] ∅ 0 (Nat.zero_add _)
  refine ⟨n, fun m hm => ?_⟩
  unfold ComponentTree.wouldCreateCycle
  rw [if_neg hne]
  exact rounds_mono hn hm

theorem edge_of_mem_outgoing {current w : UInt16} {visited : Finset UInt16}
    (h : w ∈ t.outgoing current (insert current visited)) : DataflowEdge t current w := by
  unfold ComponentTree.outgoing at h
  cases hget : t.get current with
  | none =>
    rw [hget] at h
    cases h
  | some c =>
    rw [hget] at h
    obtain ⟨l, hl, hto⟩ := List.mem_map.1 h
    obtain ⟨hmem, hcond⟩ := List.mem_filter.1 hl
    obtain ⟨hfrom, hnew⟩ := of_decide_eq_true hcond
    refine ⟨current, c, hget, l, hmem, hfrom, hto, ?_⟩
    rintro rfl
    exact hnew (hto ▸ Finset.mem_insert_self _ _)

/-- Where a walk along the links stops that has no budget. It follows the last link of a
    component first, and what it has yet to follow stays on the stack: a component may
    be come to more than once. -/
def stops (t : ComponentTree) (stack : List UInt16) (visited : Finset UInt16) : List UInt16 :=
  match stack with
  | [] => []
  | current :: stack =>
    if current ∈ visited then current :: stops t stack visited
    else current :: stops t ((t.outgoing current (insert current visited)).reverse ++ stack)
      (insert current visited)
termination_by ((visited : Set UInt16)ᶜ.ncard, stack.length)
decreasing_by
  · exact Prod.Lex.right _ (Nat.lt_succ_self _)
  · rename_i hnew
    refine Prod.Lex.left _ _ (Set.ncard_lt_ncard ?_ (Set.toFinite _))
    rw [Finset.coe_insert]
    exact compl_lt_compl_iff_lt.2 (Set.ssubset_insert hnew)

/-- The last stop is at a component without an earlier one. -/
def EndsNew {α : Type} (l : List α) : Prop := ∃ earlier last, l = earlier ++ [last] ∧ last ∉ earlier

section Stops

variable {stack : List UInt16} {visited : Finset UInt16}

theorem stops_eq_nil_iff : stops t stack visited = [] ↔ stack = [] := by
  cases stack with
  | nil => simp [stops]
  | cons current stack =>
    unfold stops
    split_ifs <;> simp

theorem reached_stack {current : UInt16}
    {v : UInt16} (hv : v ∈ (t.outgoing current (insert current visited)).reverse ++ stack)
    {w : UInt16} (hw : w ∈ reached t v) : ∃ u ∈ current :: stack, w ∈ reached t u := by
  rcases List.mem_append.1 hv with hv | hv
  · have hedge := edge_of_mem_outgoing (List.mem_reverse.1 hv)
    exact ⟨current, List.mem_cons_self, Relation.ReflTransGen.head hedge hw⟩
  · exact ⟨v, List.mem_cons_of_mem _ hv, hw⟩

theorem reached_of_mem_stops {w : UInt16} (h : w ∈ stops t stack visited) :
    ∃ v ∈ stack, w ∈ reached t v := by
  induction stack, visited using stops.induct t with
  | case1 visited =>
    unfold stops at h
    cases h
  | case2 visited current stack hseen ih =>
    unfold stops at h
    rw [if_pos hseen] at h
    rcases List.mem_cons.1 h with rfl | h
    · exact ⟨w, List.mem_cons_self, Relation.ReflTransGen.refl⟩
    · obtain ⟨v, hv, hpath⟩ := ih h
      exact ⟨v, List.mem_cons_of_mem _ hv, hpath⟩
  | case3 visited current stack hnew ih =>
    unfold stops at h
    rw [if_neg hnew] at h
    rcases List.mem_cons.1 h with rfl | h
    · exact ⟨w, List.mem_cons_self, Relation.ReflTransGen.refl⟩
    · obtain ⟨v, hv, hpath⟩ := ih h
      exact reached_stack hv hpath

/-- The walk leaves out nothing that the links lead to. -/
theorem stops_closed (hsrc : AtSource Link.fromComp Link.toComp (linkStore t)) {C : Set UInt16}
    (hC : ∀ w, w ∈ C ↔ w ∈ visited ∨ w ∈ stops t stack visited)
    (h : Frontier t fromComp stack visited) (hno : fromComp ∉ stops t stack visited) :
    Closed t fromComp C := by
  induction stack, visited using stops.induct t with
  | case1 visited =>
    have hvisited : C = visited := by
      ext w
      simp [hC, stops]
    rw [hvisited]
    exact h.closed
  | case2 visited current stack hseen ih =>
    unfold stops at hno hC
    rw [if_pos hseen, List.mem_cons, not_or] at hno
    refine ih (fun w => ?_) (h.pop hseen) hno.2
    rw [hC, if_pos hseen, List.mem_cons]
    constructor
    · rintro (hw | rfl | hw)
      · exact .inl hw
      · exact .inl hseen
      · exact .inr hw
    · exact Or.imp_right .inr
  | case3 visited current stack hnew ih =>
    unfold stops at hno hC
    rw [if_neg hnew, List.mem_cons, not_or] at hno
    refine ih (fun w => ?_) (h.expand hsrc (Ne.symm hno.1)) hno.2
    rw [hC, if_neg hnew, List.mem_cons, Finset.mem_insert, or_left_comm, or_assoc]

theorem ne_source {v : UInt16} (h : fromComp ∉ reached t v) : v ≠ fromComp := by
  rintro rfl
  exact h Relation.ReflTransGen.refl

theorem search_pop {current : UInt16} (hfrom : current ≠ fromComp) (hseen : current ∈ visited)
    (budget : ℕ) : search t fromComp (budget + 1) (current :: stack) visited =
      search t fromComp (budget + 1) stack visited := by
  change visit t fromComp _ (current :: stack) visited = visit t fromComp _ stack visited
  conv_lhs => unfold visit
  rw [if_neg hfrom, if_pos hseen]

theorem search_expand {current : UInt16} (hfrom : current ≠ fromComp) (hnew : current ∉ visited)
    (budget : ℕ) : search t fromComp (budget + 1) (current :: stack) visited =
      search t fromComp budget ((t.outgoing current (insert current visited)).reverse ++ stack)
        (insert current visited) := by
  change visit t fromComp _ (current :: stack) visited = _
  unfold visit
  rw [if_neg hfrom, if_neg hnew]

theorem dropLast_stops {current : UInt16} (hne : stack ≠ []) :
    (current :: stops t stack visited).dropLast = current :: (stops t stack visited).dropLast :=
  List.dropLast_cons_of_ne_nil (mt stops_eq_nil_iff.1 hne)

theorem card_insert_sdiff {current : UInt16} (hnew : current ∉ visited) (P : Finset UInt16) :
    (insert current P \ visited).card = (P \ insert current visited).card + 1 := by
  have hset : insert current P \ visited = insert current (P \ insert current visited) := by
    rw [Finset.insert_sdiff_of_notMem _ hnew]
    ext w
    simp only [Finset.mem_insert, Finset.mem_sdiff]
    tauto
  rw [hset, Finset.card_insert_of_notMem (by simp)]

/-- Without a path to the source, the search says yes when the walk makes a stop after it
    has spent the budget. -/
theorem search_eq_true_iff (hno : ∀ v ∈ stack, fromComp ∉ reached t v) (budget : ℕ) :
    search t fromComp budget stack visited = true ↔
      stack ≠ [] ∧ budget ≤ ((stops t stack visited).dropLast.toFinset \ visited).card := by
  induction stack, visited using stops.induct t generalizing budget with
  | case1 visited => cases budget <;> simp [search, visit]
  | case2 visited current stack hseen ih =>
    cases budget with
    | zero => simp [search]
    | succ budget =>
      rw [search_pop (ne_source (hno _ List.mem_cons_self)) hseen,
        ih fun v hv => hno v (List.mem_cons_of_mem _ hv)]
      conv_rhs => unfold stops
      rw [if_pos hseen]
      by_cases hnil : stack = []
      · subst hnil
        simp [stops]
      · rw [dropLast_stops hnil, List.toFinset_cons, Finset.insert_sdiff_of_mem _ hseen]
        simp [hnil]
  | case3 visited current stack hnew ih =>
    cases budget with
    | zero => simp [search]
    | succ budget =>
      have hno' : ∀ v ∈ (t.outgoing current (insert current visited)).reverse ++ stack,
          fromComp ∉ reached t v := by
        intro v hv hpath
        obtain ⟨u, hu, hreach⟩ := reached_stack hv hpath
        exact hno u hu hreach
      rw [search_expand (ne_source (hno _ List.mem_cons_self)) hnew, ih hno']
      conv_rhs => unfold stops
      rw [if_neg hnew]
      by_cases hnil : (t.outgoing current (insert current visited)).reverse ++ stack = []
      · rw [hnil]
        simp [stops]
      · rw [dropLast_stops hnil, List.toFinset_cons, card_insert_sdiff hnew]
        simp [hnil]

end Stops

theorem mem_stops_iff (hsrc : AtSource Link.fromComp Link.toComp (linkStore t)) {toComp : UInt16}
    (hno : fromComp ∉ reached t toComp) (w : UInt16) :
    w ∈ stops t [toComp] ∅ ↔ w ∈ reached t toComp := by
  have hreached : ∀ w ∈ stops t [toComp] ∅, w ∈ reached t toComp := by
    intro w hw
    obtain ⟨v, hv, hpath⟩ := reached_of_mem_stops hw
    rwa [List.mem_singleton.1 hv] at hpath
  refine ⟨hreached w, fun hpath => ?_⟩
  have hstart : Frontier t fromComp [toComp] ∅ :=
    ⟨Finset.notMem_empty _, fun v hv => absurd hv (Finset.notMem_empty v)⟩
  have hclosed : Closed t fromComp {w | w ∈ stops t [toComp] ∅} :=
    stops_closed hsrc (by simp) hstart fun h => hno (hreached _ h)
  refine hclosed.reaches ?_ hpath
  change toComp ∈ stops t [toComp] ∅
  unfold stops
  simp

/-- Without a path the check says yes exactly when the walk makes a stop beyond the budget. -/
theorem wouldCreateCycle_iff_stops {toComp : UInt16} (hne : fromComp ≠ toComp)
    (hno : fromComp ∉ reached t toComp) :
    t.wouldCreateCycle fromComp toComp = true ↔
      maxDepth ≤ (stops t [toComp] ∅).dropLast.toFinset.card := by
  unfold ComponentTree.wouldCreateCycle
  rw [if_neg hne, search_eq_true_iff fun v hv => by rwa [List.mem_singleton.1 hv],
    Finset.sdiff_empty]
  exact and_iff_right (List.cons_ne_nil _ _)

/-- The last stop alone decides for a walk to as many components as the budget allows. -/
theorem endsNew_iff {l : List UInt16} (hl : l ≠ []) :
    EndsNew l ↔ l.dropLast.toFinset.card < l.toFinset.card := by
  have hcut := List.dropLast_append_getLast hl
  have hset : l.toFinset = insert (l.getLast hl) l.dropLast.toFinset := by
    conv_lhs => rw [← hcut]
    simp
  constructor
  · rintro ⟨earlier, last, rfl, hlast⟩
    rw [hset, Finset.card_insert_of_notMem (by simpa using hlast)]
    exact Nat.lt_succ_self _
  · intro hlt
    refine ⟨l.dropLast, l.getLast hl, hcut.symm, fun hmem => ?_⟩
    rw [hset, Finset.insert_eq_of_mem (List.mem_toFinset.2 hmem)] at hlt
    exact lt_irrefl _ hlt

/-- The check ends on every graph. It is exact where a path leads to the source of the new
    link, where fewer than `MAX_DEPTH` components can be reached from its target, and where
    just as many can and the walk to them ends at a new one; nowhere else. -/
theorem wouldCreateCycle_exact_iff {t : ComponentTree}
    (hsrc : AtSource Link.fromComp Link.toComp (linkStore t)) {fromComp toComp : UInt16}
    (hne : fromComp ≠ toComp) :
    (∃ n, ∀ m, n ≤ m →
        rounds t fromComp m (.start toComp) = some (t.wouldCreateCycle fromComp toComp)) ∧
      ((t.wouldCreateCycle fromComp toComp = true ↔ fromComp ∈ reached t toComp) ↔
        fromComp ∈ reached t toComp ∨ (reached t toComp).ncard < maxDepth ∨
          (reached t toComp).ncard = maxDepth ∧ EndsNew (stops t [toComp] ∅)) := by
  refine ⟨rounds_answer hne, ?_⟩
  by_cases hpath : fromComp ∈ reached t toComp
  · have hyes : t.wouldCreateCycle fromComp toComp = true := by
      by_contra hanswer
      exact wouldCreateCycle_sound hsrc (Bool.eq_false_of_not_eq_true hanswer) hne hpath
    simp only [hyes, hpath, true_or]
  · have hcard : (stops t [toComp] ∅).toFinset.card = (reached t toComp).ncard := by
      rw [← Set.ncard_coe_finset]
      congr 1
      ext w
      rw [Finset.mem_coe, List.mem_toFinset, mem_stops_iff hsrc hpath]
    have hnil : stops t [toComp] ∅ ≠ [] := by
      rw [Ne, stops_eq_nil_iff]
      exact List.cons_ne_nil _ _
    rw [wouldCreateCycle_iff_stops hne hpath, endsNew_iff hnil, hcard]
    have hle : (stops t [toComp] ∅).dropLast.toFinset.card ≤ (reached t toComp).ncard := by
      rw [← hcard]
      exact Finset.card_le_card fun w hw =>
        List.mem_toFinset.2 (List.dropLast_subset _ (List.mem_toFinset.1 hw))
    have hlast : (reached t toComp).ncard ≤ (stops t [toComp] ∅).dropLast.toFinset.card + 1 := by
      rw [← hcard, ← List.dropLast_append_getLast hnil]
      simp only [List.toFinset_append, List.dropLast_concat]
      refine (Finset.card_union_le _ _).trans ?_
      simp
    simp only [hpath, iff_false, false_or]
    omega

/-- Component 1 with links to `n` other ids. -/
def hub (n : ℕ) : VirtualComponent :=
  ⟨1, noParent, "hub", "sys::Hub", 0, 0, [], [],
    (List.range n).map fun i => ⟨1, 0, UInt16.ofNat (i + 2), 0⟩⟩

def star (n : ℕ) : ComponentTree := (newWithManifest ManifestDb.new).add (hub n)

theorem get_star (n : ℕ) (id : UInt16) : (star n).get id = if id = 1 then some (hub n) else none := by
  change (Table.insert Table.empty (1 : UInt16) (hub n)).get id = _
  rw [Table.get_insert]
  rfl

theorem edge_star {n : ℕ} {a b : UInt16} :
    DataflowEdge (star n) a b ↔ a = 1 ∧ a ≠ b ∧ ∃ i < n, UInt16.ofNat (i + 2) = b := by
  constructor
  · rintro ⟨id, c, hget, l, hl, hfrom, hto, hne⟩
    rw [get_star] at hget
    split_ifs at hget
    cases hget
    obtain ⟨i, hi, rfl⟩ := List.mem_map.1 hl
    exact ⟨hfrom.symm, hne, i, List.mem_range.1 hi, hto⟩
  · rintro ⟨rfl, hne, i, hi, rfl⟩
    refine ⟨1, hub n, get_star n 1, ⟨1, 0, UInt16.ofNat (i + 2), 0⟩, ?_, rfl, rfl, hne⟩
    exact List.mem_map.2 ⟨i, List.mem_range.2 hi, rfl⟩

theorem star_atSource (n : ℕ) : AtSource Link.fromComp Link.toComp (linkStore (star n)) := by
  intro k l hl _
  obtain ⟨c, hget, hmem⟩ := stored_iff.1 hl
  have hk := get_star n k
  rw [hget] at hk
  split_ifs at hk with hone
  cases hk
  obtain ⟨i, -, rfl⟩ := List.mem_map.1 hmem
  rw [hone] at hl
  exact hl

theorem wouldCreateCycle_exact_star :
    (star 1).wouldCreateCycle 2 1 = true ∧ (star 1).wouldCreateCycle 0 1 = false := by
  have hpath : (2 : UInt16) ∈ reached (star 1) 1 :=
    Relation.ReflTransGen.single (edge_star.2 ⟨rfl, by decide, 0, by decide, rfl⟩)
  have hclosed : Closed (star 1) 0 {1, 2} := by
    refine ⟨by simp, fun v _ w hw => ?_⟩
    obtain ⟨-, -, i, hi, rfl⟩ := edge_star.1 hw
    obtain rfl : i = 0 := by omega
    exact .inr rfl
  have hno : (0 : UInt16) ∉ reached (star 1) 1 := hclosed.not_reaches (.inl rfl)
  have hfew : (reached (star 1) 1).ncard < maxDepth := by
    have hsub : reached (star 1) 1 ⊆ {1, 2} := fun b hb => hclosed.reaches (.inl rfl) hb
    refine (Set.ncard_le_ncard hsub (Set.toFinite _)).trans_lt ?_
    rw [Set.ncard_pair (by decide)]
    decide
  have hyes := (wouldCreateCycle_exact_iff (star_atSource 1) (by decide)).2.2 (.inl hpath)
  have hne : (0 : UInt16) ≠ 1 := by decide
  have hanswer := (wouldCreateCycle_exact_iff (star_atSource 1) hne).2.2 (.inr (.inl hfew))
  exact ⟨hyes.2 hpath, Bool.eq_false_of_not_eq_true fun h => hno (hanswer.1 h)⟩

theorem wouldCreateCycle_of_many (hsrc : AtSource Link.fromComp Link.toComp (linkStore t))
    {toComp : UInt16} (hne : fromComp ≠ toComp) (hmany : maxDepth < (reached t toComp).ncard) :
    t.wouldCreateCycle fromComp toComp = true := by
  by_contra hno
  obtain ⟨C, hC, hto, hcard⟩ := wouldCreateCycle_closed hsrc (Bool.eq_false_of_not_eq_true hno) hne
  have hsub : reached t toComp ⊆ (C : Set UInt16) := fun b hb => hC.reaches hto hb
  have hle := Set.ncard_le_ncard hsub (Set.toFinite _)
  rw [Set.ncard_coe_finset] at hle
  omega

/-- A link into a hub of 101 links is refused, although no link leads to its source. -/
theorem star_refused :
    ¬ ∀ (t : ComponentTree), AtSource Link.fromComp Link.toComp (linkStore t) →
      ∀ fromComp toComp : UInt16, fromComp ≠ toComp →
        (t.wouldCreateCycle fromComp toComp = true ↔ fromComp ∈ reached t toComp) := by
  intro hexact
  have hrefused : (star 101).wouldCreateCycle 0 1 = true := by
    refine wouldCreateCycle_of_many (star_atSource 101) (by decide) ?_
    have hinj : Set.InjOn (fun i => UInt16.ofNat (i + 2)) (Finset.range 101 : Set ℕ) := by
      intro i hi j hj hij
      have hnat := congrArg UInt16.toNat hij
      have hi' := Finset.mem_range.1 hi
      have hj' := Finset.mem_range.1 hj
      dsimp only at hnat
      rw [UInt16.toNat_ofNat_of_lt' (by change _ < 2 ^ 16; omega),
        UInt16.toNat_ofNat_of_lt' (by change _ < 2 ^ 16; omega)] at hnat
      omega
    have hsub : (((Finset.range 101).image fun i => UInt16.ofNat (i + 2) : Finset UInt16) :
        Set UInt16) ⊆ reached (star 101) 1 := by
      intro b hb
      obtain ⟨i, hi, rfl⟩ := Finset.mem_image.1 hb
      by_cases hone : (1 : UInt16) = UInt16.ofNat (i + 2)
      · rw [← hone]
        exact Relation.ReflTransGen.refl
      · exact Relation.ReflTransGen.single (edge_star.2 ⟨rfl, hone, i, Finset.mem_range.1 hi, rfl⟩)
    have hle := Set.ncard_le_ncard hsub (Set.toFinite _)
    rw [Set.ncard_coe_finset, Finset.card_image_of_injOn hinj, Finset.card_range] at hle
    exact hle
  have hclosed : Closed (star 101) 0 {b | b ≠ 0} := by
    refine ⟨fun h => h rfl, fun v _ w hw hzero => ?_⟩
    obtain ⟨-, -, i, hi, hto⟩ := edge_star.1 hw
    have hnat := congrArg UInt16.toNat (hto.trans hzero)
    rw [UInt16.toNat_ofNat_of_lt' (by change _ < 2 ^ 16; omega)] at hnat
    cases hnat
  have hpath := (hexact (star 101) (star_atSource 101) 0 1 (by decide)).1 hrefused
  exact hclosed.not_reaches (a := 1) (by decide) hpath

end Sandstar.CycleBudget
