import Mathlib

set_option autoImplicit false

/-!
# Forests stored in both directions

A node knows its parent and lists its children. `WellFormed` says that the two
directions agree; `Rooted` adds what keeps it inductive.
-/
namespace Sandstar

structure Node (K : Type) where
  parent : K
  children : List K

abbrev Forest (K : Type) := K → Option (Node K)

namespace Forest

variable {K : Type} [DecidableEq K] {root : K} {f : Forest K}

structure WellFormed (root : K) (f : Forest K) : Prop where
  listed : ∀ id n, f id = some n → id ≠ root →
    ∃ p, f n.parent = some p ∧ p.children.count id = 1
  present : ∀ id n, f id = some n → ∀ k ∈ n.children, ∃ c, f k = some c ∧ c.parent = id

structure Rooted (root : K) (f : Forest K) : Prop extends WellFormed root f where
  root_unlisted : ∀ id n, f id = some n → root ∉ n.children
  irreflexive : ∀ id n, f id = some n → id ∉ n.children

def push (id : K) (n : Node K) : Node K :=
  if id ∈ n.children then n else ⟨n.parent, n.children ++ [id]⟩

def drop (id : K) (n : Node K) : Node K := ⟨n.parent, n.children.filter (· ≠ id)⟩

def insertLeaf (f : Forest K) (id parent : K) : Forest K := fun a =>
  if a = id then some ⟨parent, []⟩ else if a = parent then (f a).map (push id) else f a

def remove (f : Forest K) (id parent : K) : Forest K := fun a =>
  if a = id then none else if a = parent then (f a).map (drop id) else f a

def reorder (f : Forest K) (id : K) (children : List K) : Forest K := fun a =>
  if a = id then (f a).map fun n => ⟨n.parent, children⟩ else f a

@[simp] theorem push_parent (id : K) (n : Node K) : (push id n).parent = n.parent := by
  unfold push
  split_ifs <;> rfl

theorem mem_push (id k : K) (n : Node K) :
    k ∈ (push id n).children ↔ k = id ∨ k ∈ n.children := by
  unfold push
  split_ifs with h
  · constructor
    · exact Or.inr
    · rintro (rfl | hk)
      · exact h
      · exact hk
  · simp [or_comm]

theorem count_push_ne {id k : K} (n : Node K) (h : k ≠ id) :
    (push id n).children.count k = n.children.count k := by
  unfold push
  split_ifs
  · rfl
  · simp [List.count_append, Ne.symm h]

theorem count_push_self {id : K} {n : Node K} (h : id ∉ n.children) :
    (push id n).children.count id = 1 := by
  unfold push
  rw [if_neg h]
  simp [List.count_append, List.count_eq_zero_of_not_mem h]

theorem count_drop_ne {id k : K} (n : Node K) (h : k ≠ id) :
    (drop id n).children.count k = n.children.count k := by
  unfold drop
  exact List.count_filter (by simpa using h)

theorem insertLeaf_self (f : Forest K) (id parent : K) :
    insertLeaf f id parent id = some ⟨parent, []⟩ := by
  simp [insertLeaf]

theorem insertLeaf_of_ne {id : K} (parent : K) {a : K} {n : Node K} (ha : a ≠ id)
    (h : f a = some n) :
    insertLeaf f id parent a = some n ∨ insertLeaf f id parent a = some (push id n) := by
  unfold insertLeaf
  rw [if_neg ha, h]
  split_ifs
  · exact Or.inr rfl
  · exact Or.inl rfl

theorem insertLeaf_inv {id parent a : K} {n : Node K} (ha : a ≠ id)
    (h : insertLeaf f id parent a = some n) :
    ∃ m, f a = some m ∧ n.parent = m.parent ∧
      ∀ k, k ∈ n.children ↔ (a = parent ∧ k = id) ∨ k ∈ m.children := by
  unfold insertLeaf at h
  rw [if_neg ha] at h
  split_ifs at h with hp
  · obtain ⟨m, hm, rfl⟩ := Option.map_eq_some_iff.1 h
    exact ⟨m, hm, push_parent id m, fun k => by simp [mem_push, hp]⟩
  · exact ⟨n, h, rfl, fun k => by simp [hp]⟩

/-- The new leaf lists nothing, and only its parent's list grows. -/
theorem insertLeaf_mem {id parent a k : K} {n : Node K} (h : insertLeaf f id parent a = some n)
    (hk : k ∈ n.children) :
    a ≠ id ∧ ((a = parent ∧ k = id) ∨ ∃ m, f a = some m ∧ k ∈ m.children) := by
  by_cases ha : a = id
  · subst a
    rw [insertLeaf_self] at h
    cases h
    cases hk
  · obtain ⟨m, hm, -, hmem⟩ := insertLeaf_inv ha h
    exact ⟨ha, ((hmem k).1 hk).imp_right fun hk => ⟨m, hm, hk⟩⟩

theorem insertLeaf_listed {id parent a : K} {n : Node K} (h : Rooted root f) (hid : f id = none)
    (hp : (f parent).isSome) (hn : insertLeaf f id parent a = some n) (hr : a ≠ root) :
    ∃ p, insertLeaf f id parent n.parent = some p ∧ p.children.count a = 1 := by
  obtain ⟨pn, hpn⟩ := Option.isSome_iff_exists.1 hp
  have hpid : parent ≠ id := by
    rintro rfl
    rw [hid] at hpn
    cases hpn
  have hun : id ∉ pn.children := by
    intro hmem
    obtain ⟨c, hc, -⟩ := h.present parent pn hpn id hmem
    rw [hid] at hc
    cases hc
  by_cases ha : a = id
  · subst a
    rw [insertLeaf_self] at hn
    cases hn
    refine ⟨push id pn, ?_, count_push_self hun⟩
    change insertLeaf f id parent parent = _
    unfold insertLeaf
    rw [if_neg hpid, if_pos rfl, hpn]
    rfl
  · obtain ⟨m, hm, hpar, -⟩ := insertLeaf_inv ha hn
    obtain ⟨q, hq, hc⟩ := h.listed a m hm hr
    have hqid : m.parent ≠ id := by
      intro e
      rw [e, hid] at hq
      cases hq
    rw [hpar]
    rcases insertLeaf_of_ne parent hqid hq with hq' | hq'
    · exact ⟨q, hq', hc⟩
    · exact ⟨push id q, hq', by rw [count_push_ne q ha]; exact hc⟩

theorem insertLeaf_rooted {id parent : K} (h : Rooted root f) (hid : f id = none)
    (hp : (f parent).isSome) (hr : id ≠ root) : Rooted root (insertLeaf f id parent) where
  listed _ _ hn ha := insertLeaf_listed h hid hp hn ha
  present := by
    intro a n hn k hk
    obtain ⟨-, ⟨hap, rfl⟩ | ⟨m, hm, hk⟩⟩ := insertLeaf_mem hn hk
    · exact ⟨⟨parent, []⟩, insertLeaf_self f k parent, hap.symm⟩
    · obtain ⟨c, hc, hcp⟩ := h.present a m hm k hk
      have hkid : k ≠ id := by
        rintro rfl
        rw [hid] at hc
        cases hc
      rcases insertLeaf_of_ne parent hkid hc with hc' | hc'
      · exact ⟨c, hc', hcp⟩
      · exact ⟨push id c, hc', by rw [push_parent]; exact hcp⟩
  root_unlisted := by
    intro a n hn hmem
    obtain ⟨-, ⟨-, e⟩ | ⟨m, hm, hmem⟩⟩ := insertLeaf_mem hn hmem
    · exact hr e.symm
    · exact h.root_unlisted a m hm hmem
  irreflexive := by
    intro a n hn hmem
    obtain ⟨ha, ⟨-, e⟩ | ⟨m, hm, hmem⟩⟩ := insertLeaf_mem hn hmem
    · exact ha e
    · exact h.irreflexive a m hm hmem

theorem remove_of_ne {id : K} (parent : K) {a : K} {n : Node K} (ha : a ≠ id) (h : f a = some n) :
    remove f id parent a = some n ∨ remove f id parent a = some (drop id n) := by
  unfold remove
  rw [if_neg ha, h]
  split_ifs
  · exact Or.inr rfl
  · exact Or.inl rfl

theorem remove_inv {id parent a : K} {n : Node K} (h : remove f id parent a = some n) :
    a ≠ id ∧ ∃ m, f a = some m ∧ n.parent = m.parent ∧
      ∀ k, k ∈ n.children ↔ (a = parent → k ≠ id) ∧ k ∈ m.children := by
  unfold remove at h
  split_ifs at h with ha hp
  · obtain ⟨m, hm, rfl⟩ := Option.map_eq_some_iff.1 h
    exact ⟨ha, m, hm, rfl, fun k => by simp [drop, hp, and_comm]⟩
  · exact ⟨ha, n, h, rfl, fun k => by simp [hp]⟩

theorem remove_rooted {id : K} {n : Node K} (h : Rooted root f) (hid : f id = some n)
    (hleaf : n.children = []) : Rooted root (remove f id n.parent) where
  listed := by
    intro a m hm hr
    obtain ⟨ha, m', hm', hpar, -⟩ := remove_inv hm
    obtain ⟨q, hq, hc⟩ := h.listed a m' hm' hr
    have hqid : m'.parent ≠ id := by
      intro e
      rw [e, hid] at hq
      cases hq
      rw [hleaf] at hc
      cases hc
    rw [hpar]
    rcases remove_of_ne n.parent hqid hq with hq' | hq'
    · exact ⟨q, hq', hc⟩
    · exact ⟨drop id q, hq', by rw [count_drop_ne q ha]; exact hc⟩
  present := by
    intro a m hm k hk
    obtain ⟨ha, m', hm', -, hmem⟩ := remove_inv hm
    obtain ⟨hkid', hk⟩ := (hmem k).1 hk
    obtain ⟨c, hc, hcp⟩ := h.present a m' hm' k hk
    have hkid : k ≠ id := by
      rintro rfl
      rw [hid] at hc
      cases hc
      exact hkid' hcp.symm rfl
    rcases remove_of_ne n.parent hkid hc with hc' | hc'
    · exact ⟨c, hc', hcp⟩
    · exact ⟨drop id c, hc', hcp⟩
  root_unlisted := by
    intro a m hm hmem
    obtain ⟨-, m', hm', -, hiff⟩ := remove_inv hm
    exact h.root_unlisted a m' hm' ((hiff root).1 hmem).2
  irreflexive := by
    intro a m hm hmem
    obtain ⟨-, m', hm', -, hiff⟩ := remove_inv hm
    exact h.irreflexive a m' hm' ((hiff a).1 hmem).2

/-- A node whose parent is gone, or does not list it, breaks the forest. -/
theorem not_wellFormed_of_unlisted {k : K} {n : Node K} (hk : f k = some n) (hr : k ≠ root)
    (h : ∀ p, f n.parent = some p → k ∉ p.children) : ¬ WellFormed root f := by
  intro hf
  obtain ⟨p, hp, hc⟩ := hf.listed k n hk hr
  have hz : p.children.count k = 0 := List.count_eq_zero_of_not_mem (h p hp)
  rw [hz] at hc
  cases hc

theorem remove_not_wellFormed {id : K} {n : Node K} (h : Rooted root f) (hid : f id = some n)
    (hne : n.children ≠ []) : ¬ WellFormed root (remove f id n.parent) := by
  obtain ⟨k, hk⟩ := List.exists_mem_of_ne_nil _ hne
  obtain ⟨c, hc, hcp⟩ := h.present id n hid k hk
  have hkid : k ≠ id := by
    rintro rfl
    exact h.irreflexive k n hid hk
  have hkr : k ≠ root := by
    rintro rfl
    exact h.root_unlisted id n hid hk
  have hgone : remove f id n.parent id = none := by simp [remove]
  rcases remove_of_ne n.parent hkid hc with hc' | hc'
  · refine not_wellFormed_of_unlisted hc' hkr fun p hp => ?_
    rw [hcp, hgone] at hp
    cases hp
  · refine not_wellFormed_of_unlisted hc' hkr fun p hp => ?_
    change remove f id n.parent c.parent = some p at hp
    rw [hcp, hgone] at hp
    cases hp

theorem reorder_inv {id a : K} {children : List K} {n m : Node K} (hid : f id = some n)
    (hperm : n.children.Perm children) (h : reorder f id children a = some m) :
    ∃ m', f a = some m' ∧ m.parent = m'.parent ∧ m'.children.Perm m.children := by
  unfold reorder at h
  split_ifs at h with ha
  · obtain ⟨m', hm', rfl⟩ := Option.map_eq_some_iff.1 h
    subst a
    rw [hid] at hm'
    cases hm'
    exact ⟨n, hid, rfl, hperm⟩
  · exact ⟨m, h, rfl, List.Perm.refl _⟩

theorem reorder_get {id a : K} {children : List K} {n m : Node K} (hid : f id = some n)
    (hperm : n.children.Perm children) (h : f a = some m) :
    ∃ m', reorder f id children a = some m' ∧ m'.parent = m.parent ∧
      m.children.Perm m'.children := by
  unfold reorder
  split_ifs with ha
  · subst a
    rw [hid] at h
    cases h
    exact ⟨⟨n.parent, children⟩, by rw [hid]; rfl, rfl, hperm⟩
  · exact ⟨m, h, rfl, List.Perm.refl _⟩

theorem reorder_rooted {id : K} {children : List K} {n : Node K} (h : Rooted root f)
    (hid : f id = some n) (hperm : n.children.Perm children) :
    Rooted root (reorder f id children) where
  listed := by
    intro a m hm hr
    obtain ⟨m', hm', hpar, -⟩ := reorder_inv hid hperm hm
    obtain ⟨q, hq, hc⟩ := h.listed a m' hm' hr
    obtain ⟨q', hq', -, hqp⟩ := reorder_get hid hperm hq
    exact ⟨q', by rw [hpar]; exact hq', by rw [← hqp.count_eq]; exact hc⟩
  present := by
    intro a m hm k hk
    obtain ⟨m', hm', -, hmp⟩ := reorder_inv hid hperm hm
    obtain ⟨c, hc, hcp⟩ := h.present a m' hm' k (hmp.mem_iff.2 hk)
    obtain ⟨c', hc', hcpar, -⟩ := reorder_get hid hperm hc
    exact ⟨c', hc', hcpar.trans hcp⟩
  root_unlisted := by
    intro a m hm hmem
    obtain ⟨m', hm', -, hmp⟩ := reorder_inv hid hperm hm
    exact h.root_unlisted a m' hm' (hmp.mem_iff.2 hmem)
  irreflexive := by
    intro a m hm hmem
    obtain ⟨m', hm', -, hmp⟩ := reorder_inv hid hperm hm
    exact h.irreflexive a m' hm' (hmp.mem_iff.2 hmem)

end Forest
end Sandstar
