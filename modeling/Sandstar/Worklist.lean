import Mathlib

set_option autoImplicit false

namespace Sandstar.Worklist

variable {K : Type} (kids : K → Option (List K))

/-- Every node is listed once, under one parent, and after it in some order. -/
structure IsForest : Prop where
  once : ∀ p cs, kids p = some cs → cs.Nodup
  parent : ∀ p q cs ds k, kids p = some cs → kids q = some ds → k ∈ cs → k ∈ ds → p = q
  ranked : ∃ rank : K → ℕ, ∀ p cs k, kids p = some cs → k ∈ cs → rank p < rank k

/-- What holds of the nodes expanded so far and those pending, in a walk from
    `root`: each is there once, and all but `root` are children of expanded ones. -/
structure Inv (rank : K → ℕ) (root : K) (expanded pending : List K) : Prop where
  nodup : (expanded ++ pending).Nodup
  above : ∀ k ∈ expanded ++ pending, rank root ≤ rank k
  child : ∀ k ∈ expanded ++ pending, k ≠ root → ∃ p ∈ expanded, ∃ cs, kids p = some cs ∧ k ∈ cs

variable {kids}

theorem inv_start (rank : K → ℕ) (root : K) : Inv kids rank root [] [root] := by
  refine ⟨List.nodup_singleton root, ?_, ?_⟩
  · intro k hk
    rw [List.nil_append, List.mem_singleton] at hk
    rw [hk]
  · intro k hk hne
    rw [List.nil_append, List.mem_singleton] at hk
    exact absurd hk hne

/-- Expanding a pending node keeps the invariant: its children are new. -/
theorem Inv.expand {rank : K → ℕ} (hforest : IsForest kids)
    (hrank : ∀ p cs k, kids p = some cs → k ∈ cs → rank p < rank k) {root id : K}
    {expanded pending cs : List K} (h : Inv kids rank root expanded (id :: pending))
    (hid : kids id = some cs) : Inv kids rank root (id :: expanded) (cs ++ pending) := by
  have hmem : ∀ k, k ∈ id :: expanded ++ pending ↔ k ∈ expanded ++ id :: pending := by
    intro k
    simp only [List.cons_append, List.mem_cons, List.mem_append]
    tauto
  have hfresh : id ∉ expanded := by
    intro hin
    exact (List.nodup_append.1 h.nodup).2.2 id hin id List.mem_cons_self rfl
  have hnew : ∀ k ∈ cs, k ∉ id :: expanded ++ pending := by
    intro k hk hin
    have hlt := hrank id cs k hid hk
    have hle := h.above id (List.mem_append_right _ List.mem_cons_self)
    obtain ⟨p, hp, ds, hds, hkd⟩ := h.child k ((hmem k).1 hin) (by rintro rfl; omega)
    exact hfresh (hforest.parent p id ds cs k hds hid hkd hk ▸ hp)
  have hsplit : ∀ k, k ∈ id :: expanded ++ (cs ++ pending) ↔
      k ∈ expanded ++ id :: pending ∨ k ∈ cs := by
    intro k
    simp only [List.cons_append, List.mem_cons, List.mem_append]
    tauto
  refine ⟨?_, ?_, ?_⟩
  · have hold : (id :: expanded ++ pending).Nodup :=
      (List.perm_middle.nodup_iff).1 h.nodup
    obtain ⟨hleft, hright, hdisj⟩ := List.nodup_append.1 hold
    refine List.nodup_append.2 ⟨hleft, List.nodup_append.2 ⟨hforest.once id cs hid, hright, ?_⟩, ?_⟩
    · rintro a ha b hb rfl
      exact hnew a ha (List.mem_append_right _ hb)
    · rintro a ha b hb rfl
      rcases List.mem_append.1 hb with hb | hb
      · exact hnew a hb (List.mem_append_left _ ha)
      · exact hdisj a ha a hb rfl
  · intro k hk
    rcases (hsplit k).1 hk with hk | hk
    · exact h.above k hk
    · have hle := h.above id (List.mem_append_right _ List.mem_cons_self)
      have hlt := hrank id cs k hid hk
      omega
  · intro k hk hne
    rcases (hsplit k).1 hk with hk | hk
    · obtain ⟨p, hp, hrest⟩ := h.child k hk hne
      exact ⟨p, List.mem_cons_of_mem _ hp, hrest⟩
    · exact ⟨id, List.mem_cons_self, cs, hid, hk⟩

theorem Inv.expanded_nodup {rank : K → ℕ} {root : K} {expanded pending : List K}
    (h : Inv kids rank root expanded pending) : expanded.Nodup :=
  (List.nodup_append.1 h.nodup).1

theorem Inv.length_le {rank : K → ℕ} {root : K} {expanded pending : List K}
    (h : Inv kids rank root expanded pending) (nodes : Finset K) (hnodes : ∀ k ∈ expanded, k ∈ nodes) :
    expanded.length ≤ nodes.card := by
  classical
  rw [← List.toFinset_card_of_nodup h.expanded_nodup]
  apply Finset.card_le_card
  intro k hk
  exact hnodes k (List.mem_toFinset.1 hk)

end Sandstar.Worklist
