import Mathlib

set_option autoImplicit false

/-!
# Linear interpolation between nodes

Nodes `v 0 < v 1 < ... < v m`, and the place of a value among them: `i` at node `i`, linear
between neighbours, and that of an end beyond it. The place rises with the value, however the
segment was found.
-/
namespace Sandstar.Interpolation

variable {K : Type} [Field K] [LinearOrder K]

def Rising (v : ℕ → K) (m : ℕ) : Prop := ∀ i j, i < j → j ≤ m → v i < v j

def Within (v : ℕ → K) (p : ℕ) (x : K) : Prop := v p ≤ x ∧ x ≤ v (p + 1)

/-- The place of a value on the segment from node `p` to the next one. -/
def place (v : ℕ → K) (p : ℕ) (x : K) : K := p + (x - v p) / (v (p + 1) - v p)

/-- The place of any value, where `search` finds the segment of an inner one. -/
def position (v : ℕ → K) (m : ℕ) (search : K → ℕ) (x : K) : K :=
  if x ≤ v 0 then 0 else if v m ≤ x then m else place v (search x) x

variable [IsStrictOrderedRing K] {v : ℕ → K} {m p q : ℕ} {x y : K}

section Segments

omit [LinearOrder K] [IsStrictOrderedRing K] in
theorem place_left : place v p (v p) = p := by
  unfold place
  rw [sub_self, zero_div, add_zero]

theorem place_right (hlt : v p < v (p + 1)) : place v p (v (p + 1)) = p + 1 := by
  unfold place
  rw [div_self (sub_pos.2 hlt).ne']

theorem place_le (hlt : v p < v (p + 1)) (hxy : x ≤ y) : place v p x ≤ place v p y := by
  unfold place
  have hwidth := sub_pos.2 hlt
  gcongr

theorem place_mem (hlt : v p < v (p + 1)) (h : Within v p x) :
    (p : K) ≤ place v p x ∧ place v p x ≤ p + 1 := by
  have hleft := place_le hlt h.1
  have hright := place_le hlt h.2
  rw [place_left] at hleft
  rw [place_right hlt] at hright
  exact ⟨hleft, hright⟩

/-- Across segments too a greater value has a greater place. -/
theorem place_mono (hv : Rising v m) (hp : p < m) (hq : q < m) (hx : Within v p x)
    (hy : Within v q y) (hxy : x ≤ y) : place v p x ≤ place v q y := by
  have hltp := hv p (p + 1) p.lt_succ_self hp
  have hltq := hv q (q + 1) q.lt_succ_self hq
  rcases lt_trichotomy p q with hpq | rfl | hqp
  · have hcast : (p : K) + 1 ≤ q := by exact_mod_cast hpq
    exact (place_mem hltp hx).2.trans (hcast.trans (place_mem hltq hy).1)
  · exact place_le hltp hxy
  · -- both values are the node between the segments
    have hnode : v (q + 1) ≤ v p := by
      rcases Nat.lt_or_eq_of_le (Nat.succ_le_of_lt hqp) with hlt | heq
      · exact (hv (q + 1) p hlt hp.le).le
      · exact (congrArg v heq).le
    have hxq : x = v (q + 1) := le_antisymm (hxy.trans hy.2) (hnode.trans hx.1)
    have hyq : y = v (q + 1) := le_antisymm hy.2 (hxq.symm.le.trans hxy)
    have heq : p = q + 1 := by
      by_contra hne
      have hlt := hv (q + 1) p (lt_of_le_of_ne (Nat.succ_le_of_lt hqp) (Ne.symm hne)) hp.le
      exact absurd (hx.1.trans hxq.le) (not_le.2 hlt)
    subst heq
    rw [hxq, hyq, place_left, place_right hltq, Nat.cast_succ]

theorem place_node (hv : Rising v m) (hp : p < m) {i : ℕ} (hi : i ≤ m)
    (h : Within v p (v i)) : place v p (v i) = i := by
  rcases Nat.lt_or_eq_of_le hi with hlt | rfl
  · have hnext := hv i (i + 1) i.lt_succ_self hlt
    have hself : Within v i (v i) := ⟨le_rfl, hnext.le⟩
    have hsame := le_antisymm (place_mono hv hp hlt h hself le_rfl)
      (place_mono hv hlt hp hself h le_rfl)
    rw [hsame, place_left]
  · obtain ⟨k, rfl⟩ : ∃ k, i = k + 1 := ⟨i - 1, by omega⟩
    have hlast := hv k (k + 1) k.lt_succ_self le_rfl
    have hself : Within v k (v (k + 1)) := ⟨hlast.le, le_rfl⟩
    have hsame := le_antisymm (place_mono hv hp k.lt_succ_self h hself le_rfl)
      (place_mono hv k.lt_succ_self hp hself h le_rfl)
    rw [hsame, place_right hlast, Nat.cast_succ]

end Segments

section Positions

variable {search : K → ℕ} (hv : Rising v m) (hm : 0 < m)
  (hsearch : ∀ x, v 0 < x → x < v m → search x < m ∧ Within v (search x) x)

include hv hm hsearch

/-- The place of a value is that of the nearest value in range, on a segment that holds it. -/
theorem position_spec (x : K) : ∃ p < m, Within v p (max (v 0) (min x (v m))) ∧
    position v m search x = place v p (max (v 0) (min x (v m))) := by
  have hends := (hv 0 m hm le_rfl).le
  unfold position
  by_cases hlow : x ≤ v 0
  · rw [if_pos hlow, min_eq_left (hlow.trans hends), max_eq_left hlow]
    refine ⟨0, hm, ⟨le_rfl, (hv 0 1 Nat.zero_lt_one hm).le⟩, ?_⟩
    rw [place_left, Nat.cast_zero]
  · rw [if_neg hlow]
    by_cases hhigh : v m ≤ x
    · obtain ⟨k, rfl⟩ : ∃ k, m = k + 1 := ⟨m - 1, by omega⟩
      have hlast := hv k (k + 1) k.lt_succ_self le_rfl
      rw [if_pos hhigh, min_eq_right hhigh, max_eq_right hends]
      refine ⟨k, k.lt_succ_self, ⟨hlast.le, le_rfl⟩, ?_⟩
      rw [place_right hlast, Nat.cast_succ]
    · obtain ⟨hin, hwithin⟩ := hsearch x (not_le.1 hlow) (not_le.1 hhigh)
      rw [if_neg hhigh, min_eq_left (not_le.1 hhigh).le, max_eq_right (not_le.1 hlow).le]
      exact ⟨search x, hin, hwithin, rfl⟩

theorem position_mem (x : K) : 0 ≤ position v m search x ∧ position v m search x ≤ m := by
  obtain ⟨p, hp, hwithin, heq⟩ := position_spec hv hm hsearch x
  obtain ⟨hlow, hhigh⟩ := place_mem (hv p (p + 1) p.lt_succ_self hp) hwithin
  have hcast : (p : K) + 1 ≤ m := by exact_mod_cast hp
  rw [heq]
  exact ⟨(Nat.cast_nonneg p).trans hlow, hhigh.trans hcast⟩

theorem position_mono : Monotone (position v m search) := by
  intro x y hxy
  obtain ⟨p, hp, hx, hxeq⟩ := position_spec hv hm hsearch x
  obtain ⟨q, hq, hy, hyeq⟩ := position_spec hv hm hsearch y
  rw [hxeq, hyeq]
  exact place_mono hv hp hq hx hy (max_le_max le_rfl (min_le_min hxy le_rfl))

theorem position_node {i : ℕ} (hi : i ≤ m) : position v m search (v i) = i := by
  obtain ⟨p, hp, hwithin, heq⟩ := position_spec hv hm hsearch (v i)
  have hlow : v 0 ≤ v i := by
    rcases Nat.eq_zero_or_pos i with rfl | hpos
    · exact le_rfl
    · exact (hv 0 i hpos hi).le
  have hhigh : v i ≤ v m := by
    rcases Nat.lt_or_eq_of_le hi with hlt | rfl
    · exact (hv i m hlt le_rfl).le
    · exact le_rfl
  rw [min_eq_left hhigh, max_eq_right hlow] at hwithin heq
  rw [heq, place_node hv hp hi hwithin]

end Positions

end Sandstar.Interpolation
