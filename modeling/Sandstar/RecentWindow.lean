import Mathlib

set_option autoImplicit false

/-!
# A window of recent values in a ring

A ring of cells that keeps the last `w` values of a history: the value with number `j` lies at
`j % w`, and the head is where the next one goes. Read from the head around, the ring is the
end of the history, oldest value first.
-/
namespace Sandstar.RecentWindow

variable {α : Type} {cells xs : List α} {head count w v : ℕ}

/-- The last `w` values, or all of them while there are fewer. -/
def recent (w : ℕ) (xs : List α) : List α := xs.drop (xs.length - w)

theorem recent_length (w : ℕ) (xs : List α) : (recent w xs).length = min xs.length w := by
  unfold recent
  rw [List.length_drop]
  omega

/-- The ring with `w` cells in use, after the values `xs`. -/
structure Layout (cells : List α) (head count w : ℕ) (xs : List α) : Prop where
  head_eq : head = xs.length % w
  count_eq : count = min xs.length w
  cell_eq : ∀ j, xs.length - w ≤ j → j < xs.length → cells[j % w]? = xs[j]?

namespace Layout

theorem empty (cells : List α) (w : ℕ) : Layout cells 0 0 w [] :=
  ⟨(Nat.zero_mod w).symm, (Nat.zero_min w).symm, fun _ _ h => absurd h (Nat.not_lt_zero _)⟩

/-- Before the ring is full the number of its cells makes no difference. -/
theorem resize (h : Layout cells head count w xs) (hw : xs.length < w) (hv : xs.length < v) :
    Layout cells head count v xs where
  head_eq := by rw [h.head_eq, Nat.mod_eq_of_lt hw, Nat.mod_eq_of_lt hv]
  count_eq := by rw [h.count_eq, min_eq_left hw.le, min_eq_left hv.le]
  cell_eq := by
    intro j _ hj
    have hcell := h.cell_eq j (by omega) hj
    rw [Nat.mod_eq_of_lt (hj.trans hw)] at hcell
    rw [Nat.mod_eq_of_lt (hj.trans hv)]
    exact hcell

/-- The cell at the head belongs to none of the newer values. -/
theorem mod_ne {n j : ℕ} (hlow : n + 1 - w ≤ j) (hj : j < n) : n % w ≠ j % w := by
  intro heq
  have hzero := Nat.sub_mod_eq_zero_of_mod_eq heq
  rw [Nat.mod_eq_of_lt (by omega)] at hzero
  omega

theorem push (h : Layout cells head count w xs) (hw : 0 < w) (hlen : w ≤ cells.length) (x : α) :
    Layout (cells.set head x) ((head + 1) % w) (if count < w then count + 1 else count) w
      (xs ++ [x]) where
  head_eq := by
    rw [h.head_eq, Nat.mod_add_mod, List.length_append, List.length_singleton]
  count_eq := by
    rw [h.count_eq, List.length_append, List.length_singleton]
    split_ifs <;> omega
  cell_eq := by
    rw [List.length_append, List.length_singleton, h.head_eq]
    intro j hlow hj
    rcases Nat.lt_succ_iff_lt_or_eq.1 hj with hold | rfl
    · rw [List.getElem?_set_ne (mod_ne hlow hold), List.getElem?_append_left hold]
      exact h.cell_eq j (by omega) hold
    · have hin : xs.length % w < cells.length := (Nat.mod_lt _ hw).trans_le hlen
      rw [List.getElem?_set_self hin, List.getElem?_concat_length]

theorem length_take (h : Layout cells head count w xs) (hlen : w ≤ cells.length) :
    (cells.take count).length = count := by
  have hcount := h.count_eq
  rw [List.length_take]
  omega

/-- Read from the head around, the ring holds the recent values in order. -/
theorem rotate_take (h : Layout cells head count w xs) (hlen : w ≤ cells.length) :
    (cells.take count).rotate head = recent w xs := by
  have htake := h.length_take hlen
  have hcount := h.count_eq
  apply List.ext_getElem?
  intro i
  by_cases hi : i < count
  · rw [List.getElem?_rotate (htake.symm ▸ hi), htake, recent, List.getElem?_drop,
      List.getElem?_take_of_lt (Nat.mod_lt _ (by omega)), h.head_eq]
    rw [← h.cell_eq (xs.length - w + i) (by omega) (by omega)]
    congr 1
    rcases Nat.lt_or_ge xs.length w with hpart | hfull
    · have hall : count = xs.length := by omega
      rw [Nat.mod_eq_of_lt hpart, hall, Nat.add_mod_right, Nat.mod_eq_of_lt (by omega),
        Nat.mod_eq_of_lt (by omega)]
      omega
    · have hall : count = w := by omega
      rw [hall, Nat.add_mod_mod]
      have hsplit : i + xs.length = xs.length - w + i + w := by omega
      rw [hsplit, Nat.add_mod_right]
  · rw [List.getElem?_eq_none (by rw [List.length_rotate, htake]; omega),
      List.getElem?_eq_none (by rw [recent_length]; omega)]

/-- The cells in use hold exactly the recent values. -/
theorem take_perm (h : Layout cells head count w xs) (hlen : w ≤ cells.length) :
    (cells.take count).Perm (recent w xs) := by
  rw [← h.rotate_take hlen]
  exact (List.rotate_perm _ _).symm

end Layout

end Sandstar.RecentWindow
