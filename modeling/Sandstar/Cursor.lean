import Mathlib

set_option autoImplicit false

/-!
# Reading at a cursor

Indexing and slicing that can fail: an access outside the data is an outcome of its
own, apart from input that a reader rejects. The append lemmas read a part back from
between what precedes and what follows it.
-/
namespace Sandstar.Cursor

inductive ReadError where
  | malformed
  | outOfBounds
  deriving DecidableEq, Repr

variable {α : Type}

def byteAt (data : List α) (i : ℕ) : Except ReadError α :=
  match data[i]? with
  | some b => .ok b
  | none => .error .outOfBounds

def slice (data : List α) (start stop : ℕ) : Except ReadError (List α) :=
  if start ≤ stop ∧ stop ≤ data.length then .ok ((data.drop start).take (stop - start))
  else .error .outOfBounds

/-- The first position from `pos` on that holds `stop`, or the end of the data. -/
def scanTo [DecidableEq α] (stop : α) (data : List α) : ℕ → ℕ → Except ReadError ℕ
  | 0, pos => .ok pos
  | fuel + 1, pos =>
    if pos < data.length then do
      let b ← byteAt data pos
      if b ≠ stop then scanTo stop data fuel (pos + 1) else .ok pos
    else .ok pos

theorem byteAt_of_lt (data : List α) (i : ℕ) (h : i < data.length) :
    ∃ b, byteAt data i = .ok b := by
  unfold byteAt
  rw [List.getElem?_eq_getElem h]
  exact ⟨_, rfl⟩

theorem slice_of_le (data : List α) (start stop : ℕ) (h : start ≤ stop)
    (hs : stop ≤ data.length) : ∃ s, slice data start stop = .ok s := by
  unfold slice
  rw [if_pos ⟨h, hs⟩]
  exact ⟨_, rfl⟩

theorem byteAt_append (data : List α) (pre : List α) (b : α) (post : List α)
    (h : data = pre ++ b :: post) : byteAt data pre.length = .ok b := by
  subst h
  unfold byteAt
  simp

theorem slice_append (data pre mid post : List α) (h : data = pre ++ (mid ++ post)) :
    slice data pre.length (pre.length + mid.length) = .ok mid := by
  subst h
  unfold slice
  rw [if_pos ⟨Nat.le_add_right _ _, by simp⟩]
  simp

section Scan

variable [DecidableEq α] {stop : α}

/-- The scan stays inside the data and never reads past its end. -/
theorem scanTo_bounds (stop : α) (data : List α) (fuel pos : ℕ) (h : pos ≤ data.length) :
    ∃ e, scanTo stop data fuel pos = .ok e ∧ pos ≤ e ∧ e ≤ data.length := by
  induction fuel generalizing pos with
  | zero => exact ⟨pos, rfl, le_refl pos, h⟩
  | succ fuel ih =>
    unfold scanTo
    by_cases hlt : pos < data.length
    · obtain ⟨b, hb⟩ := byteAt_of_lt data pos hlt
      rw [if_pos hlt, hb]
      change ∃ e, (if b ≠ stop then scanTo stop data fuel (pos + 1) else .ok pos) = .ok e ∧ _
      split_ifs
      · obtain ⟨e, he, hle, hend⟩ := ih (pos + 1) hlt
        exact ⟨e, he, by omega, hend⟩
      · exact ⟨pos, rfl, le_refl pos, h⟩
    · rw [if_neg hlt]
      exact ⟨pos, rfl, le_refl pos, h⟩

theorem scanTo_append {data : List α} (pre mid post : List α) (fuel : ℕ)
    (h : data = pre ++ (mid ++ stop :: post)) (hmid : stop ∉ mid) (hfuel : mid.length ≤ fuel) :
    scanTo stop data fuel pre.length = .ok (pre.length + mid.length) := by
  induction mid generalizing pre fuel with
  | nil =>
    cases fuel with
    | zero => rfl
    | succ fuel =>
      have hlt : pre.length < data.length := by simp [h]
      unfold scanTo
      rw [if_pos hlt, byteAt_append data pre stop post h]
      change (if stop ≠ stop then _ else _) = _
      rw [if_neg (fun hn => hn rfl)]
      rfl
  | cons b mid ih =>
    obtain ⟨k, rfl⟩ : ∃ k, fuel = k + 1 :=
      ⟨fuel - 1, by simp only [List.length_cons] at hfuel; omega⟩
    have hb : b ≠ stop := fun e => hmid (e ▸ List.mem_cons_self)
    have hlt : pre.length < data.length := by simp [h]
    have hrest := ih (pre ++ [b]) k (by rw [h]; simp)
      (fun hm => hmid (List.mem_cons_of_mem _ hm)) (by simpa using hfuel)
    unfold scanTo
    rw [if_pos hlt, byteAt_append data pre b (mid ++ stop :: post) h]
    change (if b ≠ stop then _ else _) = _
    rw [if_pos hb]
    rw [List.length_append, List.length_singleton] at hrest
    rw [hrest, List.length_cons, Nat.add_assoc, Nat.add_comm 1]

end Scan

end Sandstar.Cursor
