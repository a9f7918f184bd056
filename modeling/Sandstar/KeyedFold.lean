import Mathlib.Data.List.Nodup

set_option autoImplicit false

/-!
# Loops that touch one key per item

A store is looked at one key at a time. Where every item changes what is seen at its own
key only, what a loop leaves at a key is the work of the items of that key.
-/
namespace Sandstar.KeyedFold

variable {S R K V : Type} [DecidableEq K] {key : R → K} {view : S → K → V} {step : S → R → S}
  {entry : R → V → V}

theorem view_foldl
    (hstep : ∀ s r k, view (step s r) k = if k = key r then entry r (view s k) else view s k)
    (rs : List R) (s : S) (k : K) :
    view (rs.foldl step s) k =
      (rs.filter fun r => key r = k).foldl (fun v r => entry r v) (view s k) := by
  induction rs generalizing s with
  | nil => rfl
  | cons r rs ih =>
    rw [List.foldl_cons, ih, hstep]
    by_cases hk : key r = k
    · rw [List.filter_cons_of_pos (by simpa using hk), if_pos hk.symm]
      rfl
    · rw [List.filter_cons_of_neg (by simpa using hk), if_neg (Ne.symm hk)]

/-- Where keys differ a key has one item at most. -/
theorem filter_of_nodup {rs : List R} (h : (rs.map key).Nodup) (k : K) :
    (rs.filter fun r => key r = k) = [] ∨ ∃ r, (rs.filter fun r => key r = k) = [r] := by
  induction rs with
  | nil => exact .inl rfl
  | cons r rs ih =>
    rw [List.map_cons, List.nodup_cons] at h
    by_cases hk : key r = k
    · rw [List.filter_cons_of_pos (by simpa using hk)]
      have hrest : (rs.filter fun r => key r = k) = [] := by
        rw [List.filter_eq_nil_iff]
        intro r' hr' hk'
        have hsame : key r' = key r := (by simpa using hk' : key r' = k).trans hk.symm
        exact h.1 (hsame ▸ List.mem_map_of_mem hr')
      exact .inr ⟨r, by rw [hrest]⟩
    · rw [List.filter_cons_of_neg (by simpa using hk)]
      exact ih h.2

/-- What is kept by every item of a key is kept by the loop at it. -/
theorem foldl_keeps {I : V → Prop} {rs : List R} (hkeep : ∀ r ∈ rs, ∀ v, I v → I (entry r v))
    {v : V} (hv : I v) : I (rs.foldl (fun v r => entry r v) v) := by
  induction rs generalizing v with
  | nil => exact hv
  | cons r rs ih =>
    exact ih (fun r' hr' => hkeep r' (List.mem_cons_of_mem r hr')) (hkeep r List.mem_cons_self v hv)

end Sandstar.KeyedFold
