import Mathlib

set_option autoImplicit false

/-!
# The pieces of a split list

A list split at a separator: no piece holds the separator, the first piece starts the
list, and the pieces with the separator between them make the list again. What a join
keeps holds of joined pieces.
-/
namespace Sandstar.Splitting

variable {α : Type} [DecidableEq α] {sep : α}

theorem not_mem_of_mem_splitOn {cs piece : List α} (h : piece ∈ cs.splitOn sep) :
    sep ∉ piece := by
  induction cs generalizing piece with
  | nil =>
    rw [List.splitOn_nil, List.mem_singleton] at h
    simp [h]
  | cons c cs ih =>
    rw [List.splitOn_cons_eq_if_modifyHead] at h
    split_ifs at h with hc
    · rcases List.mem_cons.1 h with rfl | hmem
      · simp
      · exact ih hmem
    · cases hpieces : cs.splitOn sep with
      | nil => exact absurd hpieces (List.splitOn_ne_nil sep cs)
      | cons first pieces =>
        rw [hpieces, List.modifyHead_cons, List.mem_cons] at h
        rcases h with rfl | hmem
        · have hfirst : sep ∉ first := ih (by simp [hpieces])
          simp only [List.mem_cons, not_or]
          exact ⟨by rintro rfl; simp at hc, hfirst⟩
        · exact ih (by simp [hpieces, hmem])

theorem prefix_of_splitOn {cs first : List α} {pieces : List (List α)}
    (h : cs.splitOn sep = first :: pieces) : first <+: cs := by
  have hjoin : [sep].intercalate (cs.splitOn sep) = cs := List.intercalate_splitOn sep
  rw [← hjoin, h]
  cases pieces with
  | nil => rw [List.intercalate_singleton]
  | cons second pieces =>
    rw [List.intercalate_cons_cons, List.append_assoc]
    exact List.prefix_append _ _

omit [DecidableEq α] in
/-- What holds of the pieces and is kept by joining two lists holds of all of them joined. -/
theorem intercalate_of {P : List α → Prop} {seps : List α} {pieces : List (List α)}
    (hjoin : ∀ a b, P a → P b → P (a ++ seps ++ b)) (hne : pieces ≠ [])
    (h : ∀ piece ∈ pieces, P piece) : P (seps.intercalate pieces) := by
  induction pieces with
  | nil => exact absurd rfl hne
  | cons piece pieces ih =>
    have hpiece := h piece List.mem_cons_self
    cases pieces with
    | nil => rwa [List.intercalate_singleton]
    | cons second pieces =>
      have hrest := ih (List.cons_ne_nil _ _) fun p hp => h p (List.mem_cons_of_mem _ hp)
      rw [List.intercalate_cons_cons]
      exact hjoin _ _ hpiece hrest

end Sandstar.Splitting
