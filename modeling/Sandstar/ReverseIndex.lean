import Sandstar.Table

set_option autoImplicit false

/-!
# A table and its reverse index

`Inverse` says that `index` finds exactly the key under which a value with the given
label is stored. A label then names at most one value.
-/
namespace Sandstar.ReverseIndex

variable {K V L : Type} [DecidableEq K] [DecidableEq L] {label : V → L}
  {m : Table K V} {index : Table L K}

def Inverse (label : V → L) (m : Table K V) (index : Table L K) : Prop :=
  ∀ a k, index.get a = some k ↔ ∃ v, m.get k = some v ∧ label v = a

theorem empty_inverse : Inverse label (Table.empty : Table K V) Table.empty := by
  intro a k
  constructor
  · intro h
    cases h
  · rintro ⟨v, hv, -⟩
    cases hv

theorem Inverse.unique (h : Inverse label m index) {k k' : K} {v v' : V} (hv : m.get k = some v)
    (hv' : m.get k' = some v') (hl : label v = label v') : k = k' := by
  have hk := (h (label v) k).2 ⟨v, hv, rfl⟩
  have hk' := (h (label v) k').2 ⟨v', hv', hl.symm⟩
  rw [hk] at hk'
  exact Option.some.inj hk'

theorem erase_inverse {k : K} {v : V} (h : Inverse label m index) (hv : m.get k = some v) :
    Inverse label (m.erase k) (index.erase (label v)) := by
  intro a k'
  rw [Table.get_erase]
  split_ifs with ha
  · constructor
    · intro hn
      cases hn
    · rintro ⟨v', hv', hl⟩
      rw [Table.get_erase] at hv'
      split_ifs at hv' with hk
      exact absurd (h.unique hv' hv (hl.trans ha)) hk
  · rw [h a k']
    constructor
    · rintro ⟨v', hv', hl⟩
      have hk : k' ≠ k := by
        rintro rfl
        rw [hv] at hv'
        cases hv'
        exact ha hl.symm
      exact ⟨v', by rw [Table.get_erase_ne _ hk]; exact hv', hl⟩
    · rintro ⟨v', hv', hl⟩
      rw [Table.get_erase] at hv'
      split_ifs at hv'
      exact ⟨v', hv', hl⟩

theorem insert_inverse {k : K} {v : V} (h : Inverse label m index) (hk : m.get k = none)
    (hl : index.get (label v) = none) :
    Inverse label (m.insert k v) (index.insert (label v) k) := by
  intro a k'
  rw [Table.get_insert, Table.get_insert]
  split_ifs with ha hkk hkk
  · subst hkk
    exact ⟨fun _ => ⟨v, rfl, ha.symm⟩, fun _ => rfl⟩
  · refine ⟨fun he => absurd (Option.some.inj he).symm hkk, ?_⟩
    rintro ⟨v', hv', hlab⟩
    have hsome := (h a k').2 ⟨v', hv', hlab⟩
    rw [ha, hl] at hsome
    cases hsome
  · subst hkk
    rw [h a k', hk]
    constructor
    · rintro ⟨v', hv', -⟩
      cases hv'
    · rintro ⟨v', hv', hlab⟩
      cases hv'
      exact absurd hlab.symm ha
  · exact h a k'

theorem modify_inverse {k : K} {f : V → V} (h : Inverse label m index)
    (hf : ∀ v, label (f v) = label v) : Inverse label (m.modify k f) index := by
  intro a k'
  rw [h a k', Table.get_modify]
  split_ifs
  · constructor
    · rintro ⟨v, hv, hl⟩
      exact ⟨f v, by rw [hv]; rfl, (hf v).trans hl⟩
    · rintro ⟨v, hv, hl⟩
      obtain ⟨w, hw, rfl⟩ := Option.map_eq_some_iff.1 hv
      exact ⟨w, hw, (hf w).symm.trans hl⟩
  · exact Iff.rfl

end Sandstar.ReverseIndex
