import Sandstar.Table

set_option autoImplicit false

namespace Sandstar.Rekeying

variable {K V : Type} [DecidableEq K]

/-- The values of a table stored into `t` under the keys that `f` gives, in the order of the
    walk. -/
def refile (f : K → K) (m : Table K V) (t : Table K V) (order : List K) : Table K V :=
  order.foldl (fun t k => match m.get k with
    | some v => t.insert (f k) v
    | none => t) t

def rekey (f : K → K) (order : List K) (m : Table K V) : Table K V :=
  refile f m Table.empty order

variable {f g : K → K} {m : Table K V}

theorem keys_refile {order : List K} (horder : ∀ k ∈ order, k ∈ m.keys) (t : Table K V) (a : K) :
    a ∈ (refile f m t order).keys ↔ a ∈ t.keys ∨ ∃ k ∈ order, f k = a := by
  induction order generalizing t with
  | nil => simp [refile]
  | cons k order ih =>
    obtain ⟨v, hv⟩ := (Table.mem_keys m k).1 (horder k List.mem_cons_self)
    have hrest := ih (fun k' hk' => horder k' (List.mem_cons_of_mem _ hk')) (t.insert (f k) v)
    simp only [refile, List.foldl_cons, hv] at hrest ⊢
    rw [hrest, Table.keys_insert, Finset.mem_insert]
    simp only [List.mem_cons, exists_eq_or_imp]
    constructor
    · rintro ((rfl | h) | h)
      · exact Or.inr (Or.inl rfl)
      · exact Or.inl h
      · exact Or.inr (Or.inr h)
    · rintro (h | rfl | h)
      · exact Or.inl (Or.inr h)
      · exact Or.inl (Or.inl rfl)
      · exact Or.inr h

theorem get_refile_other {order : List K} {a : K} (hnew : ∀ k ∈ order, f k ≠ a) (t : Table K V) :
    (refile f m t order).get a = t.get a := by
  induction order generalizing t with
  | nil => rfl
  | cons k order ih =>
    have hrest := fun t => ih (fun k' hk' => hnew k' (List.mem_cons_of_mem _ hk')) t
    simp only [refile, List.foldl_cons] at hrest ⊢
    rw [hrest]
    cases m.get k with
    | none => rfl
    | some v => exact Table.get_insert_ne t v (Ne.symm (hnew k List.mem_cons_self))

/-- Where the new keys differ, each holds the value of the old one. -/
theorem get_refile {order : List K} (hnodup : order.Nodup)
    (hinj : ∀ a ∈ order, ∀ b ∈ order, f a = f b → a = b) {k : K} (hk : k ∈ order) {v : V}
    (hv : m.get k = some v) (t : Table K V) : (refile f m t order).get (f k) = some v := by
  induction order generalizing t with
  | nil => cases hk
  | cons k' order ih =>
    rcases List.mem_cons.1 hk with rfl | hk
    · have hlater : ∀ b ∈ order, f b ≠ f k := by
        intro b hb heq
        have hsame := hinj b (List.mem_cons_of_mem _ hb) k List.mem_cons_self heq
        exact (List.nodup_cons.1 hnodup).1 (hsame ▸ hb)
      have hrest := get_refile_other (m := m) hlater (t.insert (f k) v)
      simp only [refile, List.foldl_cons, hv] at hrest ⊢
      rw [hrest, Table.get_insert_self]
    · have hrest := fun t => ih (List.nodup_cons.1 hnodup).2
        (fun a ha b hb => hinj a (List.mem_cons_of_mem _ ha) b (List.mem_cons_of_mem _ hb)) hk t
      simp only [refile, List.foldl_cons] at hrest ⊢
      exact hrest _

variable {order : List K} (horder : ∀ k, k ∈ order ↔ k ∈ m.keys)

include horder

theorem keys_rekey : (rekey f order m).keys = m.keys.image f := by
  ext a
  have hkeys := keys_refile (f := f) (fun k hk => (horder k).1 hk) Table.empty a
  rw [Finset.mem_image]
  refine hkeys.trans ?_
  simp only [horder]
  constructor
  · rintro (h | h)
    · exact absurd h (Finset.notMem_empty a)
    · exact h
  · exact Or.inr

theorem get_rekey (hnodup : order.Nodup) (hinj : Set.InjOn f m.keys) {k : K} (hk : k ∈ m.keys) :
    (rekey f order m).get (f k) = m.get k := by
  obtain ⟨v, hv⟩ := (Table.mem_keys m k).1 hk
  rw [hv]
  refine get_refile hnodup ?_ ((horder k).2 hk) hv Table.empty
  intro a ha b hb heq
  exact hinj ((horder a).1 ha) ((horder b).1 hb) heq

/-- There and back: the keys come back distinct, each to its own value. -/
theorem rekey_rekey_eq_iff (hnodup : order.Nodup) {order' : List K} (hnodup' : order'.Nodup)
    (horder' : ∀ k, k ∈ order' ↔ k ∈ (rekey f order m).keys) :
    rekey g order' (rekey f order m) = m ↔
      Set.InjOn (g ∘ f) m.keys ∧ ∀ k ∈ m.keys, m.get (g (f k)) = m.get k := by
  have hkeys : (rekey g order' (rekey f order m)).keys = m.keys.image (g ∘ f) := by
    rw [keys_rekey horder', keys_rekey horder, Finset.image_image]
  have hback : Set.InjOn (g ∘ f) m.keys → ∀ k ∈ m.keys,
      (rekey g order' (rekey f order m)).get (g (f k)) = m.get k := by
    intro hinj k hk
    have hf : Set.InjOn f m.keys := fun a ha b hb heq => hinj ha hb (congrArg g heq)
    have hg : Set.InjOn g (rekey f order m).keys := by
      intro a ha b hb heq
      rw [keys_rekey horder, Finset.mem_coe, Finset.mem_image] at ha hb
      obtain ⟨a, ha, rfl⟩ := ha
      obtain ⟨b, hb, rfl⟩ := hb
      rw [hinj ha hb heq]
    have hfk : f k ∈ (rekey f order m).keys := by
      rw [keys_rekey horder]
      exact Finset.mem_image_of_mem f hk
    rw [get_rekey horder' hnodup' hg hfk, get_rekey horder hnodup hf hk]
  constructor
  · intro h
    rw [h] at hkeys hback
    have hinj : Set.InjOn (g ∘ f) m.keys :=
      Finset.card_image_iff.1 (congrArg Finset.card hkeys.symm)
    exact ⟨hinj, hback hinj⟩
  · rintro ⟨hinj, hsame⟩
    have himage : m.keys.image (g ∘ f) = m.keys := by
      apply Finset.eq_of_subset_of_card_le
      · intro a ha
        obtain ⟨k, hk, rfl⟩ := Finset.mem_image.1 ha
        obtain ⟨v, hv⟩ := (Table.mem_keys m k).1 hk
        exact (Table.mem_keys m _).2 ⟨v, (hsame k hk).trans hv⟩
      · exact (Finset.card_image_of_injOn hinj).ge
    apply Table.ext
    intro a
    by_cases ha : a ∈ m.keys
    · rw [← himage] at ha
      obtain ⟨k, hk, rfl⟩ := Finset.mem_image.1 ha
      exact (hback hinj k hk).trans (hsame k hk).symm
    · have ha' : a ∉ (rekey g order' (rekey f order m)).keys := by rwa [hkeys, himage]
      rw [(Table.get_eq_none_iff m a).2 ha, (Table.get_eq_none_iff _ a).2 ha']

end Sandstar.Rekeying
