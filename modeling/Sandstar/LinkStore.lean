import Mathlib

set_option autoImplicit false
set_option linter.unusedSectionVars false

/-!
# Links stored on both endpoints

A store gives every present node the list of the links it holds. `Symmetric` says
that a stored link is held exactly once by each of its two endpoints; `Local`, that
nobody else holds it. Edges are the stored links that are no self-loops.
-/
namespace Sandstar

abbrev LinkStore (K E : Type) := K → Option (List E)

namespace LinkStore

variable {K E : Type} [DecidableEq K] [DecidableEq E]

def Stored (f : LinkStore K E) (k : K) (l : E) : Prop := ∃ ls, f k = some ls ∧ l ∈ ls

def StoredOnce (f : LinkStore K E) (k : K) (l : E) : Prop := ∃ ls, f k = some ls ∧ ls.count l = 1

def pushOnce (l : E) (ls : List E) : List E := if l ∈ ls then ls else ls ++ [l]

/-- The target's list grows first, then the source's, if the source is there. -/
def store (src tgt : E → K) (f : LinkStore K E) (l : E) : LinkStore K E := fun k =>
  if k = tgt l then (f k).map (· ++ [l])
  else if k = src l then (f k).map (pushOnce l) else f k

def erase (src tgt : E → K) (f : LinkStore K E) (l : E) : LinkStore K E := fun k =>
  if k = src l ∨ k = tgt l then (f k).map (·.filter (· ≠ l)) else f k

def detach (src tgt : E → K) (f : LinkStore K E) (ls : List E) : LinkStore K E := fun k =>
  (f k).map (·.filter fun l => ¬ (l ∈ ls ∧ (k = src l ∨ k = tgt l)))

def delete (f : LinkStore K E) (id : K) : LinkStore K E := fun k => if k = id then none else f k

def clear (f : LinkStore K E) (id : K) : LinkStore K E := fun k =>
  if k = id then some [] else f k

section Stored

variable {src tgt : E → K} {f : LinkStore K E} {k id : K} {l m : E} {ls : List E}

theorem StoredOnce.stored (h : StoredOnce f k l) : Stored f k l := by
  obtain ⟨ls, hls, hc⟩ := h
  refine ⟨ls, hls, List.count_pos_iff.1 ?_⟩
  rw [hc]
  exact Nat.one_pos

theorem stored_store :
    Stored (store src tgt f l) k m ↔
      Stored f k m ∨ (m = l ∧ (k = src l ∨ k = tgt l) ∧ (f k).isSome) := by
  unfold Stored store
  cases hf : f k with
  | none => split_ifs <;> simp
  | some ls =>
    by_cases ht : k = tgt l
    · simp [ht, or_comm]
    · by_cases hs : k = src l
      · simp only [if_neg ht, if_pos hs, Option.map_some, pushOnce]
        by_cases hm : l ∈ ls
        · simp only [hm, if_true, Option.some.injEq, exists_eq_left', Option.isSome_some]
          constructor
          · exact Or.inl
          · rintro (h | ⟨rfl, -, -⟩)
            · exact h
            · exact hm
        · simp [hm, hs]
      · simp [ht, hs]

theorem stored_erase :
    Stored (erase src tgt f l) k m ↔ Stored f k m ∧ ¬ (m = l ∧ (k = src l ∨ k = tgt l)) := by
  unfold Stored erase
  cases hf : f k with
  | none => split_ifs <;> simp
  | some ls =>
    by_cases hk : k = src l ∨ k = tgt l
    · simp [hk]
    · simp [hk]

theorem stored_detach :
    Stored (detach src tgt f ls) k m ↔
      Stored f k m ∧ ¬ (m ∈ ls ∧ (k = src m ∨ k = tgt m)) := by
  unfold Stored detach
  cases hf : f k with
  | none => simp
  | some ms =>
    simp only [Option.map_some, Option.some.injEq, exists_eq_left', List.mem_filter,
      decide_eq_true_eq]

theorem not_stored_detach (hlocal : ∀ l, Stored f k l → k = src l ∨ k = tgt l)
    (hk : f k = some ls) : ¬ Stored (detach src tgt f ls) k m := by
  intro h
  obtain ⟨hold, hn⟩ := stored_detach.1 h
  obtain ⟨ms, hms, hm⟩ := hold
  rw [hk] at hms
  cases hms
  exact hn ⟨hm, hlocal m ⟨ls, hk, hm⟩⟩

theorem stored_delete : Stored (delete f id) k m ↔ k ≠ id ∧ Stored f k m := by
  unfold Stored delete
  by_cases hk : k = id <;> simp [hk]

theorem stored_clear : Stored (clear f id) k m ↔ k ≠ id ∧ Stored f k m := by
  unfold Stored clear
  by_cases hk : k = id <;> simp [hk]

theorem once_store_ne (hm : m ≠ l) (h : StoredOnce f k m) :
    StoredOnce (store src tgt f l) k m := by
  obtain ⟨ls, hls, hc⟩ := h
  have happ : (ls ++ [l]).count m = 1 := by
    rw [List.count_append, hc, List.count_singleton]
    simp [Ne.symm hm]
  unfold StoredOnce store
  rw [hls]
  split_ifs
  · exact ⟨ls ++ [l], rfl, happ⟩
  · refine ⟨pushOnce l ls, rfl, ?_⟩
    unfold pushOnce
    split_ifs
    · exact hc
    · exact happ
  · exact ⟨ls, rfl, hc⟩

theorem once_erase_ne (hm : m ≠ l) (h : StoredOnce f k m) :
    StoredOnce (erase src tgt f l) k m := by
  obtain ⟨ls, hls, hc⟩ := h
  unfold StoredOnce erase
  rw [hls]
  split_ifs
  · exact ⟨_, rfl, by rw [List.count_filter (by simpa using hm)]; exact hc⟩
  · exact ⟨ls, rfl, hc⟩

theorem once_detach (hm : m ∉ ls) (h : StoredOnce f k m) :
    StoredOnce (detach src tgt f ls) k m := by
  obtain ⟨ms, hms, hc⟩ := h
  unfold StoredOnce detach
  rw [hms]
  exact ⟨_, rfl, by rw [List.count_filter (by simp [hm])]; exact hc⟩

theorem once_delete (hk : k ≠ id) (h : StoredOnce f k m) : StoredOnce (delete f id) k m := by
  unfold StoredOnce delete
  rw [if_neg hk]
  exact h

theorem once_clear (hk : k ≠ id) (h : StoredOnce f k m) : StoredOnce (clear f id) k m := by
  unfold StoredOnce clear
  rw [if_neg hk]
  exact h

end Stored

section Symmetric

variable {src tgt : E → K} {f g : LinkStore K E} {id : K} {l : E}

def Symmetric (src tgt : E → K) (f : LinkStore K E) : Prop :=
  ∀ k l, Stored f k l → StoredOnce f (src l) l ∧ StoredOnce f (tgt l) l

def Local (src tgt : E → K) (f : LinkStore K E) : Prop :=
  ∀ k l, Stored f k l → k = src l ∨ k = tgt l

/-- Symmetry survives every change that only drops links, and drops them everywhere. -/
theorem Symmetric.restrict (h : Symmetric src tgt f) (kept : E → Prop)
    (hsub : ∀ k l, Stored g k l → kept l ∧ Stored f k l)
    (honce : ∀ k l, kept l → k = src l ∨ k = tgt l → StoredOnce f k l → StoredOnce g k l) :
    Symmetric src tgt g := by
  intro k l hl
  obtain ⟨hk, hf⟩ := hsub k l hl
  obtain ⟨hs, ht⟩ := h k l hf
  exact ⟨honce _ l hk (Or.inl rfl) hs, honce _ l hk (Or.inr rfl) ht⟩

theorem store_symmetric (h : Symmetric src tgt f) (hnew : ¬ Stored f (tgt l) l)
    (hs : (f (src l)).isSome) (ht : (f (tgt l)).isSome) :
    Symmetric src tgt (store src tgt f l) := by
  have hfresh : ∀ k, ¬ Stored f k l := fun k hk => hnew (h k l hk).2.stored
  have hcount : ∀ {ls : List E} {k : K}, f k = some ls → (ls ++ [l]).count l = 1 := by
    intro ls k hls
    rw [List.count_append, List.count_eq_zero_of_not_mem fun hm => hfresh k ⟨ls, hls, hm⟩]
    simp
  have honce : ∀ k, k = src l ∨ k = tgt l → (f k).isSome →
      StoredOnce (store src tgt f l) k l := by
    intro k hk hsome
    obtain ⟨ls, hls⟩ := Option.isSome_iff_exists.1 hsome
    have hpush : pushOnce l ls = ls ++ [l] := if_neg fun hm => hfresh k ⟨ls, hls, hm⟩
    unfold StoredOnce store
    rw [hls]
    split_ifs with ht hs
    · exact ⟨ls ++ [l], rfl, hcount hls⟩
    · exact ⟨ls ++ [l], congrArg some hpush, hcount hls⟩
    · exact absurd hk (by simp [ht, hs])
  intro k m hm
  rcases stored_store.1 hm with hold | ⟨rfl, -, -⟩
  · have hne : m ≠ l := by
      rintro rfl
      exact hfresh k hold
    exact ⟨once_store_ne hne (h k m hold).1, once_store_ne hne (h k m hold).2⟩
  · exact ⟨honce _ (Or.inl rfl) hs, honce _ (Or.inr rfl) ht⟩

theorem erase_symmetric (h : Symmetric src tgt f) (hl : Local src tgt f) :
    Symmetric src tgt (erase src tgt f l) := by
  refine h.restrict (· ≠ l) (fun k m hm => ?_) fun k m hne _ ho => once_erase_ne hne ho
  obtain ⟨hold, hn⟩ := stored_erase.1 hm
  refine ⟨?_, hold⟩
  rintro rfl
  exact hn ⟨rfl, hl k m hold⟩

/-- A node may go, or lose its links, when all it holds are self-loops. -/
theorem Symmetric.untouched (h : Symmetric src tgt f) (hl : Local src tgt f)
    (hloops : ∀ l, Stored f id l → src l = tgt l) {k : K} {l : E} (hk : k ≠ id)
    (hm : Stored f k l) : src l ≠ id ∧ tgt l ≠ id := by
  have hsym := h k l hm
  have hends := hl k l hm
  constructor
  · intro e
    have hloop := hloops l (e ▸ hsym.1.stored)
    rw [← hloop, e] at hends
    exact hk (hends.elim (fun e => e) fun e => e)
  · intro e
    have hloop := hloops l (e ▸ hsym.2.stored)
    rw [hloop, e] at hends
    exact hk (hends.elim (fun e => e) fun e => e)

theorem delete_symmetric (h : Symmetric src tgt f) (hl : Local src tgt f)
    (hloops : ∀ l, Stored f id l → src l = tgt l) : Symmetric src tgt (delete f id) := by
  refine h.restrict (fun l => src l ≠ id ∧ tgt l ≠ id) (fun k m hm => ?_) fun k m hk he ho => ?_
  · obtain ⟨hk, hold⟩ := stored_delete.1 hm
    exact ⟨h.untouched hl hloops hk hold, hold⟩
  · refine once_delete ?_ ho
    rcases he with rfl | rfl
    · exact hk.1
    · exact hk.2

theorem clear_symmetric (h : Symmetric src tgt f) (hl : Local src tgt f)
    (hloops : ∀ l, Stored f id l → src l = tgt l) : Symmetric src tgt (clear f id) := by
  refine h.restrict (fun l => src l ≠ id ∧ tgt l ≠ id) (fun k m hm => ?_) fun k m hk he ho => ?_
  · obtain ⟨hk, hold⟩ := stored_clear.1 hm
    exact ⟨h.untouched hl hloops hk hold, hold⟩
  · refine once_clear ?_ ho
    rcases he with rfl | rfl
    · exact hk.1
    · exact hk.2

theorem detach_symmetric (h : Symmetric src tgt f) (hl : Local src tgt f) (ls : List E) :
    Symmetric src tgt (detach src tgt f ls) := by
  refine h.restrict (· ∉ ls) (fun k m hm => ?_) fun k m hne _ ho => once_detach hne ho
  obtain ⟨hold, hn⟩ := stored_detach.1 hm
  exact ⟨fun hmem => hn ⟨hmem, hl k m hold⟩, hold⟩

theorem Local.mono (h : Local src tgt f) (hsub : ∀ k l, Stored g k l → Stored f k l) :
    Local src tgt g :=
  fun k l hl => h k l (hsub k l hl)

theorem detach_local (h : Local src tgt f) (ls : List E) : Local src tgt (detach src tgt f ls) :=
  h.mono fun _ _ hl => (stored_detach.1 hl).1

theorem store_local (h : Local src tgt f) : Local src tgt (store src tgt f l) := by
  intro k m hm
  rcases stored_store.1 hm with hold | ⟨rfl, hk, -⟩
  · exact h k m hold
  · exact hk

theorem not_symmetric_of_absent {k : K} (hl : Stored f k l)
    (h : ¬ Stored f (src l) l ∨ ¬ Stored f (tgt l) l) : ¬ Symmetric src tgt f := by
  intro hs
  rcases h with h | h
  · exact h (hs k l hl).1.stored
  · exact h (hs k l hl).2.stored

/-- A link that leaves `id` survives on its other endpoint when `id` is emptied. -/
theorem not_symmetric_of_emptied (h : Symmetric src tgt f) (hl : Local src tgt f)
    (hid : Stored f id l) (hne : src l ≠ tgt l) (hempty : ¬ Stored g id l)
    (hkeep : ∀ k, k ≠ id → Stored f k l → Stored g k l) : ¬ Symmetric src tgt g := by
  have hsym := h id l hid
  rcases hl id l hid with e | e
  · exact not_symmetric_of_absent
      (hkeep (tgt l) (fun e' => hne (e.symm.trans e'.symm)) hsym.2.stored)
      (Or.inl (e ▸ hempty))
  · exact not_symmetric_of_absent (hkeep (src l) (fun e' => hne (e'.trans e)) hsym.1.stored)
      (Or.inr (e ▸ hempty))

end Symmetric

section Edges

variable {src tgt : E → K} {f g : LinkStore K E} {id : K} {l : E}

def Edge (src tgt : E → K) (f : LinkStore K E) (a b : K) : Prop :=
  ∃ k l, Stored f k l ∧ src l = a ∧ tgt l = b ∧ a ≠ b

def Acyclic (src tgt : E → K) (f : LinkStore K E) : Prop :=
  ∀ a, ¬ Relation.TransGen (Edge src tgt f) a a

/-- Every edge can be found on the node it leaves. -/
def AtSource (src tgt : E → K) (f : LinkStore K E) : Prop :=
  ∀ k l, Stored f k l → src l ≠ tgt l → Stored f (src l) l

theorem Edge.mono (hsub : ∀ k l, Stored g k l → Stored f k l) {a b : K}
    (h : Edge src tgt g a b) : Edge src tgt f a b := by
  obtain ⟨k, l, hl, hab⟩ := h
  exact ⟨k, l, hsub k l hl, hab⟩

theorem Acyclic.of_edges (h : Acyclic src tgt f)
    (hsub : ∀ a b, Edge src tgt g a b → Edge src tgt f a b) : Acyclic src tgt g :=
  fun a ha => h a (Relation.TransGen.mono hsub a a ha)

theorem Acyclic.mono (h : Acyclic src tgt f) (hsub : ∀ k l, Stored g k l → Stored f k l) :
    Acyclic src tgt g :=
  h.of_edges fun _ _ he => he.mono hsub

theorem edge_store {a b : K} (h : Edge src tgt (store src tgt f l) a b) :
    Edge src tgt f a b ∨ (a = src l ∧ b = tgt l) := by
  obtain ⟨k, m, hm, ha, hb, hne⟩ := h
  rcases stored_store.1 hm with hold | ⟨rfl, -, -⟩
  · exact Or.inl ⟨k, m, hold, ha, hb, hne⟩
  · exact Or.inr ⟨ha.symm, hb.symm⟩

/-- A path in the larger graph either avoids the new edge or splits around it. -/
theorem transGen_store_cases {a b : K}
    (h : Relation.TransGen (Edge src tgt (store src tgt f l)) a b) :
    Relation.TransGen (Edge src tgt f) a b ∨
      (Relation.ReflTransGen (Edge src tgt f) a (src l) ∧
        Relation.ReflTransGen (Edge src tgt f) (tgt l) b) := by
  induction h with
  | single h =>
    rcases edge_store h with h | ⟨rfl, rfl⟩
    · exact Or.inl (.single h)
    · exact Or.inr ⟨.refl, .refl⟩
  | tail _ h ih =>
    rcases edge_store h with h | ⟨rfl, rfl⟩
    · rcases ih with ih | ⟨hs, ht⟩
      · exact Or.inl (ih.tail h)
      · exact Or.inr ⟨hs, ht.tail h⟩
    · rcases ih with ih | ⟨hs, -⟩
      · exact Or.inr ⟨ih.to_reflTransGen, .refl⟩
      · exact Or.inr ⟨hs, .refl⟩

/-- A link whose target does not lead back to its source closes no cycle. -/
theorem store_acyclic (h : Acyclic src tgt f)
    (hback : src l ≠ tgt l → ¬ Relation.ReflTransGen (Edge src tgt f) (tgt l) (src l)) :
    Acyclic src tgt (store src tgt f l) := by
  by_cases hloop : src l = tgt l
  · refine h.of_edges fun a b he => ?_
    rcases edge_store he with hf | ⟨rfl, rfl⟩
    · exact hf
    · obtain ⟨-, -, -, -, -, hne⟩ := he
      exact absurd hloop hne
  · intro a ha
    rcases transGen_store_cases ha with ha | ⟨hs, ht⟩
    · exact h a ha
    · exact hback hloop (ht.trans hs)

theorem store_atSource (h : AtSource src tgt f) (hs : (f (src l)).isSome) :
    AtSource src tgt (store src tgt f l) := by
  intro k m hm hne
  rcases stored_store.1 hm with hold | ⟨rfl, -, -⟩
  · exact stored_store.2 (Or.inl (h k m hold hne))
  · exact stored_store.2 (Or.inr ⟨rfl, Or.inl rfl, hs⟩)

theorem erase_atSource (h : AtSource src tgt f) (hl : Local src tgt f) :
    AtSource src tgt (erase src tgt f l) := by
  intro k m hm hne
  obtain ⟨hold, hn⟩ := stored_erase.1 hm
  refine stored_erase.2 ⟨h k m hold hne, ?_⟩
  rintro ⟨rfl, -⟩
  exact hn ⟨rfl, hl k m hold⟩

theorem detach_atSource (h : AtSource src tgt f) (hl : Local src tgt f) (ls : List E) :
    AtSource src tgt (detach src tgt f ls) := by
  intro k m hm hne
  obtain ⟨hold, hn⟩ := stored_detach.1 hm
  exact stored_detach.2 ⟨h k m hold hne, fun hm => hn ⟨hm.1, hl k m hold⟩⟩

/-- Nobody may depend on the copies that go with `id`: no edge leaves it. -/
theorem AtSource.src_ne (h : AtSource src tgt f)
    (hout : ∀ l, Stored f id l → src l = id → tgt l = id) {k : K} (hm : Stored f k l)
    (hne : src l ≠ tgt l) : src l ≠ id := by
  intro e
  exact hne (e.trans (hout l (e ▸ h k l hm hne) e).symm)

theorem delete_atSource (h : AtSource src tgt f)
    (hout : ∀ l, Stored f id l → src l = id → tgt l = id) :
    AtSource src tgt (delete f id) := by
  intro k m hm hne
  obtain ⟨-, hold⟩ := stored_delete.1 hm
  exact stored_delete.2 ⟨h.src_ne hout hold hne, h k m hold hne⟩

theorem clear_atSource (h : AtSource src tgt f)
    (hout : ∀ l, Stored f id l → src l = id → tgt l = id) :
    AtSource src tgt (clear f id) := by
  intro k m hm hne
  obtain ⟨-, hold⟩ := stored_clear.1 hm
  exact stored_clear.2 ⟨h.src_ne hout hold hne, h k m hold hne⟩

end Edges

end LinkStore
end Sandstar
