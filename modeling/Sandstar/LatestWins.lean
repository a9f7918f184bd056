import Mathlib

set_option autoImplicit false

/-!
# The last writer wins

A cell holds at most one value and gives it up for a strictly later one. After a list of
offers it holds a latest value among those held and offered; where no two offers tie, which
one that is does not depend on the order of the offers or on their repetition.
-/
namespace Sandstar.LatestWins

variable {P T : Type} [LinearOrder T] (time : P → T)

def pick (held : Option P) (p : P) : Option P :=
  match held with
  | some q => if time q < time p then some p else some q
  | none => some p

/-- A latest value among the one held and those offered, the one held where it ties. -/
structure IsLatest (held : Option P) (offered : List P) (r : Option P) : Prop where
  source : ∀ p, r = some p → held = some p ∨ p ∈ offered
  latest : ∀ q, held = some q ∨ q ∈ offered → ∃ p, r = some p ∧ time q ≤ time p
  held_first : ∀ q p, held = some q → r = some p → time p = time q → p = q

variable {time}

theorem pick_source {held : Option P} {p q : P} (h : pick time held p = some q) :
    held = some q ∨ q = p := by
  unfold pick at h
  split at h
  · split_ifs at h
    · exact Or.inr (Option.some.inj h).symm
    · exact Or.inl h
  · exact Or.inr (Option.some.inj h).symm

theorem pick_later (held : Option P) (p : P) :
    ∃ r, pick time held p = some r ∧ time p ≤ time r ∧ ∀ q, held = some q → time q ≤ time r := by
  cases held with
  | none => exact ⟨p, rfl, le_rfl, nofun⟩
  | some q =>
    unfold pick
    by_cases hlt : time q < time p
    · refine ⟨p, if_pos hlt, le_rfl, ?_⟩
      intro _ heq
      cases heq
      exact hlt.le
    · refine ⟨q, if_neg hlt, not_lt.1 hlt, ?_⟩
      intro _ heq
      cases heq
      exact le_rfl

theorem isLatest_foldl (held : Option P) (offered : List P) :
    IsLatest time held offered (offered.foldl (pick time) held) := by
  induction offered generalizing held with
  | nil =>
    refine ⟨fun p hp => Or.inl hp, ?_, ?_⟩
    · rintro q (hq | hq)
      · exact ⟨q, hq, le_rfl⟩
      · cases hq
    · rintro q p hq hp -
      exact Option.some.inj (hp.symm.trans hq)
  | cons p offered ih =>
    have h := ih (pick time held p)
    obtain ⟨r, hr, hp, hheld⟩ := @pick_later P T _ time held p
    rw [List.foldl_cons]
    refine ⟨?_, ?_, ?_⟩
    · intro x hx
      rcases h.source x hx with hx | hx
      · rcases pick_source hx with hx | rfl
        · exact Or.inl hx
        · exact Or.inr List.mem_cons_self
      · exact Or.inr (List.mem_cons_of_mem _ hx)
    · intro q hq
      obtain ⟨x, hx, hle⟩ := h.latest r (Or.inl hr)
      rcases hq with hq | hq
      · exact ⟨x, hx, (hheld q hq).trans hle⟩
      · rcases List.mem_cons.1 hq with rfl | hq
        · exact ⟨x, hx, hp.trans hle⟩
        · exact h.latest q (Or.inr hq)
    · intro q x hq hx htie
      obtain ⟨x', hx', hle⟩ := h.latest r (Or.inl hr)
      rw [hx] at hx'
      cases hx'
      have hrq : time r = time q := le_antisymm (hle.trans htie.le) (hheld q hq)
      have hkept : pick time held p = some q := by
        rw [hq] at hr ⊢
        unfold pick at hr ⊢
        by_cases hlt : time q < time p
        · exact absurd (hp.trans hrq.le) (not_le.2 hlt)
        · exact if_neg hlt
      exact h.held_first q x hkept hx htie

/-- Where no two offers tie, the latest value is determined by what was offered. -/
theorem IsLatest.unique {held : Option P} {offered offered' : List P} {r r' : Option P}
    (h : IsLatest time held offered r) (h' : IsLatest time held offered' r')
    (hsame : ∀ p, p ∈ offered' ↔ p ∈ offered)
    (hdistinct : ∀ p ∈ offered, ∀ q ∈ offered, time p = time q → p = q) : r = r' := by
  have hsource' : ∀ p, r' = some p → held = some p ∨ p ∈ offered := fun p hp =>
    (h'.source p hp).imp_right (hsame p).1
  cases r with
  | none =>
    cases r' with
    | none => rfl
    | some p =>
      obtain ⟨q, hq, -⟩ := h.latest p (hsource' p rfl)
      cases hq
  | some p =>
    obtain ⟨p', hp', hle⟩ := h'.latest p ((h.source p rfl).imp_right (hsame p).2)
    obtain ⟨p'', hp'', hle'⟩ := h.latest p' (hsource' p' hp')
    cases hp''
    have htie : time p = time p' := le_antisymm hle hle'
    have heq : p = p' := by
      rcases h.source p rfl with hheld | hin
      · exact (h'.held_first p p' hheld hp' htie.symm).symm
      · rcases hsource' p' hp' with hheld' | hin'
        · exact h.held_first p' p hheld' rfl htie
        · exact hdistinct p hin p' hin' htie
    rw [hp', heq]

theorem IsLatest.map {Q : Type} {time' : Q → T} {held : Option P} {offered : List P}
    {r : Option P} (h : IsLatest time held offered r) (f : P → Q)
    (hf : ∀ p, time' (f p) = time p) :
    IsLatest time' (held.map f) (offered.map f) (r.map f) := by
  refine ⟨?_, ?_, ?_⟩
  · intro p' hp'
    obtain ⟨p, hp, rfl⟩ := Option.map_eq_some_iff.1 hp'
    exact (h.source p hp).imp (fun hheld => by rw [hheld]; rfl) List.mem_map_of_mem
  · intro q' hq'
    have hq : ∃ q, (held = some q ∨ q ∈ offered) ∧ f q = q' := by
      rcases hq' with hq' | hq'
      · obtain ⟨q, hq, rfl⟩ := Option.map_eq_some_iff.1 hq'
        exact ⟨q, Or.inl hq, rfl⟩
      · obtain ⟨q, hq, rfl⟩ := List.mem_map.1 hq'
        exact ⟨q, Or.inr hq, rfl⟩
    obtain ⟨q, hq, rfl⟩ := hq
    obtain ⟨p, hp, hle⟩ := h.latest q hq
    exact ⟨f p, by rw [hp]; rfl, by rwa [hf, hf]⟩
  · intro q' p' hq' hp' htie
    obtain ⟨q, hq, rfl⟩ := Option.map_eq_some_iff.1 hq'
    obtain ⟨p, hp, rfl⟩ := Option.map_eq_some_iff.1 hp'
    rw [hf, hf] at htie
    rw [h.held_first q p hq hp htie]

end Sandstar.LatestWins
