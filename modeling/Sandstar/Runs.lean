import Mathlib

set_option autoImplicit false

/-!
# Runs of a deterministic step function

`states` lists every state a run visits, the initial one included. The two
rules below carry an invariant along a run, and turn an exact one-step
condition into an exact condition on whole runs.
-/
namespace Sandstar.Runs

variable {S A : Type} (step : S → A → S)

def run (s : S) (as : List A) : S := as.foldl step s

def states (s : S) : List A → List S
  | [] => [s]
  | a :: as => s :: states (step s a) as

/-- Every step of the run meets `ok` in the state it starts from. -/
def Along (ok : S → A → Prop) (s : S) : List A → Prop
  | [] => True
  | a :: as => ok s a ∧ Along ok (step s a) as

theorem run_cons (s : S) (a : A) (as : List A) :
    run step s (a :: as) = run step (step s a) as := rfl

theorem run_append (s : S) (as bs : List A) :
    run step s (as ++ bs) = run step (run step s as) bs := by
  unfold run
  exact List.foldl_append

theorem run_concat (s : S) (as : List A) (a : A) :
    run step s (as ++ [a]) = step (run step s as) a := by
  rw [run_append]
  rfl

theorem run_mem_states (s : S) (as : List A) : run step s as ∈ states step s as := by
  induction as generalizing s with
  | nil => exact List.mem_singleton.2 rfl
  | cons a as ih => exact List.mem_cons_of_mem _ (ih (step s a))

theorem states_head (s : S) (as : List A) : s ∈ states step s as := by
  cases as with
  | nil => exact List.mem_singleton.2 rfl
  | cons a as => exact List.mem_cons_self

/-- The invariant rule: what holds first and survives every step holds throughout. -/
theorem states_invariant {ok : S → A → Prop} {I : S → Prop}
    (hstep : ∀ s a, I s → ok s a → I (step s a)) {s : S} {as : List A}
    (hs : I s) (hok : Along step ok s as) : ∀ t ∈ states step s as, I t := by
  induction as generalizing s with
  | nil =>
    intro t ht
    rw [List.mem_singleton.1 ht]
    exact hs
  | cons a as ih =>
    intro t ht
    rcases List.mem_cons.1 ht with rfl | ht
    · exact hs
    · exact ih (hstep s a hs hok.1) hok.2 t ht

theorem along_true (s : S) (as : List A) : Along step (fun _ _ => True) s as := by
  induction as generalizing s with
  | nil => trivial
  | cons a as ih => exact ⟨trivial, ih (step s a)⟩

theorem along_append {ok : S → A → Prop} {s : S} {as bs : List A} :
    Along step ok s (as ++ bs) ↔ Along step ok s as ∧ Along step ok (run step s as) bs := by
  induction as generalizing s with
  | nil => exact ⟨fun h => ⟨trivial, h⟩, fun h => h.2⟩
  | cons a as ih =>
    rw [run_cons]
    constructor
    · intro h
      obtain ⟨hleft, hright⟩ := ih.1 h.2
      exact ⟨⟨h.1, hleft⟩, hright⟩
    · intro h
      exact ⟨h.1.1, ih.2 ⟨h.1.2, h.2⟩⟩

theorem along_concat {ok : S → A → Prop} {s : S} {as : List A} {a : A}
    (h : Along step ok s as) (ha : ok (run step s as) a) : Along step ok s (as ++ [a]) :=
  (along_append step).2 ⟨h, ha, trivial⟩

theorem along_and {dom : A → Prop} {ok : S → A → Prop} {s : S} {as : List A}
    (hdom : ∀ a ∈ as, dom a) (h : Along step ok s as) :
    Along step (fun s a => dom a ∧ ok s a) s as := by
  induction as generalizing s with
  | nil => trivial
  | cons a as ih =>
    exact ⟨⟨hdom a List.mem_cons_self, h.1⟩,
      ih (fun b hb => hdom b (List.mem_cons_of_mem _ hb)) h.2⟩

theorem along_of_splits {ok : S → A → Prop} {s : S} {as : List A}
    (h : ∀ before a after, as = before ++ a :: after → ok (run step s before) a) :
    Along step ok s as := by
  induction as generalizing s with
  | nil => trivial
  | cons a as ih =>
    refine ⟨h [] a as rfl, ih fun before b after heq => ?_⟩
    exact h (a :: before) b after (congrArg (List.cons a) heq)

/-- Two properties of steps that agree wherever an invariant holds agree along
    whole runs. -/
theorem along_congr {dom P Q : S → A → Prop} {I : S → Prop}
    (hstep : ∀ s a, I s → dom s a → I (step s a))
    (hiff : ∀ s a, I s → dom s a → (P s a ↔ Q s a)) {s : S} {as : List A} (hs : I s)
    (hdom : Along step dom s as) : Along step P s as ↔ Along step Q s as := by
  induction as generalizing s with
  | nil => exact Iff.rfl
  | cons a as ih => exact and_congr (hiff s a hs hdom.1) (ih (hstep s a hs hdom.1) hdom.2)

theorem along_iff_along {dom ok Q : S → A → Prop} {I : S → Prop}
    (hiff : ∀ s a, I s → dom s a → (Q s a ↔ ok s a))
    (hstep : ∀ s a, I s → dom s a → ok s a → I (step s a)) {s : S} {as : List A} (hs : I s)
    (hdom : Along step dom s as) : Along step Q s as ↔ Along step ok s as := by
  induction as generalizing s with
  | nil => exact Iff.rfl
  | cons a as ih =>
    constructor
    · intro h
      have hok := (hiff s a hs hdom.1).1 h.1
      exact ⟨hok, (ih (hstep s a hs hdom.1 hok) hdom.2).1 h.2⟩
    · intro h
      exact ⟨(hiff s a hs hdom.1).2 h.1, (ih (hstep s a hs hdom.1 h.1) hdom.2).2 h.2⟩

theorem states_always {I : S → Prop} (hstep : ∀ s a, I s → I (step s a)) {s : S} (hs : I s)
    (as : List A) : ∀ t ∈ states step s as, I t :=
  states_invariant step (fun s a h _ => hstep s a h) hs (along_true step s as)

/-- If a step outside `ok` breaks `P` at once, then `P` holds along a run
    exactly when every step of the run meets `ok`. -/
theorem states_iff_along {ok : S → A → Prop} {I P : S → Prop}
    (hIP : ∀ s, I s → P s) (hstep : ∀ s a, I s → ok s a → I (step s a))
    (hbad : ∀ s a, I s → ¬ ok s a → ¬ P (step s a)) {s : S} {as : List A} (hs : I s) :
    (∀ t ∈ states step s as, P t) ↔ Along step ok s as := by
  constructor
  · intro h
    induction as generalizing s with
    | nil => trivial
    | cons a as ih =>
      have hok : ok s a := by
        by_contra hn
        exact hbad s a hs hn
          (h _ (List.mem_cons_of_mem _ (states_head step (step s a) as)))
      exact ⟨hok, ih (hstep s a hs hok) (fun t ht => h t (List.mem_cons_of_mem _ ht))⟩
  · intro h t ht
    exact hIP t (states_invariant step hstep hs h t ht)

/-- The same for runs whose steps are all in `dom`. -/
theorem states_iff_along_of {dom ok : S → A → Prop} {I P : S → Prop}
    (hIP : ∀ s, I s → P s) (hstep : ∀ s a, I s → dom s a → ok s a → I (step s a))
    (hbad : ∀ s a, I s → dom s a → ¬ ok s a → ¬ P (step s a)) {s : S} {as : List A} (hs : I s)
    (hdom : Along step dom s as) :
    (∀ t ∈ states step s as, P t) ↔ Along step ok s as := by
  induction as generalizing s with
  | nil =>
    refine ⟨fun _ => trivial, fun _ t ht => ?_⟩
    rw [List.mem_singleton.1 ht]
    exact hIP s hs
  | cons a as ih =>
    constructor
    · intro h
      have hok : ok s a := by
        by_contra hn
        exact hbad s a hs hdom.1 hn (h _ (List.mem_cons_of_mem _ (states_head step _ as)))
      exact ⟨hok, (ih (hstep s a hs hdom.1 hok) hdom.2).1
        fun t ht => h t (List.mem_cons_of_mem _ ht)⟩
    · intro h t ht
      rcases List.mem_cons.1 ht with rfl | ht
      · exact hIP t hs
      · exact (ih (hstep s a hs hdom.1 h.1) hdom.2).2 h.2 t ht

theorem states_along_iff_along {ok Q : S → A → Prop} {I P : S → Prop}
    (hIP : ∀ s, I s → P s) (hstep : ∀ s a, I s → ok s a → I (step s a) ∧ Q s a)
    (hbad : ∀ s a, I s → ¬ ok s a → ¬ (P (step s a) ∧ Q s a)) {s : S} {as : List A} (hs : I s) :
    ((∀ t ∈ states step s as, P t) ∧ Along step Q s as) ↔ Along step ok s as := by
  induction as generalizing s with
  | nil =>
    refine ⟨fun _ => trivial, fun _ => ⟨?_, trivial⟩⟩
    intro t ht
    rw [List.mem_singleton.1 ht]
    exact hIP s hs
  | cons a as ih =>
    constructor
    · rintro ⟨hP, hQ, hQs⟩
      have htail : ∀ t ∈ states step (step s a) as, P t := fun t ht =>
        hP t (List.mem_cons_of_mem _ ht)
      have hok : ok s a := by
        by_contra hn
        exact hbad s a hs hn ⟨htail _ (states_head step _ as), hQ⟩
      exact ⟨hok, (ih (hstep s a hs hok).1).1 ⟨htail, hQs⟩⟩
    · rintro ⟨hok, hoks⟩
      obtain ⟨hI, hQ⟩ := hstep s a hs hok
      obtain ⟨hP, hQs⟩ := (ih hI).2 hoks
      refine ⟨?_, hQ, hQs⟩
      intro t ht
      rcases List.mem_cons.1 ht with rfl | ht
      · exact hIP t hs
      · exact hP t ht

end Sandstar.Runs
