import Sandstar.Runs

set_option autoImplicit false

/-!
# Runs without some of their events

A deterministic system with outputs is compared with itself on the events of one
kind. If a hidden event leaves the first of two related states related, and a visible
one keeps both related and shows the same, then the visible outputs of a run are those
of the run without the hidden events. The last section lets the state decide whether an
event shows.
-/
namespace Sandstar.Unwinding
open Runs

variable {S E O : Type}

theorem run_filter {step : S → E → S} {visible : E → Bool} {R : S → S → Prop} {ok : S → E → Prop}
    (hidden : ∀ s s' e, R s s' → ok s e → visible e = false → R (step s e) s')
    (shown : ∀ s s' e, R s s' → ok s e → visible e = true → R (step s e) (step s' e))
    {s s' : S} {es : List E} (hs : R s s') (hok : Along step ok s es) :
    R (run step s es) (run step s' (es.filter visible)) := by
  induction es generalizing s s' with
  | nil => exact hs
  | cons e es ih =>
    cases hv : visible e with
    | false =>
      rw [List.filter_cons_of_neg (by simp [hv])]
      exact ih (hidden s s' e hs hok.1 hv) hok.2
    | true =>
      rw [List.filter_cons_of_pos hv]
      exact ih (shown s s' e hs hok.1 hv) hok.2

variable (step : S → E → S × O) (visible : E → Bool)

def advance (s : S) (e : E) : S := (step s e).1

def outputs (s : S) : List E → List O
  | [] => []
  | e :: es =>
    if visible e then (step s e).2 :: outputs (advance step s e) es
    else outputs (advance step s e) es

/-- What one event has to keep, with a side condition on the full run. -/
structure Unwinds (R : S → S → Prop) (ok : S → E → Prop) : Prop where
  hidden : ∀ s s' e, R s s' → ok s e → visible e = false → R (advance step s e) s'
  shown : ∀ s s' e, R s s' → ok s e → visible e = true →
    R (advance step s e) (advance step s' e) ∧ (step s e).2 = (step s' e).2

variable {step visible} {R : S → S → Prop} {ok : S → E → Prop}

theorem Unwinds.run_related (h : Unwinds step visible R ok) {s s' : S} {es : List E} (hs : R s s')
    (hok : Along (advance step) ok s es) :
    R (run (advance step) s es) (run (advance step) s' (es.filter visible)) :=
  run_filter h.hidden (fun s s' e hs hok hv => (h.shown s s' e hs hok hv).1) hs hok

theorem Unwinds.outputs_eq (h : Unwinds step visible R ok) {s s' : S} {es : List E} (hs : R s s')
    (hok : Along (advance step) ok s es) :
    outputs step visible s es = outputs step visible s' (es.filter visible) := by
  induction es generalizing s s' with
  | nil => rfl
  | cons e es ih =>
    cases hv : visible e with
    | false =>
      rw [List.filter_cons_of_neg (by simp [hv])]
      simp only [outputs, hv, Bool.false_eq_true, if_false]
      exact ih (h.hidden s s' e hs hok.1 hv) hok.2
    | true =>
      obtain ⟨hnext, hout⟩ := h.shown s s' e hs hok.1 hv
      rw [List.filter_cons_of_pos hv]
      simp only [outputs, hv, if_true, hout]
      rw [ih hnext hok.2]

section Shared

variable {S E O : Type} (step : S → E → S × List O) (shown : S → E → Bool)

def heard (s : S) : List E → List E
  | [] => []
  | e :: es =>
    if shown s e then e :: heard (advance step s e) es else heard (advance step s e) es

variable {step shown} {mine : O → Bool} {R : S → S → Prop} {ok : S → E → Prop}

end Shared
end Sandstar.Unwinding
