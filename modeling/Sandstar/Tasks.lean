import Mathlib

set_option autoImplicit false

/-!
# Tasks over a state

A task changes a state and returns a value, or never returns. `Keeps` is an
invariant of whatever a task leaves behind; `Ensures` says in addition that the task
returns, with a postcondition for its value.
-/
namespace Sandstar.Tasks

abbrev Task (σ α : Type) : Type := StateT σ Option α

variable {σ α β : Type} {I : σ → Prop}

theorem bind_apply (x : Task σ α) (f : α → Task σ β) (s : σ) :
    (x >>= f) s = (x s).bind fun r => f r.1 r.2 := rfl

theorem bind_eq_some {x : Task σ α} {f : α → Task σ β} {s : σ} {r : β × σ}
    (h : (x >>= f) s = some r) : ∃ a s₁, x s = some (a, s₁) ∧ f a s₁ = some r := by
  rw [bind_apply] at h
  obtain ⟨⟨a, s₁⟩, hx, hf⟩ := Option.bind_eq_some_iff.1 h
  exact ⟨a, s₁, hx, hf⟩

def Keeps (I : σ → Prop) (x : Task σ α) : Prop :=
  ∀ s a s', I s → x s = some (a, s') → I s'

theorem keeps_pure (a : α) : Keeps I (pure a : Task σ α) := by
  rintro s _ _ hs ⟨⟩
  exact hs

theorem keeps_bind {x : Task σ α} {f : α → Task σ β} (hx : Keeps I x) (hf : ∀ a, Keeps I (f a)) :
    Keeps I (x >>= f) := by
  intro s b s' hs h
  obtain ⟨a, s₁, hxs, hfs⟩ := bind_eq_some h
  exact hf a s₁ b s' (hx s a s₁ hs hxs) hfs

def Ensures (I : σ → Prop) (x : Task σ α) (post : α → Prop) : Prop :=
  ∀ s, I s → ∃ a s', x s = some (a, s') ∧ I s' ∧ post a

theorem Ensures.mono {x : Task σ α} {post post' : α → Prop} (h : Ensures I x post)
    (himp : ∀ a, post a → post' a) : Ensures I x post' := by
  intro s hs
  obtain ⟨a, s', hx, hs', ha⟩ := h s hs
  exact ⟨a, s', hx, hs', himp a ha⟩

end Sandstar.Tasks
