import Sandstar.Machine

set_option autoImplicit false

/-!
# Checked words

Arithmetic on words of 64 bits where a result outside of the range is a fault. What does not
fault is the exact result.
-/
namespace Sandstar.Checked
open Machine

def add (a b : ℕ) : Except Fault ℕ := if a + b < 2 ^ 64 then .ok (a + b) else .error .overflow

def sub (a b : ℕ) : Except Fault ℕ := if b ≤ a then .ok (a - b) else .error .overflow

def mul (a b : ℕ) : Except Fault ℕ := if a * b < 2 ^ 64 then .ok (a * b) else .error .overflow

/-- The result of a signed operation. -/
def signed (z : ℤ) : Except Fault ℤ :=
  if -2 ^ 63 ≤ z ∧ z < 2 ^ 63 then .ok z else .error .overflow

/-- The cast of a signed word to an unsigned one, which never faults. -/
def toUnsigned (z : ℤ) : ℕ := (z % 2 ^ 64).toNat

variable {a b c : ℕ} {z : ℤ}

theorem add_ok (h : a + b < 2 ^ 64) : add a b = .ok (a + b) := if_pos h

theorem sub_ok (h : b ≤ a) : sub a b = .ok (a - b) := if_pos h

theorem mul_ok (h : a * b < 2 ^ 64) : mul a b = .ok (a * b) := if_pos h

theorem signed_ok (h : -2 ^ 63 ≤ z) (h' : z < 2 ^ 63) : signed z = .ok z := if_pos ⟨h, h'⟩

theorem guarded_eq_ok {α : Type} {p : Prop} [Decidable p] {x y : α} {fault : Fault} :
    (if p then .ok x else .error fault : Except Fault α) = .ok y ↔ p ∧ x = y := by
  split_ifs with h <;> simp [h]

theorem add_eq_ok : add a b = .ok c ↔ a + b < 2 ^ 64 ∧ a + b = c := guarded_eq_ok

theorem sub_eq_ok : sub a b = .ok c ↔ b ≤ a ∧ a - b = c := guarded_eq_ok

theorem mul_eq_ok : mul a b = .ok c ↔ a * b < 2 ^ 64 ∧ a * b = c := guarded_eq_ok

theorem signed_eq_ok {z' : ℤ} : signed z = .ok z' ↔ (-2 ^ 63 ≤ z ∧ z < 2 ^ 63) ∧ z = z' :=
  guarded_eq_ok

theorem toUnsigned_of_nonneg (h : 0 ≤ z) (h' : z < 2 ^ 64) : toUnsigned z = z.toNat := by
  unfold toUnsigned
  rw [Int.emod_eq_of_lt h h']

@[simp] theorem ok_bind {α β : Type} (x : α) (f : α → Except Fault β) :
    ((.ok x : Except Fault α) >>= f) = f x := rfl

theorem bind_eq_ok {α β : Type} {x : Except Fault α} {f : α → Except Fault β} {r : β} :
    x >>= f = .ok r ↔ ∃ a, x = .ok a ∧ f a = .ok r := by
  refine ⟨bind_ok, ?_⟩
  rintro ⟨a, rfl, h⟩
  exact h

end Sandstar.Checked
