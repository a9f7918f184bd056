import Mathlib

set_option autoImplicit false

/-!
# Machine arithmetic and slices

Unsigned pointer-sized arithmetic as compiled code performs it, and the slice
operations that panic on bad bounds. A build that checks overflow faults where
one that does not wraps around.
-/
namespace Sandstar.Machine

inductive PointerWidth
  | bits32
  | bits64
deriving DecidableEq, Repr

inductive Profile
  | debug
  | release
deriving DecidableEq, Repr

structure Target where
  width : PointerWidth
  profile : Profile
deriving DecidableEq, Repr

inductive Fault
  | overflow
  | slice
deriving DecidableEq, Repr

/-- A sequence that ends well has had both of its parts end well. -/
theorem bind_ok {α β : Type} {x : Except Fault α} {f : α → Except Fault β} {r : β}
    (h : x >>= f = .ok r) : ∃ a, x = .ok a ∧ f a = .ok r := by
  cases x with
  | error fault => cases h
  | ok a => exact ⟨a, rfl, h⟩

theorem map_ok {α β : Type} {x : Except Fault α} {f : α → β} {r : β} (h : x.map f = .ok r) :
    ∃ a, x = .ok a ∧ f a = r := by
  cases x with
  | error fault => cases h
  | ok a => exact ⟨a, rfl, Except.ok.inj h⟩

namespace Target

/-- The greatest `usize`. -/
def usizeMax (t : Target) : ℕ :=
  match t.width with
  | .bits32 => 2 ^ 32 - 1
  | .bits64 => 2 ^ 64 - 1

/-- The result of an operation whose exact value is `n`. -/
def settle (t : Target) (n : ℕ) : Except Fault ℕ :=
  if n ≤ t.usizeMax then .ok n
  else match t.profile with
    | .debug => .error .overflow
    | .release => .ok (n % (t.usizeMax + 1))

def add (t : Target) (a b : ℕ) : Except Fault ℕ := t.settle (a + b)

def mul (t : Target) (a b : ℕ) : Except Fault ℕ := t.settle (a * b)

def checkedMul (t : Target) (a b : ℕ) : Option ℕ := if a * b ≤ t.usizeMax then some (a * b) else none

theorem usizeMax_ge (t : Target) : 2 ^ 32 - 1 ≤ t.usizeMax := by
  unfold usizeMax
  cases t.width <;> decide

theorem settle_fits (t : Target) {n : ℕ} (h : n ≤ t.usizeMax) : t.settle n = .ok n := if_pos h

theorem add_fits (t : Target) {a b : ℕ} (h : a + b ≤ t.usizeMax) : t.add a b = .ok (a + b) :=
  t.settle_fits h

theorem mul_fits (t : Target) {a b : ℕ} (h : a * b ≤ t.usizeMax) : t.mul a b = .ok (a * b) :=
  t.settle_fits h

theorem settle_overflow {t : Target} (ht : t.profile = .debug) {n : ℕ} (h : t.usizeMax < n) :
    t.settle n = .error .overflow := by
  unfold settle
  rw [if_neg (by omega), ht]

def wrap (t : Target) (n : ℕ) : ℕ := n % (t.usizeMax + 1)

theorem wrap_fits (t : Target) {n : ℕ} (h : n ≤ t.usizeMax) : t.wrap n = n :=
  Nat.mod_eq_of_lt (Nat.lt_succ_of_le h)

theorem wrap_add (t : Target) (a b : ℕ) : t.wrap (a + t.wrap b) = t.wrap (a + b) :=
  Nat.add_mod_mod a b _

/-- An unchecked build never faults on an overflow. -/
theorem settle_release {t : Target} (ht : t.profile = .release) (n : ℕ) :
    t.settle n = .ok (t.wrap n) := by
  unfold settle
  split_ifs with h
  · rw [t.wrap_fits h]
  · rw [ht]
    rfl

end Target

section Slices

variable {α : Type}

def slice (xs : List α) (start stop : ℕ) : Except Fault (List α) :=
  if start ≤ stop ∧ stop ≤ xs.length then .ok ((xs.take stop).drop start) else .error .slice

def overwrite (xs : List α) (start : ℕ) (data : List α) : List α :=
  xs.take start ++ data ++ xs.drop (start + data.length)

def copyInto (xs : List α) (start stop : ℕ) (data : List α) : Except Fault (List α) :=
  if start ≤ stop ∧ stop ≤ xs.length ∧ stop - start = data.length then
    .ok (overwrite xs start data)
  else .error .slice

theorem copyInto_fits {xs data : List α} {start : ℕ} (h : start + data.length ≤ xs.length) :
    copyInto xs start (start + data.length) data = .ok (overwrite xs start data) :=
  if_pos ⟨by omega, h, by omega⟩

theorem length_overwrite {xs data : List α} {start : ℕ} (h : start + data.length ≤ xs.length) :
    (overwrite xs start data).length = xs.length := by
  unfold overwrite
  simp only [List.length_append, List.length_take, List.length_drop]
  omega

/-- The written places hold the data, the others what they held. -/
theorem getElem?_overwrite {xs data : List α} {start : ℕ} (h : start + data.length ≤ xs.length)
    (i : ℕ) :
    (overwrite xs start data)[i]? =
      if start ≤ i ∧ i < start + data.length then data[i - start]? else xs[i]? := by
  unfold overwrite
  have htake : (xs.take start).length = start := by
    rw [List.length_take]
    omega
  split_ifs with hi
  · rw [List.append_assoc, List.getElem?_append_right (by omega), htake,
      List.getElem?_append_left (by omega)]
  · rcases Nat.lt_or_ge i start with hlt | hge
    · rw [List.append_assoc, List.getElem?_append_left (by omega), List.getElem?_take_of_lt hlt]
    · have hge' : start + data.length ≤ i := by omega
      rw [List.getElem?_append_right (by rw [List.length_append]; omega), List.length_append,
        htake, List.getElem?_drop]
      congr 1
      omega

end Slices
end Sandstar.Machine
