import Mathlib

set_option autoImplicit false

namespace Sandstar.Decimals

theorem isDigit_of_mem {n : ℕ} {c : Char} (h : c ∈ Nat.toDigits 10 n) : c.isDigit = true :=
  Nat.isDigit_of_mem_toDigits (by omega) (by omega) h

theorem all_isDigit (n : ℕ) : (Nat.toDigits 10 n).all Char.isDigit = true :=
  List.all_eq_true.2 fun _ => isDigit_of_mem

theorem not_mem {c : Char} (h : c.isDigit = false) (n : ℕ) : c ∉ Nat.toDigits 10 n := by
  intro hmem
  have hdigit := isDigit_of_mem hmem
  rw [h] at hdigit
  cases hdigit

theorem head_ne {c : Char} (h : c.isDigit = false) (n : ℕ) :
    (Nat.toDigits 10 n).head? ≠ some c :=
  fun hhead => not_mem h n (List.mem_of_head? hhead)

theorem sum_digits (n : ℕ) :
    (Nat.toDigits 10 n).foldl (fun n c => 10 * n + (c.toNat - 48)) 0 = n :=
  Nat.ofDigitChars_eq_foldl.symm.trans (Nat.ofDigitChars_toDigits (by omega) (by omega))

theorem toList_nat (n : ℕ) : (toString n).toList = Nat.toDigits 10 n := Nat.toList_repr

theorem toList_nonneg {z : ℤ} (h : 0 ≤ z) : (toString z).toList = Nat.toDigits 10 z.toNat := by
  obtain ⟨m, rfl⟩ := Int.eq_ofNat_of_zero_le h
  exact Nat.toList_repr

theorem toList_neg {z : ℤ} (h : z < 0) :
    (toString z).toList = '-' :: Nat.toDigits 10 z.natAbs := by
  cases z with
  | ofNat n => exact absurd h (by simp)
  | negSucc n =>
    change ("-" ++ Nat.repr (n + 1)).toList = _
    rw [String.toList_append, Nat.toList_repr]
    rfl

end Sandstar.Decimals
