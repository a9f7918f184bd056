import Mathlib

set_option autoImplicit false

/-!
# Bytes as numbers

The number that bytes denote with the most significant one first, without a sign and in
two's complement.
-/
namespace Sandstar.BigEndian

def value (bytes : List UInt8) : ℕ := Nat.ofDigits 256 (bytes.reverse.map UInt8.toNat)

/-- Two's complement in as many bytes as there are. -/
def signedValue (bytes : List UInt8) : ℤ := Int.bmod (value bytes) (256 ^ bytes.length)

theorem value_nil : value [] = 0 := rfl

theorem value_concat (bytes : List UInt8) (b : UInt8) :
    value (bytes ++ [b]) = 256 * value bytes + b.toNat := by
  unfold value
  rw [List.reverse_append, List.reverse_singleton, List.singleton_append, List.map_cons,
    Nat.ofDigits_cons, add_comm]

theorem value_lt (bytes : List UInt8) : value bytes < 256 ^ bytes.length := by
  have hdigits : ∀ d ∈ bytes.reverse.map UInt8.toNat, d < 256 := by
    intro d hd
    obtain ⟨b, -, rfl⟩ := List.mem_map.1 hd
    exact b.toNat_lt
  have hlt := Nat.ofDigits_lt_base_pow_length (by decide) hdigits
  simpa [value] using hlt

theorem value_one (a : UInt8) : value [a] = a.toNat := by simp [value]

theorem value_two (a b : UInt8) : value [a, b] = 256 * a.toNat + b.toNat := by
  rw [← value_one a]
  exact value_concat [a] b

theorem value_three (a b c : UInt8) :
    value [a, b, c] = 256 * (256 * a.toNat + b.toNat) + c.toNat := by
  rw [← value_two a b]
  exact value_concat [a, b] c

theorem value_four (a b c d : UInt8) :
    value [a, b, c, d] = 256 * (256 * (256 * a.toNat + b.toNat) + c.toNat) + d.toNat := by
  rw [← value_three a b c]
  exact value_concat [a, b, c] d

/-- A number denotes itself exactly if it is below half of the range. -/
theorem signedValue_eq_value_iff {bytes : List UInt8} (h : bytes ≠ []) :
    signedValue bytes = value bytes ↔ 2 * value bytes < 256 ^ bytes.length := by
  obtain ⟨half, hhalf⟩ : 2 ∣ 256 ^ bytes.length :=
    dvd_pow (by decide) (List.length_pos_iff.2 h).ne'
  have hlt := value_lt bytes
  unfold signedValue
  rw [hhalf] at hlt ⊢
  constructor
  · intro heq
    have hbelow := @Int.bmod_lt (value bytes) (2 * half) (by omega)
    omega
  · intro hbelow
    rw [Int.bmod_def, Int.emod_eq_of_lt (by positivity) (by exact_mod_cast hlt), if_pos]
    omega

end Sandstar.BigEndian
