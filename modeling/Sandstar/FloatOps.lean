import Mathlib

set_option autoImplicit false

/-!
# Floating-point operations

The engine computes with `f64`. Its model only names the operations it uses, so
that every result holds for the IEEE arithmetic and for exact rationals alike.
-/
namespace Sandstar

/-- Nanoseconds on the monotonic clock. -/
abbrev Instant := ℕ

/-- The `f64` operations of the engine. Comparisons are the IEEE ones, so that
    neither is assumed reflexive or total. -/
class FloatOps (F : Type) extends Add F, Sub F, Mul F, Div F where
  /-- A decimal literal, rounded as the source's type rounds it. -/
  lit : ℚ → F
  lt : F → F → Bool
  le : F → F → Bool
  eq : F → F → Bool
  abs : F → F
  sqrt : F → F
  max : F → F → F
  min : F → F → F
  /-- `x as i64 as f64`. -/
  truncate : F → F
  /-- `Duration::as_secs_f64` of a number of nanoseconds. -/
  asSecs : ℕ → F
  /-- `now + Duration::from_secs_f64(d)`; `none` where either step panics. -/
  deadline : Instant → F → Option Instant

namespace FloatOps

variable {F : Type} [FloatOps F]

/-- `f64::clamp`, which panics unless the lower bound is at most the upper one. -/
def clamp (x low high : F) : Option F :=
  if FloatOps.le low high then
    some (if FloatOps.lt x low then low else if FloatOps.lt high x then high else x)
  else none

end FloatOps

/-- The number a float stands for, with `width` bits of fraction and the exponent
    of its last bit when the exponent field is 1. -/
def floatValue (width : ℕ) (lowest : ℤ) (sign : Bool) (exponent fraction : ℕ) : ℚ :=
  let magnitude : ℚ :=
    if exponent = 0 then fraction * 2 ^ lowest
    else (2 ^ width + fraction) * 2 ^ (lowest + exponent - 1)
  if sign then -magnitude else magnitude

/-- Exact arithmetic: `sqrt` is the root of the integer parts, and a duration
    is counted in whole nanoseconds. -/
instance : FloatOps ℚ where
  lit q := q
  lt a b := decide (a < b)
  le a b := decide (a ≤ b)
  eq a b := decide (a = b)
  abs a := |a|
  sqrt a := Rat.sqrt a
  max a b := max a b
  min a b := min a b
  truncate a := if 0 ≤ a then ⌊a⌋ else ⌈a⌉
  asSecs n := n / 1000000000
  deadline now d := some (now + (d * 1000000000).floor.toNat)

end Sandstar
