import Sandstar.EngineConversion

set_option autoImplicit false

/-!
# Filters of a channel reading

Smoothing over a ring buffer, slew-rate limiting and spike rejection, each with
the state it keeps between readings. Translated from `conversion/filters.rs`.
-/
namespace Sandstar.Engine
open FloatOps

def smoothBufferMax : ℕ := 10

/-- The ring buffer of the smoothing filter; both indices stay inside it. -/
structure SmoothState (F : Type) where
  buffer : Vector F smoothBufferMax
  head : ℕ
  count : ℕ
  ewmaValue : F
  head_lt : head < smoothBufferMax
  count_le : count ≤ smoothBufferMax

structure RateLimitState (F : Type) where
  lastOutput : F
  lastTime : Option Instant
  initialized : Bool

structure SpikeState (F : Type) where
  lastValid : F
  readingCount : UInt32

variable {F : Type} [FloatOps F]

def SmoothState.default : SmoothState F :=
  ⟨Vector.replicate smoothBufferMax (lit 0), 0, 0, lit 0, by decide, by decide⟩

def RateLimitState.default : RateLimitState F := ⟨lit 0, none, false⟩

def SpikeState.default : SpikeState F := ⟨lit 0, 0⟩

def smoothWindow (window : ℕ) : ℕ := min (max window 2) smoothBufferMax

theorem smoothWindow_pos (window : ℕ) : 0 < smoothWindow window := by
  unfold smoothWindow smoothBufferMax
  omega

theorem smoothWindow_le (window : ℕ) : smoothWindow window ≤ smoothBufferMax := by
  unfold smoothWindow
  omega

def SmoothState.push (s : SmoothState F) (value : F) (window : ℕ) : SmoothState F where
  buffer := s.buffer.set s.head value s.head_lt
  head := (s.head + 1) % smoothWindow window
  count := if s.count < smoothWindow window then s.count + 1 else s.count
  ewmaValue := s.ewmaValue
  head_lt := lt_of_lt_of_le (Nat.mod_lt _ (smoothWindow_pos window)) (smoothWindow_le window)
  count_le := by
    have hw := smoothWindow_le window
    have hc := s.count_le
    split_ifs <;> omega

def SmoothState.samples (s : SmoothState F) : List F := s.buffer.toList.take s.count

def bubble : List F → List F
  | [] => []
  | [x] => [x]
  | x :: y :: xs =>
    if FloatOps.lt y x then y :: bubble (x :: xs) else x :: bubble (y :: xs)
termination_by xs => xs.length

/-- The outer loop: pass `i` leaves the last `i` places alone. -/
def bubbleSort : ℕ → List F → List F
  | 0, xs => xs
  | n + 1, xs => bubbleSort n (bubble (xs.take (n + 1)) ++ xs.drop (n + 1))

def applySmoothing (s : SmoothState F) (value : F) (window : ℕ) (method : SmoothMethod) :
    SmoothState F × F :=
  let s := s.push value window
  if s.count < 2 then
    (if method = .ewma then { s with ewmaValue := value } else s, value)
  else match method with
    | .mean => (s, s.samples.foldl (· + ·) (lit 0) / ofIndex s.count)
    | .median =>
      (s, (bubbleSort s.count s.samples).getD (s.count / 2) (lit 0))
    | .ewma =>
      let alpha : F := lit 2 / (ofIndex (smoothWindow window) + lit 1)
      let ewma := if s.count = 1 then value else alpha * value + (lit 1 - alpha) * s.ewmaValue
      ({ s with ewmaValue := ewma }, ewma)

def applyRateLimit (s : RateLimitState F) (now : Instant) (value maxRise maxFall : F) :
    RateLimitState F × F :=
  if !s.initialized then (⟨value, some now, true⟩, value)
  else
    let dt : F := match s.lastTime with
      | some prev => FloatOps.max (asSecs (now - prev)) (lit (1 / 1000))
      | none => lit (1 / 1000)
    let output : F :=
      if FloatOps.lt s.lastOutput value then
        let maxChange := maxRise * dt
        if FloatOps.lt maxChange (value - s.lastOutput) then s.lastOutput + maxChange else value
      else
        let maxChange := maxFall * dt
        if FloatOps.lt maxChange (s.lastOutput - value) then s.lastOutput - maxChange else value
    (⟨output, some now, s.initialized⟩, output)

def applySpikeFilter (s : SpikeState F) (value : F) (config : SpikeConfig F) : SpikeState F × F :=
  let s := { s with readingCount := s.readingCount + 1 }
  if s.readingCount ≤ config.startupDiscard then ({ s with lastValid := value }, value)
  else
    let baseline := s.lastValid
    if FloatOps.lt (FloatOps.abs baseline) (lit (1 / 10000000000)) then
      ({ s with lastValid := value }, value)
    else
      let ratio := FloatOps.abs (value / baseline)
      if FloatOps.lt config.threshold ratio || FloatOps.lt ratio (lit 1 / config.threshold) then
        (s, baseline)
      else ({ s with lastValid := value }, value)

end Sandstar.Engine
