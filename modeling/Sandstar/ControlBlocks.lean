import Sandstar.FloatOps

set_option autoImplicit false

namespace Sandstar.Blocks

section Arithmetic

variable {F : Type} [FloatOps F]

structure Add2 (F : Type) where
  in1 : F
  in2 : F

def Add2.execute (c : Add2 F) : F := c.in1 + c.in2

structure Sub2 (F : Type) where
  in1 : F
  in2 : F

def Sub2.execute (c : Sub2 F) : F := c.in1 - c.in2

structure Mul2 (F : Type) where
  in1 : F
  in2 : F

def Mul2.execute (c : Mul2 F) : F := c.in1 * c.in2

structure Div2 (F : Type) where
  in1 : F
  in2 : F

def Div2.execute (c : Div2 F) : F :=
  if FloatOps.eq c.in2 (FloatOps.lit 0) then FloatOps.lit 0 else c.in1 / c.in2

structure Neg (F : Type) where
  input : F

def Neg.execute (c : Neg F) : F := FloatOps.lit (-1) * c.input

structure FloatOffset (F : Type) where
  input : F
  offset : F

def FloatOffset.execute (c : FloatOffset F) : F := c.input + c.offset

/-- What the rounding and the schedules take from `f64`. -/
class BlockFloats (F : Type) extends FloatOps F where
  powi : F → Int32 → F
  round : F → F
  /-- `x as u8`. -/
  toU8 : F → UInt8

instance : BlockFloats ℚ where
  powi x n := x ^ n.toInt
  round x := if 0 ≤ x then ⌊x + 1 / 2⌋ else ⌈x - 1 / 2⌉
  toU8 x := UInt8.ofNat (min ⌊x⌋.toNat 255)

structure Round (F : Type) where
  input : F
  decimals : UInt32

def Round.execute {F : Type} [BlockFloats F] (c : Round F) : F :=
  let factor := BlockFloats.powi (FloatOps.lit 10) c.decimals.toInt32
  BlockFloats.round (c.input * factor) / factor

end Arithmetic

section Logic

structure And2 where
  in1 : Bool
  in2 : Bool

def And2.execute (c : And2) : Bool := c.in1 && c.in2

structure Or2 where
  in1 : Bool
  in2 : Bool

def Or2.execute (c : Or2) : Bool := c.in1 || c.in2

structure Not where
  input : Bool

def Not.execute (c : Not) : Bool := !c.input

structure SRLatch where
  set : Bool
  reset : Bool
  output : Bool

def SRLatch.new : SRLatch := ⟨false, false, false⟩

def SRLatch.execute (c : SRLatch) : SRLatch :=
  { c with output := if c.set then true else if c.reset then false else c.output }

end Logic

section Timing

def elapsedMs (start now : Instant) : UInt64 := UInt64.ofNat ((now - start) / 1000000)

structure DelayOn where
  delayMs : UInt64
  input : Bool
  enabled : Bool
  startTime : Option Instant
  output : Bool

def DelayOn.new : DelayOn := ⟨1000, false, true, none, false⟩

def DelayOn.execute (c : DelayOn) (now : Instant) : DelayOn :=
  if !c.enabled then c
  else if c.input then
    match c.startTime with
    | none => { c with startTime := some now }
    | some start => if elapsedMs start now ≥ c.delayMs then { c with output := true } else c
  else { c with startTime := none, output := false }

structure DelayOff where
  delayMs : UInt64
  input : Bool
  enabled : Bool
  offTime : Option Instant
  output : Bool

def DelayOff.new : DelayOff := ⟨1000, false, true, none, false⟩

def DelayOff.execute (c : DelayOff) (now : Instant) : DelayOff :=
  if !c.enabled then c
  else if c.input then { c with output := true, offTime := none }
  else if c.output then
    match c.offTime with
    | none => { c with offTime := some now }
    | some offStart =>
      if elapsedMs offStart now ≥ c.delayMs then { c with output := false, offTime := none } else c
  else c

structure OneShot where
  durationMs : UInt64
  input : Bool
  prevInput : Bool
  triggerTime : Option Instant
  output : Bool

def OneShot.new : OneShot := ⟨1000, false, false, none, false⟩

def OneShot.trigger (c : OneShot) (now : Instant) : OneShot :=
  if c.input && !c.prevInput then { c with triggerTime := some now, output := true } else c

def OneShot.expire (c : OneShot) (now : Instant) : OneShot :=
  match c.triggerTime with
  | some trigger =>
    if elapsedMs trigger now ≥ c.durationMs then { c with output := false, triggerTime := none }
    else c
  | none => c

def OneShot.execute (c : OneShot) (now : Instant) : OneShot :=
  let c := (c.trigger now).expire now
  { c with prevInput := c.input }

structure Ramp (F : Type) where
  min : F
  max : F
  periodMs : UInt64
  enabled : Bool
  startTime : Option Instant
  output : F

/-- A remainder, which panics for a divisor of zero. -/
def checkedMod (a b : UInt64) : Option UInt64 := if b = 0 then none else some (a % b)

variable {F : Type} [FloatOps F]

def Ramp.new : Ramp F :=
  ⟨FloatOps.lit 0, FloatOps.lit 100, 5000, true, none, FloatOps.lit 0⟩

def Ramp.execute (c : Ramp F) (now : Instant) : Option (Ramp F) :=
  if !c.enabled then some c
  else if c.periodMs = 0 then some { c with output := c.min }
  else
    match c.startTime with
    | none => some { c with startTime := some now, output := c.min }
    | some start => do
      let positionMs ← checkedMod (elapsedMs start now) c.periodMs
      let fraction : F := FloatOps.lit positionMs.toNat / FloatOps.lit c.periodMs.toNat
      some { c with output := c.min + (c.max - c.min) * fraction }

end Timing

section Scheduling

structure ScheduleEntry (V : Type) where
  hour : UInt8
  minute : UInt8
  value : V

variable {V : Type}

def ScheduleEntry.minutesSinceMidnight (e : ScheduleEntry V) : UInt16 :=
  e.hour.toUInt16 * 60 + e.minute.toUInt16

def ScheduleEntry.pick (nowMins : UInt16) (best : Option (ScheduleEntry V))
    (entry : ScheduleEntry V) : Option (ScheduleEntry V) :=
  if entry.minutesSinceMidnight ≤ nowMins then
    match best with
    | none => some entry
    | some prev =>
      if prev.minutesSinceMidnight ≤ entry.minutesSinceMidnight then some entry else best
  else best

structure DailySchedule (V : Type) where
  entries : List (ScheduleEntry V)
  defaultValue : V
  enabled : Bool

def DailySchedule.evaluate (c : DailySchedule V) (hour minute : UInt8) : V :=
  if !c.enabled || c.entries.isEmpty then c.defaultValue
  else
    let nowMins := hour.toUInt16 * 60 + minute.toUInt16
    match c.entries.foldl (ScheduleEntry.pick nowMins) none with
    | some entry => entry.value
    | none => c.defaultValue

abbrev DailyScheduleFloat (F : Type) := DailySchedule F

def DailyScheduleFloat.new {F : Type} [FloatOps F] : DailyScheduleFloat F :=
  ⟨[], FloatOps.lit 0, true⟩

abbrev DailyScheduleBool := DailySchedule Bool

def DailyScheduleBool.new : DailyScheduleBool := ⟨[], false, true⟩

end Scheduling

section Hvac

variable {F : Type} [FloatOps F]

structure Thermostat (F : Type) where
  setpoint : F
  deadband : F
  heating : Bool
  output : Bool

def Thermostat.new : Thermostat F := ⟨FloatOps.lit 72, FloatOps.lit 2, true, false⟩

def Thermostat.execute (c : Thermostat F) (temperature : F) : Thermostat F :=
  let low := c.setpoint - c.deadband / FloatOps.lit 2
  let high := c.setpoint + c.deadband / FloatOps.lit 2
  let output :=
    if c.heating then
      if FloatOps.lt temperature low then true
      else if FloatOps.lt high temperature then false
      else c.output
    else if FloatOps.lt high temperature then true
    else if FloatOps.lt temperature low then false
    else c.output
  { c with output := output }

structure Hysteresis (F : Type) where
  risingThreshold : F
  fallingThreshold : F
  highValue : F
  lowValue : F
  output : F

def Hysteresis.new : Hysteresis F :=
  ⟨FloatOps.lit 75, FloatOps.lit 70, FloatOps.lit 100, FloatOps.lit 0, FloatOps.lit 0⟩

def Hysteresis.execute (c : Hysteresis F) (input : F) : Hysteresis F :=
  { c with
    output :=
      if FloatOps.le c.risingThreshold input then c.highValue
      else if FloatOps.le input c.fallingThreshold then c.lowValue
      else c.output }

end Hvac

end Sandstar.Blocks
