import Sandstar.ControlBlocks
import Sandstar.ControlLoops

set_option autoImplicit false

/-!
# The control runner (control.rs)

The standalone components beside the loops, what `ControlRunner::load` builds from the
parsed file, and a whole cycle. Wherever the code clamps, takes a remainder or indexes,
the outcome is an `Option`: `none` where it panics.
-/
namespace Sandstar.Control

open Blocks Engine

variable {F : Type}

inductive ComponentKind (F : Type)
  | add2 (c : Add2 F)
  | sub2 (c : Sub2 F)
  | mul2 (c : Mul2 F)
  | div2 (c : Div2 F)
  | neg (c : Blocks.Neg F)
  | round (c : Round F)
  | floatOffset (c : FloatOffset F)
  | constFloat (value : F)
  | ramp (c : Ramp F)
  | thermostat (c : Thermostat F)
  | hysteresis (c : Hysteresis F)
  | dailyScheduleFloat (c : DailyScheduleFloat F)
  | dailyScheduleBool (c : DailyScheduleBool)
  | delayOn (c : DelayOn)
  | delayOff (c : DelayOff)
  | oneShot (c : OneShot)
  | and2 (c : And2)
  | or2 (c : Or2)
  | not (c : Not)
  | srLatch (c : SRLatch)

structure ComponentInstance (F : Type) where
  name : String
  inputChannels : List UInt32
  outputChannel : UInt32
  writeLevel : UInt8
  kind : ComponentKind F
  enabled : Bool

structure ControlRunner (F : Type) where
  loops : List (ControlLoop F)
  components : List (ComponentInstance F)

section Config

structure ComponentConfig (F : Type) where
  name : String
  componentType : String
  inputChannels : List UInt32
  outputChannel : UInt32
  writeLevel : UInt8
  value : Option F
  min : Option F
  max : Option F
  periodMs : Option UInt64
  delayMs : Option UInt64
  durationMs : Option UInt64
  setpoint : Option F
  deadband : Option F
  heating : Option Bool
  risingThreshold : Option F
  fallingThreshold : Option F
  highValue : Option F
  lowValue : Option F
  defaultValue : Option F
  entries : Option (List (ScheduleEntry F))
  boolEntries : Option (List (ScheduleEntry Bool))
  offset : Option F
  decimals : Option UInt32

/-- The file as `toml` hands it over. -/
structure ControlToml (F : Type) where
  loops : List (LoopConfig F)
  component : List (ComponentConfig F)

variable [FloatOps F]

def buildComponentKind (cc : ComponentConfig F) : Except String (ComponentKind F) :=
  let zero : F := FloatOps.lit 0
  match cc.componentType with
  | "add2" => .ok (.add2 ⟨zero, zero⟩)
  | "sub2" => .ok (.sub2 ⟨zero, zero⟩)
  | "mul2" => .ok (.mul2 ⟨zero, zero⟩)
  | "div2" => .ok (.div2 ⟨zero, zero⟩)
  | "neg" => .ok (.neg ⟨zero⟩)
  | "round" => .ok (.round ⟨zero, cc.decimals.getD 0⟩)
  | "float_offset" => .ok (.floatOffset ⟨zero, cc.offset.getD zero⟩)
  | "const_float" =>
    match cc.value with
    | some value => .ok (.constFloat value)
    | none => .error ("component '" ++ cc.name ++ "': const_float requires 'value' field")
  | "ramp" =>
    let r : Ramp F := Ramp.new
    .ok (.ramp { r with
      min := cc.min.getD r.min, max := cc.max.getD r.max,
      periodMs := cc.periodMs.getD r.periodMs })
  | "thermostat" =>
    let t : Thermostat F := Thermostat.new
    .ok (.thermostat { t with
      setpoint := cc.setpoint.getD t.setpoint, deadband := cc.deadband.getD t.deadband,
      heating := cc.heating.getD t.heating })
  | "hysteresis" =>
    let h : Hysteresis F := Hysteresis.new
    .ok (.hysteresis { h with
      risingThreshold := cc.risingThreshold.getD h.risingThreshold,
      fallingThreshold := cc.fallingThreshold.getD h.fallingThreshold,
      highValue := cc.highValue.getD h.highValue, lowValue := cc.lowValue.getD h.lowValue })
  | "daily_schedule_float" =>
    let s : DailyScheduleFloat F := DailyScheduleFloat.new
    .ok (.dailyScheduleFloat { s with
      defaultValue := cc.defaultValue.getD s.defaultValue, entries := cc.entries.getD [] })
  | "daily_schedule_bool" =>
    let s := DailyScheduleBool.new
    .ok (.dailyScheduleBool { s with
      defaultValue := (cc.defaultValue.map fun dv => !FloatOps.eq dv zero).getD s.defaultValue,
      entries := cc.boolEntries.getD [] })
  | "delay_on" => .ok (.delayOn { DelayOn.new with delayMs := cc.delayMs.getD 1000 })
  | "delay_off" => .ok (.delayOff { DelayOff.new with delayMs := cc.delayMs.getD 1000 })
  | "one_shot" => .ok (.oneShot { OneShot.new with durationMs := cc.durationMs.getD 1000 })
  | "and2" => .ok (.and2 ⟨false, false⟩)
  | "or2" => .ok (.or2 ⟨false, false⟩)
  | "not" => .ok (.not ⟨false⟩)
  | "sr_latch" => .ok (.srLatch SRLatch.new)
  | other => .error ("component '" ++ cc.name ++ "': unknown type '" ++ other ++ "'")

def loadComponents : List (ComponentConfig F) → Except String (List (ComponentInstance F))
  | [] => .ok []
  | cc :: rest =>
    if cc.writeLevel = 0 || cc.writeLevel > 17 then
      .error ("component '" ++ cc.name ++ "': write_level " ++ toString cc.writeLevel ++
        " out of range 1..=17")
    else do
      let kind ← buildComponentKind cc
      let components ← loadComponents rest
      .ok (⟨cc.name, cc.inputChannels, cc.outputChannel, cc.writeLevel, kind, true⟩ :: components)

/-- `ControlRunner::load` once the file is read and parsed. -/
def ControlRunner.load (cfg : ControlToml F) : Except String (ControlRunner F) := do
  let loops ← loadLoops cfg.loops
  let components ← loadComponents cfg.component
  .ok ⟨loops, components⟩

end Config

section Execute

variable [BlockFloats F]

def isTrue (x : F) : Bool := !FloatOps.eq x (FloatOps.lit 0)

def ofBool (b : Bool) : F := if b then FloatOps.lit 1 else FloatOps.lit 0

def scheduleTime (inputs : List F) (clockSecs : UInt64) : Option (UInt8 × UInt8) :=
  if 2 ≤ inputs.length then do
    some (BlockFloats.toU8 (← inputs[0]?), BlockFloats.toU8 (← inputs[1]?))
  else
    let secsInDay := clockSecs % 86400
    some ((secsInDay / 3600).toUInt8, ((secsInDay % 3600) / 60).toUInt8)

def executeComponent (kind : ComponentKind F) (inputs : List F) (now : Instant)
    (clockSecs : UInt64) : Option (ComponentKind F × F) :=
  let in1 := inputs[0]?.getD (FloatOps.lit 0)
  let in2 := inputs[1]?.getD (FloatOps.lit 0)
  match kind with
  | .add2 _ => let c : Add2 F := ⟨in1, in2⟩; some (.add2 c, c.execute)
  | .sub2 _ => let c : Sub2 F := ⟨in1, in2⟩; some (.sub2 c, c.execute)
  | .mul2 _ => let c : Mul2 F := ⟨in1, in2⟩; some (.mul2 c, c.execute)
  | .div2 _ => let c : Div2 F := ⟨in1, in2⟩; some (.div2 c, c.execute)
  | .neg _ => let c : Blocks.Neg F := ⟨in1⟩; some (.neg c, c.execute)
  | .round c => let c := { c with input := in1 }; some (.round c, c.execute)
  | .floatOffset c => let c := { c with input := in1 }; some (.floatOffset c, c.execute)
  | .constFloat value => some (.constFloat value, value)
  | .ramp c => do
    let c ← c.execute now
    some (.ramp c, c.output)
  | .thermostat c => let c := c.execute in1; some (.thermostat c, ofBool c.output)
  | .hysteresis c => let c := c.execute in1; some (.hysteresis c, c.output)
  | .dailyScheduleFloat c => do
    let (hour, minute) ← scheduleTime inputs clockSecs
    some (.dailyScheduleFloat c, c.evaluate hour minute)
  | .dailyScheduleBool c => do
    let (hour, minute) ← scheduleTime inputs clockSecs
    some (.dailyScheduleBool c, ofBool (c.evaluate hour minute))
  | .delayOn c =>
    let c := { c with input := isTrue in1 }.execute now; some (.delayOn c, ofBool c.output)
  | .delayOff c =>
    let c := { c with input := isTrue in1 }.execute now; some (.delayOff c, ofBool c.output)
  | .oneShot c =>
    let c := { c with input := isTrue in1 }.execute now; some (.oneShot c, ofBool c.output)
  | .and2 _ => let c : And2 := ⟨isTrue in1, isTrue in2⟩; some (.and2 c, ofBool c.execute)
  | .or2 _ => let c : Or2 := ⟨isTrue in1, isTrue in2⟩; some (.or2 c, ofBool c.execute)
  | .not _ => let c : Not := ⟨isTrue in1⟩; some (.not c, ofBool c.execute)
  | .srLatch c =>
    let c := { c with set := isTrue in1, reset := isTrue in2 }.execute
    some (.srLatch c, ofBool c.output)

def LeadSequencer.switch (seq : LeadSequencer F) (input : F) (stages : List Bool) (i : ℕ) :
    Option (List Bool) :=
  if FloatOps.lt (seq.thresholdOn i) input then
    if i < stages.length then some (stages.set i true) else none
  else if FloatOps.lt input (seq.thresholdOff i) then
    if i < stages.length then some (stages.set i false) else none
  else some stages

def LeadSequencer.executeIndexed (seq : LeadSequencer F) (input : F) : Option (LeadSequencer F) :=
  if FloatOps.le (seq.inMax - seq.inMin) (FloatOps.lit 0) || seq.numStages == 0 then some seq
  else ((List.range seq.numStages).foldlM (seq.switch input) seq.stages).map fun stages =>
    { seq with stages := stages }

def ControlLoop.cycleIndexed (l : ControlLoop F) (r : Reading F) :
    Option (ControlLoop F × Option (Cycle F)) :=
  match l.inputs r with
  | none => some (l, none)
  | some (sp, pv) => do
    let (pid, pidOut) ← l.pid.execute sp pv r.now
    match l.sequencer with
    | some seq =>
      let seq ← seq.executeIndexed pidOut
      let commands := l.outputChannels.mapIdx fun i channel =>
        l.command channel (if seq.stages.getD i false then FloatOps.lit 1 else FloatOps.lit 0)
      some ({ l with pid := pid, sequencer := some seq }, some ⟨pidOut, commands⟩)
    | none =>
      let commands := (l.outputChannels.take 1).map fun channel => l.command channel pidOut
      some ({ l with pid := pid }, some ⟨pidOut, commands⟩)

variable {E : Type} (api : EngineCalls E F)

def runLoops (now : Instant) : List (ControlLoop F) → E → Option (List (ControlLoop F) × E)
  | [], e => some ([], e)
  | l :: rest, e => do
    let (e, reading) := api.readings l e now
    let (l, cycle) ← l.cycleIndexed reading
    let commands := (cycle.map Cycle.commands).getD []
    let (rest, e) ← runLoops now rest (commands.foldl api.channelWriteLevel e)
    some (l :: rest, e)

def readInputChannels : List UInt32 → E → E × List F
  | [], e => (e, [])
  | channel :: rest, e =>
    let (e, value) := api.channelRead e channel
    let (e, inputs) := readInputChannels rest e
    (e, (value.map EngineValue.cur).getD (FloatOps.lit 0) :: inputs)

def executeComponents (now : Instant) (clockSecs : UInt64) :
    List (ComponentInstance F) → E → Option (List (ComponentInstance F) × E)
  | [], e => some ([], e)
  | comp :: rest, e =>
    if !comp.enabled then do
      let (rest, e) ← executeComponents now clockSecs rest e
      some (comp :: rest, e)
    else do
      let (e, inputs) := readInputChannels api comp.inputChannels e
      let (kind, value) ← executeComponent comp.kind inputs now clockSecs
      let e := api.channelWriteLevel e
        ⟨comp.outputChannel, comp.writeLevel, some value, "control", FloatOps.lit 0⟩
      let (rest, e) ← executeComponents now clockSecs rest e
      some ({ comp with kind := kind } :: rest, e)

/-- `ControlRunner::execute`: the loops, then the components. -/
def ControlRunner.execute (runner : ControlRunner F) (e : E) (now : Instant) (clockSecs : UInt64) :
    Option (ControlRunner F × E) := do
  let (loops, e) ← runLoops api now runner.loops e
  let (components, e) ← executeComponents api now clockSecs runner.components e
  some (⟨loops, components⟩, e)

end Execute

end Sandstar.Control
