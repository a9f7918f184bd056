import Sandstar.EngineConversion

set_option autoImplicit false

namespace Sandstar.Control

open Engine

variable {F : Type}

section Sequencer

def maxStages : ℕ := 16

structure LeadSequencer (F : Type) where
  numStages : ℕ
  inMin : F
  inMax : F
  hysteresis : F
  stages : List Bool

variable [FloatOps F]

def LeadSequencer.new (numStages : ℕ) : LeadSequencer F :=
  let n := max 1 (min numStages maxStages)
  ⟨n, FloatOps.lit 0, FloatOps.lit 100, FloatOps.lit (1 / 2), List.replicate n false⟩

def LeadSequencer.bandWidth (seq : LeadSequencer F) : F :=
  (seq.inMax - seq.inMin) / FloatOps.lit seq.numStages

def LeadSequencer.thresholdOn (seq : LeadSequencer F) (i : ℕ) : F :=
  seq.inMin + seq.bandWidth * FloatOps.lit i

def LeadSequencer.thresholdOff (seq : LeadSequencer F) (i : ℕ) : F :=
  seq.thresholdOn i - seq.bandWidth * seq.hysteresis

def LeadSequencer.stage (seq : LeadSequencer F) (input : F) (i : ℕ) (on : Bool) : Bool :=
  if FloatOps.lt (seq.thresholdOn i) input then true
  else if FloatOps.lt input (seq.thresholdOff i) then false
  else on

def LeadSequencer.execute (seq : LeadSequencer F) (input : F) : LeadSequencer F :=
  if FloatOps.le (seq.inMax - seq.inMin) (FloatOps.lit 0) || seq.numStages == 0 then seq
  else { seq with stages := seq.stages.mapIdx fun i on => seq.stage input i on }

def LeadSequencer.activeCount (seq : LeadSequencer F) : ℕ := (seq.stages.filter id).length

def LeadSequencer.setNumStages (seq : LeadSequencer F) (numStages : ℕ) : LeadSequencer F :=
  let n := max 1 (min numStages maxStages)
  { seq with numStages := n, stages := List.replicate n false }

end Sequencer

section Pid

structure PidController (F : Type) where
  kp : F
  ki : F
  kd : F
  outMin : F
  outMax : F
  bias : F
  maxDelta : F
  direct : Bool
  execIntervalMs : UInt64
  enabled : Bool
  output : F
  integral : F
  lastError : F
  lastExec : Option Instant
  initialized : Bool

variable [FloatOps F]

def PidController.new : PidController F where
  kp := FloatOps.lit 1
  ki := FloatOps.lit 0
  kd := FloatOps.lit 0
  outMin := FloatOps.lit 0
  outMax := FloatOps.lit 100
  bias := FloatOps.lit 50
  maxDelta := FloatOps.lit 0
  direct := true
  execIntervalMs := 1000
  enabled := true
  output := FloatOps.lit 0
  integral := FloatOps.lit 0
  lastError := FloatOps.lit 0
  lastExec := none
  initialized := false

def signum (x : F) : F :=
  if FloatOps.lt x (FloatOps.lit 0) then FloatOps.lit (-1) else FloatOps.lit 1

def PidController.limitRate (pid : PidController F) (newOutput : F) : Option F :=
  if FloatOps.lt (FloatOps.lit 0) pid.maxDelta then
    let change := newOutput - pid.output
    if FloatOps.lt pid.maxDelta (FloatOps.abs change) then
      FloatOps.clamp (pid.output + signum change * pid.maxDelta) pid.outMin pid.outMax
    else some newOutput
  else some newOutput

def PidController.error (pid : PidController F) (setpoint processVariable : F) : F :=
  if pid.direct then setpoint - processVariable
  else FloatOps.lit (-1) * (setpoint - processVariable)

def PidController.integrates (pid : PidController F) : Bool :=
  !FloatOps.eq pid.ki (FloatOps.lit 0)

def PidController.integrate (pid : PidController F) (error dt : F) : Option F :=
  if pid.integrates then
    FloatOps.clamp (pid.integral + pid.ki * error * dt / FloatOps.lit 60) pid.outMin pid.outMax
  else some pid.integral

def PidController.raw (pid : PidController F) (error integral dt : F) : F :=
  let p := pid.kp * error
  let d := if !FloatOps.eq pid.kd (FloatOps.lit 0) then
      pid.kd * (error - pid.lastError) / dt
    else FloatOps.lit 0
  if pid.integrates then p + integral + d else p + d + pid.bias

def PidController.compute (pid : PidController F) (setpoint processVariable dt : F)
    (now : Instant) : Option (PidController F × F) := do
  let error := pid.error setpoint processVariable
  let integral ← pid.integrate error dt
  let newOutput ← FloatOps.clamp (pid.raw error integral dt) pid.outMin pid.outMax
  let newOutput ← pid.limitRate newOutput
  some ({ pid with
    integral := integral, lastError := error, lastExec := some now, output := newOutput },
    newOutput)

/-- The controller and its output after one execution; `none` where a clamp panics. -/
def PidController.execute (pid : PidController F) (setpoint processVariable : F) (now : Instant) :
    Option (PidController F × F) :=
  if !pid.enabled then some (pid, pid.output)
  else if !pid.initialized then
    let pid := { pid with lastExec := some now, lastError := FloatOps.lit 0, initialized := true }
    if FloatOps.eq pid.ki (FloatOps.lit 0) then
      (FloatOps.clamp pid.bias pid.outMin pid.outMax).map fun output =>
        ({ pid with output := output }, output)
    else some (pid, pid.output)
  else
    let elapsed := now - pid.lastExec.getD now
    if elapsed < pid.execIntervalMs.toNat * 1000000 then some (pid, pid.output)
    else if FloatOps.le (FloatOps.asSecs elapsed : F) (FloatOps.lit 0) then some (pid, pid.output)
    else pid.compute setpoint processVariable (FloatOps.asSecs elapsed) now

end Pid

section Config

structure PidConfig (F : Type) where
  kp : F
  ki : F
  kd : F
  min : F
  max : F
  bias : F
  maxDelta : F
  direct : Bool
  execIntervalMs : UInt64

/-- The values `serde` fills in for missing keys. -/
def PidConfig.default [FloatOps F] : PidConfig F where
  kp := FloatOps.lit 1
  ki := FloatOps.lit 0
  kd := FloatOps.lit 0
  min := FloatOps.lit 0
  max := FloatOps.lit 100
  bias := FloatOps.lit 50
  maxDelta := FloatOps.lit 0
  direct := true
  execIntervalMs := 1000

structure SeqConfig (F : Type) where
  hysteresis : F

structure LoopConfig (F : Type) where
  name : String
  feedbackChannel : UInt32
  setpointChannel : UInt32
  outputChannels : List UInt32
  writeLevel : UInt8
  pid : PidConfig F
  sequencer : Option (SeqConfig F)
  enableQuery : Option String

structure ControlLoop (F : Type) where
  name : String
  feedbackChannel : UInt32
  setpointChannel : UInt32
  outputChannels : List UInt32
  writeLevel : UInt8
  pid : PidController F
  sequencer : Option (LeadSequencer F)
  enableQuery : Option String
  enabled : Bool

variable [FloatOps F]

def PidConfig.build (pc : PidConfig F) : PidController F :=
  { PidController.new with
    kp := pc.kp, ki := pc.ki, kd := pc.kd, outMin := pc.min, outMax := pc.max, bias := pc.bias,
    maxDelta := pc.maxDelta, direct := pc.direct, execIntervalMs := pc.execIntervalMs }

def LoopConfig.build (lc : LoopConfig F) : ControlLoop F where
  name := lc.name
  feedbackChannel := lc.feedbackChannel
  setpointChannel := lc.setpointChannel
  outputChannels := lc.outputChannels
  writeLevel := lc.writeLevel
  pid := lc.pid.build
  sequencer := lc.sequencer.map fun sc =>
    { LeadSequencer.new lc.outputChannels.length with hysteresis := sc.hysteresis }
  enableQuery := lc.enableQuery
  enabled := true

/-- The loops of `ControlRunner::load`; one without output channels is skipped. -/
def loadLoops : List (LoopConfig F) → Except String (List (ControlLoop F))
  | [] => .ok []
  | lc :: rest =>
    if lc.writeLevel = 0 || lc.writeLevel > 17 then
      .error ("loop '" ++ lc.name ++ "': write_level " ++ toString lc.writeLevel ++
        " out of range 1..=17")
    else do
      let loops ← loadLoops rest
      if lc.outputChannels.isEmpty then .ok loops else .ok (lc.build :: loops)

end Config

section Execute

/-- A call of `channel_write_level`. -/
structure Command (F : Type) where
  channel : UInt32
  level : UInt8
  value : Option F
  who : String
  duration : F

/-- What the engine answers the loop during one cycle: a failed read is `none`. -/
structure Reading (F : Type) where
  feedback : Option (EngineValue F)
  setpoint : Option (EngineValue F)
  now : Instant

structure Cycle (F : Type) where
  pidOut : F
  commands : List (Command F)

variable [FloatOps F]

def ControlLoop.command (l : ControlLoop F) (channel : UInt32) (value : F) : Command F :=
  ⟨channel, l.writeLevel, some value, "control", FloatOps.lit 0⟩

def ControlLoop.drive (l : ControlLoop F) (sp pv : F) (now : Instant) :
    Option (ControlLoop F × Cycle F) := do
  let (pid, pidOut) ← l.pid.execute sp pv now
  match l.sequencer with
  | some seq =>
    let seq := seq.execute pidOut
    let commands := l.outputChannels.mapIdx fun i channel =>
      l.command channel (if seq.stages.getD i false then FloatOps.lit 1 else FloatOps.lit 0)
    some ({ l with pid := pid, sequencer := some seq }, ⟨pidOut, commands⟩)
  | none =>
    let commands := (l.outputChannels.take 1).map fun channel => l.command channel pidOut
    some ({ l with pid := pid }, ⟨pidOut, commands⟩)

def ControlLoop.inputs (l : ControlLoop F) (r : Reading F) : Option (F × F) :=
  if !l.enabled then none
  else match r.feedback with
    | none => none
    | some pv => if pv.status = .ok then r.setpoint.map fun sp => (sp.cur, pv.cur) else none

/-- One pass of the loop's body; `none` where it panics. -/
def ControlLoop.cycle (l : ControlLoop F) (r : Reading F) :
    Option (ControlLoop F × Option (Cycle F)) :=
  match l.inputs r with
  | none => some (l, none)
  | some (sp, pv) => (l.drive sp pv r.now).map fun p => (p.1, some p.2)

structure EngineCalls (E F : Type) where
  channelRead : E → UInt32 → E × Option (EngineValue F)
  channelWriteLevel : E → Command F → E

variable {E : Type}

/-- The answers of the engine to one loop: the setpoint is read only after a good feedback. -/
def EngineCalls.readings (api : EngineCalls E F) (l : ControlLoop F) (e : E) (now : Instant) :
    E × Reading F :=
  if !l.enabled then (e, ⟨none, none, now⟩)
  else
    let (e, feedback) := api.channelRead e l.feedbackChannel
    match feedback with
    | none => (e, ⟨none, none, now⟩)
    | some pv =>
      if pv.status ≠ .ok then (e, ⟨some pv, none, now⟩)
      else
        let (e, setpoint) := api.channelRead e l.setpointChannel
        (e, ⟨some pv, setpoint, now⟩)

def executeLoops (api : EngineCalls E F) (now : Instant) :
    List (ControlLoop F) → E → Option (List (ControlLoop F) × E)
  | [], e => some ([], e)
  | l :: rest, e => do
    let (e, reading) := api.readings l e now
    let (l, cycle) ← l.cycle reading
    let commands := (cycle.map Cycle.commands).getD []
    let (rest, e) ← executeLoops api now rest (commands.foldl api.channelWriteLevel e)
    some (l :: rest, e)

end Execute

end Sandstar.Control
