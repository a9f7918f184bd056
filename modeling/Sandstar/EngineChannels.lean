import Sandstar.EngineFilters
import Sandstar.PriorityArray
import Sandstar.Table

set_option autoImplicit false

/-!
# The channel engine

Channels, the hardware interface and the two read paths of the engine with its
poll cycle. Translated from `channel.rs`, `poll.rs`, `watch.rs`, `notify.rs` and
`engine.rs`. The hardware is a record of functions: what it answers during one
call or one cycle. A call that panics has no result.
-/
namespace Sandstar.Engine
open FloatOps

inductive HalError
  | deviceError (device address : UInt32) (message : String)
  | busError (device : UInt32) (message : String)
  | timeout (device address : UInt32)
  | ioError (message : String)
deriving DecidableEq, Repr

structure Hal (F : Type) where
  readAnalog : UInt32 → UInt32 → Except HalError F
  readDigital : UInt32 → Except HalError Bool
  readI2c : UInt32 → UInt32 → String → Except HalError F
  readPwm : UInt32 → UInt32 → Except HalError F
  readUart : UInt32 → String → Except HalError F
  writeDigital : UInt32 → Bool → Except HalError Unit
  writePwm : UInt32 → UInt32 → F → Except HalError Unit
  reinitI2cSensor : UInt32 → UInt32 → String → Except HalError Unit

abbrev I2cReadCache (F : Type) := Table (UInt32 × UInt32 × String) (Except HalError F)

inductive EngineError
  | channelNotFound (id : ChannelId)
  | writeNotSupported (id : ChannelId)
  | invalidWriteLevel (level : UInt8)
  | duplicateChannel (id : ChannelId)
  | invalidTableFile (message : String)
deriving DecidableEq, Repr

def errorText : EngineError → String
  | .channelNotFound id => "channel " ++ toString id ++ " not found"
  | .writeNotSupported id => "write not supported for channel " ++ toString id
  | .invalidWriteLevel level => "invalid write level " ++ toString level ++ " (must be 1-17)"
  | .duplicateChannel id => "duplicate channel " ++ toString id
  | .invalidTableFile message => "invalid table file: " ++ message

inductive ChannelType
  | analog
  | digital
  | pwm
  | triac
  | i2c
  | uart
  | virtualAnalog
  | virtualDigital
deriving DecidableEq, Repr

def ChannelType.isVirtual : ChannelType → Bool
  | .virtualAnalog | .virtualDigital => true
  | _ => false

inductive ChannelDirection
  | input
  | output
  | high
  | low
  | none
deriving DecidableEq, Repr

def ChannelDirection.isOutput : ChannelDirection → Bool
  | .output | .high | .low => true
  | _ => false

structure Channel (F : Type) where
  id : ChannelId
  channelIn : Option ChannelId
  enabled : Bool
  channelType : ChannelType
  direction : ChannelDirection
  device : UInt32
  address : UInt32
  trigger : Bool
  failed : Bool
  retryCounter : UInt32
  conv : ValueConv F
  value : EngineValue F
  label : String
  /-- `flow_state`, a record of the one flag. -/
  flowDetected : Option Bool
  spikeState : SpikeState F
  smoothState : SmoothState F
  rateLimitState : RateLimitState F
  pwmDisabled : Bool
  priorityArray : Option (PriorityArray F)
  lastValidValue : F
  spikeReadingCount : UInt32
  tags : Table String String

namespace Channel

variable {F : Type} [FloatOps F]

def new (id : ChannelId) (channelType : ChannelType) (direction : ChannelDirection)
    (device address : UInt32) (trigger : Bool) (conv : ValueConv F) (label : String) : Channel F where
  id := id
  channelIn := none
  enabled := true
  channelType := channelType
  direction := direction
  device := device
  address := address
  trigger := trigger
  failed := false
  retryCounter := 0
  conv := conv
  value := EngineValue.default
  label := label
  flowDetected := if channelType = .i2c then some false else none
  spikeState := SpikeState.default
  smoothState := SmoothState.default
  rateLimitState := RateLimitState.default
  pwmDisabled := false
  priorityArray := none
  lastValidValue := lit 0
  spikeReadingCount := 0
  tags := Table.empty

def isSdp810 (ch : Channel F) : Bool :=
  decide (ch.channelType = .i2c) && decide (610 ≤ ch.id.toNat ∧ ch.id.toNat ≤ 614)

/-- `validate_i2c_raw`: the reading, or the last valid value in place of garbage. -/
def validateI2cRaw (ch : Channel F) (raw : F) : F :=
  if !ch.isSdp810 then raw
  else if !(FloatOps.le (lit 0) raw && FloatOps.le raw (lit 32767)) then
    if !FloatOps.eq ch.lastValidValue (lit 0) then ch.lastValidValue else lit 0
  else raw

def checkSdp810Spike (ch : Channel F) (cur : F) : Channel F × F :=
  if !ch.isSdp810 then (ch, cur)
  else
    let ch := { ch with spikeReadingCount := ch.spikeReadingCount + 1 }
    if FloatOps.eq ch.lastValidValue (lit 0) || decide (ch.spikeReadingCount < 3) then
      ({ ch with lastValidValue := cur }, cur)
    else
      let baseline := ch.lastValidValue
      if FloatOps.lt (lit 50) (FloatOps.abs baseline) && FloatOps.lt (FloatOps.abs cur) (lit 1) then
        (ch, baseline)
      else if FloatOps.lt (lit (1 / 10000000000)) (FloatOps.abs baseline) &&
          FloatOps.lt (lit 5) (FloatOps.abs (cur / baseline)) then
        (ch, baseline)
      else ({ ch with lastValidValue := cur }, cur)

def waitOn (ch : Channel F) : Channel F := { ch with retryCounter := ch.retryCounter + 1 }

def waitAnew (ch : Channel F) : Channel F := { ch with retryCounter := 0 }

def recover (ch : Channel F) : Channel F := { ch with failed := false, retryCounter := 0 }

def hasWrittenValue (ch : Channel F) : Bool :=
  match ch.priorityArray with
  | some pa => pa.effective.1.isSome
  | none => false

section Pipeline

/-! The steps of a read after the hardware has answered, each as it stands in
both read paths. -/

def storeRaw (ch : Channel F) (raw : F) : Channel F :=
  let ch := { ch with value := ch.value.setRaw raw }
  let raw := ch.validateI2cRaw raw
  { ch with value := { ch.value with raw := raw } }

def detectSensor (ch : Channel F) (id : ChannelId) (tables : TableStore F) : Channel F :=
  { ch with conv := autoDetectSensor id ch.conv tables }

def convertValue (ch : Channel F) (tables : TableStore F) : Option (Channel F) :=
  match ch.conv.convert ch.value tables ch.flowDetected with
  | none => none
  | some (value, flowDetected) => some { ch with value := value, flowDetected := flowDetected }

def setValueCur (ch : Channel F) (cur : F) : Channel F :=
  { ch with value := { ch.value with cur := cur } }

def rejectSdp810Spike (ch : Channel F) : Channel F :=
  let (ch, cur) := ch.checkSdp810Spike ch.value.cur
  ch.setValueCur cur

def filterSpike (ch : Channel F) : Channel F :=
  match ch.conv.filterConfig.bind FilterConfig.spikeFilter with
  | some cfg =>
    let (state, cur) := applySpikeFilter ch.spikeState ch.value.cur cfg
    { ch with spikeState := state }.setValueCur cur
  | none => ch

def smooth (ch : Channel F) : Channel F :=
  match ch.conv.filterConfig.bind FilterConfig.smoothing with
  | some cfg =>
    let (state, cur) := applySmoothing ch.smoothState ch.value.cur cfg.window cfg.method
    { ch with smoothState := state }.setValueCur cur
  | none => ch

def limitRate (ch : Channel F) (now : Instant) : Channel F :=
  match ch.conv.filterConfig.bind FilterConfig.rateLimit with
  | some cfg =>
    let (state, cur) := applyRateLimit ch.rateLimitState now ch.value.cur cfg.maxRise cfg.maxFall
    { ch with rateLimitState := state }.setValueCur cur
  | none => ch

def triggerOnZero (ch : Channel F) : Channel F :=
  if FloatOps.eq ch.value.cur (lit 0) then { ch with value := { ch.value with trigger := ch.trigger } }
  else ch

end Pipeline

def readDigitalAsFloat (hal : Hal F) (address : UInt32) : Except HalError F :=
  match hal.readDigital address with
  | .ok b => .ok (if b then lit 1 else lit 0)
  | .error err => .error err

/-- Steps 4 to 16 of `channel_read` on the channel itself, given the value of
    its source: the channel it leaves and the value it returns, or a panic of
    the conversion. -/
def read (hal : Hal F) (now : Instant) (id : ChannelId) (tables : TableStore F) (sourceCur : F)
    (ch : Channel F) : Option (Channel F × EngineValue F) :=
  if ch.channelType.isVirtual then
    if ch.hasWrittenValue then
      let ch := { ch with value := EngineValue.withCurFlag { ch.value with status := .ok } }
      some (ch, ch.value)
    else
      let ch := { ch with
        value := EngineValue.withCurFlag { ch.value with cur := sourceCur, status := .ok } }
      some (ch, ch.value)
  else
    let halResult : Except HalError F := match ch.channelType with
      | .analog => hal.readAnalog ch.device ch.address
      | .digital | .triac => readDigitalAsFloat hal ch.address
      | .pwm => if ch.pwmDisabled then .ok (lit 0) else hal.readPwm ch.device ch.address
      | .i2c => hal.readI2c ch.device ch.address ch.label
      | .uart => hal.readUart ch.device ch.label
      -- virtual channels have returned above
      | .virtualAnalog | .virtualDigital => .error (.busError ch.device "unreachable")
    match halResult with
    | .error _ =>
      some ({ ch with failed := true, value := { ch.value with status := .down } },
        EngineValue.withStatus .down)
    | .ok raw =>
      let ch := ch.storeRaw raw
      let ch := ch.detectSensor id tables
      match ch.convertValue tables with
      | none => none
      | some ch =>
        let ch := ch.rejectSdp810Spike
        let ch := ch.filterSpike
        let ch := ch.smooth
        let ch := ch.limitRate now
        let ch := ch.triggerOnZero
        some (ch, ch.value)

def readCached (hal : Hal F) (now : Instant) (cache : I2cReadCache F) (id : ChannelId)
    (tables : TableStore F) (sourceCur : F) (ch : Channel F) :
    Option (Channel F × EngineValue F) :=
  if ch.channelType.isVirtual then
    if ch.hasWrittenValue then
      let ch := { ch with value := EngineValue.withCurFlag { ch.value with status := .ok } }
      some (ch, ch.value)
    else
      let ch := { ch with
        value := EngineValue.withCurFlag { ch.value with cur := sourceCur, status := .ok } }
      some (ch, ch.value)
  else
    let halResult : Except HalError F := match ch.channelType with
      | .analog => hal.readAnalog ch.device ch.address
      | .digital | .triac => readDigitalAsFloat hal ch.address
      | .pwm => if ch.pwmDisabled then .ok (lit 0) else hal.readPwm ch.device ch.address
      | .i2c =>
        match cache.get (ch.device, ch.address, ch.label) with
        | some (.ok val) => .ok val
        | some (.error _) => .error (.busError ch.device "cached I2C read failed")
        | none => hal.readI2c ch.device ch.address ch.label
      | .uart => hal.readUart ch.device ch.label
      | .virtualAnalog | .virtualDigital => .error (.busError ch.device "unreachable")
    match halResult with
    | .error _ =>
      some ({ ch with failed := true, value := { ch.value with status := .down } },
        EngineValue.withStatus .down)
    | .ok raw =>
      let ch := ch.storeRaw raw
      let ch := ch.detectSensor id tables
      match ch.convertValue tables with
      | none => none
      | some ch =>
        let ch := ch.rejectSdp810Spike
        let ch := ch.filterSpike
        let ch := ch.smooth
        let ch := ch.limitRate now
        let ch := ch.triggerOnZero
        some (ch, ch.value)

end Channel

structure PollItem (F : Type) where
  lastValue : EngineValue F
  unchangedCount : UInt32
  consecutiveFailCount : UInt32

structure WatchItem where
  channel : ChannelId
  subscriber : UInt64

structure I2cBackoffState where
  cooldown : UInt32
  consecutiveFailures : UInt32
deriving DecidableEq, Repr

def retryCooldownBase : UInt32 := 30

def retryCooldownMax : UInt32 := 300

def consecutiveFailThreshold : UInt32 := 5

namespace I2cBackoffState

def new : I2cBackoffState := ⟨retryCooldownBase, 0⟩

def recordFailure (b : I2cBackoffState) : I2cBackoffState :=
  ⟨min (b.cooldown * 2) retryCooldownMax, b.consecutiveFailures + 1⟩

def reset (_ : I2cBackoffState) : I2cBackoffState := ⟨retryCooldownBase, 0⟩

end I2cBackoffState

structure State (F : Type) where
  channels : Table ChannelId (Channel F)
  tables : TableStore F
  polls : Table ChannelId (PollItem F)
  watches : List WatchItem
  notifies : List UInt64
  i2cBackoff : Table (UInt32 × UInt32) I2cBackoffState

inductive Notification (F : Type)
  | watch (subscriber : UInt64) (channel : ChannelId) (value : EngineValue F)
  | notify (subscriber : UInt64) (channel : ChannelId) (value : EngineValue F)

namespace State

variable {F : Type}

def setChannel (e : State F) (id : ChannelId) (ch : Channel F) : State F :=
  { e with channels := e.channels.insert id ch }

def cooldown (e : State F) (ch : Channel F) : UInt32 :=
  if ch.channelType = .i2c then
    match e.i2cBackoff.get (ch.device, ch.address) with
    | some b => b.cooldown
    | none => retryCooldownBase
  else retryCooldownBase

variable [FloatOps F]

/-- `try_i2c_recovery` on a present channel: the state it leaves, and the value
    to return if the channel stays down. -/
def tryI2cRecovery (hal : Hal F) (e : State F) (id : ChannelId) (ch : Channel F) :
    State F × Option (EngineValue F) :=
  if !ch.failed then (e, none)
  else if ch.retryCounter < e.cooldown ch then
    (e.setChannel id ch.waitOn,
      some (EngineValue.withStatus .down))
  else if ch.channelType = .i2c then
    let key := (ch.device, ch.address)
    match hal.reinitI2cSensor ch.device ch.address ch.label with
    | .error _ =>
      let backoff := (e.i2cBackoff.get key).getD I2cBackoffState.new
      let e := { e with i2cBackoff := e.i2cBackoff.insert key backoff.recordFailure }
      (e.setChannel id ch.waitAnew, some (EngineValue.withStatus .down))
    | .ok _ =>
      let e := { e with i2cBackoff := e.i2cBackoff.modify key I2cBackoffState.reset }
      (e.setChannel id ch.recover, none)
  else (e.setChannel id ch.recover, none)

def sourceCur (e : State F) (ch : Channel F) : F :=
  match ch.channelIn with
  | some src => match e.channels.get src with
    | some source => source.value.cur
    | none => lit 0
  | none => lit 0

/-- `channel_read`: the state it leaves and its result; `none` where the
    conversion panics. -/
def channelRead (hal : Hal F) (now : Instant) (e : State F) (id : ChannelId) :
    Option (State F × Except EngineError (EngineValue F)) :=
  match e.channels.get id with
  | none => some (e, .error (.channelNotFound id))
  | some ch =>
    if !ch.enabled then some (e, .ok (EngineValue.withStatus .disabled))
    else match e.tryI2cRecovery hal id ch with
      | (e, some down) => some (e, .ok down)
      | (e, none) => match e.channels.get id with
        | none => some (e, .error (.channelNotFound id))
        | some ch => match Channel.read hal now id e.tables (e.sourceCur ch) ch with
          | none => none
          | some (ch, value) => some (e.setChannel id ch, .ok value)

/-- One polled channel of `pre_read_i2c_channels`: the first channel with a key reads it. -/
def preRead (hal : Hal F) (e : State F) (cache : I2cReadCache F) (id : ChannelId) :
    I2cReadCache F :=
  match e.channels.get id with
  | none => cache
  | some ch =>
    if ch.channelType = .i2c ∧ ch.enabled ∧ ¬ ch.failed then
      match cache.get (ch.device, ch.address, ch.label) with
      | some _ => cache
      | none =>
        cache.insert (ch.device, ch.address, ch.label) (hal.readI2c ch.device ch.address ch.label)
    else cache

/-- `pre_read_i2c_channels` over the polled ids in the order of the hash map. -/
def preReadI2cChannels (hal : Hal F) (e : State F) (polledIds : List ChannelId) : I2cReadCache F :=
  polledIds.foldl (e.preRead hal) Table.empty

/-- `channel_read_cached`, the second read path. -/
def channelReadCached (hal : Hal F) (now : Instant) (cache : I2cReadCache F) (e : State F)
    (id : ChannelId) : Option (State F × Except EngineError (EngineValue F)) :=
  match e.channels.get id with
  | none => some (e, .error (.channelNotFound id))
  | some ch =>
    if !ch.enabled then some (e, .ok (EngineValue.withStatus .disabled))
    else match e.tryI2cRecovery hal id ch with
      | (e, some down) => some (e, .ok down)
      | (e, none) => match e.channels.get id with
        | none => some (e, .error (.channelNotFound id))
        | some ch => match Channel.readCached hal now cache id e.tables (e.sourceCur ch) ch with
          | none => none
          | some (ch, value) => some (e.setChannel id ch, .ok value)

section Write

def finishWrite (e : State F) (id : ChannelId) (ch : Channel F) (value : EngineValue F)
    (halResult : Except HalError Unit) : State F × EngineValue F × Except EngineError Unit :=
  let value := match halResult with
    | .error _ => { value with status := .down }
    | .ok _ => value
  (e.setChannel id { ch with value := value }, value, .ok ())

/-- `channel_write`: the state and the value it leaves, and its result; `none`
    where the conversion panics. -/
def channelWrite (hal : Hal F) (e : State F) (id : ChannelId) (value : EngineValue F) :
    Option (State F × EngineValue F × Except EngineError Unit) :=
  match e.channels.get id with
  | none => some (e, value, .error (.channelNotFound id))
  | some ch =>
    if !(ch.direction.isOutput || ch.channelType.isVirtual) ||
        (!value.flags.raw && !value.flags.cur) then
      some (e, value, .error (.writeNotSupported id))
    else if !ch.enabled then some (e, { value with status := .disabled }, .ok ())
    else
      let converted : Option (EngineValue F) :=
        if value.flags.raw && !value.flags.cur then
          match ch.conv.convert value e.tables none with
          | some (value, _) => some value
          | none => none
        else if value.flags.cur && !value.flags.raw then ch.conv.revert value e.tables
        else some value
      match converted with
      | none => none
      | some value => match ch.channelType with
        | .digital | .triac =>
          let bit := FloatOps.lt (lit (1 / 2)) value.raw
          let level : F := if bit then lit 1 else lit 0
          let value := if !ch.conv.adcMode then { value with raw := level, cur := level } else value
          some (e.finishWrite id ch value (hal.writeDigital ch.address bit))
        | .pwm => some (e.finishWrite id ch value (hal.writePwm ch.device ch.address value.raw))
        | .virtualAnalog | .virtualDigital =>
          some (e.setChannel id { ch with value := value }, value, .ok ())
        | .analog | .i2c | .uart => some (e, value, .error (.writeNotSupported id))

def expireChannel (hal : Hal F) (now : Instant) (e : State F) (id : ChannelId) :
    Option (State F) :=
  match e.channels.get id with
  | none => some e
  | some ch => match ch.priorityArray with
    | none => some e
    | some pa =>
      let (pa, expired) := pa.expireTimedLevels now
      let e := e.setChannel id { ch with priorityArray := some pa }
      if expired then
        match pa.effective.1 with
        | some val => match e.channelWrite hal id (EngineValue.default.setCur val) with
          | some (e, _, _) => some e
          | none => none
        | none => some e
      else some e

/-- `expire_priority_timers` over the channels in the order of their hash map. -/
def expirePriorityTimers (hal : Hal F) (clock : ChannelId → Instant) (e : State F)
    (channelOrder : List ChannelId) : Option (State F) :=
  channelOrder.foldlM (fun e id => e.expireChannel hal (clock id) id) e

end Write

section Poll

def collectNotifications (e : State F) (id : ChannelId) (value : EngineValue F) :
    List (Notification F) :=
  (e.watches.filter fun w => w.channel == id).map (fun w => .watch w.subscriber id value) ++
    e.notifies.map fun sub => .notify sub id value

/-- The body of the poll loop after the read: the failure counter on an error,
    the recorded value and the notifications of a change otherwise. -/
def recordResult (e : State F) (id : ChannelId) (result : Except EngineError (EngineValue F)) :
    State F × List (Notification F) :=
  match result with
  | .error _ =>
    ({ e with polls := e.polls.modify id fun item =>
        let failures := item.consecutiveFailCount + 1
        { item with consecutiveFailCount :=
            if consecutiveFailThreshold ≤ failures then 0 else failures } }, [])
  | .ok value => match e.polls.get id with
    | none => (e, [])
    | some item =>
      let changed := !item.lastValue.valuesEqual value
      let recorded : PollItem F := ⟨value, if changed then 0 else item.unchangedCount + 1, 0⟩
      ({ e with polls := e.polls.insert id recorded },
        if changed then e.collectNotifications id value else [])

def pollChannel (hal : Hal F) (clock : ChannelId → Instant) (cache : I2cReadCache F)
    (e : State F) (id : ChannelId) : Option (State F × List (Notification F)) :=
  match e.channelReadCached hal (clock id) cache id with
  | none => none
  | some (e, result) => some (e.recordResult id result)

def pollLoop (hal : Hal F) (clock : ChannelId → Instant) (cache : I2cReadCache F) :
    State F → List ChannelId → Option (State F × List (Notification F))
  | e, [] => some (e, [])
  | e, id :: ids => match e.pollChannel hal clock cache id with
    | none => none
    | some (e, notifications) => match pollLoop hal clock cache e ids with
      | none => none
      | some (e, more) => some (e, notifications ++ more)

/-- `poll_update`, with the iteration orders of the two hash maps and the clock
    readings taken for each channel. -/
def pollUpdate (hal : Hal F) (expireClock readClock : ChannelId → Instant) (e : State F)
    (channelOrder polledIds : List ChannelId) : Option (State F × List (Notification F)) :=
  match e.expirePriorityTimers hal expireClock channelOrder with
  | none => none
  | some e => e.pollLoop hal readClock (e.preReadI2cChannels hal polledIds) polledIds

end Poll
end State
end Sandstar.Engine

/-!
# The cached read path

The I2C cache of a poll cycle holds what the hardware answers, and with such a
cache the second read path of the engine does what the first one does.
-/
namespace Sandstar.Engine.State

variable {F : Type}

def CacheAgrees (hal : Hal F) (cache : I2cReadCache F) : Prop :=
  ∀ device address label r, cache.get (device, address, label) = some r →
    r = hal.readI2c device address label

theorem cacheAgrees_empty (hal : Hal F) : CacheAgrees hal Table.empty := by
  intro device address label r h
  rw [Table.get_empty] at h
  cases h

theorem cacheAgrees_insert {hal : Hal F} {cache : I2cReadCache F} (h : CacheAgrees hal cache)
    (device address : UInt32) (label : String) :
    CacheAgrees hal (cache.insert (device, address, label) (hal.readI2c device address label)) := by
  intro d a l r hr
  rw [Table.get_insert] at hr
  split_ifs at hr with hkey
  · cases hkey
    exact (Option.some.inj hr).symm
  · exact h d a l r hr

theorem preRead_agrees {hal : Hal F} {cache : I2cReadCache F} (h : CacheAgrees hal cache)
    (e : State F) (id : ChannelId) : CacheAgrees hal (e.preRead hal cache id) := by
  unfold preRead
  split
  · exact h
  · split_ifs
    · split
      · exact h
      · exact cacheAgrees_insert h _ _ _
    · exact h

/-- The cache built before a poll cycle agrees with the hardware. -/
theorem preReadI2cChannels_agrees (hal : Hal F) (e : State F) (polledIds : List ChannelId) :
    CacheAgrees hal (e.preReadI2cChannels hal polledIds) := by
  have hfold : ∀ (ids : List ChannelId) (cache : I2cReadCache F), CacheAgrees hal cache →
      CacheAgrees hal (ids.foldl (e.preRead hal) cache) := by
    intro ids
    induction ids with
    | nil =>
      intro cache h
      exact h
    | cons id ids ih =>
      intro cache h
      exact ih _ (preRead_agrees h e id)
  exact hfold polledIds Table.empty (cacheAgrees_empty hal)

variable [FloatOps F]

/-- With a cache that agrees with the hardware, a channel is read alike on both paths:
    the texts differ in the I2C branch alone. -/
theorem readCached_eq {hal : Hal F} {cache : I2cReadCache F} (h : CacheAgrees hal cache)
    (now : Instant) (id : ChannelId) (tables : TableStore F) (sourceCur : F) (ch : Channel F) :
    Channel.readCached hal now cache id tables sourceCur ch =
      Channel.read hal now id tables sourceCur ch := by
  unfold Channel.readCached Channel.read
  cases htype : ch.channelType with
  | i2c =>
    dsimp only
    cases hcache : cache.get (ch.device, ch.address, ch.label) with
    | none => rfl
    | some r =>
      rw [← h _ _ _ r hcache]
      cases r with
      | ok raw => rfl
      | error err => rfl
  | _ => rfl

theorem channelReadCached_eq {hal : Hal F} {cache : I2cReadCache F} (h : CacheAgrees hal cache)
    (now : Instant) (e : State F) (id : ChannelId) :
    e.channelReadCached hal now cache id = e.channelRead hal now id := by
  unfold channelReadCached channelRead
  simp only [readCached_eq h]

/-- Whatever state the cache of a poll cycle was built from, the cached read
    gives the result and the state of the plain read. -/
theorem channelReadCached_preRead (hal : Hal F) (now : Instant) (e₀ e : State F)
    (polledIds : List ChannelId) (id : ChannelId) :
    e.channelReadCached hal now (e₀.preReadI2cChannels hal polledIds) id =
      e.channelRead hal now id :=
  channelReadCached_eq (preReadI2cChannels_agrees hal e₀ polledIds) now e id

end Sandstar.Engine.State
