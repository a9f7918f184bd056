import Sandstar.FloatOps

set_option autoImplicit false

/-!
# Conversion of channel values

Raw readings to engineering units and back: the differential-pressure
formulas, lookup tables, range scaling and the detection of analog sensors by
their channel number. Translated from `value.rs`, `table.rs` and `conversion/`.
-/
namespace Sandstar.Engine
open FloatOps

abbrev ChannelId := UInt32

inductive EngineStatus
  | ok
  | unknown
  | stale
  | disabled
  | fault
  | down
deriving DecidableEq, Repr

structure ValueFlags where
  raw : Bool
  cur : Bool
deriving DecidableEq, Repr

structure EngineValue (F : Type) where
  status : EngineStatus
  raw : F
  cur : F
  flags : ValueFlags
  trigger : Bool
deriving DecidableEq

namespace EngineValue

variable {F : Type} [FloatOps F]

def default : EngineValue F := ⟨.unknown, lit 0, lit 0, ⟨false, false⟩, false⟩

def withStatus (status : EngineStatus) : EngineValue F := { default with status := status }

def setRaw (v : EngineValue F) (raw : F) : EngineValue F :=
  { v with raw := raw, flags := ⟨true, false⟩, trigger := false }

def setCur (v : EngineValue F) (cur : F) : EngineValue F :=
  { v with cur := cur, flags := ⟨false, true⟩, trigger := false }

def withCurFlag (v : EngineValue F) : EngineValue F := { v with flags := { v.flags with cur := true } }

def valuesEqual (v w : EngineValue F) : Bool := decide (v.status = w.status) && FloatOps.eq v.cur w.cur

end EngineValue

section Tables

inductive TableDirection
  | increasing
  | decreasing
deriving DecidableEq, Repr

structure TableRanges (F : Type) where
  fahrenheit : F × F
  celsius : F × F
  kelvin : F × F

structure TableItem (F : Type) where
  tag : String
  unitType : String
  values : List F
  direction : TableDirection
  ranges : TableRanges F

variable {F : Type}

def TableItem.lowValue (t : TableItem F) : Option F :=
  match t.direction with
  | .increasing => t.values.head?
  | .decreasing => t.values.getLast?

def TableItem.highValue (t : TableItem F) : Option F :=
  match t.direction with
  | .increasing => t.values.getLast?
  | .decreasing => t.values.head?

/-- Slots of loaded tables; a removed table leaves its slot empty. -/
abbrev TableStore (F : Type) := List (Option (TableItem F))

def TableStore.get (tables : TableStore F) (index : ℕ) : Option (TableItem F) :=
  (tables[index]?).join

def TableStore.findByTag (tables : TableStore F) (tag : String) : Option ℕ :=
  tables.findIdx? fun slot => match slot with
    | some t => t.tag == tag
    | none => false

variable [FloatOps F]

def ofIndex (n : ℕ) : F := lit n

def lerp (a b f : F) : F := a * (lit 1 - f) + b * f

/-- The loop of both binary searches: `keepLow` says whether the middle value
    moves the lower end. -/
def binarySearch (keepLow : F → Bool) (values : List F) (lo hi : ℕ) : ℕ :=
  if 1 < hi - lo then
    let mid := lo + (hi - lo) / 2
    if keepLow (values.getD mid (lit 0)) then binarySearch keepLow values mid hi
    else binarySearch keepLow values lo mid
  else lo
termination_by hi - lo

def binarySearchIncreasing (values : List F) (raw : F) : ℕ :=
  binarySearch (fun v => FloatOps.le v raw) values 0 (values.length - 1)

def binarySearchDecreasing (values : List F) (raw : F) : ℕ :=
  binarySearch (fun v => FloatOps.le raw v) values 0 (values.length - 1)

def TableStore.lookup (tables : TableStore F) (index : ℕ) (raw min max : F) : Option F :=
  match tables.get index with
  | none => none
  | some item =>
    let n := item.values.length
    let entry (i : ℕ) : F := item.values.getD i (lit 0)
    if n < 2 then none
    else
      let unitStep := (max - min) / (ofIndex n - lit 1)
      match item.direction with
      | .increasing =>
        if FloatOps.le raw (entry 0) then some min
        else if FloatOps.le (entry (n - 1)) raw then some max
        else
          let pos := binarySearchIncreasing item.values raw
          let r1 := entry pos
          let r2 := entry (pos + 1)
          let c1 := min + ofIndex pos * unitStep
          let c2 := c1 + unitStep
          some (lerp c1 c2 ((raw - r1) / (r2 - r1)))
      | .decreasing =>
        if FloatOps.le (entry 0) raw then some min
        else if FloatOps.le raw (entry (n - 1)) then some max
        else
          let pos := binarySearchDecreasing item.values raw
          let r1 := entry pos
          let r2 := entry (pos + 1)
          let c1 := min + ofIndex pos * unitStep
          let c2 := c1 + unitStep
          some (lerp c2 c1 ((raw - r2) / (r1 - r2)))

def reverseScan (values : List F) (cur min unitStep : F) : List ℕ → Option F
  | [] => none
  | n :: ns =>
    let c1 := min + ofIndex n * unitStep
    let c2 := c1 + unitStep
    if FloatOps.le c1 cur && FloatOps.le cur c2 then
      let frac := (cur - c1) / (c2 - c1)
      some (truncate (lerp (values.getD n (lit 0)) (values.getD (n + 1) (lit 0)) frac))
    else reverseScan values cur min unitStep ns

def TableStore.reverseLookup (tables : TableStore F) (index : ℕ) (cur min max : F) : Option F :=
  match tables.get index with
  | none => none
  | some item =>
    let n := item.values.length
    if n < 2 then none
    else
      let unitStep := (max - min) / (ofIndex n - lit 1)
      if FloatOps.le cur min then item.values.head?
      else if FloatOps.le max cur then item.values.getLast?
      else reverseScan item.values cur min unitStep (List.range (n - 1))

end Tables

section Sdp610

variable {F : Type} [FloatOps F]

def paToInchesWc : F := lit (401865 / 100000000)

def paToPsi : F := lit (145038 / 1000000000)

def cfmToLps : F := lit (4719 / 10000)

def rawToPa (raw scaleFactor : F) : F := raw / scaleFactor

def rawToInh2o (raw scaleFactor : F) : F := rawToPa raw scaleFactor * paToInchesWc

def rawToPsi (raw scaleFactor : F) : F := rawToPa raw scaleFactor * paToPsi

def rawToCfm (raw kFactor deadBand scaleFactor : F) : F :=
  if FloatOps.lt raw deadBand then lit 0
  else
    let inh2o := rawToInh2o raw scaleFactor
    if FloatOps.lt inh2o (lit 0) then lit 0 else kFactor * FloatOps.sqrt inh2o

def rawToLps (raw kFactor deadBand scaleFactor : F) : F :=
  rawToCfm raw kFactor deadBand scaleFactor * cfmToLps

def applyHysteresis (raw hystOn hystOff : F) (flowDetected : Bool) : F × Bool :=
  if FloatOps.le raw (lit 0) then (lit 0, false)
  else if flowDetected then
    if FloatOps.le hystOff raw then (raw, true) else (lit 0, false)
  else
    if FloatOps.le hystOn raw then (raw, true) else (lit 0, false)

end Sdp610

inductive ConversionFn
  | sdp610ToPa
  | sdp610ToInH2O
  | sdp610ToPsi
  | sdp610ToCfm
  | sdp610ToLps
deriving DecidableEq, Repr

structure FlowConfig (F : Type) where
  kFactor : F
  deadBand : F
  hystOn : F
  hystOff : F
  scaleFactor : F
  hysteresisEnabled : Bool
  allowReverse : Bool
  reverseThreshold : F
deriving DecidableEq

def FlowConfig.default {F : Type} [FloatOps F] : FlowConfig F :=
  ⟨lit 14000, lit 5, lit 16, lit 8, lit 60, false, false, lit 10⟩

inductive SmoothMethod
  | mean
  | median
  | ewma
deriving DecidableEq, Repr

structure SpikeConfig (F : Type) where
  threshold : F
  startupDiscard : UInt32
  reverseThreshold : F
deriving DecidableEq

structure SmoothingConfig where
  window : ℕ
  method : SmoothMethod
deriving DecidableEq, Repr

structure RateLimitConfig (F : Type) where
  maxRise : F
  maxFall : F
deriving DecidableEq

structure FilterConfig (F : Type) where
  spikeFilter : Option (SpikeConfig F)
  smoothing : Option SmoothingConfig
  rateLimit : Option (RateLimitConfig F)
deriving DecidableEq

structure ValueConv (F : Type) where
  tableIndex : Option ℕ
  low : Option F
  high : Option F
  offset : Option F
  scale : Option F
  min : Option F
  max : Option F
  adcMode : Bool
  convFunc : Option ConversionFn
  unit : String
  flowConfig : Option (FlowConfig F)
  filterConfig : Option (FilterConfig F)
deriving DecidableEq

namespace ValueConv

variable {F : Type} [FloatOps F]

def default : ValueConv F :=
  ⟨none, none, none, none, none, none, none, false, none, "", none, none⟩

/-- All six parameters set and a non-empty range: the combined formula, whose
    clamp panics on bounds in the wrong order. -/
def applyCombinedTransform (conv : ValueConv F) (cur : F) : Option F :=
  match conv.low, conv.high, conv.offset, conv.scale, conv.min, conv.max with
  | some low, some high, some offset, some scale, some min, some max =>
    let range := high - low
    if !FloatOps.eq range (lit 0) then clamp (cur / range * scale + offset) min max
    else some cur
  | _, _, _, _, _, _ => some cur

def clampOutput (conv : ValueConv F) (cur : F) : F :=
  let cur := match conv.min with
    | some min => FloatOps.max cur min
    | none => cur
  match conv.max with
  | some max => FloatOps.min cur max
  | none => cur

def runConversion (f : ConversionFn) (cfg : FlowConfig F) (raw : F) : F :=
  match f with
  | .sdp610ToPa => rawToPa raw cfg.scaleFactor
  | .sdp610ToInH2O => rawToInh2o raw cfg.scaleFactor
  | .sdp610ToPsi => rawToPsi raw cfg.scaleFactor
  | .sdp610ToCfm => rawToCfm raw cfg.kFactor cfg.deadBand cfg.scaleFactor
  | .sdp610ToLps => rawToLps raw cfg.kFactor cfg.deadBand cfg.scaleFactor

/-- The converted value on the table and range paths before offset and scale:
    an early result for a reading outside the table, or the value to go on with. -/
def tableOrRange (conv : ValueConv F) (value : EngineValue F) (tables : TableStore F)
    (low high raw : F) : EngineValue F ⊕ F :=
  let scaled : F :=
    let range := high - low
    if !FloatOps.eq range (lit 0) then raw / range else lit 0
  if conv.adcMode then
    let mid := low + (high - low) * lit (1 / 2)
    .inr (if FloatOps.le raw mid then lit 0 else lit 1)
  else match conv.tableIndex with
    | some index =>
      let min := conv.min.getD (lit 0)
      let max := conv.max.getD (lit 100)
      let margin := (high - low) * lit (2 / 100)
      if FloatOps.le value.raw (low + margin) then
        .inl (EngineValue.withCurFlag { value with status := .fault, cur := min, trigger := false })
      else if FloatOps.le (high - margin) value.raw then
        .inl (EngineValue.withCurFlag { value with status := .fault, cur := max, trigger := false })
      else .inr ((tables.lookup index raw min max).getD scaled)
    | none => .inr (if conv.low.isSome && conv.high.isSome then scaled else raw)

/-- `convert_table_or_range`; `none` where clamping the reading panics. -/
def convertTableOrRange (conv : ValueConv F) (value : EngineValue F) (tables : TableStore F) :
    Option (EngineValue F) :=
  if conv.tableIndex.isSome && conv.low.isNone && conv.high.isNone then
    some { value with status := .fault, trigger := false }
  else
    let low := conv.low.getD (lit 0)
    let high := conv.high.getD (lit 4096)
    match clamp value.raw low high with
    | none => none
    | some raw =>
      match conv.tableOrRange value tables low high raw with
      | .inl faulty => some faulty
      | .inr cur =>
        let cur := match conv.offset with
          | some offset => cur + offset
          | none => cur
        let cur := match conv.scale with
          | some scale => cur * scale
          | none => cur
        let cur := conv.clampOutput cur
        some (EngineValue.withCurFlag
          { value with status := .ok, raw := raw, cur := cur, trigger := false })

/-- `convert`: the converted value and the flow state it leaves; `none` where a
    clamp panics. -/
def convert (conv : ValueConv F) (value : EngineValue F) (tables : TableStore F)
    (flowDetected : Option Bool) : Option (EngineValue F × Option Bool) :=
  match conv.convFunc with
  | some convFunc =>
    let raw := FloatOps.max value.raw (lit 0)
    let flowCfg := conv.flowConfig.getD FlowConfig.default
    let (raw, flowDetected) :=
      match flowCfg.hysteresisEnabled, flowDetected with
      | true, some detected =>
        let (raw, detected) := applyHysteresis raw flowCfg.hystOn flowCfg.hystOff detected
        (raw, some detected)
      | _, _ => (raw, flowDetected)
    match conv.applyCombinedTransform (runConversion convFunc flowCfg raw) with
    | none => none
    | some cur =>
      some (EngineValue.withCurFlag
        { value with status := .ok, raw := raw, cur := conv.clampOutput cur, trigger := false },
        flowDetected)
  | none =>
    match conv.convertTableOrRange value tables with
    | none => none
    | some value => some (value, flowDetected)

/-- `revert`: engineering units back to raw; `none` where the clamp panics. -/
def revert (conv : ValueConv F) (value : EngineValue F) (tables : TableStore F) :
    Option (EngineValue F) :=
  let cur := value.cur
  let cur := match conv.max with
    | some max => FloatOps.min cur max
    | none => cur
  let cur := match conv.min with
    | some min => FloatOps.max cur min
    | none => cur
  let cur := match conv.scale with
    | some scale => if !FloatOps.eq scale (lit 0) then cur / scale else cur
    | none => cur
  let cur := match conv.offset with
    | some offset => cur - offset
    | none => cur
  let raw : F :=
    if conv.adcMode then
      if FloatOps.le cur (lit 0) then conv.low.getD (lit 0) else conv.high.getD (lit 4096)
    else match conv.tableIndex with
      | some index =>
        (tables.reverseLookup index cur (conv.min.getD (lit 0)) (conv.max.getD (lit 100))).getD cur
      | none => cur * (conv.high.getD (lit 1) - conv.low.getD (lit 0))
  let clamped : Option F :=
    match conv.low, conv.high with
    | some low, some high => clamp raw low high
    | _, _ => some raw
  match clamped with
  | none => none
  | some raw =>
    some { value with
      status := .ok, raw := raw, cur := cur, flags := { value.flags with raw := true },
      trigger := false }

end ValueConv

section AutoDetect

variable {F : Type}

def variantToTag : ℕ → Option String
  | 0 => some "range0to10V"
  | 1 => some "range0to5V"
  | 2 => some "range0to20mA"
  | 3 => some "range4to20mA"
  | 10 => some "thermistor2200"
  | 11 => some "thermistor3000"
  | 12 => some "thermistor10K1"
  | 13 => some "thermistor10K2"
  | 14 => some "thermistor10K3"
  | 15 => some "thermistor20K"
  | 16 => some "thermistor100K"
  | 20 => some "pt100"
  | 21 => some "pt500"
  | 22 => some "pt1000"
  | 23 => some "ni1000"
  | _ => none

/-- Lower-casing of a unit: the ASCII letters and the Kelvin sign, the only
    characters whose lower case is an ASCII letter of the units compared. -/
def unitLowercase (unit : String) : String :=
  String.ofList (unit.toList.map fun c => if c.toNat = 0x212A then 'k' else c.toLower)

def unitRange (unit : String) (ranges : TableRanges F) : F × F :=
  let unit := unitLowercase unit
  if unit = "f" ∨ unit = "°f" ∨ unit = "fahrenheit" then ranges.fahrenheit
  else if unit = "c" ∨ unit = "°c" ∨ unit = "celsius" then ranges.celsius
  else if unit = "k" ∨ unit = "kelvin" then ranges.kelvin
  else ranges.fahrenheit

def autoDetectSensor (channel : ChannelId) (conv : ValueConv F) (tables : TableStore F) :
    ValueConv F :=
  if conv.tableIndex.isSome && conv.low.isSome && conv.high.isSome then conv
  else if ¬ (1100 ≤ channel.toNat ∧ channel.toNat ≤ 1723) then conv
  else if ¬ (11 ≤ channel.toNat / 100 ∧ channel.toNat / 100 ≤ 71) then conv
  else if conv.unit = "" then conv
  else match variantToTag (channel.toNat % 100) with
    | none => conv
    | some tag => match tables.findByTag tag with
      | none => conv
      | some index => match tables.get index with
        | none => conv
        | some table =>
          let conv := { conv with tableIndex := some index }
          let conv := match table.lowValue, table.highValue with
            | some low, some high => { conv with low := some low, high := some high }
            | _, _ => conv
          match conv.min with
          | some _ => conv
          | none =>
            let range := unitRange conv.unit table.ranges
            { conv with min := some range.1, max := some range.2 }

end AutoDetect
end Sandstar.Engine
