import Sandstar.EngineChannels
import Sandstar.ZincGrid

set_option autoImplicit false

/-!
# Loading of the configuration (loader.rs)

`points.csv`, `tables.csv` with its data files and `database.zinc`, read into the stores
of the engine. Lower case, the reading of decimals and the casts of the numbers read are
parameters. Sets and maps that the source walks in hash order are walked where the order
does not show.
-/
namespace Sandstar.Loader
open Engine FloatOps Zinc RoxWarp

/-- `str::to_lowercase`, `str::parse::<f64>` and the casts of a number to integers. -/
structure NumberFns (F : Type) where
  toLowercase : List Char → List Char
  parseF64 : List Char → Option F
  toU32 : F → UInt32
  toUsize : F → ℕ

section Stores

variable {F : Type} [FloatOps F]

def addChannel (channels : Table ChannelId (Channel F)) (ch : Channel F) :
    Except EngineError (Table ChannelId (Channel F)) :=
  if (channels.get ch.id).isSome then .error (.duplicateChannel ch.id)
  else .ok (channels.insert ch.id ch)

def conversionFromChannelId (channel : ChannelId) : Option ConversionFn :=
  if channel = 610 then some .sdp610ToInH2O
  else if channel = 611 then some .sdp610ToPa
  else if channel = 612 then some .sdp610ToCfm
  else if channel = 613 then some .sdp610ToPsi
  else if channel = 614 then some .sdp610ToLps
  else none

def keptConvFunc (id : ChannelId) (incoming own : Option ConversionFn) : Option ConversionFn :=
  let kept := if incoming.isNone then own else incoming
  if kept.isNone ∧ 610 ≤ id.toNat ∧ id.toNat ≤ 614 then conversionFromChannelId id else kept

def updateMetadata (channels : Table ChannelId (Channel F)) (id : ChannelId) (enabled : Bool)
    (conv : ValueConv F) (label : String) : Except EngineError (Table ChannelId (Channel F)) :=
  match channels.get id with
  | none => .error (.channelNotFound id)
  | some channel => .ok (channels.insert id { channel with
      enabled := enabled
      conv := { conv with convFunc := keptConvFunc id conv.convFunc channel.conv.convFunc }
      label := label })

def pollItem : PollItem F := ⟨EngineValue.default, 0, 0⟩

def addPoll (polls : Table ChannelId (PollItem F)) (id : ChannelId) :
    Table ChannelId (PollItem F) :=
  if (polls.get id).isSome then polls else polls.insert id pollItem

end Stores

section Points

variable {F : Type} [FloatOps F] (fns : NumberFns F)

def parseChannelType (s : List Char) : ChannelType :=
  match String.ofList (fns.toLowercase s) with
  | "analog" => .analog
  | "digital" => .digital
  | "pwm" => .pwm
  | "triac" => .triac
  | "i2c" => .i2c
  | "uart" => .uart
  | "virtual_analog" | "virtualanalog" => .virtualAnalog
  | "virtual_digital" | "virtualdigital" => .virtualDigital
  | _ => .analog

def parseDirection (s : List Char) : ChannelDirection :=
  match String.ofList (fns.toLowercase s) with
  | "in" => .input
  | "out" => .output
  | "high" => .high
  | "low" => .low
  | _ => .none

/-- The fields of a line of a CSV file, each trimmed. -/
def fields (line : List Char) : List (List Char) := (line.splitOn ',').map trim

def csvLines (content : List Char) : List (List Char) :=
  (lines content).tail.filter fun line => trim line ≠ []

def readPoint (line : List Char) : Option (Channel F) :=
  match fields line with
  | number :: label :: _ :: type :: direction :: device :: address :: rest =>
    (parseU32 number).map fun id =>
      let channelType := parseChannelType fns type
      let conv := ValueConv.default
      let conv :=
        if channelType = .i2c then { conv with convFunc := conversionFromChannelId id } else conv
      Channel.new id channelType (parseDirection fns direction) ((parseU32 device).getD 0)
        ((parseU32 address).getD 0) (rest.head?.any (· ≠ [])) conv (String.ofList label)
  | _ => none

/-- `load_points`: of two lines for one channel the first counts. -/
def loadPoints (content : List Char) (channels : Table ChannelId (Channel F)) :
    Table ChannelId (Channel F) × ℕ :=
  ((csvLines content).filterMap (readPoint fns)).foldl (fun (channels, count) ch =>
    match addChannel channels ch with
    | .ok channels => (channels, count + 1)
    | .error _ => (channels, count)) (channels, 0)

end Points

section Tables

variable {F : Type} [FloatOps F] (fns : NumberFns F)

def fillSlot (item : TableItem F) : TableStore F → TableStore F
  | [] => [some item]
  | none :: slots => some item :: slots
  | some other :: slots => some other :: fillSlot item slots

def addWithValues (tables : TableStore F) (tag unitType : String) (values : List F)
    (ranges : TableRanges F) : Except EngineError (TableStore F) :=
  match values.head?, values.getLast? with
  | some first, some last =>
    let direction := if FloatOps.lt first last then .increasing else .decreasing
    .ok (fillSlot ⟨tag, unitType, values, direction, ranges⟩ tables)
  | _, _ => .error (.invalidTableFile "empty values")

def clearTables (tables : TableStore F) : TableStore F := tables.map fun _ => none

def loadTableValues (content : List Char) : List F :=
  ((lines content).map trim).filterMap fun line => if line = [] then none else fns.parseF64 line

def fileName (path : List Char) : List Char :=
  match (path.splitOn '/').filter (fun part => part ≠ [] ∧ part ≠ ['.']) |>.getLast? with
  | none => []
  | some name => if name = ['.', '.'] then [] else name

/-- A file, if there is one: its text, or the message of the error in reading it. -/
abbrev FileText := Option (Except String (List Char))

def readTable (dataFile : List Char → FileText) (line : List Char) :
    Except String (Option (String × String × List F × TableRanges F)) :=
  match fields line with
  | _ :: _ :: remotePath :: unitType :: fMin :: fMax :: cMin :: cMax :: kMin :: kMax :: tag :: _ =>
    let range (s : List Char) : F := (fns.parseF64 s).getD (lit 0)
    match dataFile (fileName remotePath) with
    | none => .ok none
    | some (.error message) => .error message
    | some (.ok content) =>
      let values := loadTableValues fns content
      if values.length < 2 then .ok none
      else .ok (some (String.ofList tag, String.ofList unitType, values,
        ⟨(range fMin, range fMax), (range cMin, range cMax), (range kMin, range kMax)⟩))
  | _ => .ok none

def loadTableLines (dataFile : List Char → FileText) :
    List (List Char) → TableStore F → ℕ → TableStore F × Except String ℕ
  | [], tables, count => (tables, .ok count)
  | line :: rest, tables, count =>
    match readTable fns dataFile line with
    | .error message => (tables, .error message)
    | .ok none => loadTableLines dataFile rest tables count
    | .ok (some (tag, unitType, values, ranges)) =>
      match addWithValues tables tag unitType values ranges with
      | .ok tables => loadTableLines dataFile rest tables (count + 1)
      | .error _ => loadTableLines dataFile rest tables count

def loadTables (dataFile : List Char → FileText) (csv : Except String (List Char))
    (tables : TableStore F) : TableStore F × Except String ℕ :=
  match csv with
  | .error message => (tables, .error message)
  | .ok content => loadTableLines fns dataFile (csvLines content) tables 0

end Tables

def setupPolls {F : Type} [FloatOps F] (e : State F) : State F × ℕ :=
  let inputs := e.channels.retain fun _ ch => !ch.direction.isOutput && ch.enabled
  ({ e with polls := e.polls ∪ inputs.mapValues fun _ => pollItem }, inputs.size)

section Conversion

variable {F : Type} [FloatOps F] (fns : NumberFns F) (grid : ZincGrid) (row : ℕ)

def knownTableTags : List String :=
  ["thermistor2200", "thermistor3000", "thermistor10K1", "thermistor10K2", "thermistor10K3",
    "thermistor20K", "thermistor100K", "pt100", "pt500", "pt1000", "ni1000", "range0to10V",
    "range0to5V", "range0to20mA", "range4to20mA"]

/-- The first marker that names a loaded table, and the place of the table. -/
def tableBinding (tables : TableStore F) : Option (String × ℕ) :=
  knownTableTags.findSome? fun tag =>
    if grid.marker row tag then (tables.findByTag tag).map fun idx => (tag, idx) else none

def numberAt (tag : String) (default : F) : F := grid.number fns.parseF64 row tag default

def numberIfSet (tag : String) (default : F) : Option F :=
  if grid.isNull row tag then none else some (numberAt fns grid row tag default)

def overridden (tag : String) (current : F) : F :=
  if grid.isNull row tag then current else numberAt fns grid row tag current

def readFlowConfig : Option (FlowConfig F) :=
  let flow : FlowConfig F := FlowConfig.default
  if grid.isNull row "kFactor" && grid.isNull row "deadBand" && !grid.marker row "hysteresis" &&
      grid.isNull row "scaleFactor" then none
  else
    let flow := { flow with
      kFactor := overridden fns grid row "kFactor" flow.kFactor
      deadBand := overridden fns grid row "deadBand" flow.deadBand
      scaleFactor := overridden fns grid row "scaleFactor" flow.scaleFactor }
    let flow :=
      if grid.marker row "hysteresis" then
        { flow with
          hysteresisEnabled := true
          hystOn := overridden fns grid row "hystOn" flow.hystOn
          hystOff := overridden fns grid row "hystOff" flow.hystOff }
      else flow
    some (if grid.marker row "allowReverse" then
        { flow with
          allowReverse := true
          reverseThreshold := overridden fns grid row "reverseThreshold" flow.reverseThreshold }
      else flow)

def smoothMethod (s : String) : SmoothMethod :=
  match String.ofList (fns.toLowercase s.toList) with
  | "mean" | "average" => .mean
  | "ewma" | "exponential" => .ewma
  | _ => .median

def readFilterConfig : Option (FilterConfig F) :=
  let numberOr (tag : String) (default : ℚ) : F := numberAt fns grid row tag (lit default)
  let filter : FilterConfig F :=
    { spikeFilter :=
        if grid.marker row "spikeFilter" then
          some ⟨numberOr "spikeThreshold" 5, fns.toU32 (numberOr "startupDiscard" 8),
            numberOr "reverseThreshold" 10⟩
        else none
      smoothing :=
        if grid.marker row "smoothing" then
          some ⟨fns.toUsize (numberOr "smoothWindow" 5),
            smoothMethod fns (grid.string row "smoothMethod" "median")⟩
        else none
      rateLimit :=
        if grid.marker row "rateLimit" then some ⟨numberOr "maxRiseRate" 100, numberOr "maxFallRate" 150⟩
        else none }
  if grid.marker row "spikeFilter" || grid.marker row "smoothing" || grid.marker row "rateLimit" then
    some filter
  else none

def buildValueConv (tables : TableStore F) : ValueConv F :=
  { tableIndex := (tableBinding grid row tables).map Prod.snd
    low := numberIfSet fns grid row "low" (lit 0)
    high := numberIfSet fns grid row "high" (lit 1)
    offset := numberIfSet fns grid row "offset" (lit 0)
    scale := numberIfSet fns grid row "scale" (lit 1)
    min := if grid.marker row "min" then some (numberAt fns grid row "minVal" (lit 0)) else none
    max := if grid.marker row "max" then some (numberAt fns grid row "maxVal" (lit 1)) else none
    adcMode := grid.marker row "analog" && grid.marker row "binary"
    convFunc := none
    unit := grid.string row "unit" ""
    flowConfig := readFlowConfig fns grid row
    filterConfig := readFilterConfig fns grid row }

end Conversion

section Database

variable {F : Type} [FloatOps F] (fns : NumberFns F)

structure RowConfig (F : Type) where
  channelId : ChannelId
  enabled : Bool
  conv : ValueConv F
  label : String
  tags : Table String String
  isVirtual : Bool
  /-- The type the channel takes if it is virtual. -/
  channelType : ChannelType
  polled : Bool

def rowTags (grid : ZincGrid) (row : ℕ) : Table String String :=
  grid.columns.foldl (fun tags colName =>
    if grid.isNull row colName then tags
    else
      let val := if grid.marker row colName then "M" else grid.string row colName ""
      if val = "" then tags else tags.insert colName val) Table.empty

/-- A row with a channel number, read against the tables that are loaded. The number
    is cut to 32 bits. -/
def readRow (tables : TableStore F) (grid : ZincGrid) (row : ℕ) : Option (RowConfig F) :=
  let channelId := grid.integer row "channel" (-1)
  if channelId < 0 then none
  else some
    { channelId := UInt32.ofNat channelId.toNat
      enabled := grid.marker row "enabled" && !grid.marker row "disabled"
      conv := buildValueConv fns grid row tables
      label := grid.string row "navName" ""
      tags := rowTags grid row
      isVirtual := grid.marker row "virtualChannel"
      channelType := if grid.marker row "analog" then .virtualAnalog else .virtualDigital
      polled := grid.marker row "cur" || grid.marker row "raw" }

def readRows (tables : TableStore F) (grid : ZincGrid) : List (RowConfig F) :=
  (List.range grid.rowCount).filterMap (readRow fns tables grid)

def RowConfig.newChannel (r : RowConfig F) : Channel F :=
  Channel.new r.channelId r.channelType .none 0xFFFFFFFF 0xFFFFFFFF false r.conv r.label

def RowConfig.finish (r : RowConfig F) (ch : Channel F) : Channel F :=
  { ch with enabled := if !r.enabled then false else ch.enabled, tags := r.tags }

def loadRow (s : State F × ℕ) (r : RowConfig F) : State F × ℕ :=
  let (e, count) := s
  if r.isVirtual then
    match addChannel e.channels r.newChannel with
    | .ok channels =>
      ({ e with
          channels := channels.modify r.channelId r.finish
          polls := addPoll e.polls r.channelId }, count + 1)
    | .error _ => (e, count)
  else if (e.channels.get r.channelId).isNone then (e, count)
  else match updateMetadata e.channels r.channelId r.enabled r.conv r.label with
    | .ok channels =>
      ({ e with
          channels := channels.modify r.channelId fun ch => { ch with tags := r.tags }
          polls := if r.polled then addPoll e.polls r.channelId else e.polls }, count + 1)
    | .error _ => (e, count)

def loadDatabase (content : List Char) (e : State F) : Except ZincError (State F × ℕ) :=
  (ZincGrid.parse content).map fun grid => (readRows fns e.tables grid).foldl loadRow (e, 0)

end Database

section Granular

variable {F : Type} [FloatOps F] (fns : NumberFns F)

def optEq {α : Type} (eq : α → α → Bool) : Option α → Option α → Bool
  | none, none => true
  | some a, some b => eq a b
  | _, _ => false

def flowAgrees (old new : FlowConfig F) : Bool :=
  let apart (a b : F) : Bool := FloatOps.lt (lit (1 / 2 ^ 52)) (FloatOps.abs (a - b))
  !(apart old.kFactor new.kFactor || apart old.deadBand new.deadBand ||
    apart old.scaleFactor new.scaleFactor ||
    old.hysteresisEnabled != new.hysteresisEnabled || old.allowReverse != new.allowReverse)

def filterAgrees (old new : FilterConfig F) : Bool :=
  optEq (fun a b => FloatOps.eq a.threshold b.threshold && a.startupDiscard == b.startupDiscard &&
      FloatOps.eq a.reverseThreshold b.reverseThreshold) old.spikeFilter new.spikeFilter &&
    optEq (fun a b => a = b) old.smoothing new.smoothing &&
    optEq (fun a b => FloatOps.eq a.maxRise b.maxRise && FloatOps.eq a.maxFall b.maxFall)
      old.rateLimit new.rateLimit

def channelConfigChanged (ch : Channel F) (r : RowConfig F) : Bool :=
  ch.label ≠ r.label || ch.enabled ≠ r.enabled || ch.tags ≠ r.tags ||
  ch.conv.unit ≠ r.conv.unit || ch.conv.tableIndex ≠ r.conv.tableIndex ||
  !optEq FloatOps.eq ch.conv.low r.conv.low || !optEq FloatOps.eq ch.conv.high r.conv.high ||
  !optEq FloatOps.eq ch.conv.offset r.conv.offset || !optEq FloatOps.eq ch.conv.scale r.conv.scale ||
  !optEq FloatOps.eq ch.conv.min r.conv.min || !optEq FloatOps.eq ch.conv.max r.conv.max ||
  ch.conv.adcMode ≠ r.conv.adcMode ||
  !optEq flowAgrees ch.conv.flowConfig r.conv.flowConfig ||
  !optEq filterAgrees ch.conv.filterConfig r.conv.filterConfig

structure GranularLoad (F : Type) where
  engine : State F
  modified : ℕ
  unchanged : ℕ
  added : List ChannelId
  removed : Finset ChannelId
  expectedPolls : List ChannelId
  warnings : List String
  newVirtualIds : List ChannelId

def RowConfig.replace (r : RowConfig F) (ch : Channel F) : Channel F :=
  { ch with
    conv := r.conv
    label := r.label
    tags := r.tags
    enabled := r.enabled
    channelType := r.channelType }

def granularVirtual (s : GranularLoad F) (r : RowConfig F) : GranularLoad F :=
  let s := { s with
    newVirtualIds := s.newVirtualIds.insert r.channelId
    expectedPolls := s.expectedPolls.insert r.channelId }
  match s.engine.channels.get r.channelId with
  | some ch =>
    if channelConfigChanged ch r then
      { s with
        engine := { s.engine with channels := s.engine.channels.modify r.channelId r.replace }
        modified := s.modified + 1 }
    else { s with unchanged := s.unchanged + 1 }
  | none => match addChannel s.engine.channels r.newChannel with
    | .ok channels =>
      { s with
        engine := { s.engine with channels := channels.modify r.channelId r.finish }
        added := s.added ++ [r.channelId] }
    | .error err =>
      { s with warnings := s.warnings ++
        ["failed to add virtual channel " ++ toString r.channelId ++ ": " ++ errorText err] }

def granularPhysical (s : GranularLoad F) (r : RowConfig F) : GranularLoad F :=
  match s.engine.channels.get r.channelId with
  | none =>
    { s with warnings := s.warnings ++
      ["channel " ++ toString r.channelId ++
        " in database.zinc not found in points.csv — skipping"] }
  | some ch =>
    let changed := channelConfigChanged ch r
    match updateMetadata s.engine.channels r.channelId r.enabled r.conv r.label with
    | .ok channels =>
      { s with
        engine := { s.engine with
          channels := channels.modify r.channelId fun ch => { ch with tags := r.tags } }
        modified := if changed then s.modified + 1 else s.modified
        unchanged := if changed then s.unchanged else s.unchanged + 1
        expectedPolls :=
          if r.polled then s.expectedPolls.insert r.channelId else s.expectedPolls }
    | .error err =>
      { s with warnings := s.warnings ++
        ["failed to update channel " ++ toString r.channelId ++ " metadata: " ++ errorText err] }

def granularRow (s : GranularLoad F) (r : RowConfig F) : GranularLoad F :=
  if r.isVirtual then granularVirtual s r else granularPhysical s r

def virtualIds (channels : Table ChannelId (Channel F)) : Finset ChannelId :=
  (channels.retain fun _ ch => ch.channelType.isVirtual).keys

/-- `load_database_granular` on the text of a file: the rows, then the removal of the
    virtual channels that were there before and that no row makes virtual. -/
def loadDatabaseGranular (content : List Char) (e : State F) : Except ZincError (GranularLoad F) :=
  (ZincGrid.parse content).map fun grid =>
    let s := (readRows fns e.tables grid).foldl granularRow ⟨e, 0, 0, [], ∅, [], [], []⟩
    let removed := (virtualIds e.channels).filter (· ∉ s.newVirtualIds)
    { s with
      engine := { s.engine with
        channels := s.engine.channels.retain fun id _ => id ∉ removed }
      removed := removed }

end Granular
end Sandstar.Loader

/-!
# Configuration reload (reload.rs)

`reload_config` on an engine, given what the configuration directory holds.
-/
namespace Sandstar.Loader
open Engine Zinc

/-- What the directory holds when it is read. -/
structure ConfigDir where
  tablesCsv : FileText
  dataFile : List Char → FileText
  database : FileText

structure ReloadSummary where
  channelsUpdated : ℕ
  channelsAdded : ℕ
  channelsRemoved : ℕ
  channelsUnchanged : ℕ
  tablesReloaded : ℕ
  pollsAdded : ℕ
  pollsRemoved : ℕ
  pollsAfter : ℕ
  errors : List String
deriving DecidableEq, Repr

namespace ReloadSummary

def start : ReloadSummary := ⟨0, 0, 0, 0, 0, 0, 0, 0, []⟩

def addError (s : ReloadSummary) (message : String) : ReloadSummary :=
  { s with errors := s.errors ++ [message] }

end ReloadSummary

variable {F : Type} [FloatOps F] (fns : NumberFns F)

def reloadTables (dir : ConfigDir) (s : State F × ReloadSummary) : State F × ReloadSummary :=
  match dir.tablesCsv with
  | none => s
  | some csv =>
    match loadTables fns dir.dataFile csv (clearTables s.1.tables) with
    | (tables, .ok count) => ({ s.1 with tables := tables }, { s.2 with tablesReloaded := count })
    | (tables, .error message) =>
      ({ s.1 with tables := tables }, s.2.addError ("failed to reload tables: " ++ message))

def diffPolls (expectedPolls : List ChannelId) (polls : Table ChannelId (PollItem F)) :
    Table ChannelId (PollItem F) :=
  (expectedPolls.foldl (fun now id => if (polls.get id).isSome then now else addPoll now id)
    polls).retain fun id _ => (polls.get id).isNone || id ∈ expectedPolls

def fallbackPolls (e : State F) : State F :=
  let (fallback, count) := setupPolls { e with polls := Table.empty }
  if count = 0 ∧ fallback.polls.size = 0 then { fallback with polls := e.polls } else fallback

/-- The text of `database.zinc` and its grid, or the message of the first error. -/
def readDatabase (file : Except String (List Char)) (e : State F) :
    Except String (GranularLoad F) :=
  match file with
  | .error message => .error message
  | .ok content => (loadDatabaseGranular fns content e).mapError ZincError.message

def reloadDatabase (dir : ConfigDir) (s : State F × ReloadSummary) : State F × ReloadSummary :=
  match dir.database with
  | none => (fallbackPolls s.1, s.2)
  | some file => match readDatabase fns file s.1 with
    | .error message =>
      (fallbackPolls s.1, s.2.addError ("failed to reload database.zinc: " ++ message))
    | .ok result =>
      let polls := s.1.polls
      ({ result.engine with polls := diffPolls result.expectedPolls polls },
        { s.2 with
          channelsUpdated := result.modified
          channelsAdded := result.added.length
          channelsRemoved := result.removed.card
          channelsUnchanged := result.unchanged
          pollsAdded := (result.expectedPolls.filter fun id => (polls.get id).isNone).length
          pollsRemoved := (polls.keys.filter (· ∉ result.expectedPolls)).card
          errors := s.2.errors ++ result.warnings })

def reloadConfig (dir : ConfigDir) (e : State F) : State F × ReloadSummary :=
  let (e, summary) := reloadDatabase fns dir (reloadTables fns dir (e, ReloadSummary.start))
  (e, { summary with pollsAfter := e.polls.size })

def newEngine : State F := ⟨Table.empty, [], Table.empty, [], [], Table.empty⟩

/-- The engine as the server starts it on a configuration directory (main.rs). -/
def startup (points : FileText) (dir : ConfigDir) : State F :=
  let e : State F := newEngine
  let e := match points with
    | some (.ok content) => { e with channels := (loadPoints fns content e.channels).1 }
    | _ => e
  let e := match dir.tablesCsv with
    | some csv => { e with tables := (loadTables fns dir.dataFile csv e.tables).1 }
    | none => e
  match dir.database with
  | some (.ok content) => match loadDatabase fns content e with
    | .ok (e, _) => e
    | .error _ => (setupPolls e).1
  | _ => (setupPolls e).1

end Sandstar.Loader
