import Sandstar.EngineConversion
import Sandstar.Epochs
import Sandstar.PointFilter
import Sandstar.Table

set_option autoImplicit false

/-!
# History ranges (history.rs, rest/handlers.rs, main.rs)

The ring buffers of past values, and the requests that read a range of days out of them. The
clock is an argument; what faults is an operation on words that over- or underflows.
-/
namespace Sandstar.History
open Machine Trio RoxWarp Epochs

section Store

variable {F : Type}

structure HistoryPoint (F : Type) where
  ts : UInt64
  cur : F
  raw : F
  status : Engine.EngineStatus
deriving DecidableEq

structure ChannelHistory (F : Type) where
  buffer : List (HistoryPoint F)
  maxCap : ℕ

namespace ChannelHistory

def new (capacity : ℕ) : ChannelHistory F := ⟨[], capacity⟩

def push (h : ChannelHistory F) (point : HistoryPoint F) : ChannelHistory F :=
  let kept := if h.maxCap ≤ h.buffer.length then h.buffer.tail else h.buffer
  { h with buffer := kept ++ [point] }

def query (h : ChannelHistory F) (sinceUnix limit : ℕ) : List (HistoryPoint F) :=
  (h.buffer.filter fun p => sinceUnix ≤ p.ts.toNat).take limit

end ChannelHistory

structure HistoryStore (F : Type) where
  histories : Table UInt32 (ChannelHistory F)
  maxPerChannel : ℕ

namespace HistoryStore

def new (maxPerChannel : ℕ) : HistoryStore F := ⟨Table.empty, maxPerChannel⟩

def record (store : HistoryStore F) (channel : UInt32) (point : HistoryPoint F) : HistoryStore F :=
  let history := (store.histories.get channel).getD (.new store.maxPerChannel)
  { store with histories := store.histories.insert channel (history.push point) }

def query (store : HistoryStore F) (channel : UInt32) (sinceUnix limit : ℕ) :
    List (HistoryPoint F) :=
  ((store.histories.get channel).map fun h => h.query sinceUnix limit).getD []

/-- The points that a channel's buffer holds, oldest first. -/
def stored (store : HistoryStore F) (channel : UInt32) : List (HistoryPoint F) :=
  ((store.histories.get channel).map ChannelHistory.buffer).getD []

end HistoryStore

/-- What a poll item holds after a cycle. -/
structure Sample (F : Type) where
  cur : F
  raw : F
  status : Engine.EngineStatus

def Sample.at (v : Sample F) (now : UInt64) : HistoryPoint F := ⟨now, v.cur, v.raw, v.status⟩

/-- The second at which a poll cycle ended, and its items in the order of the map. -/
structure PollCycle (F : Type) where
  now : UInt64
  polls : List (UInt32 × Sample F)

/-- The part of the main loop that captures the results of a poll cycle. -/
def capture (store : HistoryStore F) (cycle : PollCycle F) : HistoryStore F :=
  cycle.polls.foldl (fun store poll => store.record poll.1 (poll.2.at cycle.now)) store

end Store

section Requests

def maxWord : ℕ := 2 ^ 64 - 1

def parseDates (rangeStr : List Char) : Except Fault (ℕ × ℕ) :=
  match splitOnce [','] rangeStr with
  | some (start, stop) => do
    let since := (← parseDateToEpoch (trim start)).getD 0
    match ← parseDateToEpoch (trim stop) with
    | some e => do
      let endOfDay ← Checked.sub (← Checked.add e 86400) 1
      return (since, endOfDay)
    | none => return (since, maxWord)
  | none => .ok (0, maxWord)

/-- `parse_his_range`: the seconds from which on and up to which points are asked for. -/
def parseHisRange (now : ℕ) (range : Option (List Char)) : Except Fault (ℕ × ℕ) :=
  match range with
  | none => .ok (0, maxWord)
  | some rangeStr =>
    if rangeStr = [] then .ok (0, maxWord)
    else if rangeStr = "today".toList then do
      let midnight ← Checked.sub now (now % 86400)
      return (midnight, maxWord)
    else if rangeStr = "yesterday".toList then do
      let midnightToday ← Checked.sub now (now % 86400)
      let midnightYesterday ← Checked.sub midnightToday 86400
      return (midnightYesterday, midnightToday)
    else if rangeStr = "last24h".toList then .ok (now - 86400, maxWord)
    else parseDates rangeStr

def stripSuffix (c : Char) (s : List Char) : Option (List Char) :=
  if s.getLast? = some c then some s.dropLast else none

def parseDuration (s : List Char) : Except Fault ℕ :=
  let s := trim s
  match stripSuffix 'h' s, stripSuffix 'd' s, stripSuffix 'm' s with
  | some hours, _, _ => Checked.mul ((parseUnsigned (2 ^ 64) hours).getD 1) 3600
  | none, some days, _ => Checked.mul ((parseUnsigned (2 ^ 64) days).getD 1) 86400
  | none, none, some mins => Checked.mul ((parseUnsigned (2 ^ 64) mins).getD 1) 60
  | none, none, none => .ok ((parseUnsigned (2 ^ 64) s).getD 3600)

variable {F : Type}

/-- `his_read` up to the encoding of its answer. -/
def hisRead (store : HistoryStore F) (now : ℕ) (id : UInt32) (range : Option (List Char)) :
    Except Fault (List (HistoryPoint F)) := do
  let (sinceUnix, untilUnix) ← parseHisRange now range
  let points := store.query id sinceUnix 10000
  return if untilUnix < maxWord then points.filter (fun p => p.ts.toNat ≤ untilUnix) else points

end Requests

section Days

open Calendar

variable {F : Type}

def dateOf (s : List Char) : Option Date :=
  (dateParts s).bind fun (y, m, d) =>
    if 1 ≤ y ∧ d ≤ monthLength y.toNat m then some ⟨y.toNat, m, d⟩ else none

def midnight (date : Date) : ℤ := ((dayNumber date : ℤ) - 719468) * 86400

def dates (text : List Char) : Option (ℤ × ℤ) :=
  (splitOnce [','] text).bind fun (start, stop) =>
    (dateOf (trim start)).bind fun first =>
      (dateOf (trim stop)).map fun last => (midnight first, midnight last + 86400)

/-- The seconds of the days that a range asks for, from the first on and before the second; all
where there is no range. A text that names no days asks for none in particular. -/
def requestedDays (now : ℕ) (range : Option (List Char)) : Option (ℤ × ℤ) :=
  let today : ℤ := (now / 86400 : ℕ) * 86400
  match range with
  | none => some (0, 2 ^ 64)
  | some text =>
    if text = [] then some (0, 2 ^ 64)
    else if text = "today".toList then some (today, today + 86400)
    else if text = "yesterday".toList then some (today - 86400, today)
    else if text = "last24h".toList then some ((now : ℤ) - 86400, now + 1)
    else dates text

def HistoryPoint.within (days : ℤ × ℤ) (p : HistoryPoint F) : Bool :=
  days.1 ≤ p.ts.toNat && (p.ts.toNat : ℤ) < days.2

end Days

end Sandstar.History
