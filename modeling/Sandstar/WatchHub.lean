import Sandstar.Unwinding
import Sandstar.WsConnections

set_option autoImplicit false

/-!
# Watches of several clients

The engine keeps one table of watches for all clients and takes any id from any of
them. `Hub` is that table with the connections; `ask` answers a request from the
watches of one client alone, which are counted in the order it was given them.
-/
namespace Sandstar.Ws
open Engine Runs Unwinding Watches WatchTable

variable {C F : Type}

/-- What the channels show at each time; an absent channel shows nothing. -/
abbrev Readings (F : Type) := Instant → ChannelId → Option (Except String (ChannelValue F))

def readerAt (readings : Readings F) (now : Instant) : ChannelReader Unit F where
  present _ c := (readings now c).isSome
  read e c := some (e, (readings now c).getD (.error ("channel " ++ toString c ++ " not found")))
  present_read _ _ _ _ _ := rfl

inductive Ref
  | own (k : ℕ)
  | named (id : String)
deriving DecidableEq

def resolve (given : List String) : Ref → String
  | .own k => (given[k]?).getD ""
  | .named id => id

/-- The watch requests of a client. A poll is one turn of the push loop; the end of
    the connection closes every watch that it knows. -/
inductive Request
  | subscribe (id : Option String) (watch : Option Ref) (dis : Option String)
      (ids : List ChannelId) (pollInterval : Option UInt64)
  | unsubscribe (id : Option String) (watch : Ref) (ids : List ChannelId) (close : Bool)
  | refresh (id : Option String) (watch : Ref)
  | poll (watch : Ref)
  | disconnect
deriving DecidableEq

/-- A request of a client, or the timer of the server that drops lapsed watches. -/
inductive Event (C : Type)
  | request (client : C) (now : Instant) (timestamp : String) (r : Request)
  | sweep (now : Instant)

structure Hub (C F : Type) where
  conns : C → Connection
  given : C → List String
  server : Server Unit F

def Hub.new : Hub C F :=
  ⟨fun _ => ⟨true, Table.empty, 0, false⟩, fun _ => [], ⟨(), WatchTable.new, []⟩⟩

def learn (given : List String) : ServerMsg F → List String
  | .subscribed _ wid _ _ _ => if wid ∈ given then given else given ++ [wid]
  | _ => given

def relabel (given : List String) : ServerMsg F → ServerMsg F
  | .subscribed id wid lease interval rows =>
    .subscribed id (toString (given.idxOf wid)) lease interval rows
  | .unsubscribed id wid ok => .unsubscribed id (toString (given.idxOf wid)) ok
  | .update wid ts rows => .update (toString (given.idxOf wid)) ts rows
  | .snapshot id wid ts rows => .snapshot id (toString (given.idxOf wid)) ts rows
  | .error id code _ => .error id code ""
  | msg => msg

section Answer

variable [FloatOps F] (m : Moment Unit F) (order : WatchOrder)

def answer (given : List String) (c : Connection) (s : Server Unit F) :
    Request → Option (Connection × Server Unit F × List (ServerMsg F))
  | .subscribe id watch dis ids pollInterval =>
    (subscribe m c s id (watch.map (resolve given)) dis ids pollInterval).map
      fun (c, s, reply) => (c, s, [reply])
  | .unsubscribe id watch ids close =>
    let (c, s, reply) := unsubscribe c s id (resolve given watch) ids close
    some (c, s, [reply])
  | .refresh id watch =>
    (refresh m c s id (resolve given watch)).map fun (c, s, reply) => (c, s, [reply])
  | .poll watch =>
    let wid := resolve given watch
    if (c.watches.get wid).isNone then some (c, s, [])
    else
      (s.watchPoll m wid false).map fun
        | (s, .ok resp) =>
          (c.markPolled wid m.now, s,
            if resp.rows.isEmpty then [] else [.update resp.watchId m.timestamp resp.rows])
        | (s, .error _) => (c.markPolled wid m.now, s, [])
  | .disconnect => some ({ c with watches := Table.empty }, cleanup order c s, [])

end Answer

section Step

variable [FloatOps F] [DecidableEq C] (readings : Readings F) (order : WatchOrder)

def Hub.step (h : Hub C F) : Event C → Hub C F × List (ServerMsg F)
  | .sweep now =>
    ({ h with server := { h.server with table := h.server.table.expireStaleWatches now } }, [])
  | .request client now timestamp r =>
    match answer ⟨now, timestamp, readerAt readings now⟩ order (h.given client) (h.conns client)
        h.server r with
    | none => (h, [])
    | some (c, s, replies) =>
      let given := replies.foldl learn (h.given client)
      (⟨Function.update h.conns client c, Function.update h.given client given, s⟩,
        replies.map (relabel given))

def concerns (client : C) : Event C → Bool
  | .request other _ _ _ => decide (other = client)
  | .sweep _ => true

def bare (w : WatchState F) : WatchState F := { w with displayName := "" }

def Hub.watch (h : Hub C F) (client : C) (k : ℕ) : Option (WatchState F) :=
  (h.server.table.watches.get (resolve (h.given client) (.own k))).map bare

/-- The client sees the same, and its watches stay the same, as if the requests of
    the other clients were not there. -/
structure Isolated (client : C) (es : List (Event C)) : Prop where
  seen : outputs (Hub.step readings order) (concerns client) Hub.new es =
    outputs (Hub.step readings order) (concerns client) Hub.new (es.filter (concerns client))
  kept : ∀ k, (run (advance (Hub.step readings order)) Hub.new es).watch client k =
    (run (advance (Hub.step readings order)) Hub.new (es.filter (concerns client))).watch client k

end Step

structure Slot (F : Type) where
  watch : Option (WatchState F)
  held : Bool

def slots (given : List String) (c : Connection) (t : WatchTable F) : List (Slot F) :=
  given.map fun id => ⟨(t.watches.get id).map bare, (c.watches.get id).isSome⟩

def Hub.slots (h : Hub C F) (client : C) : List (Slot F) :=
  Ws.slots (h.given client) (h.conns client) h.server.table

def Slot.expire (now : Instant) (s : Slot F) : Slot F :=
  { s with watch := s.watch.filter fun w => !stale now w }

namespace Slots

def lookup (v : List (Slot F)) : Ref → Option (ℕ × WatchState F)
  | .own k => ((v[k]?).bind Slot.watch).map fun w => (k, w)
  | .named _ => none

def held (v : List (Slot F)) : Ref → Bool
  | .own k => (v[k]?).any Slot.held
  | .named _ => false

def live (v : List (Slot F)) : ℕ := v.countP fun s => s.watch.isSome

def tooMany (ids : List ChannelId) : String :=
  "too many channels (" ++ toString ids.length ++ ", max " ++ toString maxChannelsPerWatch ++ ")"

def full : String := "watch limit reached (max " ++ toString maxWatches ++ ")"

section Ask

variable (m : Moment Unit F) (v : List (Slot F))

def fill (id : Option String) (ids : List ChannelId) (pollInterval : Option UInt64) (k : ℕ)
    (w : WatchState F) : Option (List (Slot F) × List (ServerMsg F)) :=
  (eachChannel (subscribeChannel m.reader) () { w with lastActivity := m.now }
    (ids.filter (m.reader.present ()))).map fun (_, w, rows) =>
      (v.set k ⟨some w, true⟩,
        [.subscribed id (toString k) 3600 (intervalMs pollInterval) rows])

def subscribe (id : Option String) (watch : Option Ref) (ids : List ChannelId)
    (pollInterval : Option UInt64) : Option (List (Slot F) × List (ServerMsg F)) :=
  let v := v.map (Slot.expire m.now)
  if maxChannelsPerWatch < ids.length then
    some (v, [.error id (subscribeErrorCode (tooMany ids)) ""])
  else
    match watch.bind (lookup v) with
    | some (k, w) => fill m v id ids pollInterval k w
    | none =>
      if maxWatches ≤ live v then some (v, [.error id (subscribeErrorCode full) ""])
      else fill m (v ++ [⟨none, false⟩]) id ids pollInterval v.length ⟨"", [], Table.empty, m.now⟩

def unsubscribe (id : Option String) (watch : Ref) (ids : List ChannelId) (close : Bool) :
    List (Slot F) × List (ServerMsg F) :=
  match lookup v watch with
  | none => (v, [.error id "WATCH_NOT_FOUND" ""])
  | some (k, w) =>
    (v.set k
      (if close then ⟨none, false⟩
        else ⟨some { w with
            channels := w.channels.filter (· ∉ ids)
            lastValues := ids.foldl Table.erase w.lastValues }, held v watch⟩),
      [.unsubscribed id (toString k) true])

variable [FloatOps F]

def poll (watch : Ref) (refresh : Bool) :
    Option (List (Slot F) × Option (ℕ × List (ChannelValue F))) :=
  match lookup v watch with
  | none => some (v, none)
  | some (k, w) =>
    (eachChannel (showChannel m.reader (changed refresh)) () { w with lastActivity := m.now }
      w.channels).map fun (_, w, rows) => (v.set k ⟨some w, held v watch⟩, some (k, rows))

def ask : Request → Option (List (Slot F) × List (ServerMsg F))
  | .subscribe id watch _ ids pollInterval => subscribe m v id watch ids pollInterval
  | .unsubscribe id watch ids close => some (unsubscribe v id watch ids close)
  | .refresh id watch =>
    (poll m v watch true).map fun
      | (v, some (k, rows)) => (v, [.snapshot id (toString k) m.timestamp rows])
      | (v, none) => (v, [.error id "WATCH_NOT_FOUND" ""])
  | .poll watch =>
    if !held v watch then some (v, [])
    else
      (poll m v watch false).map fun
        | (v, some (k, rows)) =>
          (v, if rows.isEmpty then [] else [.update (toString k) m.timestamp rows])
        | (v, none) => (v, [])
  | .disconnect => some (v.map fun s => ⟨if s.held then none else s.watch, false⟩, [])

end Ask

def step [FloatOps F] (readings : Readings F) (v : List (Slot F)) :
    Event C → List (Slot F) × List (ServerMsg F)
  | .sweep now => (v.map (Slot.expire now), [])
  | .request _ now timestamp r =>
    (ask ⟨now, timestamp, readerAt readings now⟩ v r).getD (v, [])

end Slots

end Sandstar.Ws
