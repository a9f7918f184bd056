import Sandstar.EngineWatches
import Sandstar.ScramAuth

set_option autoImplicit false

/-!
# Haystack over WebSocket (ws.rs)

One connection task turns client messages into watch commands, polls its watches on
a timer, and closes them when it ends. What the connections share is the engine, its
watch table, and the sessions and handshakes.
-/
namespace Sandstar.Ws
open Auth Engine Watches

def minPollIntervalMs : ℕ := 200

def maxPollIntervalMs : ℕ := 60000

def defaultPollIntervalMs : ℕ := 1000

def clientTimeoutSecs : ℕ := 120

structure WsState where
  authToken : Option String
  authStore : Option AuthStore

/-- `is_auth_required` of the store, if there is one. -/
def WsState.isAuthRequired (cfg : WsState) : Bool := cfg.authStore.any AuthStore.isAuthRequired

inductive ClientMsg
  | auth (token : String) (id : Option String)
  | hello (username : String) (id : Option String)
  | authenticate (handshakeToken proof : String) (id : Option String)
  | subscribe (id watchId dis : Option String) (ids : List ChannelId) (pollInterval : Option UInt64)
  | unsubscribe (id : Option String) (watchId : String) (ids : List ChannelId) (close : Bool)
  | refresh (id : Option String) (watchId : String)
  | ping (id : Option String)
deriving DecidableEq

inductive ServerMsg (F : Type)
  | authOk (id authToken : Option String)
  | challenge (id : Option String) (handshakeToken hash salt : String) (iterations : UInt32)
  | subscribed (id : Option String) (watchId : String) (lease pollInterval : ℕ)
      (rows : List (ChannelValue F))
  | unsubscribed (id : Option String) (watchId : String) (ok : Bool)
  | update (watchId ts : String) (rows : List (ChannelValue F))
  | snapshot (id : Option String) (watchId ts : String) (rows : List (ChannelValue F))
  | pong (id : Option String)
  | error (id : Option String) (code message : String)
deriving DecidableEq

inductive WatchCmd
  | watchSub (watchId displayName : Option String) (channels : List ChannelId)
  | watchUnsub (watchId : String) (close : Bool) (channels : List ChannelId)
  | watchPoll (watchId : String) (refresh : Bool)
deriving DecidableEq

structure WatchMeta where
  pollInterval : ℕ
  lastPoll : Instant
  subscribedIds : Finset ChannelId
  covPending : Bool
deriving DecidableEq

structure Connection where
  authenticated : Bool
  watches : Table String WatchMeta
  lastClientMsg : Instant
  covRx : Bool

structure Server (E F : Type) where
  engine : E
  table : WatchTable F
  commands : List WatchCmd

/-- What a step of one connection finds on the host: the clocks, the channels and
    the base64 and UTF-8 readers of the proof. -/
structure Moment (E F : Type) where
  now : Instant
  timestamp : String
  reader : ChannelReader E F

namespace Server

variable {E F : Type} (m : Moment E F) (s : Server E F)

def watchSub (watchId displayName : Option String) (channels : List ChannelId) :
    Option (Server E F × Except String (WatchResponse F)) :=
  (s.table.watchSub m.reader m.now s.engine watchId displayName channels).map fun (e, t, r) =>
    (⟨e, t, s.commands ++ [.watchSub watchId displayName channels]⟩, r)

def watchUnsub (watchId : String) (close : Bool) (channels : List ChannelId) :
    Server E F × Except String Unit :=
  let (t, r) := s.table.watchUnsub watchId close channels
  (⟨s.engine, t, s.commands ++ [.watchUnsub watchId close channels]⟩, r)

def watchPoll [FloatOps F] (watchId : String) (refresh : Bool) :
    Option (Server E F × Except String (WatchResponse F)) :=
  (s.table.watchPoll m.reader m.now s.engine watchId refresh).map fun (e, t, r) =>
    (⟨e, t, s.commands ++ [.watchPoll watchId refresh]⟩, r)

end Server

section Authentication

variable {F : Type}

def authRequired (id : Option String) (message : String) : ServerMsg F :=
  .error id "AUTH_REQUIRED" message

def acceptsToken (cfg : WsState) (now : Instant) (a : AuthShared) (token : String) : Bool :=
  match cfg.authToken with
  | none =>
    match cfg.authStore with
    | none => true
    | some store => !store.isAuthRequired || store.checkToken now a token
  | some required =>
    if token = required then true
    else
      match cfg.authStore with
      | none => false
      | some store => store.checkToken now a token

def challengeFields (serverFirst : String) : String × UInt32 :=
  (parts serverFirst).foldl (fun (salt, iterations) part =>
    match stripPrefix "s=" part with
    | some s => (s, iterations)
    | none =>
      match stripPrefix "i=" part with
      | some i => (salt, UInt32.ofNat ((i.toNat?.filter (· < 2 ^ 32)).getD 0))
      | none => (salt, iterations)) ("", 0)

def hello (crypto : Crypto) (cfg : WsState) (draw : Draw) (now : Instant) (a : AuthShared)
    (username : String) (id : Option String) : AuthShared × ServerMsg F :=
  match cfg.authStore with
  | none => (a, authRequired id "SCRAM auth not configured")
  | some store =>
    match store.beginScram crypto draw now a
        ("n,,n=" ++ username ++ ",r=" ++ draw.clientNonce) with
    | (a, .ok (hsToken, serverFirst)) =>
      (a, .challenge id hsToken "SHA-256" (challengeFields serverFirst).1
        (challengeFields serverFirst).2)
    | (a, .error e) => (a, authRequired id e)

def clientFinalOf (crypto : Crypto) (proof : String) : Except String String :=
  match crypto.base64Decode proof with
  | .error _ => .error "invalid base64 in proof"
  | .ok bytes =>
    match String.fromUTF8? bytes.toByteArray with
    | none => .error "invalid UTF-8 in proof"
    | some s => .ok s

def authenticate (crypto : Crypto) (cfg : WsState) (draw : Draw) (now : Instant) (a : AuthShared)
    (handshakeToken proof : String) (id : Option String) : AuthShared × ServerMsg F × Bool :=
  match cfg.authStore with
  | none => (a, authRequired id "SCRAM auth not configured", false)
  | some _ =>
    match clientFinalOf crypto proof with
    | .error e => (a, authRequired id e, false)
    | .ok clientFinal =>
      match completeScram crypto draw now a handshakeToken clientFinal with
      | (a, .ok (sessionToken, _)) => (a, .authOk id (some sessionToken), true)
      | (a, .error e) => (a, authRequired id e, false)

end Authentication

section WatchMessages

variable {E F : Type} (m : Moment E F) (c : Connection) (s : Server E F)

def containsText (s text : String) : Bool := decide (text.toList <:+: s.toList)

def subscribeErrorCode (e : String) : String :=
  if containsText e "limit" then "WATCH_LIMIT"
  else if containsText e "channels" then "CHANNEL_LIMIT"
  else "ENGINE_ERROR"

def intervalMs (pollInterval : Option UInt64) : ℕ :=
  max minPollIntervalMs (min maxPollIntervalMs
    ((pollInterval.map UInt64.toNat).getD defaultPollIntervalMs))

def subscribe (id watchId dis : Option String) (ids : List ChannelId)
    (pollInterval : Option UInt64) : Option (Connection × Server E F × ServerMsg F) :=
  (s.watchSub m watchId dis ids).map fun
    | (s, .ok resp) =>
      let info : WatchMeta :=
        ⟨intervalMs pollInterval * 1000000, m.now, ids.toFinset, false⟩
      ({ c with watches := c.watches.insert resp.watchId info }, s,
        .subscribed id resp.watchId resp.lease (intervalMs pollInterval) resp.rows)
    | (s, .error e) => (c, s, .error id (subscribeErrorCode e) e)

def unsubscribe (id : Option String) (watchId : String) (ids : List ChannelId) (close : Bool) :
    Connection × Server E F × ServerMsg F :=
  match s.watchUnsub watchId close ids with
  | (s, .ok ()) =>
    let watches :=
      if close then c.watches.erase watchId
      else c.watches.modify watchId fun info =>
        { info with subscribedIds := info.subscribedIds \ ids.toFinset }
    ({ c with watches }, s, .unsubscribed id watchId true)
  | (s, .error e) => (c, s, .error id "WATCH_NOT_FOUND" e)

def refresh [FloatOps F] (id : Option String) (watchId : String) :
    Option (Connection × Server E F × ServerMsg F) :=
  (s.watchPoll m watchId true).map fun
    | (s, .ok resp) => (c, s, .snapshot id resp.watchId m.timestamp resp.rows)
    | (s, .error e) => (c, s, .error id "WATCH_NOT_FOUND" e)

end WatchMessages

structure World (E F : Type) where
  server : Server E F
  auth : AuthShared

section Task

variable {E F : Type} [FloatOps F] (crypto : Crypto) (cfg : WsState) (draw : Draw)
  (m : Moment E F)

/-- `handle_client_msg` on a parsed text. -/
def handleClientMsg (c : Connection) (w : World E F) (msg : ClientMsg) :
    Option (Connection × World E F × ServerMsg F) :=
  match msg with
  | .auth token id =>
    if acceptsToken cfg m.now w.auth token then
      some ({ c with authenticated := true }, w, .authOk id none)
    else some (c, w, authRequired id "invalid token")
  | .hello username id =>
    let (auth, reply) := hello crypto cfg draw m.now w.auth username id
    some (c, { w with auth }, reply)
  | .authenticate handshakeToken proof id =>
    let (auth, reply, completed) := authenticate crypto cfg draw m.now w.auth handshakeToken proof id
    some ({ c with authenticated := c.authenticated || completed }, { w with auth }, reply)
  | .ping id => some (c, w, .pong id)
  | .subscribe id watchId dis ids pollInterval =>
    if !c.authenticated then some (c, w, authRequired none "authenticate first")
    else (subscribe m c w.server id watchId dis ids pollInterval).map fun (c, server, reply) =>
      (c, { w with server }, reply)
  | .unsubscribe id watchId ids close =>
    if !c.authenticated then some (c, w, authRequired none "authenticate first")
    else
      let (c, server, reply) := unsubscribe c w.server id watchId ids close
      some (c, { w with server }, reply)
  | .refresh id watchId =>
    if !c.authenticated then some (c, w, authRequired none "authenticate first")
    else (refresh m c w.server id watchId).map fun (c, server, reply) => (c, { w with server }, reply)

/-- The text of a frame; `none` does not parse. -/
def handleText (c : Connection) (w : World E F) (msg : Option ClientMsg) :
    Option (Connection × World E F × ServerMsg F) :=
  match msg with
  | none => some (c, w, .error none "INVALID_MESSAGE" "invalid JSON or unknown op")
  | some msg => handleClientMsg crypto cfg draw m c w msg

end Task

def applyCovEvent (watches : Table String WatchMeta) (pointId : ChannelId) :
    Table String WatchMeta :=
  watches.mapValues fun info =>
    if pointId ∈ info.subscribedIds then { info with covPending := true } else info

def markAllCovPending (watches : Table String WatchMeta) : Table String WatchMeta :=
  watches.mapValues fun info => { info with covPending := true }

inductive CovSignal
  | event (pointId : ChannelId)
  | lagged
  | closed
deriving DecidableEq

def Connection.receiveCov (c : Connection) (signal : CovSignal) : Connection :=
  if !c.covRx then c
  else
    match signal with
    | .event pointId => { c with watches := applyCovEvent c.watches pointId }
    | .lagged => { c with watches := markAllCovPending c.watches }
    | .closed => { c with covRx := false }

abbrev WatchOrder := Table.KeyOrder String WatchMeta

section Push

variable {E F : Type} [FloatOps F] (m : Moment E F)

def WatchMeta.isDue (now : Instant) (info : WatchMeta) : Bool :=
  info.covPending || decide (info.pollInterval ≤ now - info.lastPoll)

def Connection.markPolled (c : Connection) (watchId : String) (now : Instant) : Connection :=
  { c with
    watches := c.watches.modify watchId fun info =>
      { info with covPending := false, lastPoll := now } }

/-- The loop over the watches. The socket takes `room` more messages; the last
    component says that it is gone. -/
def pushWatches : ℕ → Connection → Server E F → List String →
    Option (Connection × Server E F × List (ServerMsg F) × Bool)
  | _, c, s, [] => some (c, s, [], false)
  | room, c, s, watchId :: rest =>
    if !(c.watches.get watchId).any (WatchMeta.isDue m.now) then pushWatches room c s rest
    else
      match s.watchPoll m watchId false with
      | none => none
      | some (s, .error _) => pushWatches room (c.markPolled watchId m.now) s rest
      | some (s, .ok resp) =>
        if resp.rows.isEmpty then pushWatches room (c.markPolled watchId m.now) s rest
        else
          match room with
          | 0 => some (c.markPolled watchId m.now, s, [], true)
          | room + 1 =>
            (pushWatches room (c.markPolled watchId m.now) s rest).map fun (c, s, sent, gone) =>
              (c, s, .update resp.watchId m.timestamp resp.rows :: sent, gone)

end Push

section Cleanup

variable {E F : Type}

def cleanup (order : WatchOrder) (c : Connection) (s : Server E F) : Server E F :=
  (order.walk c.watches).foldl (fun s watchId => (s.watchUnsub watchId true []).1) s

def World.cleanup (order : WatchOrder) (c : Connection) (w : World E F) : World E F :=
  { w with server := Ws.cleanup order c w.server }

end Cleanup

inductive Input
  | text (msg : Option ClientMsg) (taken : Bool)
  | ping (taken : Bool)
  | close
  | other
  | cov (signal : CovSignal)
  | tick (room : ℕ)
deriving DecidableEq

section Turn

variable {E F : Type} [FloatOps F] (crypto : Crypto) (cfg : WsState) (draw : Draw)
  (order : WatchOrder) (m : Moment E F)

def turn (c : Connection) (w : World E F) (input : Input) :
    Option (Option Connection × World E F × List (ServerMsg F)) :=
  match input with
  | .text msg taken =>
    (handleText crypto cfg draw m { c with lastClientMsg := m.now } w msg).map
      fun (c, w, reply) =>
        if taken then (some c, w, [reply]) else (none, w.cleanup order c, [])
  | .ping taken =>
    if taken then some (some { c with lastClientMsg := m.now }, w, [])
    else some (none, w.cleanup order c, [])
  | .close => some (none, w.cleanup order c, [])
  | .other => some (some { c with lastClientMsg := m.now }, w, [])
  | .cov signal => some (some (c.receiveCov signal), w, [])
  | .tick room =>
    if clientTimeoutSecs * 1000000000 < m.now - c.lastClientMsg then
      some (none, w.cleanup order c, [])
    else if !c.authenticated then some (some c, w, [])
    else
      (pushWatches m room c w.server (order.walk c.watches)).map fun (c, server, sent, gone) =>
        if gone then (none, { w with server := Ws.cleanup order c server }, sent)
        else (some c, { w with server }, sent)

end Turn

def maxWsConnections : ℤ := 32

structure WsParams where
  token : Option String

def preAuthed (cfg : WsState) (params : WsParams) : Bool :=
  match cfg.authToken, params.token with
  | none, _ => true
  | some required, some provided => provided = required
  | some _, none => false

/-- The connection that `ws_upgrade` starts, unless there are too many. -/
def wsUpgrade (cfg : WsState) (hasDrivers : Bool) (active : ℤ) (params : WsParams)
    (now : Instant) : Option Connection :=
  if maxWsConnections ≤ active then none
  else some ⟨preAuthed cfg params, Table.empty, now, hasDrivers⟩

end Sandstar.Ws
