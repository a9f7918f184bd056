import Sandstar.SoxDispatch
import Sandstar.DaspTransport

set_option autoImplicit false

/-!
# The SOX server loop (sox/mod.rs)

One event of the loop: a datagram from the socket with everything its request sets
off, the sweep of expired sessions, or a tick that changes the tree and pushes
events. The loop owns the transport and the subscriptions; a handler that faults
ends it. Clock readings, the shared store of dynamic tags and the order in which
maps iterate are inputs of an event.
-/
namespace Sandstar.SoxServerLoop
open SoxProtocol SoxSlots TreeRequests SoxReads FileTransfer Machine SoxDispatch Dasp

structure SoxLoop (S : Type) where
  transport : DaspTransport
  server : SoxServer S

abbrev Push := UInt16 × List UInt8

section Pushes

def eventBytes (compId : UInt16) (what : UInt8) (body : List UInt8) : List UInt8 :=
  [101, 0xFF] ++ beBytes16 compId ++ [what] ++ body

def rawSlots (slots : List VirtualSlot) : List UInt8 :=
  slots.foldl (fun buf slot => encodeSlotValueRaw buf slot.value) []

def linkEvent (compId : UInt16) (comp : VirtualComponent) : List UInt8 :=
  eventBytes compId 108 (comp.links.flatMap (fun link =>
    beBytes16 link.fromComp ++ [link.fromSlot] ++ beBytes16 link.toComp ++ [link.toSlot]) ++
      [0xFF, 0xFF])

def treeEvent (compId : UInt16) (comp : VirtualComponent) (children : List UInt16) : List UInt8 :=
  eventBytes compId 116 ([comp.kitId, comp.typeId] ++ Utf8.asBytes comp.name ++ [0] ++
    beBytes16 comp.parentId ++ [0xFF, UInt8.ofNat children.length] ++ children.flatMap beBytes16)

def toWatchers (subs : SubscriptionManager) (compId : UInt16) (bytes : List UInt8) : List Push :=
  match subs.subscriptions.get compId with
  | none => []
  | some watchers => (SubscriptionManager.idList watchers).map fun sessionId => (sessionId, bytes)

def buildEvents (subs : SubscriptionManager) (changed : List UInt16) (tree : ComponentTree) :
    List Push :=
  changed.flatMap fun compId =>
    if !tree.isChannelComp compId then []
    else match tree.get compId with
      | none => []
      | some comp => toWatchers subs compId (eventBytes compId 114
          (rawSlots (comp.slots.filter fun s => !isAction s && !isConfig s)))

def buildConfigEvents (subs : SubscriptionManager) (compId : UInt16) (tree : ComponentTree) :
    List Push :=
  match tree.get compId with
  | none => []
  | some comp => toWatchers subs compId (eventBytes compId 99
      (rawSlots (comp.slots.filter fun s => !isAction s && isConfig s)))

def leadingId (payload : List UInt8) : Option UInt16 := (SoxReader.mk payload).readU16.1

def valuePushes (req : SoxRequest) (subs : SubscriptionManager) (tree : ComponentTree) :
    List Push :=
  match leadingId req.payload with
  | none => []
  | some compId =>
    (if req.cmd.byte = 119 ∧ tree.isChannelComp compId then buildEvents subs [compId] tree
      else []) ++
    (if (req.cmd.byte = 107 ∨ req.cmd.byte = 119) ∧ !tree.isChannelComp compId then
        buildConfigEvents subs compId tree
      else [])

/-- After an add or a delete: the parent, and the component an add has made. The parent
    of a deleted component is looked up before the request. -/
def treePushes (req : SoxRequest) (resp : SoxResponse) (sessionId : UInt16)
    (before tree : ComponentTree) : List Push :=
  if req.cmd = .add ∨ req.cmd = .delete then
    let deletedParent :=
      if req.cmd = .delete then
        (((leadingId req.payload).bind before.get).map VirtualComponent.parentId).getD 0
      else 0
    let parentId :=
      if req.cmd = .add then (leadingId req.payload).getD deletedParent else deletedParent
    (match tree.get parentId with
      | none => []
      | some parent => [(sessionId, treeEvent parentId parent parent.children)]) ++
    (if req.cmd = .add then
      match leadingId resp.payload with
      | none => []
      | some newId => match tree.get newId with
        | none => []
        | some comp => [(sessionId, treeEvent newId comp [])]
      else [])
  else []

def linkPushes (req : SoxRequest) (resp : SoxResponse) (sessionId : UInt16)
    (tree : ComponentTree) : List Push :=
  if req.cmd = .link ∧ resp.cmd = 76 ∧ 7 ≤ req.payload.length then
    let fromComp := (leadingId (req.payload.drop 1)).getD 0
    let toComp := (leadingId (req.payload.drop 4)).getD 0
    [fromComp, toComp].flatMap fun id => match tree.get id with
      | none => []
      | some comp => [(sessionId, linkEvent id comp)]
  else []

def subscribePushes (order : List UInt16) (req : SoxRequest) (sessionId : UInt16)
    (tree : ComponentTree) : List Push :=
  if req.cmd = .subscribe then
    order.flatMap fun id => match tree.get id with
      | none => []
      | some comp => if comp.links.isEmpty then [] else [(sessionId, linkEvent id comp)]
  else []

def sendAll (transport : DaspTransport) (pushes : List Push) : DaspTransport :=
  pushes.foldl (fun transport push => (transport.sendToSession push.1 push.2).1) transport

end Pushes

section Loop

variable {t : Target} {S : Type} (sys : FileSystem t S) (f64 : F64Ops)
  (sha1 : List UInt8 → Vector UInt8 20)

def handleRequest (order : List UInt16) (dynStore : DynSlotStore) (sessionId : UInt16)
    (req : SoxRequest) (l : SoxLoop S) : Except Fault (SoxLoop S) := do
  let (server, resp) ← handleSoxRequestWithDyn sys f64 order req l.server sessionId (some dynStore)
  let pushes := [(sessionId, resp.toBytes)] ++ valuePushes req server.subs server.tree ++
    treePushes req resp sessionId l.server.tree server.tree ++
    linkPushes req resp sessionId server.tree ++ subscribePushes order req sessionId server.tree
  .ok ⟨sendAll l.transport pushes, server⟩

def handlePayload (order : List UInt16) (dynStore : DynSlotStore) (sessionId : UInt16)
    (payload : List UInt8) (l : SoxLoop S) : Except Fault (SoxLoop S) :=
  if 2 ≤ payload.length ∧ payload.head? = some 107 ∧
      isPutTransferActive l.server.files.xfer = true then do
    let xfer ← handlePutChunk t l.server.files.xfer (payload.drop 2)
    .ok { l with server := { l.server with files := { l.server.files with xfer := xfer } } }
  else match SoxRequest.parse payload with
    | none => .ok l
    | some req => handleRequest sys f64 order dynStore sessionId req l

def expiredSessionIds (clock : UInt16 → ℕ) (ids : List UInt16) (transport : DaspTransport) :
    List UInt16 :=
  ids.filter fun id => (transport.sessions.get id).any (·.isExpired (clock id))

/-- The sweep reads the clock again: first for the sessions whose subscriptions go, then
    for the sessions that go. -/
def cleanup (ids : List UInt16) (clock elapsed : UInt16 → ℕ) (l : SoxLoop S) : SoxLoop S :=
  { transport := (expiredSessionIds (fun id => clock id + elapsed id) ids l.transport).foldl
      (fun transport id => transport.handleClose id) l.transport
    server := { l.server with
      subs := (expiredSessionIds clock ids l.transport).foldl
        SubscriptionManager.unsubscribeAll l.server.subs } }

inductive LoopEvent
  | datagram (now : ℕ) (nonce : List UInt8) (src : SocketAddr) (packet : List UInt8)
      (order : List UInt16) (dynStore : DynSlotStore)
  | cleanup (ids : List UInt16) (clock elapsed : UInt16 → ℕ)
  | refresh (tree : ComponentTree) (pushes : List Push)

def handleLoopEvent (l : SoxLoop S) : LoopEvent → Except Fault (SoxLoop S)
  | .datagram now nonce src packet order dynStore =>
    match l.transport.poll sha1 now nonce src packet with
    | (transport, none, _) => .ok { l with transport := transport }
    | (transport, some (sessionId, payload), _) =>
      handlePayload sys f64 order dynStore sessionId payload { l with transport := transport }
  | .cleanup ids clock elapsed => .ok (cleanup ids clock elapsed l)
  | .refresh tree pushes =>
    .ok { transport := sendAll l.transport pushes, server := { l.server with tree := tree } }

/-- The loop after one more event; a fault is there to stay. -/
def loopStep (s : Except Fault (SoxLoop S)) (e : LoopEvent) : Except Fault (SoxLoop S) := do
  let l ← s
  handleLoopEvent sys f64 sha1 l e

def SoxLoop.start (credentials : Vector UInt8 20) (tree : ComponentTree) (fs : S) : SoxLoop S :=
  ⟨DaspTransport.bind credentials, tree, SubscriptionManager.new, ⟨fs, none⟩⟩

end Loop
end Sandstar.SoxServerLoop
