import Sandstar.DaspWire
import Sandstar.Table

set_option autoImplicit false

/-!
# The DASP transport (dasp.rs)

One step of the transport per incoming packet, sweep or outgoing message. The clock
(in nanoseconds), the random nonce and the packet are inputs of a step, and the packets
it sends are outputs; SHA-1 is a parameter. An output is what the socket is handed:
a send that the socket refuses takes its number all the same.
-/
namespace Sandstar.Dasp
open Cursor

def maxSessions : ℕ := 4
def sessionTimeout : ℕ := 60 * 1000000000
def daspVersion : UInt16 := 0x0100
def platformName : String := "sandstar-rust"
def recvBufSize : ℕ := 1500

/-- The id that stands for no session. -/
def noSession : UInt16 := 0xffff

inductive DaspErrorCode where
  | incompatibleVersion | busy | digestNotSupported | notAuthenticated | timeout
  deriving DecidableEq, Repr

def DaspErrorCode.code : DaspErrorCode → UInt16
  | incompatibleVersion => 0xe1
  | busy => 0xe2
  | digestNotSupported => 0xe3
  | notAuthenticated => 0xe4
  | timeout => 0xe5

/-- The socket is bound to an IPv4 address, so peers are IPv4 peers. -/
structure SocketAddr where
  ip : UInt32
  port : UInt16
  deriving DecidableEq, Repr

structure DaspSession where
  sessionId : UInt16
  remoteId : UInt16
  remoteAddr : SocketAddr
  authenticated : Bool
  sendSeq : UInt16
  recvSeq : UInt16
  lastActivity : ℕ
  nonce : List UInt8
  idealMax : UInt16
  absMax : UInt16
  deriving DecidableEq, Repr

namespace DaspSession

def new (now : ℕ) (sessionId remoteId : UInt16) (remoteAddr : SocketAddr) (nonce : List UInt8) :
    DaspSession :=
  ⟨sessionId, remoteId, remoteAddr, false, 0, 0, now, nonce, idealMaxDefault, absMaxDefault⟩

def isExpired (now : ℕ) (s : DaspSession) : Bool := sessionTimeout < now - s.lastActivity

def touch (now : ℕ) (s : DaspSession) : DaspSession := { s with lastActivity := now }

def tune (hello : DaspHeader) (s : DaspSession) : DaspSession :=
  { s with
    idealMax := hello.idealMax.elim s.idealMax (min s.idealMax)
    absMax := hello.absMax.elim s.absMax (min s.absMax)
    recvSeq := hello.seqNum }

end DaspSession

structure DaspTransport where
  sessions : Table UInt16 DaspSession
  addrToSession : Table SocketAddr UInt16
  nextSessionId : UInt16
  credentials : Vector UInt8 20

structure Outgoing where
  addr : SocketAddr
  header : DaspHeader
  payload : List UInt8
  deriving DecidableEq, Repr

section Sha1

variable (sha1 : List UInt8 → Vector UInt8 20)

def computeAuthDigest (credentials : Vector UInt8 20) (nonce : List UInt8) : Vector UInt8 20 :=
  sha1 (credentials.toList ++ nonce)

end Sha1

namespace DaspTransport

def bind (credentials : Vector UInt8 20) : DaspTransport :=
  ⟨Table.empty, Table.empty, 1, credentials⟩

/-- The allocation loop: ids from the counter on, 0xffff and ids in use skipped. -/
def allocSessionId (sessions : Table UInt16 DaspSession) : ℕ → UInt16 → Option (UInt16 × UInt16)
  | 0, _ => none
  | fuel + 1, id =>
    if id = noSession then allocSessionId sessions fuel (id + 1)
    else if (sessions.get id).isNone then some (id, id + 1)
    else allocSessionId sessions fuel (id + 1)

/-- Every id comes up once in this many rounds. -/
def allocRounds : ℕ := 65536

def closePacket (remoteId : UInt16) (addr : SocketAddr) (error : Option DaspErrorCode) : Outgoing :=
  ⟨addr, { DaspHeader.bare remoteId 0xffff .close with errorCode := error.map DaspErrorCode.code },
    []⟩

def discoverPacket (addr : SocketAddr) : Outgoing :=
  ⟨addr, { DaspHeader.bare noSession 0 .discover with platformId := some platformName }, []⟩

def challengePacket (s : DaspSession) : Outgoing :=
  ⟨s.remoteAddr,
    { DaspHeader.bare s.remoteId 0 .challenge with
      remoteId := some s.sessionId, nonce := some s.nonce }, []⟩

def welcomePacket (s : DaspSession) : Outgoing :=
  ⟨s.remoteAddr,
    { DaspHeader.bare s.remoteId 0 .welcome with
      remoteId := some s.sessionId
      idealMax := some s.idealMax
      absMax := some s.absMax
      receiveMax := some receiveMaxDefault
      receiveTimeoutSecs := some receiveTimeoutSecsDefault }, []⟩

def keepalivePacket (s : DaspSession) : Outgoing :=
  ⟨s.remoteAddr, DaspHeader.bare s.remoteId 0xffff .keepalive, []⟩

def ackPacket (s : DaspSession) (ackSeq : UInt16) : Outgoing :=
  ⟨s.remoteAddr, { DaspHeader.bare s.remoteId 0xffff .datagram with ack := some ackSeq }, []⟩

def removeSession (t : DaspTransport) (id : UInt16) (addr : SocketAddr) : DaspTransport :=
  { t with sessions := t.sessions.erase id, addrToSession := t.addrToSession.erase addr }

/-- The session that the address had before a new HELLO from it. -/
def dropPending (t : DaspTransport) (src : SocketAddr) : DaspTransport :=
  match t.addrToSession.get src with
  | some oldId => t.removeSession oldId src
  | none => t

def helloVersionOk (hello : DaspHeader) : Bool := hello.version.all (· = daspVersion)

def openSession (t : DaspTransport) (now : ℕ) (nonce : List UInt8) (src : SocketAddr)
    (hello : DaspHeader) (id next : UInt16) : DaspTransport × DaspSession :=
  let s := (DaspSession.new now id (hello.remoteId.getD 0) src nonce).tune hello
  ({ t with
      sessions := t.sessions.insert id s
      addrToSession := t.addrToSession.insert src id
      nextSessionId := next }, s)

def handleHello (now : ℕ) (nonce : List UInt8) (src : SocketAddr) (hello : DaspHeader)
    (t : DaspTransport) : DaspTransport × List Outgoing :=
  if !helloVersionOk hello then
    (t, [closePacket (hello.remoteId.getD noSession) src (some .incompatibleVersion)])
  else if maxSessions ≤ t.sessions.size then
    (t, [closePacket (hello.remoteId.getD noSession) src (some .busy)])
  else
    let t := t.dropPending src
    match allocSessionId t.sessions allocRounds t.nextSessionId with
    | none => (t, [])
    | some (id, next) =>
      let (t, s) := t.openSession now nonce src hello id next
      (t, [challengePacket s])

def handleAuthenticate (sha1 : List UInt8 → Vector UInt8 20) (now : ℕ) (src : SocketAddr)
    (auth : DaspHeader) (t : DaspTransport) : DaspTransport × List Outgoing :=
  match t.sessions.get auth.sessionId with
  | none => (t, [])
  | some s =>
    if s.remoteAddr ≠ src then (t, [])
    else
      let expected := computeAuthDigest sha1 t.credentials s.nonce
      let actual := auth.digest.getD []
      if actual.length ≠ 20 ∨ actual ≠ expected.toList then
        (t.removeSession auth.sessionId src,
          [closePacket s.remoteId src (some .notAuthenticated)])
      else
        ({ t with
            sessions := t.sessions.modify auth.sessionId fun s =>
              { s with authenticated := true, lastActivity := now } },
          [welcomePacket s])

def handleKeepalive (now : ℕ) (id : UInt16) (t : DaspTransport) :
    DaspTransport × List Outgoing :=
  match t.sessions.get id with
  | none => (t, [])
  | some s =>
    ({ t with sessions := t.sessions.modify id (DaspSession.touch now) }, [keepalivePacket s])

def handleClose (id : UInt16) (t : DaspTransport) : DaspTransport :=
  match t.sessions.get id with
  | none => t
  | some s => t.removeSession id s.remoteAddr

def handleDatagram (now : ℕ) (src : SocketAddr) (hdr : DaspHeader) (payload : List UInt8)
    (t : DaspTransport) : DaspTransport × Option (UInt16 × List UInt8) × List Outgoing :=
  match t.sessions.get hdr.sessionId with
  | none => (t, none, [])
  | some s =>
    if !s.authenticated then (t, none, [])
    else if s.remoteAddr ≠ src then (t, none, [])
    else
      ({ t with
          sessions := t.sessions.modify hdr.sessionId fun s =>
            { s with lastActivity := now, recvSeq := hdr.seqNum } },
        if payload.isEmpty then none else some (hdr.sessionId, payload),
        [ackPacket s hdr.seqNum])

/-- What `poll` does with the packet it has read. -/
def dispatch (sha1 : List UInt8 → Vector UInt8 20) (now : ℕ) (nonce : List UInt8)
    (src : SocketAddr) (hdr : DaspHeader) (data : List UInt8) (t : DaspTransport) :
    DaspTransport × Option (UInt16 × List UInt8) × List Outgoing :=
  match hdr.msgType with
  | .discover => (t, none, [discoverPacket src])
  | .hello =>
    let (t, sends) := t.handleHello now nonce src hdr
    (t, none, sends)
  | .authenticate =>
    let (t, sends) := t.handleAuthenticate sha1 now src hdr
    (t, none, sends)
  | .keepalive =>
    let (t, sends) := t.handleKeepalive now hdr.sessionId
    (t, none, sends)
  | .close => (t.handleClose hdr.sessionId, none, [])
  | .datagram => t.handleDatagram now src hdr (data.drop hdr.payloadOffset)
  | .challenge | .welcome => (t, none, [])

/-- A packet longer than the receive buffer is cut to it. -/
def poll (sha1 : List UInt8 → Vector UInt8 20) (now : ℕ) (nonce : List UInt8)
    (src : SocketAddr) (packet : List UInt8) (t : DaspTransport) :
    DaspTransport × Option (UInt16 × List UInt8) × List Outgoing :=
  let data := packet.take recvBufSize
  match parseHeader data with
  | .error _ => (t, none, [])
  | .ok hdr => t.dispatch sha1 now nonce src hdr data

/-- `ids` is the order in which the map iterates. An expired session leaves as a closed
    one does. -/
def cleanupExpired (now : ℕ) (ids : List UInt16) (t : DaspTransport) :
    DaspTransport × List Outgoing :=
  let expired := ids.filter fun id => (t.sessions.get id).any (·.isExpired now)
  (expired.foldl (fun t id => t.handleClose id) t,
    (expired.filterMap t.sessions.get).map fun s =>
      closePacket s.remoteId s.remoteAddr (some .timeout))

def sendToSession (id : UInt16) (payload : List UInt8) (t : DaspTransport) :
    DaspTransport × List Outgoing :=
  match t.sessions.get id with
  | none => (t, [])
  | some s =>
    ({ t with sessions := t.sessions.modify id fun s => { s with sendSeq := s.sendSeq + 1 } },
      [⟨s.remoteAddr,
        { DaspHeader.bare s.remoteId s.sendSeq .datagram with ack := some s.recvSeq }, payload⟩])

end DaspTransport

inductive DaspEvent where
  | datagram (now : ℕ) (nonce : List UInt8) (src : SocketAddr) (packet : List UInt8)
  | cleanup (now : ℕ) (ids : List UInt16)
  | send (id : UInt16) (payload : List UInt8)

def daspStep (sha1 : List UInt8 → Vector UInt8 20) (t : DaspTransport) :
    DaspEvent → DaspTransport
  | .datagram now nonce src packet => (t.poll sha1 now nonce src packet).1
  | .cleanup now ids => (t.cleanupExpired now ids).1
  | .send id payload => (t.sendToSession id payload).1

end Sandstar.Dasp
