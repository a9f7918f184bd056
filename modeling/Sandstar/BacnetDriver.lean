import Sandstar.BacnetTransactions
import Sandstar.DriverWatches
import Sandstar.Tasks

set_option autoImplicit false

/-!
# The BACnet driver (mod.rs)

The driver borrows its transaction table and COV cache to each exchange. What the
code takes from its surroundings is the `Host`: the socket, the clock, the order in
which a hash map is walked, and the debug text of an APDU. Time passes in socket calls
only.
-/
namespace Sandstar.Bacnet

open Tasks
open Dasp (SocketAddr)
open Drivers (DriverError DriverPointRef)

/-- The conversions between BACnet values and `f64`. -/
class ValueCasts (F : Type) extends FloatOps F where
  /-- `f as f64` of a single-precision float, given by its bits. -/
  ofF32 : UInt32 → F
  /-- The double-precision float with these bits. -/
  ofF64 : UInt64 → F
  ofInt : ℤ → F
  /-- The bits of `x as f32`. -/
  toF32 : F → UInt32

instance : ValueCasts ℚ where
  ofF32 bits := floatValue 23 (-149) (bits.toNat.testBit 31) (bits.toNat / 2 ^ 23 % 2 ^ 8)
    (bits.toNat % 2 ^ 23)
  ofF64 bits := floatValue 52 (-1074) (bits.toNat.testBit 63) (bits.toNat / 2 ^ 52 % 2 ^ 11)
    (bits.toNat % 2 ^ 52)
  ofInt n := n
  toF32 q :=
    if q = 0 then 0
    else
      let exponent := Int.log 2 |q|
      let fraction := ⌊|q| * 2 ^ (23 - exponent)⌋.toNat - 2 ^ 23
      UInt32.ofNat ((if q < 0 then 2 ^ 31 else 0) + (exponent + 127).toNat * 2 ^ 23 + fraction)

section Driver

variable {F : Type} [ValueCasts F]

/-- The first element stands for an array. -/
def BacnetValue.toF64 : BacnetValue → Option F
  | .real bits => some (ValueCasts.ofF32 bits)
  | .double bits => some (ValueCasts.ofF64 bits)
  | .unsigned n => some (ValueCasts.ofInt n.toNat)
  | .signed n => some (ValueCasts.ofInt n.toInt)
  | .boolean b => some (FloatOps.lit (if b then 1 else 0))
  | .enumerated n => some (ValueCasts.ofInt n.toNat)
  | .array (item :: _) => item.toF64
  | _ => none

structure BacnetObject (F : Type) where
  deviceId : UInt32
  objectType : UInt16
  inst : UInt32
  scale : F
  offset : F

def BacnetObject.presentValueSpec (obj : BacnetObject F) : RpmRequestSpec :=
  ⟨obj.objectType, obj.inst, 85, none⟩

structure CovSubscription where
  pointId : BitVec 32
  processId : UInt32
  objectType : UInt16
  objectInstance : UInt32
  deviceId : UInt32
  lifetime : Option UInt32
  subscribedAt : Instant

/-- Of a device only its address is kept, and of the socket whether it is open. -/
structure BacnetDriver (F : Type) where
  connected : Bool
  deviceRegistry : Table UInt32 SocketAddr
  objects : Table (BitVec 32) (BacnetObject F)
  session : Session
  covSubscriptions : Table UInt32 CovSubscription
  nextProcessId : UInt32
  renewalInterval : ℕ

/-- `clock` gives the time after a number of exchanges, and `order` the keys of a map
    as they are walked. -/
structure Host where
  net : Network
  clock : ℕ → Instant
  order : Finset UInt32 → List UInt32
  order_nodup : ∀ ids, (order ids).Nodup
  mem_order : ∀ ids id, id ∈ order ids ↔ id ∈ ids
  debug : Apdu → String

/-- A host that walks its maps in ascending order. -/
def Host.ascending (net : Network) (clock : ℕ → Instant) (debug : Apdu → String) : Host where
  net := net
  clock := clock
  order := Table.ascending UInt32
  order_nodup := Table.ascending_nodup UInt32
  mem_order := Table.mem_ascending UInt32
  debug := debug

namespace BacnetDriver

def new (objects : Table (BitVec 32) (BacnetObject F)) : BacnetDriver F where
  connected := false
  deviceRegistry := Table.empty
  objects := objects
  session := ⟨.new, .new⟩
  covSubscriptions := Table.empty
  nextProcessId := 1
  renewalInterval := 240 * 10 ^ 9

def opened (b : BacnetDriver F) (devices : List (UInt32 × SocketAddr)) : BacnetDriver F :=
  { b with
    connected := true
    deviceRegistry := devices.foldl (fun registry d => registry.insert d.1 d.2) b.deviceRegistry }

def exchanges (b : BacnetDriver F) : ℕ := b.session.transactions.channels.length

/-- The driver's own exchange: `'retry` with three retries. -/
def exchange (host : Host) (deviceAddr : SocketAddr) (buildRequest : UInt8 → List UInt8) :
    Task (BacnetDriver F) Ended := fun b =>
  (b.session.exchange host.net deviceAddr buildRequest 3).map fun r =>
    (r.2, { b with session := r.1 })

def whenConnected {α : Type} (otherwise : α) (x : Task (BacnetDriver F) α) :
    Task (BacnetDriver F) α := fun b =>
  if b.connected then x b else some (otherwise, b)

end BacnetDriver

def BacnetError.display : BacnetError → String
  | .malformedFrame message => "malformed frame: " ++ message
  | .timeout retries => "transaction timeout after " ++ toString retries ++ " retries"
  | .remoteError errorClass code =>
    "remote error class=" ++ toString errorClass ++ " code=" ++ toString code
  | .io message => "io error: " ++ message

def Ended.transacted : Ended → Except DriverError Apdu
  | .noIds => .error (.commFault "bacnet: no invoke IDs available")
  | .sendFailed e => .error (.commFault ("bacnet send: " ++ e))
  | .recvFailed e => .error (.commFault ("bacnet recv: " ++ e))
  | .answered (.ok apdu) => .ok apdu
  | .answered (.error e) => .error (.commFault e.display)
  | .exhausted => .error (.commFault "bacnet: timeout after 3 retries")

def Ended.received : Ended → Except BacnetError Apdu
  | .noIds => .error (.malformedFrame "no invoke IDs available")
  | .sendFailed e => .error (.io e)
  | .recvFailed e => .error (.io e)
  | .answered result => result
  | .exhausted => .error (.timeout 3)

def remoteFault (source : String) (errorClass errorCode : UInt32) : DriverError :=
  .remoteStatus (source ++ " error class=" ++ toString errorClass ++ " code=" ++ toString errorCode)

def notConnected : DriverError := .commFault "bacnet: not connected"

def scaled (obj : BacnetObject F) (raw : F) : F := raw * obj.scale + obj.offset

def presentValue (host : Host) (obj : BacnetObject F) : Apdu → Except DriverError F
  | .readPropertyAck _ _ _ _ value =>
    match (value.toF64 : Option F) with
    | some raw => .ok (scaled obj raw)
    | none => .error (.commFault "bacnet: non-numeric present value")
  | .error _ _ errorClass errorCode => .error (remoteFault "BACnet" errorClass errorCode)
  | other => .error (.commFault ("bacnet: unexpected response: " ++ host.debug other))

def acknowledged (host : Host) (source unexpected : String) : Apdu → Except DriverError Unit
  | .simpleAck _ _ => .ok ()
  | .error _ _ errorClass errorCode => .error (remoteFault source errorClass errorCode)
  | other => .error (.commFault (unexpected ++ host.debug other))

def propertyValue : Apdu → Except BacnetError BacnetValue
  | .readPropertyAck _ _ _ _ value => .ok value
  | .error _ _ errorClass errorCode => .error (.remoteError errorClass errorCode)
  | _ => .error (.malformedFrame "unexpected APDU type")

def matched (results : List RpmResult) (spec : RpmRequestSpec) : Except DriverError BacnetValue :=
  match results.find? fun r => r.objectType = spec.objectType ∧ r.inst = spec.inst ∧
      r.propertyId = spec.propertyId with
  | some r =>
    match r.value with
    | .ok v => .ok v
    | .error (errorClass, code) => .error (remoteFault "BACnet" errorClass code)
  | none => .error (.commFault "BACnet RPM: missing result for spec")

def propertyValues (host : Host) (specs : List RpmRequestSpec) :
    Apdu → Except BacnetError (List (Except DriverError BacnetValue))
  | .readPropertyMultipleAck _ results => .ok (specs.map (matched results))
  | .error _ _ errorClass errorCode => .error (.remoteError errorClass errorCode)
  | other => .error (.malformedFrame ("unexpected APDU type: " ++ host.debug other))

namespace BacnetDriver

def readPresentValue (host : Host) (deviceAddr : SocketAddr) (obj : BacnetObject F) :
    Task (BacnetDriver F) (Except DriverError F) :=
  whenConnected (.error notConnected) do
    let ended ← exchange host deviceAddr fun invokeId =>
      encodeReadProperty invokeId obj.objectType obj.inst 85 none
    return ended.transacted.bind (presentValue host obj)

def readPropertyGeneric (host : Host) (deviceAddr : SocketAddr) (objectType : UInt16)
    (objectInstance propertyId : UInt32) :
    Task (BacnetDriver F) (Except BacnetError BacnetValue) :=
  whenConnected (.error (.io "not connected")) do
    let ended ← exchange host deviceAddr fun invokeId =>
      encodeReadProperty invokeId objectType objectInstance propertyId none
    return ended.received.bind propertyValue

def readPropertiesMultiple (host : Host) (deviceAddr : SocketAddr) (specs : List RpmRequestSpec) :
    Task (BacnetDriver F) (Except BacnetError (List (Except DriverError BacnetValue))) :=
  whenConnected (.error (.io "not connected")) do
    let ended ← exchange host deviceAddr fun invokeId => encodeReadPropertyMultiple invokeId specs
    return ended.received.bind (propertyValues host specs)

def writeProperty (host : Host) (deviceAddr : SocketAddr) (objectType : UInt16)
    (objectInstance propertyId : UInt32) (value : BacnetValue) (priority : Option UInt8) :
    Task (BacnetDriver F) (Except DriverError Unit) :=
  whenConnected (.error notConnected) do
    let ended ← exchange host deviceAddr fun invokeId =>
      encodeWriteProperty invokeId objectType objectInstance propertyId value none priority
    return ended.transacted.bind (acknowledged host "BACnet" "bacnet: unexpected response: ")

def subscribeCov (host : Host) (deviceAddr : SocketAddr) (processId : UInt32) (objectType : UInt16)
    (objectInstance : UInt32) (issueConfirmed : Bool) (lifetime : Option UInt32) :
    Task (BacnetDriver F) (Except DriverError Unit) :=
  whenConnected (.error notConnected) do
    let ended ← exchange host deviceAddr fun invokeId =>
      encodeSubscribeCov invokeId processId objectType objectInstance (some issueConfirmed) lifetime
    return ended.transacted.bind (acknowledged host "BACnet SubscribeCOV" "unexpected response: ")

def unsubscribeCov (host : Host) (deviceAddr : SocketAddr) (processId : UInt32)
    (objectType : UInt16) (objectInstance : UInt32) :
    Task (BacnetDriver F) (Except DriverError Unit) :=
  whenConnected (.error notConnected) do
    let ended ← exchange host deviceAddr fun invokeId =>
      encodeSubscribeCov invokeId processId objectType objectInstance none none
    return ended.transacted.bind (acknowledged host "BACnet SubscribeCOV" "unexpected response: ")

def allocateProcessId : Task (BacnetDriver F) UInt32 := fun b =>
  let next := b.nextProcessId + 1
  some (b.nextProcessId, { b with nextProcessId := if next = 0 then 1 else next })

def subscriptions (host : Host) (b : BacnetDriver F) : List (UInt32 × CovSubscription) :=
  (host.order b.covSubscriptions.keys).filterMap fun processId =>
    (b.covSubscriptions.get processId).map (processId, ·)

def renewalDue (b : BacnetDriver F) (now : Instant) (entry : UInt32 × CovSubscription) :
    Option (UInt32 × SocketAddr × CovSubscription) :=
  if now - entry.2.subscribedAt < b.renewalInterval then none
  else (b.deviceRegistry.get entry.2.deviceId).map (entry.1, ·, entry.2)

def touchSubscription (host : Host) (processId : UInt32) : Task (BacnetDriver F) Unit := fun b =>
  some ((), { b with covSubscriptions := b.covSubscriptions.modify processId fun sub =>
    { sub with subscribedAt := host.clock b.exchanges } })

def renew (host : Host) (due : UInt32 × SocketAddr × CovSubscription) :
    Task (BacnetDriver F) Unit := do
  let renewed ← subscribeCov host due.2.1 due.1 due.2.2.objectType due.2.2.objectInstance false
    due.2.2.lifetime
  match renewed with
  | .ok () => touchSubscription host due.1
  | .error _ => pure ()

def renewDueSubscriptions (host : Host) : Task (BacnetDriver F) Unit := fun b =>
  let due := (b.subscriptions host).filterMap (b.renewalDue (host.clock b.exchanges))
  (do let _ ← due.mapM (renew host)) b

def covMaxAge : ℕ := 600 * 10 ^ 9

def cached (host : Host) (b : BacnetDriver F) (obj : BacnetObject F) : Option CovCacheEntry :=
  b.session.covCache.get (host.clock b.exchanges) obj.objectType obj.inst covMaxAge

inductive Path
  | unconfigured
  | unregistered
  | cov
  | readProperty
  | readPropertyMultiple
deriving DecidableEq

/-- One result for the sync context, which is told the id and the result. -/
structure Reported (F : Type) where
  pointId : BitVec 32
  path : Path
  result : Except DriverError F

def converted (obj : BacnetObject F) (fault : String) (value : BacnetValue) :
    Except DriverError F :=
  match (value.toF64 : Option F) with
  | some raw => .ok (scaled obj raw)
  | none => .error (.commFault fault)

def readEach (host : Host) (deviceAddr : SocketAddr) (group : List (BitVec 32 × BacnetObject F)) :
    Task (BacnetDriver F) (List (Reported F)) :=
  group.mapM fun p => do
    let result ← readPresentValue host deviceAddr p.2
    return ⟨p.1, .readProperty, result⟩

def readBatch (host : Host) (deviceAddr : SocketAddr) (group : List (BitVec 32 × BacnetObject F)) :
    Task (BacnetDriver F) (List (Reported F)) := do
  let batch ← readPropertiesMultiple host deviceAddr (group.map fun p => p.2.presentValueSpec)
  match batch with
  | .ok values => pure ((group.zip values).map fun r =>
      ⟨r.1.1, .readPropertyMultiple, r.2.bind (converted r.1.2 "bacnet: non-numeric value")⟩)
  | .error _ => readEach host deviceAddr group

def readGroup (host : Host) (deviceAddr : SocketAddr) (group : List (BitVec 32 × BacnetObject F)) :
    Task (BacnetDriver F) (List (Reported F)) :=
  match group with
  | [] => pure []
  | [_] => readEach host deviceAddr group
  | _ => readBatch host deviceAddr group

def syncDevice (host : Host) (deviceId : UInt32) (group : List (BitVec 32 × BacnetObject F)) :
    Task (BacnetDriver F) (List (Reported F)) := fun b =>
  match b.deviceRegistry.get deviceId with
  | none => some (group.map fun p => ⟨p.1, .unregistered, .error (.commFault
      ("BACnet device " ++ toString deviceId ++ " not in registry"))⟩, b)
  | some deviceAddr =>
    let hits := group.filterMap fun p => (b.cached host p.2).map fun entry =>
      ⟨p.1, .cov, converted p.2 "bacnet: non-numeric COV value" entry.value⟩
    let uncached := group.filter fun p => (b.cached host p.2).isNone
    (do return hits ++ (← readGroup host deviceAddr uncached)) b

def configured (b : BacnetDriver F) (points : List DriverPointRef) :
    List (BitVec 32 × BacnetObject F) :=
  points.filterMap fun pt => (b.objects.get pt.pointId).map (pt.pointId, ·)

def unconfigured (b : BacnetDriver F) (points : List DriverPointRef) : List (Reported F) :=
  (points.filter fun pt => (b.objects.get pt.pointId).isNone).map fun pt =>
    ⟨pt.pointId, .unconfigured, .error (.configFault
      ("no BACnet object configured for point " ++ toString pt.pointId.toNat))⟩

def devices (known : List (BitVec 32 × BacnetObject F)) : Finset UInt32 :=
  (known.map fun p => p.2.deviceId).toFinset

def groupOf (known : List (BitVec 32 × BacnetObject F)) (deviceId : UInt32) :
    List (BitVec 32 × BacnetObject F) :=
  known.filter fun p => p.2.deviceId = deviceId

def syncGroups (host : Host) (points : List DriverPointRef) :
    Task (BacnetDriver F) (List (Reported F)) := fun b =>
  let known := b.configured points
  (do
    let groups ← (host.order (devices known)).mapM fun deviceId =>
      syncDevice host deviceId (groupOf known deviceId)
    return b.unconfigured points ++ groups.flatten) b

def syncCur (host : Host) (points : List DriverPointRef) :
    Task (BacnetDriver F) (List (Reported F)) := do
  renewDueSubscriptions host
  syncGroups host points

def writeValue (obj : BacnetObject F) (val : F) : Option BacnetValue :=
  let raw := if FloatOps.eq obj.scale (FloatOps.lit 0 : F) then val
    else (val - obj.offset) / obj.scale
  if obj.objectType ≤ 2 then some (.real (ValueCasts.toF32 raw))
  else if obj.objectType ≤ 5 then
    some (.enumerated (if FloatOps.eq raw (FloatOps.lit 0 : F) then 0 else 1))
  else none

def writePoint (host : Host) (pointId : BitVec 32) (val : F) :
    Task (BacnetDriver F) (BitVec 32 × Except DriverError Unit) := fun b =>
  match b.objects.get pointId with
  | none => some ((pointId, .error (.configFault
      ("no BACnet object configured for point " ++ toString pointId.toNat))), b)
  | some obj =>
    match b.deviceRegistry.get obj.deviceId with
    | none => some ((pointId, .error (.commFault
        ("BACnet device " ++ toString obj.deviceId ++ " not in registry"))), b)
    | some deviceAddr =>
      match writeValue obj val with
      | none => some ((pointId, .error (.configFault
          ("unsupported object type " ++ toString obj.objectType ++ " for write"))), b)
      | some value =>
        (do
          let result ← writeProperty host deviceAddr obj.objectType obj.inst 85 value (some 16)
          return (pointId, result)) b

def write (host : Host) (writes : List (BitVec 32 × F)) :
    Task (BacnetDriver F) (List (BitVec 32 × Except DriverError Unit)) :=
  writes.mapM fun w => writePoint host w.1 w.2

def addSubscription (host : Host) (processId : UInt32) (pointId : BitVec 32)
    (obj : BacnetObject F) : Task (BacnetDriver F) Unit := fun b =>
  let sub : CovSubscription := ⟨pointId, processId, obj.objectType, obj.inst, obj.deviceId,
    some 300, host.clock b.exchanges⟩
  some ((), { b with covSubscriptions := b.covSubscriptions.insert processId sub })

def watchObject (host : Host) (pointId : BitVec 32) (deviceAddr : SocketAddr)
    (obj : BacnetObject F) : Task (BacnetDriver F) Unit := do
  let processId ← allocateProcessId
  let subscribed ← subscribeCov host deviceAddr processId obj.objectType obj.inst false (some 300)
  match subscribed with
  | .ok () => addSubscription host processId pointId obj
  | .error _ => pure ()

def watchPoint (host : Host) (pt : DriverPointRef) : Task (BacnetDriver F) Unit := fun b =>
  if (b.subscriptions host).any fun entry => entry.2.pointId = pt.pointId then some ((), b)
  else
    match b.objects.get pt.pointId with
    | none => some ((), b)
    | some obj =>
      match b.deviceRegistry.get obj.deviceId with
      | none => some ((), b)
      | some deviceAddr => watchObject host pt.pointId deviceAddr obj b

def onWatch (host : Host) (points : List DriverPointRef) : Task (BacnetDriver F) Unit := do
  let _ ← points.mapM (watchPoint host)

/-- Local state is cleared whatever the device answers. -/
def forget (sub : CovSubscription) : Task (BacnetDriver F) Unit := fun b =>
  some ((), { b with
    covSubscriptions := b.covSubscriptions.erase sub.processId
    session := { b.session with
      covCache := b.session.covCache.remove sub.objectType sub.objectInstance } })

def unwatchPoint (host : Host) (pt : DriverPointRef) : Task (BacnetDriver F) Unit := fun b =>
  match (b.subscriptions host).find? fun entry => entry.2.pointId = pt.pointId with
  | none => some ((), b)
  | some (_, sub) =>
    match b.deviceRegistry.get sub.deviceId with
    | none => forget sub b
    | some deviceAddr =>
      (do
        let _ ← unsubscribeCov host deviceAddr sub.processId sub.objectType sub.objectInstance
        forget sub) b

def onUnwatch (host : Host) (points : List DriverPointRef) : Task (BacnetDriver F) Unit := do
  let _ ← points.mapM (unwatchPoint host)

end BacnetDriver

end Driver

namespace BacnetDriver

section Stable

variable {F : Type}

/-- A property that exchanges, changes of the subscriptions and removals from the cache
    keep. -/
structure Stable (host : Host) (I : BacnetDriver F → Prop) : Prop where
  exchanged : ∀ b deviceAddr buildRequest s e, I b →
    b.session.exchange host.net deviceAddr buildRequest 3 = some (s, e) → I { b with session := s }
  subscribed : ∀ b subs next, I b → I { b with covSubscriptions := subs, nextProcessId := next }
  removed : ∀ b objectType inst, I b →
    I { b with session := { b.session with
      covCache := b.session.covCache.remove objectType inst } }

namespace Stable

variable {host : Host} {I : BacnetDriver F → Prop} (h : Stable host I)

include h

theorem keeps_exchange (deviceAddr : SocketAddr) (buildRequest : UInt8 → List UInt8) :
    Keeps I (exchange (F := F) host deviceAddr buildRequest) := by
  intro b e b' hb hexchange
  obtain ⟨⟨s, e'⟩, hs, heq⟩ := Option.map_eq_some_iff.1 hexchange
  cases heq
  exact h.exchanged b _ _ s e' hb hs

theorem keeps_request {α : Type} (otherwise : α) (deviceAddr : SocketAddr)
    (buildRequest : UInt8 → List UInt8) (f : Ended → α) :
    Keeps I (whenConnected (F := F) otherwise do
      let ended ← exchange host deviceAddr buildRequest
      return f ended) := by
  intro b a b' hb hrun
  unfold whenConnected at hrun
  split_ifs at hrun
  · exact keeps_bind (h.keeps_exchange deviceAddr buildRequest) (fun _ => keeps_pure _)
      b a b' hb hrun
  · cases hrun
    exact hb

variable [ValueCasts F]

theorem keeps_writePoint (pointId : BitVec 32) (val : F) :
    Keeps I (writePoint host pointId val) := by
  intro b a b' hb hrun
  unfold writePoint at hrun
  split at hrun
  · cases hrun
    exact hb
  · split at hrun
    · cases hrun
      exact hb
    · split at hrun
      · cases hrun
        exact hb
      · exact keeps_bind (h.keeps_request _ _ _ _) (fun _ => keeps_pure _) b a b' hb hrun

end Stable

/-- A later state of the driver `b₀`: the configuration and the registry are the same. -/
structure Follows (b₀ b : BacnetDriver F) : Prop where
  objects : b.objects = b₀.objects
  deviceRegistry : b.deviceRegistry = b₀.deviceRegistry
  connected : b.connected = b₀.connected
  reachable : b.session.transactions.Reachable
  later : b₀.exchanges ≤ b.exchanges

theorem Follows.refl {b : BacnetDriver F} (h : b.session.transactions.Reachable) : Follows b b :=
  ⟨rfl, rfl, rfl, h, le_rfl⟩

theorem follows_stable (host : Host) (b₀ : BacnetDriver F) : Stable host (Follows b₀) where
  exchanged _ _ _ _ _ hb hs := ⟨hb.objects, hb.deviceRegistry, hb.connected,
    Session.exchange_reachable hb.reachable hs, Session.exchange_later hb.later hs⟩
  subscribed _ _ _ hb := ⟨hb.objects, hb.deviceRegistry, hb.connected, hb.reachable, hb.later⟩
  removed _ _ _ hb := ⟨hb.objects, hb.deviceRegistry, hb.connected, hb.reachable, hb.later⟩

end Stable

end BacnetDriver

end Sandstar.Bacnet
