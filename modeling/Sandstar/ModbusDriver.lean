import Sandstar.ModbusFrames
import Sandstar.Runs

set_option autoImplicit false

/-!
# Requests and answers of the Modbus driver (modbus.rs)

Every request opens a connection of its own and takes what one `read` returns for
its answer. The ids of that answer are not compared with those of the request, and
a byte count that leaves out the register makes the value default to zero.
-/
namespace Sandstar.Modbus
open Decoding Runs SoxProtocol
open Drivers (DriverError DriverPointRef FloatCasts)

class RegisterCasts (F : Type) extends FloatCasts F where
  /-- `x.round().clamp(0.0, u16::MAX as f64) as u16`. -/
  toRegister : F → UInt16

instance : RegisterCasts ℚ where
  toRegister q := UInt16.ofNat (min (q + 1 / 2).floor.toNat 65535)

inductive RegisterType
  | holdingRegister
  | inputRegister
  | coil
  | discreteInput
deriving DecidableEq

namespace RegisterType

def label : RegisterType → String
  | .holdingRegister => "HR"
  | .inputRegister => "IR"
  | .coil => "CO"
  | .discreteInput => "DI"

end RegisterType

structure ModbusRegister (F : Type) where
  address : UInt16
  registerType : RegisterType
  scale : F
  offset : F

namespace ModbusRegister

variable {F : Type} [RegisterCasts F] (reg : ModbusRegister F)

def rawToEng (raw : F) : F := raw * reg.scale + reg.offset

def engToRaw (eng : F) : F :=
  if FloatOps.eq reg.scale (FloatOps.lit 0) then FloatOps.lit 0 else (eng - reg.offset) / reg.scale

def readValue (resp : ModbusFrame) : Except DriverError F :=
  match reg.registerType with
  | .coil | .discreteInput =>
    (resp.parseCoilResponse 1).map fun bits =>
      if bits.head?.getD false then FloatOps.lit 1 else FloatOps.lit 0
  | .holdingRegister | .inputRegister =>
    resp.parseRegisterResponse.map fun regs =>
      reg.rawToEng (FloatCasts.ofCount (regs.head?.getD 0).toNat)

end ModbusRegister

inductive DriverStatus
  | pending
  | ok
  | stale
  | fault (message : String)
  | disabled
  | down
  | syncing
deriving DecidableEq

structure DriverMeta where
  firmwareVersion : Option String
  model : Option String
  extra : Table String String

structure ModbusDriver (F : Type) where
  id : String
  status : DriverStatus
  host : String
  port : UInt16
  slaveId : UInt8
  registerMap : Table (BitVec 32) (ModbusRegister F)
  connected : Bool
  transactionCounter : UInt16

/-- What the host and the slave do with one connection. The lookup may find no
    address; `receive` is the segment that waits when the driver reads, which may
    depend on the bytes sent. -/
structure Exchange where
  lookup : Except String Bool
  connect : Except String Unit
  setReadTimeout : Except String Unit
  send : List UInt8 → Except String Unit
  receive : List UInt8 → Except String (List UInt8)

def Exchange.delivered (x : Exchange) (request : List UInt8) : Option (List UInt8) :=
  match x.lookup, x.connect, x.setReadTimeout, x.send request, x.receive request with
  | .ok true, .ok _, .ok _, .ok _, .ok waiting =>
    if waiting.take 260 = [] then none else some (waiting.take 260)
  | _, _, _, _, _ => none

/-- What goes into a `SyncContext` or a `WriteContext`; `none` is a panic. -/
def reported {B : Type} : Decoder DriverError B → Option (Except DriverError B)
  | .ok b => some (.ok b)
  | .error (.reject e) => some (.error e)
  | .error _ => none

/-- The loop of `sync_cur` and of `write`: one report for each item, up to a panic. -/
def collect {D A B : Type} (one : D → A → D × Decoder DriverError B) (id : A → BitVec 32) :
    D → List A → D × Option (List (BitVec 32 × Except DriverError B))
  | d, [] => (d, some [])
  | d, a :: rest =>
    match reported (one d a).2 with
    | none => ((one d a).1, none)
    | some r =>
      ((collect one id (one d a).1 rest).1,
        (collect one id (one d a).1 rest).2.map ((id a, r) :: ·))

namespace ModbusDriver

variable {F : Type}

def new (id host : String) (port : UInt16) (slaveId : UInt8) : ModbusDriver F :=
  ⟨id, .pending, host, port, slaveId, Table.empty, false, 0⟩

def addRegister (d : ModbusDriver F) (pointId : BitVec 32) (register : ModbusRegister F) :
    ModbusDriver F :=
  { d with registerMap := d.registerMap.insert pointId register }

def addrStr (d : ModbusDriver F) : String := d.host ++ ":" ++ toString d.port

def lost (d : ModbusDriver F) (message : String) : ModbusDriver F :=
  { d with connected := false, status := .fault message }

def nextTxn (d : ModbusDriver F) : ModbusDriver F × UInt16 :=
  ({ d with transactionCounter := d.transactionCounter + 1 }, d.transactionCounter)

def buildReadFrame (d : ModbusDriver F) (reg : ModbusRegister F) : ModbusDriver F × ModbusFrame :=
  let (d', txn) := d.nextTxn
  (d', match reg.registerType with
    | .coil => .readCoils txn d.slaveId reg.address 1
    | .discreteInput => .readDiscreteInputs txn d.slaveId reg.address 1
    | .holdingRegister => .readHoldingRegisters txn d.slaveId reg.address 1
    | .inputRegister => .readInputRegisters txn d.slaveId reg.address 1)

def buildWriteFrame [RegisterCasts F] (d : ModbusDriver F) (reg : ModbusRegister F) (value : F) :
    ModbusDriver F × Except DriverError ModbusFrame :=
  let (d', txn) := d.nextTxn
  (d', match reg.registerType with
    | .coil =>
      .ok (.writeSingleCoil txn d.slaveId reg.address (!FloatOps.eq value (FloatOps.lit 0)))
    | .holdingRegister =>
      .ok (.writeSingleRegister txn d.slaveId reg.address
        (RegisterCasts.toRegister (reg.engToRaw value)))
    | .inputRegister | .discreteInput =>
      .error (.configFault ("register type " ++ reg.registerType.label ++ " at address " ++
        toString reg.address ++ " is read-only")))

def resolve (d : ModbusDriver F) (x : Exchange) : Except DriverError Unit :=
  match x.lookup with
  | .error e => .error (.configFault ("invalid address '" ++ d.addrStr ++ "': " ++ e))
  | .ok false => .error (.configFault ("no addresses for '" ++ d.addrStr ++ "'"))
  | .ok true => .ok ()

def tryConnect (d : ModbusDriver F) (x : Exchange) : ModbusDriver F × Except DriverError Unit :=
  match d.resolve x with
  | .error e => (d, .error e)
  | .ok _ =>
    match x.connect with
    | .ok _ => ({ d with connected := true, status := .ok }, .ok ())
    | .error e =>
      (d.lost ("connect failed: " ++ e),
        .error (.commFault ("failed to connect to " ++ d.addrStr ++ ": " ++ e)))

def transact (d : ModbusDriver F) (frame : ModbusFrame) (x : Exchange) :
    ModbusDriver F × Decoder DriverError ModbusFrame :=
  match d.resolve x with
  | .error e => (d, .error (.reject e))
  | .ok _ =>
    match x.connect with
    | .error e =>
      (d.lost ("connect failed: " ++ e),
        .error (.reject (.commFault ("connect to " ++ d.addrStr ++ ": " ++ e))))
    | .ok _ =>
      match x.setReadTimeout with
      | .error e => (d, .error (.reject (.internal ("set read timeout: " ++ e))))
      | .ok _ =>
        match x.send frame.encode with
        | .error e =>
          (d.lost ("write failed: " ++ e),
            .error (.reject (.commFault ("send to " ++ d.addrStr ++ ": " ++ e))))
        | .ok _ =>
          match x.receive frame.encode with
          | .error e =>
            (d.lost ("read failed: " ++ e),
              .error (.reject (.timeout ("read from " ++ d.addrStr ++ ": " ++ e))))
          | .ok waiting =>
            let buf := waiting.take 260
            if buf = [] then
              ({ d with connected := false },
                .error (.reject (.commFault "connection closed by remote")))
            else (d, ModbusFrame.decode buf)

def metaOf (model : String) : DriverMeta := ⟨none, some model, Table.empty⟩

def describe (d : ModbusDriver F) : String :=
  "Modbus TCP " ++ d.host ++ ":" ++ toString d.port ++ " unit " ++ toString d.slaveId

def openDriver (d : ModbusDriver F) (x : Exchange) : ModbusDriver F × DriverMeta :=
  match d.tryConnect x with
  | (d', .ok _) =>
    ({ d' with status := .ok },
      metaOf (d.describe ++ " (" ++ toString d.registerMap.size ++ " registers)"))
  | (d', .error _) => (d', metaOf (d.describe ++ " (offline)"))

def close (d : ModbusDriver F) : ModbusDriver F := { d with connected := false, status := .down }

def ping (d : ModbusDriver F) (x : Exchange) : ModbusDriver F × Except DriverError DriverMeta :=
  let (d', result) := d.tryConnect x
  (d', result.map fun _ => metaOf d.describe)

def unmapped (pointId : BitVec 32) : DriverError :=
  .configFault ("no register mapping for point " ++ toString pointId.toNat)

section Loops

variable [RegisterCasts F]

def readPoint (d : ModbusDriver F) (p : DriverPointRef × Exchange) :
    ModbusDriver F × Decoder DriverError F :=
  match d.registerMap.get p.1.pointId with
  | none => (d, .error (.reject (unmapped p.1.pointId)))
  | some reg =>
    let (d', frame) := d.buildReadFrame reg
    let (d'', resp) := d'.transact frame p.2
    (d'', resp >>= fun r => (reg.readValue r).mapError .reject)

def syncCur (d : ModbusDriver F) (points : List (DriverPointRef × Exchange)) :
    ModbusDriver F × Option (List (BitVec 32 × Except DriverError F)) :=
  if d.connected then collect readPoint (fun p => p.1.pointId) d points
  else (d, some (points.map fun p => (p.1.pointId, .error (.commFault "not connected"))))

def writePoint (d : ModbusDriver F) (w : BitVec 32 × F × Exchange) :
    ModbusDriver F × Decoder DriverError Unit :=
  match d.registerMap.get w.1 with
  | none => (d, .error (.reject (unmapped w.1)))
  | some reg =>
    match d.buildWriteFrame reg w.2.1 with
    | (d', .error e) => (d', .error (.reject e))
    | (d', .ok frame) =>
      let (d'', resp) := d'.transact frame w.2.2
      (d'', resp >>= fun _ => .ok ())

def write (d : ModbusDriver F) (writes : List (BitVec 32 × F × Exchange)) :
    ModbusDriver F × Option (List (BitVec 32 × Except DriverError Unit)) :=
  if d.connected then collect writePoint Prod.fst d writes
  else (d, some (writes.map fun w => (w.1, .error (.commFault "not connected"))))

end Loops

end ModbusDriver

def RegisterType.width : RegisterType → ℕ
  | .holdingRegister | .inputRegister => 2
  | .coil | .discreteInput => 1

def Covers (t : RegisterType) (data : List UInt8) : Prop :=
  ∃ byteCount payload, data = byteCount :: payload ∧ byteCount.toNat ≤ payload.length ∧
    t.width ≤ byteCount.toNat

structure Matches (t : RegisterType) (request resp : ModbusFrame) : Prop where
  transaction : resp.transactionId = request.transactionId
  unit : resp.unitId = request.unitId
  function : resp.functionCode = request.functionCode
  covers : Covers t resp.data

/-- At the front of the segment stands a whole answer whose byte count is in its
    data, but not one to this request for this register. -/
def Foreign (t : RegisterType) (request : ModbusFrame) (bytes : List UInt8) : Prop :=
  ∃ resp byteCount payload more, bytes = ModbusFrame.encode resp ++ more ∧
    resp.functionCode < 0x80 ∧ resp.data = byteCount :: payload ∧
    byteCount.toNat ≤ payload.length ∧ ¬ Matches t request resp

def Clean (t : RegisterType) (request : ModbusFrame) (bytes : List UInt8) : Prop :=
  ¬ ShortLength bytes ∧ ¬ Foreign t request bytes

namespace ModbusDriver

variable {F : Type} [RegisterCasts F]

def Answered (d : ModbusDriver F) (p : DriverPointRef × Exchange) (v : F) : Prop :=
  ∃ reg bytes resp, d.registerMap.get p.1.pointId = some reg ∧
    p.2.delivered (d.buildReadFrame reg).2.encode = some bytes ∧
    ModbusFrame.decode bytes = .ok resp ∧
    Matches reg.registerType (d.buildReadFrame reg).2 resp ∧ reg.readValue resp = .ok v

def AllAnswered : ModbusDriver F → List (DriverPointRef × Exchange) →
    List (BitVec 32 × Except DriverError F) → Prop
  | _, [], results => results = []
  | d, p :: rest, results => ∃ r tail, results = (p.1.pointId, r) :: tail ∧
    (∀ v, r = .ok v → d.Answered p v) ∧ AllAnswered (d.readPoint p).1 rest tail

def Agrees (d : ModbusDriver F) (points : List (DriverPointRef × Exchange)) : Prop :=
  ∃ results, (d.syncCur points).2 = some results ∧ d.AllAnswered points results

def AllClean : ModbusDriver F → List (DriverPointRef × Exchange) → Prop
  | _, [] => True
  | d, p :: rest =>
    match d.registerMap.get p.1.pointId with
    | none => d.AllClean rest
    | some reg =>
      (∀ bytes, p.2.delivered (d.buildReadFrame reg).2.encode = some bytes →
        Clean reg.registerType (d.buildReadFrame reg).2 bytes) ∧ d.nextTxn.1.AllClean rest

end ModbusDriver

def Accepted (data : List UInt8) : Prop :=
  ∃ byteCount payload, data = byteCount :: payload ∧ byteCount.toNat ≤ payload.length

theorem not_accepted_nil : ¬ Accepted [] := by
  rintro ⟨byteCount, payload, heq, -⟩
  cases heq

theorem accepted_cons {byteCount : UInt8} {payload : List UInt8} :
    Accepted (byteCount :: payload) ↔
      ¬ (byteCount :: payload).length < 1 + byteCount.toNat := by
  rw [List.length_cons]
  constructor
  · rintro ⟨count, rest, heq, hle⟩
    cases heq
    omega
  · intro hlen
    exact ⟨byteCount, payload, rfl, by omega⟩

theorem parseRegisterResponse_cases (resp : ModbusFrame) :
    (Accepted resp.data ∧ ∃ regs, resp.parseRegisterResponse = .ok regs) ∨
      (¬ Accepted resp.data ∧ ∃ e, resp.parseRegisterResponse = .error e) := by
  unfold ModbusFrame.parseRegisterResponse
  rcases resp.data with _ | ⟨byteCount, payload⟩
  · exact Or.inr ⟨not_accepted_nil, _, rfl⟩
  · rw [accepted_cons]
    dsimp only
    split_ifs with hlen
    · exact Or.inr ⟨not_not.2 hlen, _, rfl⟩
    · exact Or.inl ⟨hlen, _, rfl⟩

theorem parseCoilResponse_cases (resp : ModbusFrame) (count : UInt16) :
    (Accepted resp.data ∧ ∃ bits, resp.parseCoilResponse count = .ok bits) ∨
      (¬ Accepted resp.data ∧ ∃ e, resp.parseCoilResponse count = .error e) := by
  unfold ModbusFrame.parseCoilResponse
  rcases resp.data with _ | ⟨byteCount, payload⟩
  · exact Or.inr ⟨not_accepted_nil, _, rfl⟩
  · rw [accepted_cons]
    dsimp only
    split_ifs with hlen
    · exact Or.inr ⟨not_not.2 hlen, _, rfl⟩
    · exact Or.inl ⟨hlen, _, rfl⟩

theorem ModbusRegister.readValue_cases {F : Type} [RegisterCasts F] (reg : ModbusRegister F)
    (resp : ModbusFrame) :
    (Accepted resp.data ∧ ∃ v, reg.readValue resp = .ok v) ∨
      (¬ Accepted resp.data ∧ ∃ e, reg.readValue resp = .error e) := by
  have hcoil := parseCoilResponse_cases resp 1
  have hregister := parseRegisterResponse_cases resp
  unfold readValue
  split
  case h_1 | h_2 =>
    rcases hcoil with ⟨hdata, bits, h⟩ | ⟨hdata, e, h⟩
    · exact Or.inl ⟨hdata, _, by rw [h]; rfl⟩
    · exact Or.inr ⟨hdata, _, by rw [h]; rfl⟩
  case h_3 | h_4 =>
    rcases hregister with ⟨hdata, regs, h⟩ | ⟨hdata, e, h⟩
    · exact Or.inl ⟨hdata, _, by rw [h]; rfl⟩
    · exact Or.inr ⟨hdata, _, by rw [h]; rfl⟩

theorem Exchange.delivered_length {x : Exchange} {request bytes : List UInt8}
    (h : x.delivered request = some bytes) : bytes.length ≤ 260 := by
  unfold Exchange.delivered at h
  split at h
  · split_ifs at h
    cases h
    exact List.length_take_le _ _
  · cases h

theorem clean_iff {t : RegisterType} {request : ModbusFrame} {bytes : List UInt8}
    (hlen : bytes.length ≤ 260) :
    Clean t request bytes ↔ Safe (ModbusFrame.decode bytes) fun resp =>
      Accepted resp.data → Matches t request resp := by
  constructor
  · rintro ⟨hshort, hforeign⟩
    have hsafe := (decode_safe_iff bytes).2 hshort
    cases hdecode : ModbusFrame.decode bytes with
    | error e =>
      rw [hdecode] at hsafe
      cases e with
      | reject e => trivial
      | panic => exact hsafe
      | unfinished => exact hsafe
    | ok resp =>
      rintro ⟨byteCount, payload, hdata, hle⟩
      by_contra hn
      obtain ⟨hfc, more, hbytes⟩ := encode_of_decode hdecode (by rw [hdata]; simp)
      exact hforeign ⟨resp, byteCount, payload, more, hbytes, (functionCode_lt_iff _).1 hfc,
        hdata, hle, hn⟩
  · intro hsafe
    refine ⟨(decode_safe_iff bytes).1 (hsafe.mono fun _ _ => trivial), ?_⟩
    rintro ⟨resp, byteCount, payload, more, rfl, hfc, hdata, hle, hn⟩
    have hsize : resp.data.length ≤ 65533 := by
      simp only [ModbusFrame.encode, List.length_append] at hlen
      omega
    rw [decode_encode hdata hsize, if_neg (fun h => h ((functionCode_lt_iff _).2 hfc))] at hsafe
    exact hn (hsafe ⟨byteCount, payload, hdata, hle⟩)

namespace ModbusDriver

variable {F : Type}

theorem transact_delivered (d : ModbusDriver F) {frame : ModbusFrame} {x : Exchange}
    {bytes : List UInt8} (h : x.delivered frame.encode = some bytes) :
    (d.transact frame x).2 = ModbusFrame.decode bytes := by
  unfold Exchange.delivered at h
  split at h
  · rename_i hlookup hconnect hread hsend hreceive
    split_ifs at h with hempty
    cases h
    simp [transact, resolve, hlookup, hconnect, hread, hsend, hreceive, hempty]
  · cases h

theorem transact_undelivered (d : ModbusDriver F) {frame : ModbusFrame} {x : Exchange}
    (h : x.delivered frame.encode = none) :
    ∃ e, (d.transact frame x).2 = .error (.reject e) := by
  unfold transact resolve
  rcases hlookup : x.lookup with e | _ | _
  · exact ⟨_, rfl⟩
  · exact ⟨_, rfl⟩
  rcases hconnect : x.connect with e | _
  · exact ⟨_, rfl⟩
  rcases hread : x.setReadTimeout with e | _
  · exact ⟨_, rfl⟩
  rcases hsend : x.send frame.encode with e | _
  · exact ⟨_, rfl⟩
  rcases hreceive : x.receive frame.encode with e | waiting
  · exact ⟨_, rfl⟩
  have hempty : waiting.take 260 = [] := by
    simpa [Exchange.delivered, hlookup, hconnect, hread, hsend, hreceive] using h
  simp [hempty]

/-- A request changes what is known about the connection and nothing else. -/
theorem transact_keeps (d : ModbusDriver F) (frame : ModbusFrame) (x : Exchange) :
    ∃ status connected, (d.transact frame x).1 = { d with status, connected } := by
  unfold transact
  dsimp only
  repeat' split
  all_goals exact ⟨_, _, rfl⟩

theorem allClean_connection (d : ModbusDriver F) (status : DriverStatus) (connected : Bool)
    (points : List (DriverPointRef × Exchange)) :
    AllClean { d with status, connected } points ↔ d.AllClean points := by
  induction points generalizing d with
  | nil => exact Iff.rfl
  | cons p rest ih =>
    unfold AllClean
    cases d.registerMap.get p.1.pointId with
    | none => exact ih d
    | some reg => exact and_congr Iff.rfl (ih d.nextTxn.1)

variable [RegisterCasts F]

theorem readPoint_mapped {d : ModbusDriver F} {p : DriverPointRef × Exchange}
    {reg : ModbusRegister F} (hreg : d.registerMap.get p.1.pointId = some reg) :
    (d.readPoint p).2 = ((d.buildReadFrame reg).1.transact (d.buildReadFrame reg).2 p.2).2 >>=
      fun resp => (reg.readValue resp).mapError .reject := by
  simp [readPoint, hreg]

theorem readPoint_safe_iff {d : ModbusDriver F} {p : DriverPointRef × Exchange}
    {reg : ModbusRegister F} (hreg : d.registerMap.get p.1.pointId = some reg) :
    Safe (d.readPoint p).2 (d.Answered p) ↔
      ∀ bytes, p.2.delivered (d.buildReadFrame reg).2.encode = some bytes →
        Clean reg.registerType (d.buildReadFrame reg).2 bytes := by
  rw [readPoint_mapped hreg]
  cases hdel : p.2.delivered (d.buildReadFrame reg).2.encode with
  | none =>
    obtain ⟨e, he⟩ := (d.buildReadFrame reg).1.transact_undelivered hdel
    rw [he]
    exact ⟨fun _ _ => nofun, fun _ => trivial⟩
  | some bytes =>
    rw [transact_delivered _ hdel]
    simp only [Option.some.injEq, forall_eq']
    rw [clean_iff (Exchange.delivered_length hdel)]
    cases hdecode : ModbusFrame.decode bytes with
    | error e =>
      cases e with
      | reject e => exact Iff.rfl
      | panic => exact Iff.rfl
      | unfinished => exact Iff.rfl
    | ok resp =>
      rw [ok_bind]
      rcases reg.readValue_cases resp with ⟨hdata, v, hv⟩ | ⟨hdata, e, he⟩
      · rw [hv]
        constructor
        · rintro ⟨reg', bytes', resp', hreg', hdel', hdecode', hmatch, -⟩ -
          cases hreg.symm.trans hreg'
          cases hdel.symm.trans hdel'
          cases hdecode.symm.trans hdecode'
          exact hmatch
        · intro h
          exact ⟨reg, bytes, resp, hreg, hdel, hdecode, h hdata, hv⟩
      · rw [he]
        exact ⟨fun _ h => absurd h hdata, fun _ => trivial⟩

theorem collect_cons {D A B : Type} (one : D → A → D × Decoder DriverError B)
    (id : A → BitVec 32) (d : D) (a : A) (rest : List A) :
    (collect one id d (a :: rest)).2 = (reported (one d a).2).bind fun r =>
      (collect one id (one d a).1 rest).2.map ((id a, r) :: ·) := by
  rw [collect]
  cases reported (one d a).2 <;> rfl

theorem collect_answered_cons {d : ModbusDriver F} {p : DriverPointRef × Exchange}
    {rest : List (DriverPointRef × Exchange)} :
    (∃ results, (collect readPoint (fun p => p.1.pointId) d (p :: rest)).2 = some results ∧
        d.AllAnswered (p :: rest) results) ↔
      Safe (d.readPoint p).2 (d.Answered p) ∧
        ∃ results, (collect readPoint (fun p => p.1.pointId) (d.readPoint p).1 rest).2 =
          some results ∧ (d.readPoint p).1.AllAnswered rest results := by
  rw [collect_cons]
  cases hread : (d.readPoint p).2 with
  | ok v =>
    simp only [reported, Option.bind_some, Option.map_eq_some_iff, AllAnswered]
    constructor
    · rintro ⟨_, ⟨results, hresults, rfl⟩, r, tail, heq, hvalue, htail⟩
      cases heq
      exact ⟨hvalue v rfl, results, hresults, htail⟩
    · rintro ⟨hvalue, results, hresults, htail⟩
      refine ⟨_, ⟨results, hresults, rfl⟩, _, _, rfl, ?_, htail⟩
      rintro _ ⟨⟩
      exact hvalue
  | error e =>
    cases e with
    | reject e =>
      simp only [reported, Option.bind_some, Option.map_eq_some_iff, AllAnswered]
      constructor
      · rintro ⟨_, ⟨results, hresults, rfl⟩, r, tail, heq, -, htail⟩
        cases heq
        exact ⟨trivial, results, hresults, htail⟩
      · rintro ⟨-, results, hresults, htail⟩
        refine ⟨_, ⟨results, hresults, rfl⟩, _, _, rfl, ?_, htail⟩
        rintro _ ⟨⟩
    | panic => simp [reported, Safe]
    | unfinished => simp [reported, Safe]

theorem readPoint_allClean {d : ModbusDriver F} {p : DriverPointRef × Exchange}
    {reg : ModbusRegister F} (hreg : d.registerMap.get p.1.pointId = some reg)
    (rest : List (DriverPointRef × Exchange)) :
    (d.readPoint p).1.AllClean rest ↔ d.nextTxn.1.AllClean rest := by
  obtain ⟨status, connected, h⟩ := transact_keeps (d.buildReadFrame reg).1
    (d.buildReadFrame reg).2 p.2
  have hstate : (d.readPoint p).1 = { d.nextTxn.1 with status, connected } := by
    simp only [readPoint, hreg]
    exact h
  rw [hstate]
  exact allClean_connection _ _ _ _

theorem collect_answered_iff (d : ModbusDriver F) (points : List (DriverPointRef × Exchange)) :
    (∃ results, (collect readPoint (fun p => p.1.pointId) d points).2 = some results ∧
      d.AllAnswered points results) ↔ d.AllClean points := by
  induction points generalizing d with
  | nil => exact ⟨fun _ => trivial, fun _ => ⟨[], rfl, rfl⟩⟩
  | cons p rest ih =>
    rw [collect_answered_cons, ih]
    cases hreg : d.registerMap.get p.1.pointId with
    | none =>
      have hread : d.readPoint p = (d, .error (.reject (unmapped p.1.pointId))) := by
        simp [readPoint, hreg]
      rw [hread]
      simp [AllClean, hreg, Safe]
    | some reg =>
      rw [readPoint_safe_iff hreg, readPoint_allClean hreg]
      simp only [AllClean, hreg]

theorem disconnected_answered (d : ModbusDriver F) (e : DriverError)
    (points : List (DriverPointRef × Exchange)) :
    d.AllAnswered points (points.map fun p => (p.1.pointId, .error e)) := by
  induction points generalizing d with
  | nil => rfl
  | cons p rest ih =>
    refine ⟨_, _, rfl, ?_, ih _⟩
    rintro _ ⟨⟩

theorem agrees_iff (d : ModbusDriver F) (points : List (DriverPointRef × Exchange)) :
    d.Agrees points ↔ (d.connected = true → d.AllClean points) := by
  unfold Agrees syncCur
  split_ifs with hconnected
  · rw [collect_answered_iff]
    exact ⟨fun h _ => h, fun h => h hconnected⟩
  · exact ⟨fun _ h => absurd h hconnected,
      fun _ => ⟨_, rfl, disconnected_answered d _ points⟩⟩

end ModbusDriver

inductive Op (F : Type)
  | addRegister (pointId : BitVec 32) (register : ModbusRegister F)
  | openDriver (x : Exchange)
  | close
  | ping (x : Exchange)
  | syncCur (points : List (DriverPointRef × Exchange))
  | write (writes : List (BitVec 32 × F × Exchange))

section Run

variable {F : Type} [RegisterCasts F]

/-- `none` is the driver after a panic. -/
def step : Option (ModbusDriver F) → Op F → Option (ModbusDriver F)
  | none, _ => none
  | some d, .addRegister pointId register => some (d.addRegister pointId register)
  | some d, .openDriver x => some (d.openDriver x).1
  | some d, .close => some d.close
  | some d, .ping x => some (d.ping x).1
  | some d, .syncCur points => (d.syncCur points).2.map fun _ => (d.syncCur points).1
  | some d, .write writes => (d.write writes).2.map fun _ => (d.write writes).1

def AgreesAt : Option (ModbusDriver F) → Op F → Prop
  | some d, .syncCur points => d.Agrees points
  | _, _ => True

def CleanAt : Option (ModbusDriver F) → Op F → Prop
  | some d, .syncCur points => d.connected = true → d.AllClean points
  | _, _ => True

theorem agreesAt_iff (s : Option (ModbusDriver F)) (op : Op F) :
    AgreesAt s op ↔ CleanAt s op := by
  cases s with
  | none => exact Iff.rfl
  | some d =>
    cases op with
    | syncCur points => exact d.agrees_iff points
    | _ => exact Iff.rfl

/-- Every sync of a run reports only values from answers to its own requests
    exactly where no segment delivered to it makes `decode` panic or begins with
    a foreign answer. -/
theorem syncs_agree_iff (s : Option (ModbusDriver F)) (ops : List (Op F)) :
    Along step AgreesAt s ops ↔ Along step CleanAt s ops :=
  along_congr step (I := fun _ => True) (fun _ _ _ _ => trivial)
    (fun s op _ _ => agreesAt_iff s op) trivial (along_true step s ops)

end Run

def answering (bytes : List UInt8) : Exchange :=
  ⟨.ok true, .ok (), .ok (), fun _ => .ok (), fun _ => .ok bytes⟩

def silent : Exchange :=
  { answering [] with receive := fun _ => .error "timed out" }

/-- The slave answers the request with id 0 after its time is up, on the connection
    of the request with id 1. -/
theorem late_answer_reported :
    ¬ Along (step (F := ℚ)) AgreesAt (some (.new "ahu" "10.0.0.9" 502 1))
      [.addRegister 7 ⟨0, .holdingRegister, 1, 0⟩, .openDriver (answering []),
        .syncCur [(⟨7, ""⟩, silent)], .ping (answering []),
        .syncCur [(⟨7, ""⟩, answering [0, 0, 0, 0, 0, 5, 1, 3, 2, 0, 42])]] := by
  rintro ⟨-, -, -, -, ⟨results, hresults, r, tail, rfl, hvalue, -⟩, -⟩
  cases hresults
  obtain ⟨reg, bytes, resp, hreg, hdel, hdecode, hmatch, -⟩ := hvalue _ rfl
  cases hreg
  cases hdel
  cases hdecode
  exact absurd hmatch.transaction (by decide)

end Sandstar.Modbus
