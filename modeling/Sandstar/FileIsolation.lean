import Sandstar.FileSessions
import Sandstar.Unwinding

set_option autoImplicit false

/-!
# Sessions that leave each other's transfer alone

Each session's effects are those of the run in which the others send nothing, as long as
nobody uses a transfer that is not theirs, none outlives its session in the way of an
open, and no sum of a request makes the server panic.
-/
namespace Sandstar.FileSessions
open SoxProtocol SoxSlots TreeRequests FileTransfer Machine Runs Unwinding

section Shapes

def slotShape (s : VirtualSlot) : String × UInt8 × UInt8 := (s.name, s.typeId, s.flags)

def shapeOf (tree : ComponentTree) (id : UInt16) : Option (List (String × UInt8 × UInt8)) :=
  (tree.get id).map fun comp => comp.slots.map slotShape

end Shapes
section Settling

variable {t : Target} {S : Type}

/-- The sums of a request that a build with and one without overflow checks survives. An
    unchecked build wraps around, and then the bounds of the copy must not be crossed. -/
def Settles (t : Target) (file : SoxFileXfer) (e : FileEvent) : Prop :=
  match t.profile with
  | .debug => SafeEvent t file e
  | .release => ∀ payload chunk, file.mode = .put → chunkPayload e = some payload →
      readChunk payload = .ok chunk →
      t.wrap (file.offset + chunk.num * file.chunkSize) + chunk.data.length ≤ t.usizeMax ∨
        file.data.length < t.wrap (chunkEnd file chunk)

structure Held (t : Target) (file : SoxFileXfer) : Prop extends Legal t file where
  half_le : file.mode = .get → 2 * file.data.length ≤ t.usizeMax

theorem handlePutChunk_wraps {file : SoxFileXfer} {payload : List UInt8}
    (ht : t.profile = .release) (hmode : file.mode = .put)
    (hset : ∀ chunk, readChunk payload = .ok chunk →
      t.wrap (file.offset + chunk.num * file.chunkSize) + chunk.data.length ≤ t.usizeMax ∨
        file.data.length < t.wrap (chunkEnd file chunk)) :
    ∃ xfer, handlePutChunk t (some file) payload = .ok xfer := by
  cases hchunk : readChunk payload with
  | error msg => exact ⟨_, handlePutChunk_idle (.inr ⟨msg, hchunk⟩)⟩
  | ok chunk =>
    have hset := hset chunk hchunk
    unfold handlePutChunk
    rw [hchunk]
    dsimp only
    rw [if_neg (by rw [hmode]; decide)]
    simp only [Target.mul, Target.add, Target.settle_release ht, bind, Except.bind, t.wrap_add]
    have hend : t.wrap (t.wrap (file.offset + chunk.num * file.chunkSize) + chunk.data.length) =
        t.wrap (chunkEnd file chunk) := by
      rw [Nat.add_comm, t.wrap_add, Nat.add_comm]
      rfl
    split_ifs with hlen
    · exact ⟨_, rfl⟩
    · have hfits := hset.resolve_right (hend ▸ hlen)
      rw [t.wrap_fits hfits] at hlen ⊢
      rw [copyInto_fits (by omega)]
      exact ⟨_, rfl⟩

theorem handleFileRead_wraps {file : SoxFileXfer} (req : SoxRequest) (hheld : Held t file)
    (ht : t.profile = .release) (hmode : file.mode = .get) :
    ∃ r, handleFileRead t (some file) req = .ok r := by
  have hhalf := hheld.half_le hmode
  have hsize := hheld.chunkSize_le
  have hmax := t.usizeMax_ge
  unfold handleFileRead
  dsimp only
  generalize ((SoxReader.mk req.payload).readU16.1.getD 0) = num
  rw [if_neg (by rw [hmode]; decide), Target.checkedMul,
    if_pos (product_le t num hheld.chunkSize_le)]
  simp only [Target.add, Target.settle_release ht, bind, Except.bind]
  generalize t.wrap (num.toNat * file.chunkSize + file.offset) = start
  generalize t.wrap (file.offset + file.fileSize) = fileEnd
  split_ifs with hstart
  · rw [t.wrap_fits (by omega), slice, if_pos ⟨by omega, by omega⟩]
    exact ⟨_, rfl⟩
  · exact ⟨_, rfl⟩

theorem held_handlePutChunk {xfer xfer' : Option SoxFileXfer} {payload : List UInt8}
    (hheld : ∀ file, xfer = some file → Held t file)
    (h : handlePutChunk t xfer payload = .ok xfer') :
    ∀ file, xfer' = some file → Held t file := by
  cases hput : isPutTransferActive xfer with
  | false =>
    rw [handlePutChunk_idle (.inl hput)] at h
    cases h
    exact hheld
  | true =>
    cases xfer with
    | none => cases hput
    | some file =>
      have hmode : file.mode = .put := by simpa [isPutTransferActive] using hput
      cases hchunk : readChunk payload with
      | error msg =>
        rw [handlePutChunk_idle (.inr ⟨msg, hchunk⟩)] at h
        cases h
        exact hheld
      | ok chunk =>
        obtain ⟨-, -, -, ⟨-, rfl⟩ | ⟨-, data, received, -, -, rfl⟩⟩ :=
          handlePutChunk_outcome hmode hchunk h
        · exact hheld
        · intro other hother
          cases hother
          have hput : file.mode ≠ .get := by
            rw [hmode]
            decide
          exact ⟨⟨(hheld file rfl).chunkSize_le, fun hget => absurd hget hput,
            fun hget => absurd hget hput⟩, fun hget => absurd hget hput⟩

theorem held_handleFileOpen (sys : FileSystem t S) {s : FileServer S} (req : SoxRequest)
    (hheld : ∀ file, s.xfer = some file → Held t file) :
    ∀ file, (handleFileOpen sys s req).1.xfer = some file → Held t file := by
  intro file hfile
  have hlegal := legal_handleFileOpen sys req (fun file h => (hheld file h).toLegal) file hfile
  obtain hsame | ⟨-, ⟨path, data, hread, hopened⟩ | ⟨path, -, hopened⟩⟩ :=
    handleFileOpen_xfer sys s req
  · exact hheld file (hsame.symm.trans hfile)
  · rw [hopened] at hfile
    cases hfile
    exact ⟨hlegal, fun _ => sys.read_length s.fs path data hread⟩
  · rw [hopened] at hfile
    cases hfile
    exact ⟨hlegal, fun hget => absurd hget (by decide : SoxFileXferMode.put ≠ .get)⟩

theorem fileStep_settles (sys : FileSystem t S) {s : FileServer S} {e : FileEvent}
    (hheld : ∀ file, s.xfer = some file → Held t file)
    (hset : ∀ file, s.xfer = some file → Settles t file e) :
    ∃ s', fileStep sys (.ok s) e = .ok s' := by
  cases ht : t.profile with
  | debug =>
    have hsafe : SafeStep t (.ok s) e := by
      intro server hserver file hfile
      cases hserver
      have hfile := hset file hfile
      rw [Settles, ht] at hfile
      exact hfile
    obtain ⟨s', hs', -⟩ :=
      running_fileStep sys (.ok s) e ⟨s, rfl, fun file h => (hheld file h).toLegal⟩ hsafe
    exact ⟨s', hs'⟩
  | release =>
    have hset : ∀ file, s.xfer = some file → ∀ payload chunk, file.mode = .put →
        chunkPayload e = some payload → readChunk payload = .ok chunk →
        t.wrap (file.offset + chunk.num * file.chunkSize) + chunk.data.length ≤ t.usizeMax ∨
          file.data.length < t.wrap (chunkEnd file chunk) := by
      intro file hfile
      have hfile := hset file hfile
      rw [Settles, ht] at hfile
      exact hfile
    cases hchunk : chunkPayload e with
    | some payload =>
      rw [fileStep_chunk sys s hchunk]
      have hok : ∃ xfer, handlePutChunk t s.xfer payload = .ok xfer := by
        cases hput : isPutTransferActive s.xfer with
        | false => exact ⟨_, handlePutChunk_idle (.inl hput)⟩
        | true =>
          cases hx : s.xfer with
          | none =>
            rw [hx] at hput
            cases hput
          | some file =>
            have hmode : file.mode = .put := by simpa [hx, isPutTransferActive] using hput
            exact handlePutChunk_wraps ht hmode fun chunk =>
              hset file hx payload chunk hmode hchunk
      obtain ⟨xfer, hxfer⟩ := hok
      rw [hxfer]
      exact ⟨_, rfl⟩
    | none =>
      by_cases hread : ∃ req, e = .request req ∧ req.cmd = .fileRead
      · obtain ⟨req, rfl, hcmd⟩ := hread
        rw [fileStep_read sys s hcmd]
        have hok : ∃ r, handleFileRead t s.xfer req = .ok r := by
          cases hx : s.xfer with
          | none => exact ⟨_, rfl⟩
          | some file =>
            cases hmode : file.mode with
            | get => exact handleFileRead_wraps req (hheld file hx) ht hmode
            | put =>
              have hput : ∀ other, some file = some other → other.mode = .put := by
                intro other hother
                cases hother
                exact hmode
              obtain ⟨resp, hresp⟩ := handleFileRead_idle (t := t) req hput
              exact ⟨_, hresp⟩
        obtain ⟨r, hr⟩ := hok
        rw [hr]
        exact ⟨_, rfl⟩
      · obtain ⟨s', hs', -⟩ :=
          fileStep_other sys s hchunk fun req he hcmd => hread ⟨req, he, hcmd⟩
        exact ⟨s', hs'⟩

theorem held_fileStep {sys : FileSystem t S} {s s' : FileServer S} {e : FileEvent}
    (hheld : ∀ file, s.xfer = some file → Held t file) (h : fileStep sys (.ok s) e = .ok s') :
    ∀ file, s'.xfer = some file → Held t file := by
  cases hchunk : chunkPayload e with
  | some payload =>
    rw [fileStep_chunk sys s hchunk] at h
    obtain ⟨xfer, hxfer, rfl⟩ := map_ok h
    exact held_handlePutChunk hheld hxfer
  | none =>
    obtain ⟨req, -, -, rfl⟩ | ⟨req, -, -, rfl⟩ | hsame := fileStep_cases hchunk h
    · exact held_handleFileOpen sys req hheld
    · intro file hfile
      rw [handleFileClose_xfer] at hfile
      cases hfile
    · rw [hsame]
      exact hheld

end Settling
section Conditions

variable {t : Target} {S : Type}

def fileOrInvoke : List SoxCmd :=
  [.fileOpen, .fileRead, .fileWrite, .fileClose, .fileRename, .invoke]

def InScope : SessionEvent t S → Prop
  | .packet _ payload _ => ∀ req, SoxRequest.parse payload = some req → req.cmd ∈ fileOrInvoke
  | .ending _ => True

def opens (os : Os t S) (req : SoxRequest) : Bool :=
  (handleFileOpen os.sys ⟨os.fs, none⟩ req).1.xfer.isSome

def refused (s : Except Fault Sessions) (e : SessionEvent t S) : Bool :=
  match s, e with
  | .ok s, .packet sessionId payload os => match route s.xfer payload with
    | some (.request req) =>
      (req.cmd = .fileOpen ∧ (handleFileOpen os.sys ⟨os.fs, s.xfer⟩ req).2 = errorMsg req "busy") &&
        s.owner.any fun owner => owner ≠ sessionId ∧ owner ∉ s.ended
    | _ => false
  | _, _ => false

/-- A request that does nothing to another session's transfer, and that is not in the
    way of it: an open is not held up by a session that has ended. -/
def Spares (s : Sessions) (os : Os t S) (file : SoxFileXfer) : FileEvent → Prop
  | .putChunk _ => False
  | .request req => req.cmd ≠ .fileClose ∧ (req.cmd = .fileWrite → file.mode = .get) ∧
      (req.cmd = .fileOpen → (s.owner.any fun owner => owner ∉ s.ended) = true ∨ opens os req = false)

def Considerate (s : Except Fault Sessions) (e : SessionEvent t S) : Prop :=
  ∀ now, s = .ok now → match e with
    | .ending _ => True
    | .packet sessionId payload os => sessionId ∉ now.ended → ∀ file ev, now.xfer = some file →
        route now.xfer payload = some ev →
        Settles t file ev ∧ (now.owner ≠ some sessionId → Spares now os file ev)

end Conditions

section Steps

variable {t : Target} {S : Type}

end Steps

section Isolation

variable {t : Target} {S : Type} {x : UInt16}

/-- The full run beside the run in which `x` is alone. -/
structure Alone (t : Target) (x : UInt16) (a b : Sessions) : Prop where
  owned : a.owner.isSome = a.xfer.isSome
  held : ∀ file, a.xfer = some file → Held t file
  own : a.owner = some x → b.xfer = a.xfer ∧ b.owner = a.owner
  idle : a.owner ≠ some x → b.xfer = none ∧ b.owner = none
  ended_iff : x ∈ b.ended ↔ x ∈ a.ended
  shape_eq : ∀ id, shapeOf b.tree id = shapeOf a.tree id

def Foreign (s : Sessions) (k : UInt16) : Prop := s.xfer.isSome ∧ s.owner ≠ some k

theorem Alone.settled {a b : Sessions} {k : UInt16} {payload : List UInt8} {os : Os t S}
    {ev : FileEvent} (h : Alone t x a b)
    (hok : Considerate (.ok a) (.packet k payload os)) (hlive : k ∉ a.ended)
    (hroute : route a.xfer payload = some ev) :
    ∃ server, fileStep os.sys (.ok ⟨os.fs, a.xfer⟩) ev = .ok server ∧
      ∀ file, server.xfer = some file → Held t file := by
  obtain ⟨server, hserver⟩ := fileStep_settles os.sys (s := ⟨os.fs, a.xfer⟩) h.held
    fun file hx => (hok a rfl hlive file ev hx hroute).1
  exact ⟨server, hserver, held_fileStep (s := ⟨os.fs, a.xfer⟩) h.held hserver⟩

end Isolation

section Runs

def sentOn (disk : Disk) (sessionId : UInt16) (payload : List UInt8) :
    SessionEvent ⟨.bits64, .debug⟩ Disk :=
  .packet sessionId payload ⟨diskFileSystem _, disk⟩

def transferOf (s : Except Fault Sessions) :
    Option (Option SoxFileXfer × Option UInt16 × Finset UInt16) :=
  s.toOption.map fun s => (s.xfer, s.owner, s.ended)

theorem considerate_of {s : Except Fault Sessions} {disk : Disk} {k : UInt16} {payload : List UInt8}
    (xfer : Option SoxFileXfer) (owner : Option UInt16) (ended : Finset UInt16)
    (hs : transferOf s = some (xfer, owner, ended))
    (h : ∀ file ev, xfer = some file → route xfer payload = some ev →
      Settles ⟨.bits64, .debug⟩ file ev ∧ (owner = some k ∨ ∀ tree,
        Spares ⟨tree, xfer, owner, ended⟩ ⟨diskFileSystem ⟨.bits64, .debug⟩, disk⟩ file ev)) :
    Considerate s (sentOn disk k payload) := by
  intro now hnow _ file ev hx hroute
  rw [hnow] at hs
  obtain ⟨tree, xfer', owner', ended'⟩ := now
  cases hs
  obtain ⟨hset, hspare⟩ := h file ev hx hroute
  exact ⟨hset, fun hne => hspare.resolve_left hne tree⟩

def putFile (path : String) (data : List UInt8) (received : ℕ) : SoxFileXfer :=
  ⟨data, 1, .put, some path, 1, 1, received, 0⟩

theorem considerate_own {s : Except Fault Sessions} {disk : Disk} {k : UInt16} (path : String)
    (byte : UInt8) :
    (transferOf s = some (some (putFile path [0] 0), some k, ∅) →
      Considerate s (sentOn disk k [107, 2, 0, 0, 0, 1, byte])) ∧
    (transferOf s = some (some (putFile path [byte] 1), some k, ∅) →
      Considerate s (sentOn disk k [122, 3])) := by
  constructor
  · intro hs
    refine considerate_of _ _ _ hs fun file ev hx hroute => ?_
    cases hx
    cases hroute
    exact ⟨(by decide : 1 ≤ 2 ^ 64 - 1 ∧ (1 ≤ 1 → 0 + 1 ≤ 2 ^ 64 - 1)), .inl rfl⟩
  · intro hs
    refine considerate_of _ _ _ hs fun file ev hx hroute => ?_
    cases hx
    cases hroute
    exact ⟨fun h => absurd h (by decide), .inl rfl⟩

end Runs
end Sandstar.FileSessions
