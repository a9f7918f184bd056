import Sandstar.FilePublishing
import Sandstar.SoxAnswers
import Sandstar.SoxServerLoop
import Sandstar.TreeLookup

set_option autoImplicit false

/-!
# File transfers and invokes of several sessions (sox/mod.rs)

The packets of all sessions, in the order in which the server loop takes them, against
the one transfer there is and the tree. The server does not know who opened the
transfer: `owner` is recorded beside it and decides nothing. What the operating system
answers comes with each packet.
-/
namespace Sandstar.FileSessions
open SoxProtocol SoxSlots TreeRequests FileTransfer Machine

structure Os (t : Target) (S : Type) where
  sys : FileSystem t S
  fs : S

/-- A payload of a live session, or the end of a session by close or timeout. -/
inductive SessionEvent (t : Target) (S : Type)
  | packet (sessionId : UInt16) (payload : List UInt8) (os : Os t S)
  | ending (sessionId : UInt16)

structure Sessions where
  tree : ComponentTree
  xfer : Option SoxFileXfer
  owner : Option UInt16
  ended : Finset UInt16

inductive Effect
  | wrote (path : String) (data : List UInt8)
  | invoked (compId : UInt16) (action target : String) (value : Option SlotValue)
deriving DecidableEq

section Routing

def route (xfer : Option SoxFileXfer) (payload : List UInt8) : Option FileEvent :=
  if 2 ≤ payload.length ∧ payload.head? = some 107 ∧ isPutTransferActive xfer = true then
    some (.putChunk (payload.drop 2))
  else (SoxRequest.parse payload).map .request

def treeAfter (tree : ComponentTree) : FileEvent → ComponentTree
  | .putChunk _ => tree
  | .request req => handleSoxRequest req tree

end Routing

section Effects

def closeWrite (xfer : Option SoxFileXfer) (req : SoxRequest) : Option (String × List UInt8) :=
  match xfer with
  | none => none
  | some file =>
    if req.cmd = .fileClose ∧ file.mode = .put then
      file.writePath.map fun path => (path, file.data)
    else none

def invocation (tree : ComponentTree) (req : SoxRequest) : Effect :=
  let r : SoxReader := ⟨req.payload⟩
  let compId := r.readU16.1.getD 0
  let r := r.readU16.2
  let slotId := r.readU8.1.getD 0
  let r := r.readU8.2
  let slots := ((tree.get compId).map VirtualComponent.slots).getD []
  let action := (slots[slotId.toNat]?.map VirtualSlot.name).getD ""
  let target := invokeTarget slots
  .invoked compId action ((target.map VirtualSlot.name).getD "")
    (invokeValue action ((target.map VirtualSlot.typeId).getD SoxValueType.float.code) r)

def effects (s : Sessions) (sessionId : UInt16) : FileEvent → List (UInt16 × Effect)
  | .putChunk _ => []
  | .request req =>
    (match closeWrite s.xfer req with
      | none => []
      | some (path, data) => [(s.owner.getD sessionId, .wrote path data)]) ++
    (if req.cmd = .invoke then [(sessionId, invocation s.tree req)] else [])

end Effects

section Stepping

variable {t : Target} {S : Type}

def ownerAfter (s : Sessions) (sessionId : UInt16) (xfer : Option SoxFileXfer) : Option UInt16 :=
  if xfer.isNone then none else if s.xfer.isSome then s.owner else some sessionId

/-- One event. The transport drops what an ended session sends; a fault ends them all. -/
def sessionStep (s : Except Fault Sessions) (e : SessionEvent t S) :
    Except Fault Sessions × List (UInt16 × Effect) :=
  match s with
  | .error fault => (.error fault, [])
  | .ok s => match e with
    | .ending sessionId => (.ok { s with ended := insert sessionId s.ended }, [])
    | .packet sessionId payload os =>
      if sessionId ∈ s.ended then (.ok s, [])
      else match route s.xfer payload with
        | none => (.ok s, [])
        | some ev => match fileStep os.sys (.ok ⟨os.fs, s.xfer⟩) ev with
          | .error fault => (.error fault, [])
          | .ok server =>
            (.ok { s with
                tree := treeAfter s.tree ev
                xfer := server.xfer
                owner := ownerAfter s sessionId server.xfer },
              effects s sessionId ev)

def Sessions.start (tree : ComponentTree) : Sessions := ⟨tree, none, none, ∅⟩

end Stepping

section Loop

variable {t : Target} {S : Type}

theorem dispatch_xfer (sys : FileSystem t S) (f64 : SoxReads.F64Ops) (order : List UInt16)
    (req : SoxRequest) (s : SoxDispatch.SoxServer S) (sessionId : UInt16)
    (dynStore : Option DynSlotStore) :
    (SoxDispatch.handleSoxRequestWithDyn sys f64 order req s sessionId dynStore).map
        (fun r => r.1.files) =
      fileStep sys (.ok s.files) (.request req) := by
  have hchunk : ∀ r : XferResult, (SoxDispatch.withChunk s r).map (fun r => r.1.files) =
      (withXfer s.files r).map Prod.fst := by
    intro r
    cases r <;> rfl
  obtain ⟨cmd, reqId, payload⟩ := req
  cases cmd with
  | fileRead =>
    refine (hchunk _).trans ?_
    cases hr : withXfer s.files (handleFileRead t s.files.xfer _) <;>
      simp [fileStep, handleFileEvent, hr, bind, Except.bind, Except.map]
  | fileWrite =>
    refine (hchunk _).trans ?_
    cases hr : withXfer s.files (handleFileWrite t s.files.xfer _) <;>
      simp [fileStep, handleFileEvent, hr, bind, Except.bind, Except.map]
  | _ => rfl

/-- A payload leaves the tree and the transfer that the server loop leaves. -/
theorem handlePayload_sessionStep (sys : FileSystem t S) (f64 : SoxReads.F64Ops)
    (order : List UInt16) (dynStore : DynSlotStore) (sessionId : UInt16) (payload : List UInt8)
    (l : SoxServerLoop.SoxLoop S) {s : Sessions} (hlive : sessionId ∉ s.ended)
    (htree : s.tree = l.server.tree) (hxfer : s.xfer = l.server.files.xfer) :
    (SoxServerLoop.handlePayload sys f64 order dynStore sessionId payload l).map
        (fun l => (l.server.tree, l.server.files.xfer)) =
      (sessionStep (.ok s) (.packet sessionId payload ⟨sys, l.server.files.fs⟩)).1.map
        fun s => (s.tree, s.xfer) := by
  unfold SoxServerLoop.handlePayload sessionStep route
  rw [← hxfer]
  simp only [hlive, if_false]
  by_cases hchunk : 2 ≤ payload.length ∧ payload.head? = some 107 ∧ isPutTransferActive s.xfer = true
  · rw [if_pos hchunk, if_pos hchunk]
    dsimp only
    rw [fileStep_chunk sys _ rfl]
    dsimp only
    cases handlePutChunk t s.xfer (payload.drop 2) with
    | error fault => rfl
    | ok xfer => simp [bind, Except.bind, Except.map, treeAfter, htree]
  · rw [if_neg hchunk, if_neg hchunk]
    cases SoxRequest.parse payload with
    | none => simp [Except.map, htree, hxfer]
    | some req =>
      dsimp only [Option.map_some]
      unfold SoxServerLoop.handleRequest
      have hxfer' := dispatch_xfer sys f64 order req l.server sessionId (some dynStore)
      rw [hxfer, ← hxfer']
      cases hdyn : SoxDispatch.handleSoxRequestWithDyn sys f64 order req l.server sessionId
          (some dynStore) with
      | error fault => rfl
      | ok r =>
        have htree' := SoxDispatch.handleSoxRequestWithDyn_tree hdyn
        simp [bind, Except.bind, Except.map, treeAfter, htree, htree']

end Loop
end Sandstar.FileSessions
