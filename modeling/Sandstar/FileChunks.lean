import Sandstar.FileTransfer
import Sandstar.Runs

set_option autoImplicit false

namespace Sandstar.FileTransfer
open SoxProtocol TreeRequests Machine Runs

section Chunk

variable {t : Target}

def chunkEnd (file : SoxFileXfer) (chunk : Chunk) : ℕ :=
  file.offset + chunk.num * file.chunkSize + chunk.data.length

def accept (file : SoxFileXfer) (chunk : Chunk) : SoxFileXfer :=
  { file with
    data := overwrite file.data (file.offset + chunk.num * file.chunkSize) chunk.data,
    chunksReceived := file.chunksReceived + 1 }

/-- Both entry points leave the same transfer, or the same fault. -/
theorem handleFileWriteChunkInner_xfer (t : Target) (xfer : Option SoxFileXfer)
    (payload : List UInt8) (reqId : UInt8) :
    (handleFileWriteChunkInner t xfer payload reqId).map Prod.fst =
      handlePutChunk t xfer payload := by
  unfold handleFileWriteChunkInner handlePutChunk
  cases readChunk payload with
  | error msg => rfl
  | ok chunk =>
    cases xfer with
    | none => rfl
    | some file =>
      dsimp only
      split_ifs
      · rfl
      · cases t.mul chunk.num file.chunkSize with
        | error f => rfl
        | ok product =>
          dsimp only [bind, Except.bind]
          cases t.add file.offset product with
          | error f => rfl
          | ok start =>
            dsimp only
            cases t.add start chunk.data.length with
            | error f => rfl
            | ok stop =>
              dsimp only
              split_ifs
              · rfl
              · cases copyInto file.data start stop chunk.data with
                | error f => rfl
                | ok data =>
                  dsimp only
                  cases t.add file.chunksReceived 1 with
                  | error f => rfl
                  | ok received => rfl

/-- A chunk that ends within the address space is taken if it ends within the
    buffer, and ignored if it does not. -/
theorem handlePutChunk_fits {file : SoxFileXfer} {payload : List UInt8} {chunk : Chunk}
    (hmode : file.mode = .put) (hchunk : readChunk payload = .ok chunk)
    (hend : chunkEnd file chunk ≤ t.usizeMax) :
    handlePutChunk t (some file) payload =
      if file.data.length < chunkEnd file chunk then .ok (some file)
      else (t.add file.chunksReceived 1).map fun received =>
        some { accept file chunk with chunksReceived := received } := by
  unfold chunkEnd at hend ⊢
  unfold handlePutChunk
  rw [hchunk]
  dsimp only
  rw [if_neg (by rw [hmode]; decide), t.mul_fits (by omega)]
  dsimp only [bind, Except.bind]
  rw [t.add_fits (by omega)]
  dsimp only
  rw [t.add_fits hend]
  dsimp only
  split_ifs with hlen
  · rfl
  · rw [copyInto_fits (by omega)]
    dsimp only
    cases t.add file.chunksReceived 1 with
    | error f => rfl
    | ok received => rfl

/-- On a build that checks overflow, a chunk that ends outside the address space faults. -/
theorem handlePutChunk_overflow {file : SoxFileXfer} {payload : List UInt8} {chunk : Chunk}
    (ht : t.profile = .debug) (hmode : file.mode = .put) (hchunk : readChunk payload = .ok chunk)
    (hend : t.usizeMax < chunkEnd file chunk) :
    handlePutChunk t (some file) payload = .error .overflow := by
  unfold chunkEnd at hend
  unfold handlePutChunk
  rw [hchunk]
  dsimp only
  rw [if_neg (by rw [hmode]; decide)]
  by_cases hmul : chunk.num * file.chunkSize ≤ t.usizeMax
  swap
  · rw [Target.mul, Target.settle_overflow ht (by omega)]
    rfl
  rw [t.mul_fits hmul]
  dsimp only [bind, Except.bind]
  by_cases hadd : file.offset + chunk.num * file.chunkSize ≤ t.usizeMax
  swap
  · rw [Target.add, Target.settle_overflow ht (by omega)]
  rw [t.add_fits hadd]
  dsimp only
  rw [Target.add, Target.settle_overflow ht hend]

theorem handlePutChunk_idle {xfer : Option SoxFileXfer} {payload : List UInt8}
    (h : isPutTransferActive xfer = false ∨ ∃ msg, readChunk payload = .error msg) :
    handlePutChunk t xfer payload = .ok xfer := by
  unfold handlePutChunk
  cases hchunk : readChunk payload with
  | error msg => rfl
  | ok chunk =>
    cases xfer with
    | none => rfl
    | some file =>
      rcases h with h | ⟨msg, h⟩
      · have hmode : file.mode ≠ .put := by simpa [isPutTransferActive] using h
        dsimp only
        rw [if_pos hmode]
      · rw [hchunk] at h
        cases h

end Chunk

section Open

variable {t : Target} {S : Type}

def openedGet (o : OpenRequest) (data : List UInt8) : SoxFileXfer :=
  ⟨data, o.chunkSize, .get, none,
    if o.fileSize = 0 then data.length - o.offset else min o.fileSize (data.length - o.offset),
    0, 0, o.offset⟩

def openedPut (o : OpenRequest) (path : String) : SoxFileXfer :=
  ⟨List.replicate o.fileSize 0, o.chunkSize, .put, some path, o.fileSize,
    chunkCount o.fileSize o.chunkSize, 0, o.offset⟩

/-- An open request leaves the transfer alone, or opens one where there was none. -/
theorem handleFileOpen_xfer (sys : FileSystem t S) (s : FileServer S) (req : SoxRequest) :
    (handleFileOpen sys s req).1.xfer = s.xfer ∨
      s.xfer = none ∧
        ((∃ path data, sys.read s.fs path = some data ∧
            (handleFileOpen sys s req).1.xfer =
              some (openedGet (readOpenRequest t req.payload) data)) ∨
          ∃ path, (readOpenRequest t req.payload).fileSize ≤ maxPutSize ∧
            (handleFileOpen sys s req).1.xfer =
              some (openedPut (readOpenRequest t req.payload) path)) := by
  unfold handleFileOpen
  generalize readOpenRequest t req.payload = o
  dsimp only
  cases resolveSoxUri o.uri with
  | error msg => exact .inl rfl
  | ok path =>
    dsimp only
    cases hx : s.xfer with
    | some file => exact .inl hx
    | none =>
      rw [if_neg (by simp)]
      by_cases hget : o.method = "g"
      · rw [if_pos hget]
        cases validateReadPath sys s.fs path with
        | error msg => exact .inl hx
        | ok canonical =>
          dsimp only
          cases hread : sys.read s.fs canonical with
          | none => exact .inl hx
          | some data => exact .inr ⟨rfl, .inl ⟨canonical, data, hread, rfl⟩⟩
      · rw [if_neg hget]
        by_cases hput : o.method = "p"
        · rw [if_pos hput]
          rcases validateWritePath sys s.fs path with ⟨fs, msg | writePath⟩
          · exact .inl rfl
          · dsimp only
            by_cases hbig : maxPutSize < o.fileSize
            · rw [if_pos hbig]
              exact .inl rfl
            · rw [if_neg hbig]
              exact .inr ⟨rfl, .inr ⟨writePath, Nat.le_of_not_lt hbig, rfl⟩⟩
        · rw [if_neg hput]
          exact .inl hx

theorem handleFileClose_xfer (sys : FileSystem t S) (s : FileServer S) (req : SoxRequest) :
    (handleFileClose sys s req).1.xfer = none := by
  unfold handleFileClose
  cases hx : s.xfer with
  | none => exact hx
  | some file =>
    dsimp only
    split_ifs
    · cases file.writePath with
      | none => rfl
      | some path =>
        dsimp only
        rcases sys.write s.fs path file.data with ⟨fs, _ | _⟩ <;> rfl
    · rfl

theorem handleFileRename_xfer (sys : FileSystem t S) (s : FileServer S) (req : SoxRequest) :
    (handleFileRename sys s req).1.xfer = s.xfer := by
  unfold handleFileRename
  dsimp only
  split_ifs
  · rfl
  · split
    · rfl
    · split
      · rfl
      · rcases validateWritePath sys s.fs _ with ⟨fs, msg | source⟩
        · rfl
        · dsimp only
          split_ifs
          · rfl
          · rcases validateWritePath sys fs _ with ⟨fs', msg | dest⟩
            · rfl
            · dsimp only
              rcases sys.rename fs' source dest with ⟨fs'', _ | _⟩ <;> rfl

end Open

section Steps

variable {t : Target} {S : Type}

/-- The payload of a chunk message, whichever way it comes in. -/
def chunkPayload : FileEvent → Option (List UInt8)
  | .putChunk payload => some payload
  | .request req => if req.cmd = .fileWrite then some req.payload else none

/-- A chunk message steps by `handlePutChunk`, whichever way it comes in. -/
theorem fileStep_chunk (sys : FileSystem t S) (s : FileServer S) {e : FileEvent}
    {payload : List UInt8} (h : chunkPayload e = some payload) :
    fileStep sys (.ok s) e =
      (handlePutChunk t s.xfer payload).map fun xfer => { s with xfer := xfer } := by
  cases e with
  | putChunk bytes =>
    cases h
    change Except.bind (Except.bind (handlePutChunk t s.xfer payload) _) _ = _
    cases handlePutChunk t s.xfer payload with
    | error f => rfl
    | ok xfer => rfl
  | request req =>
    by_cases hcmd : req.cmd = .fileWrite
    · simp only [chunkPayload, if_pos hcmd, Option.some.injEq] at h
      subst h
      rw [← handleFileWriteChunkInner_xfer t s.xfer req.payload req.reqId]
      unfold fileStep handleFileEvent handleFileWrite withXfer
      dsimp only [bind, Except.bind]
      rw [hcmd]
      dsimp only
      cases handleFileWriteChunkInner t s.xfer req.payload req.reqId with
      | error f => rfl
      | ok r => rfl
    · simp only [chunkPayload, if_neg hcmd, reduceCtorEq] at h

theorem fileStep_read (sys : FileSystem t S) (s : FileServer S) {req : SoxRequest}
    (h : req.cmd = .fileRead) :
    fileStep sys (.ok s) (.request req) =
      (handleFileRead t s.xfer req).map fun r => { s with xfer := r.1 } := by
  unfold fileStep handleFileEvent withXfer
  dsimp only [bind, Except.bind]
  rw [h]
  dsimp only
  cases handleFileRead t s.xfer req with
  | error f => rfl
  | ok r => rfl

/-- Every other request runs to its end, and opens, closes or leaves the transfer. -/
theorem fileStep_other (sys : FileSystem t S) (s : FileServer S) {e : FileEvent}
    (hchunk : chunkPayload e = none) (hread : ∀ req, e = .request req → req.cmd ≠ .fileRead) :
    ∃ s', fileStep sys (.ok s) e = .ok s' ∧
      ((∃ req, e = .request req ∧ req.cmd = .fileOpen ∧ s' = (handleFileOpen sys s req).1) ∨
        (∃ req, e = .request req ∧ req.cmd = .fileClose ∧ s' = (handleFileClose sys s req).1) ∨
        s'.xfer = s.xfer) := by
  cases e with
  | putChunk payload => cases hchunk
  | request req =>
    have hread' := hread req rfl
    obtain ⟨cmd, reqId, payload⟩ := req
    cases cmd with
    | fileOpen => exact ⟨_, rfl, .inl ⟨_, rfl, rfl, rfl⟩⟩
    | fileClose => exact ⟨_, rfl, .inr (.inl ⟨_, rfl, rfl, rfl⟩)⟩
    | fileRename => exact ⟨_, rfl, .inr (.inr (handleFileRename_xfer sys s _))⟩
    | fileRead => exact absurd rfl hread'
    | fileWrite => cases hchunk
    | _ => exact ⟨s, rfl, .inr (.inr rfl)⟩

end Steps
end Sandstar.FileTransfer
