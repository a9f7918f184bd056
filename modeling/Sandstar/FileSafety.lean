import Sandstar.FileChunks

set_option autoImplicit false

namespace Sandstar.FileTransfer
open SoxProtocol TreeRequests Machine Runs Utf8

variable {t : Target} {S : Type}

structure Legal (t : Target) (file : SoxFileXfer) : Prop where
  chunkSize_le : file.chunkSize ≤ 65535
  data_le : file.mode = .get → file.data.length ≤ t.usizeMax
  fileSize_le : file.mode = .get → file.fileSize ≤ file.data.length - file.offset

def SafeEvent (t : Target) (file : SoxFileXfer) (e : FileEvent) : Prop :=
  match file.mode, e with
  | .put, .putChunk payload => SafeChunk file payload
  | .put, .request req => req.cmd = .fileWrite → SafeChunk file req.payload
  | .get, .request req => req.cmd = .fileRead →
      ((SoxReader.mk req.payload).readU16.1.getD 0).toNat * file.chunkSize + file.offset +
        file.chunkSize ≤ t.usizeMax
  | .get, .putChunk _ => True
where
  SafeChunk (file : SoxFileXfer) (payload : List UInt8) : Prop :=
    match readChunk payload with
    | .error _ => True
    | .ok chunk => chunkEnd file chunk ≤ t.usizeMax ∧
        (chunkEnd file chunk ≤ file.data.length → file.chunksReceived + 1 ≤ t.usizeMax)

/-- The condition on one step: it is about the open transfer and the request only. -/
def SafeStep (t : Target) (s : Except Fault (FileServer S)) (e : FileEvent) : Prop :=
  ∀ server, s = .ok server → ∀ file, server.xfer = some file → SafeEvent t file e

def Running (t : Target) (s : Except Fault (FileServer S)) : Prop :=
  ∃ server, s = .ok server ∧ ∀ file, server.xfer = some file → Legal t file

section Opening

theorem readOpenRequest_chunkSize_le (t : Target) (payload : List UInt8) :
    (readOpenRequest t payload).chunkSize ≤ 65535 := by
  unfold readOpenRequest
  dsimp only
  split_ifs
  · decide
  · split
    · exact Nat.le_of_lt_succ (UInt16.toNat_lt _)
    · decide

theorem readOpenRequest_chunkSize_pos (t : Target) (payload : List UInt8) :
    0 < (readOpenRequest t payload).chunkSize := by
  unfold readOpenRequest
  dsimp only
  split_ifs with hzero
  · decide
  · exact Nat.pos_of_ne_zero hzero

theorem legal_openedGet (sys : FileSystem t S) {fs : S} {path : String} {data : List UInt8}
    (payload : List UInt8) (hread : sys.read fs path = some data) :
    Legal t (openedGet (readOpenRequest t payload) data) where
  chunkSize_le := readOpenRequest_chunkSize_le t payload
  data_le _ := by
    have hlen := sys.read_length fs path data hread
    change data.length ≤ t.usizeMax
    omega
  fileSize_le _ := by
    dsimp only [openedGet]
    split_ifs
    · exact le_refl _
    · exact Nat.min_le_right _ _

theorem legal_openedPut (payload : List UInt8) (path : String) :
    Legal t (openedPut (readOpenRequest t payload) path) where
  chunkSize_le := readOpenRequest_chunkSize_le t payload
  data_le h := by cases h
  fileSize_le h := by cases h

theorem legal_handleFileOpen (sys : FileSystem t S) {s : FileServer S} (req : SoxRequest)
    (hs : ∀ file, s.xfer = some file → Legal t file) :
    ∀ file, (handleFileOpen sys s req).1.xfer = some file → Legal t file := by
  intro file hfile
  obtain hx | ⟨-, ⟨path, data, hread, hx⟩ | ⟨path, -, hx⟩⟩ := handleFileOpen_xfer sys s req
  · exact hs file (hx.symm.trans hfile)
  · rw [hx] at hfile
    cases hfile
    exact legal_openedGet sys req.payload hread
  · rw [hx] at hfile
    cases hfile
    exact legal_openedPut req.payload path

end Opening

section Reading

theorem product_le (t : Target) (num : UInt16) {size : ℕ} (h : size ≤ 65535) :
    num.toNat * size ≤ t.usizeMax := by
  have hnum : num.toNat ≤ 65535 := Nat.le_of_lt_succ num.toNat_lt
  calc
    num.toNat * size ≤ 65535 * 65535 := Nat.mul_le_mul hnum h
    _ ≤ 2 ^ 32 - 1 := by decide
    _ ≤ t.usizeMax := t.usizeMax_ge

/-- A chunk that is read within the address space is sliced within the file. -/
theorem handleFileRead_fits {file : SoxFileXfer} {req : SoxRequest} (hlegal : Legal t file)
    (hmode : file.mode = .get)
    (hend : ((SoxReader.mk req.payload).readU16.1.getD 0).toNat * file.chunkSize + file.offset +
      file.chunkSize ≤ t.usizeMax) :
    ∃ resp, handleFileRead t (some file) req = .ok (some file, resp) := by
  have hsize := hlegal.fileSize_le hmode
  have hdata := hlegal.data_le hmode
  unfold handleFileRead
  dsimp only
  revert hend
  generalize ((SoxReader.mk req.payload).readU16.1.getD 0) = num
  intro hend
  rw [if_neg (by rw [hmode]; decide), Target.checkedMul,
    if_pos (product_le t num hlegal.chunkSize_le)]
  dsimp only
  rw [t.add_fits (by omega)]
  dsimp only [bind, Except.bind]
  rw [t.add_fits (by omega)]
  dsimp only
  rw [t.add_fits (by omega)]
  dsimp only
  split_ifs with hstart
  · have hslice : ∃ bytes, slice file.data (num.toNat * file.chunkSize + file.offset)
        (min (min (num.toNat * file.chunkSize + file.offset + file.chunkSize)
          (file.offset + file.fileSize)) file.data.length) = .ok bytes :=
      ⟨_, if_pos ⟨by omega, by omega⟩⟩
    obtain ⟨bytes, hbytes⟩ := hslice
    rw [hbytes]
    exact ⟨_, rfl⟩
  · exact ⟨_, rfl⟩

theorem handleFileRead_overflow {file : SoxFileXfer} {req : SoxRequest} (hlegal : Legal t file)
    (ht : t.profile = .debug) (hmode : file.mode = .get)
    (hend : t.usizeMax < ((SoxReader.mk req.payload).readU16.1.getD 0).toNat * file.chunkSize +
      file.offset + file.chunkSize) :
    handleFileRead t (some file) req = .error .overflow := by
  unfold handleFileRead
  dsimp only
  revert hend
  generalize ((SoxReader.mk req.payload).readU16.1.getD 0) = num
  intro hend
  rw [if_neg (by rw [hmode]; decide), Target.checkedMul,
    if_pos (product_le t num hlegal.chunkSize_le)]
  dsimp only
  by_cases hadd : num.toNat * file.chunkSize + file.offset ≤ t.usizeMax
  · rw [t.add_fits hadd]
    dsimp only [bind, Except.bind]
    rw [Target.add, Target.settle_overflow ht hend]
  · rw [Target.add, Target.settle_overflow ht (by omega)]
    rfl

theorem handleFileRead_idle {xfer : Option SoxFileXfer} (req : SoxRequest)
    (h : ∀ file, xfer = some file → file.mode = .put) :
    ∃ resp, handleFileRead t xfer req = .ok (xfer, resp) := by
  unfold handleFileRead
  cases xfer with
  | none => exact ⟨_, rfl⟩
  | some file =>
    dsimp only
    rw [if_pos (by rw [h file rfl]; decide)]
    exact ⟨_, rfl⟩

end Reading

section Stepping

/-- A chunk written within the address space keeps the transfer legal. -/
theorem handlePutChunk_safe {file : SoxFileXfer} {payload : List UInt8} (hlegal : Legal t file)
    (hmode : file.mode = .put) (hsafe : SafeEvent.SafeChunk t file payload) :
    ∃ file', handlePutChunk t (some file) payload = .ok (some file') ∧ Legal t file' := by
  unfold SafeEvent.SafeChunk at hsafe
  cases hchunk : readChunk payload with
  | error msg => exact ⟨file, handlePutChunk_idle (.inr ⟨msg, hchunk⟩), hlegal⟩
  | ok chunk =>
    rw [hchunk] at hsafe
    rw [handlePutChunk_fits hmode hchunk hsafe.1]
    by_cases hlen : file.data.length < chunkEnd file chunk
    · rw [if_pos hlen]
      exact ⟨file, rfl, hlegal⟩
    · rw [if_neg hlen, t.add_fits (hsafe.2 (Nat.le_of_not_lt hlen))]
      refine ⟨_, rfl, ⟨hlegal.chunkSize_le, ?_, ?_⟩⟩
      · intro hget
        cases hmode.symm.trans hget
      · intro hget
        cases hmode.symm.trans hget

theorem handlePutChunk_faults {file : SoxFileXfer} {payload : List UInt8}
    (ht : t.profile = .debug) (hmode : file.mode = .put)
    (hbad : ¬ SafeEvent.SafeChunk t file payload) :
    handlePutChunk t (some file) payload = .error .overflow := by
  unfold SafeEvent.SafeChunk at hbad
  cases hchunk : readChunk payload with
  | error msg =>
    rw [hchunk] at hbad
    exact absurd trivial hbad
  | ok chunk =>
    rw [hchunk] at hbad
    by_cases hend : chunkEnd file chunk ≤ t.usizeMax
    · have hfull : chunkEnd file chunk ≤ file.data.length ∧
          t.usizeMax < file.chunksReceived + 1 := by
        by_contra hn
        exact hbad ⟨hend, fun hlen => Nat.le_of_not_lt fun hlt => hn ⟨hlen, hlt⟩⟩
      rw [handlePutChunk_fits hmode hchunk hend, if_neg (by omega), Target.add,
        Target.settle_overflow ht hfull.2]
      rfl
    · exact handlePutChunk_overflow ht hmode hchunk (by omega)

theorem safeEvent_chunk {file : SoxFileXfer} {e : FileEvent} {payload : List UInt8}
    (hmode : file.mode = .put) (he : chunkPayload e = some payload) :
    SafeEvent t file e ↔ SafeEvent.SafeChunk t file payload := by
  unfold SafeEvent
  rw [hmode]
  cases e with
  | putChunk bytes =>
    cases he
    exact Iff.rfl
  | request req =>
    by_cases hcmd : req.cmd = .fileWrite
    · simp only [chunkPayload, if_pos hcmd, Option.some.injEq] at he
      subst he
      exact ⟨fun h => h hcmd, fun h _ => h⟩
    · simp only [chunkPayload, if_neg hcmd, reduceCtorEq] at he

theorem fileStep_safe_chunk (sys : FileSystem t S) {s : FileServer S} {e : FileEvent}
    {payload : List UInt8} (hs : ∀ file, s.xfer = some file → Legal t file)
    (he : chunkPayload e = some payload) (hsafe : SafeStep t (.ok s) e) :
    Running t (fileStep sys (.ok s) e) := by
  rw [fileStep_chunk sys s he]
  by_cases hput : isPutTransferActive s.xfer = true
  · cases hx : s.xfer with
    | none => simp only [hx, isPutTransferActive, Bool.false_eq_true] at hput
    | some file =>
      have hmode : file.mode = .put := by simpa [hx, isPutTransferActive] using hput
      have hchunk := (safeEvent_chunk hmode he).1 (hsafe s rfl file hx)
      obtain ⟨file', hfile', hlegal'⟩ := handlePutChunk_safe (hs file hx) hmode hchunk
      rw [hfile']
      refine ⟨_, rfl, ?_⟩
      intro other hother
      cases hother
      exact hlegal'
  · rw [handlePutChunk_idle (.inl (by simpa using hput))]
    exact ⟨_, rfl, hs⟩

theorem fileStep_safe_read (sys : FileSystem t S) {s : FileServer S} {req : SoxRequest}
    (hs : ∀ file, s.xfer = some file → Legal t file) (hcmd : req.cmd = .fileRead)
    (hsafe : SafeStep t (.ok s) (.request req)) :
    Running t (fileStep sys (.ok s) (.request req)) := by
  rw [fileStep_read sys s hcmd]
  have hread : ∃ resp, handleFileRead t s.xfer req = .ok (s.xfer, resp) := by
    by_cases hput : ∀ file, s.xfer = some file → file.mode = .put
    · exact handleFileRead_idle req hput
    · push Not at hput
      obtain ⟨file, hx, hmode⟩ := hput
      have hget : file.mode = .get := by
        cases hm : file.mode with
        | get => rfl
        | put => exact absurd hm hmode
      have hend := hsafe s rfl file hx
      simp only [SafeEvent, hget] at hend
      rw [hx]
      exact handleFileRead_fits (hs file hx) hget (hend hcmd)
  obtain ⟨resp, hresp⟩ := hread
  rw [hresp]
  exact ⟨_, rfl, hs⟩

/-- One safe request keeps the server running. -/
theorem running_fileStep (sys : FileSystem t S) (s : Except Fault (FileServer S)) (e : FileEvent)
    (hs : Running t s) (hsafe : SafeStep t s e) : Running t (fileStep sys s e) := by
  obtain ⟨server, rfl, hlegal⟩ := hs
  cases hchunk : chunkPayload e with
  | some payload => exact fileStep_safe_chunk sys hlegal hchunk hsafe
  | none =>
    by_cases hread : ∃ req, e = .request req ∧ req.cmd = .fileRead
    · obtain ⟨req, rfl, hcmd⟩ := hread
      exact fileStep_safe_read sys hlegal hcmd hsafe
    · obtain ⟨server', hstep, hcase⟩ :=
        fileStep_other sys server hchunk fun req he hcmd => hread ⟨req, he, hcmd⟩
      refine ⟨server', hstep, ?_⟩
      obtain ⟨req, -, -, rfl⟩ | ⟨req, -, -, rfl⟩ | hx := hcase
      · exact legal_handleFileOpen sys req hlegal
      · intro file hfile
        rw [handleFileClose_xfer] at hfile
        cases hfile
      · rw [hx]
        exact hlegal

/-- On a build that checks overflow, a request that is not safe faults. -/
theorem fileStep_overflows (sys : FileSystem t S) (ht : t.profile = .debug)
    (s : Except Fault (FileServer S)) (e : FileEvent) (hs : Running t s)
    (hbad : ¬ SafeStep t s e) : fileStep sys s e = .error .overflow := by
  obtain ⟨server, rfl, hlegal⟩ := hs
  unfold SafeStep at hbad
  push Not at hbad
  obtain ⟨server', hserver, file, hx, hevent⟩ := hbad
  cases hserver
  cases hmode : file.mode with
  | put =>
    cases hchunk : chunkPayload e with
    | some payload =>
      have hbad := mt (safeEvent_chunk hmode hchunk).2 hevent
      rw [fileStep_chunk sys server hchunk, hx, handlePutChunk_faults ht hmode hbad]
      rfl
    | none =>
      -- only chunk messages have a condition during a PUT
      exfalso
      apply hevent
      unfold SafeEvent
      rw [hmode]
      cases e with
      | putChunk payload => cases hchunk
      | request req =>
        intro hcmd
        simp only [chunkPayload, if_pos hcmd, reduceCtorEq] at hchunk
  | get =>
    unfold SafeEvent at hevent
    rw [hmode] at hevent
    cases e with
    | putChunk payload => exact absurd trivial hevent
    | request req =>
      dsimp only at hevent
      push Not at hevent
      rw [fileStep_read sys server hevent.1, hx,
        handleFileRead_overflow (hlegal file hx) ht hmode hevent.2]
      rfl

end Stepping

section Safety

theorem running_start (t : Target) (fs : S) : Running t (.ok ⟨fs, none⟩ : Except Fault _) := by
  refine ⟨⟨fs, none⟩, rfl, ?_⟩
  intro file hfile
  cases hfile

/-- No request of a run faults, on any build, when every request is safe; and on
    a build that checks overflow, which faults on the first sum or product to
    leave the address space and on the first bad slice, only then. -/
theorem fileRun_faultless_iff_safe (sys : FileSystem t S) (fs : S) (es : List FileEvent) :
    (Along (fileStep sys) (SafeStep t) (.ok ⟨fs, none⟩) es →
      ∀ s ∈ states (fileStep sys) (.ok ⟨fs, none⟩) es, ∃ server, s = .ok server) ∧
    (t.profile = .debug →
      ((∀ s ∈ states (fileStep sys) (.ok ⟨fs, none⟩) es, ∃ server, s = .ok server) ↔
        Along (fileStep sys) (SafeStep t) (.ok ⟨fs, none⟩) es)) := by
  constructor
  · intro hsafe s hs
    obtain ⟨server, hserver, -⟩ :=
      states_invariant (fileStep sys) (running_fileStep sys) (running_start t fs) hsafe s hs
    exact ⟨server, hserver⟩
  · intro ht
    refine states_iff_along (fileStep sys) ?_ (running_fileStep sys) ?_ (running_start t fs)
    · rintro s ⟨server, hserver, -⟩
      exact ⟨server, hserver⟩
    · rintro s e hs hbad ⟨server, hserver⟩
      rw [fileStep_overflows sys ht s e hs hbad] at hserver
      cases hserver

/-- A small disk with the directories the server uses, for runs on given input. -/
abbrev Disk := List (String × List UInt8)

def Disk.put (disk : Disk) (path : String) (data : List UInt8) : Disk :=
  (path, data) :: disk.filter fun file => file.1 ≠ path

def diskDirs : List String := ["/tmp", manifestsDir, kitsBaseDir]

def diskFileSystem (t : Target) : FileSystem t Disk where
  canonicalize disk path :=
    if path ∈ diskDirs ∨ (disk.lookup path).isSome then some path else none
  pathExists disk path := decide (path ∈ diskDirs) || (disk.lookup path).isSome
  createDirAll disk _ := (disk, false)
  read disk path := (disk.lookup path).filter fun data => 2 * data.length ≤ t.usizeMax
  write disk path data := (disk.put path data, true)
  rename disk source dest :=
    match disk.lookup source with
    | some data => (Disk.put (disk.filter fun file => file.1 ≠ source) dest data, true)
    | none => (disk, false)
  tempDir := "/tmp"
  read_length disk path data h := by
    have hlen := (Option.filter_eq_some_iff.1 h).2
    exact of_decide_eq_true hlen

/-- An open request for a PUT of one byte at the greatest offset there is. -/
def openAtTheEnd : SoxRequest :=
  ⟨.fileOpen, 1, asBytes "p" ++ [0] ++ asBytes "/tmp/a" ++ [0] ++ [0, 0, 0, 1] ++ [0, 1] ++
    asBytes "offset" ++ [0] ++ asBytes "18446744073709551615" ++ [0, 0]⟩

/-- With that offset the first chunk of one byte overflows. -/
theorem fileRun_overflows_at_offset :
    ¬ ∀ s ∈ states (fileStep (diskFileSystem ⟨.bits64, .debug⟩)) (.ok ⟨[], none⟩)
      [.request openAtTheEnd, .putChunk [0, 0, 0, 1, 7]], ∃ server, s = .ok server := by
  intro h
  obtain ⟨server, hserver⟩ := h _ (run_mem_states _ _ _)
  have hfault : (run (fileStep (diskFileSystem ⟨.bits64, .debug⟩)) (.ok ⟨[], none⟩)
      [.request openAtTheEnd, .putChunk [0, 0, 0, 1, 7]]).isOk = false := by
    decide +kernel
  rw [hserver] at hfault
  cases hfault

end Safety
end Sandstar.FileTransfer
