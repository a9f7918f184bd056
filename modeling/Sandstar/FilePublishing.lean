import Sandstar.FileContents

set_option autoImplicit false

namespace Sandstar.FileTransfer
open SoxProtocol TreeRequests Machine Runs Utf8

variable {t : Target} {S : Type}

section Ledger

structure Publication where
  file : SoxFileXfer
  received : List ℕ
deriving DecidableEq

structure Ledger (S : Type) where
  server : FileServer S
  sent : List FileEvent
  received : List ℕ
  published : List Publication

/-- The number of a chunk that was taken: taking one always moves the counter. -/
def taken (before after : Option SoxFileXfer) (e : FileEvent) : List ℕ :=
  match chunkPayload e with
  | none => []
  | some payload => match readChunk payload with
    | .error _ => []
    | .ok chunk => if after = before then [] else [chunk.num]

def written (l : Ledger S) (e : FileEvent) : List Publication :=
  match e, l.server.xfer with
  | .request req, some file =>
    if req.cmd = .fileClose ∧ file.mode = .put ∧ file.writePath.isSome then [⟨file, l.received⟩]
    else []
  | _, _ => []

def ledgerStep (sys : FileSystem t S) (s : Except Fault (Ledger S)) (e : FileEvent) :
    Except Fault (Ledger S) := do
  let l ← s
  let (server, _) ← handleFileEvent sys l.server e
  match l.server.xfer with
  | none => .ok ⟨server, [], [], l.published⟩
  | some _ => .ok ⟨server, e :: l.sent, taken l.server.xfer server.xfer e ++ l.received,
      written l e ++ l.published⟩

def Ledger.start (fs : S) : Ledger S := ⟨⟨fs, none⟩, [], [], []⟩

theorem ledgerStep_server (sys : FileSystem t S) (s : Except Fault (Ledger S)) (e : FileEvent) :
    (ledgerStep sys s e).map Ledger.server = fileStep sys (s.map Ledger.server) e := by
  cases s with
  | error f => rfl
  | ok l =>
    unfold ledgerStep fileStep
    dsimp only [bind, Except.bind, Except.map]
    cases handleFileEvent sys l.server e with
    | error f => rfl
    | ok r =>
      dsimp only
      cases l.server.xfer with
      | none => rfl
      | some file => rfl

theorem ledgerStep_open {sys : FileSystem t S} {l : Ledger S} {e : FileEvent} {file : SoxFileXfer}
    (hx : l.server.xfer = some file) :
    ledgerStep sys (.ok l) e = (fileStep sys (.ok l.server) e).map fun server =>
      ⟨server, e :: l.sent, taken l.server.xfer server.xfer e ++ l.received,
        written l e ++ l.published⟩ := by
  unfold ledgerStep fileStep
  dsimp only [bind, Except.bind]
  cases handleFileEvent sys l.server e with
  | error f => rfl
  | ok r =>
    dsimp only
    rw [hx]
    rfl

theorem ledgerStep_idle {sys : FileSystem t S} {l : Ledger S} {e : FileEvent}
    (hx : l.server.xfer = none) :
    ledgerStep sys (.ok l) e = (fileStep sys (.ok l.server) e).map fun server =>
      ⟨server, [], [], l.published⟩ := by
  unfold ledgerStep fileStep
  dsimp only [bind, Except.bind]
  cases handleFileEvent sys l.server e with
  | error f => rfl
  | ok r =>
    dsimp only
    rw [hx]
    rfl

end Ledger

section Ranges

def chunkRange (t : Target) (file : SoxFileXfer) (chunk : Chunk) : Except Fault (ℕ × ℕ) := do
  let product ← t.mul chunk.num file.chunkSize
  let writeStart ← t.add file.offset product
  let writeEnd ← t.add writeStart chunk.data.length
  .ok (writeStart, writeEnd)

def Carries (t : Target) (file : SoxFileXfer) (n : ℕ) (e : FileEvent) : Prop :=
  ∃ payload chunk start stop, chunkPayload e = some payload ∧ readChunk payload = .ok chunk ∧
    chunk.num = n ∧ chunkRange t file chunk = .ok (start, stop) ∧ stop ≤ file.data.length

theorem add_one_ne {a b : ℕ} (h : t.add a 1 = .ok b) : b ≠ a := by
  have hmax := t.usizeMax_ge
  unfold Target.add Target.settle at h
  split_ifs at h with hfits
  · cases h
    omega
  · cases hprofile : t.profile with
    | debug =>
      rw [hprofile] at h
      cases h
    | release =>
      rw [hprofile] at h
      cases h
      intro heq
      have hlt := Nat.mod_lt (a + 1) (show 0 < t.usizeMax + 1 by omega)
      have ha : a = t.usizeMax := by omega
      rw [ha, Nat.mod_self] at heq
      omega

/-- What a complete chunk does to an open PUT when it does not fault: it is
    ignored, or it moves the counter and the buffer keeps its length. -/
theorem handlePutChunk_outcome {file : SoxFileXfer} {payload : List UInt8} {chunk : Chunk}
    {xfer : Option SoxFileXfer} (hmode : file.mode = .put) (hchunk : readChunk payload = .ok chunk)
    (h : handlePutChunk t (some file) payload = .ok xfer) :
    ∃ start stop, chunkRange t file chunk = .ok (start, stop) ∧
      ((file.data.length < stop ∧ xfer = some file) ∨
        stop ≤ file.data.length ∧ ∃ data received, data.length = file.data.length ∧
          received ≠ file.chunksReceived ∧
          xfer = some { file with data := data, chunksReceived := received }) := by
  unfold handlePutChunk at h
  rw [hchunk] at h
  dsimp only at h
  rw [if_neg (by rw [hmode]; decide)] at h
  obtain ⟨product, hmul, h⟩ := bind_ok h
  obtain ⟨start, hstart, h⟩ := bind_ok h
  obtain ⟨stop, hstop, h⟩ := bind_ok h
  refine ⟨start, stop, ?_, ?_⟩
  · unfold chunkRange
    rw [hmul]
    dsimp only [bind, Except.bind]
    rw [hstart]
    dsimp only
    rw [hstop]
  · split_ifs at h with hlen
    · cases h
      exact .inl ⟨hlen, rfl⟩
    · obtain ⟨data, hcopy, h⟩ := bind_ok h
      obtain ⟨received, hreceived, h⟩ := bind_ok h
      cases h
      refine .inr ⟨Nat.le_of_not_lt hlen, data, received, ?_, add_one_ne hreceived, rfl⟩
      unfold copyInto at hcopy
      split_ifs at hcopy with hfits
      cases hcopy
      exact length_overwrite (by omega)

end Ranges

section Transfers

theorem handleFileRead_xfer {xfer : Option SoxFileXfer} {req : SoxRequest}
    {r : Option SoxFileXfer × SoxResponse} (h : handleFileRead t xfer req = .ok r) :
    r.1 = xfer := by
  unfold handleFileRead at h
  dsimp only at h
  cases xfer with
  | none =>
    cases h
    rfl
  | some file =>
    dsimp only at h
    split_ifs at h
    · cases h
      rfl
    · split at h
      · cases h
        rfl
      · obtain ⟨start, -, h⟩ := bind_ok h
        obtain ⟨stop, -, h⟩ := bind_ok h
        obtain ⟨fileEnd, -, h⟩ := bind_ok h
        split_ifs at h
        · obtain ⟨bytes, -, h⟩ := bind_ok h
          cases h
          rfl
        · cases h
          rfl

/-- A request that is no chunk opens, closes or leaves the transfer. -/
theorem fileStep_cases {sys : FileSystem t S} {s s' : FileServer S} {e : FileEvent}
    (hchunk : chunkPayload e = none) (h : fileStep sys (.ok s) e = .ok s') :
    (∃ req, e = .request req ∧ req.cmd = .fileOpen ∧ s' = (handleFileOpen sys s req).1) ∨
      (∃ req, e = .request req ∧ req.cmd = .fileClose ∧ s' = (handleFileClose sys s req).1) ∨
      s'.xfer = s.xfer := by
  by_cases hread : ∃ req, e = .request req ∧ req.cmd = .fileRead
  · obtain ⟨req, rfl, hcmd⟩ := hread
    rw [fileStep_read sys s hcmd] at h
    cases hr : handleFileRead t s.xfer req with
    | error f =>
      rw [hr] at h
      cases h
    | ok r =>
      rw [hr] at h
      cases h
      exact .inr (.inr (handleFileRead_xfer hr))
  · obtain ⟨server, hserver, hcase⟩ :=
      fileStep_other sys s hchunk fun req he hcmd => hread ⟨req, he, hcmd⟩
    rw [hserver] at h
    cases h
    exact hcase

/-- Such a request leaves an open transfer alone or closes it. -/
theorem fileStep_keeps {sys : FileSystem t S} {s s' : FileServer S} {e : FileEvent}
    (hx : s.xfer.isSome) (hchunk : chunkPayload e = none)
    (h : fileStep sys (.ok s) e = .ok s') : s'.xfer = s.xfer ∨ s'.xfer = none := by
  obtain ⟨req, -, -, rfl⟩ | ⟨req, -, -, rfl⟩ | hsame := fileStep_cases hchunk h
  · rcases handleFileOpen_xfer sys s req with hsame | ⟨hnone, -⟩
    · exact .inl hsame
    · rw [hnone] at hx
      cases hx
  · exact .inr (handleFileClose_xfer sys s req)
  · exact .inl hsame

/-- A PUT opened from an idle server knows its path. -/
theorem fileStep_opens {sys : FileSystem t S} {s s' : FileServer S} {e : FileEvent}
    {file : SoxFileXfer} (hx : s.xfer = none) (h : fileStep sys (.ok s) e = .ok s')
    (hfile : s'.xfer = some file) (hmode : file.mode = .put) : file.writePath.isSome := by
  cases hchunk : chunkPayload e with
  | some payload =>
    rw [fileStep_chunk sys s hchunk, hx, handlePutChunk_idle (.inl rfl)] at h
    cases h
    cases hfile
  | none =>
    obtain ⟨req, -, -, rfl⟩ | ⟨req, -, -, rfl⟩ | hsame := fileStep_cases hchunk h
    · obtain hsame | ⟨-, ⟨path, data, -, hopened⟩ | ⟨path, -, hopened⟩⟩ :=
        handleFileOpen_xfer sys s req
      · rw [hsame, hx] at hfile
        cases hfile
      · rw [hopened] at hfile
        cases hfile
        cases hmode
      · rw [hopened] at hfile
        cases hfile
        rfl
    · rw [handleFileClose_xfer] at hfile
      cases hfile
    · rw [hsame, hx] at hfile
      cases hfile

end Transfers

section Publishing

/-- Every chunk announced at the open has been received. -/
def Publication.Complete (p : Publication) : Prop := ∀ n < p.file.numChunks, n ∈ p.received

structure Recorded (t : Target) (l : Ledger S) : Prop where
  complete : ∀ p ∈ l.published, p.Complete
  writePath_isSome : ∀ file, l.server.xfer = some file → file.mode = .put →
    file.writePath.isSome
  received_iff : ∀ file, l.server.xfer = some file → file.mode = .put →
    ∀ n, n ∈ l.received ↔ ∃ e ∈ l.sent, Carries t file n e

/-- A close of a PUT comes only after every announced chunk was sent. -/
def SentAll (t : Target) (s : Except Fault (Ledger S)) (e : FileEvent) : Prop :=
  ∀ l, s = .ok l → ∀ req, e = .request req → req.cmd = .fileClose →
    ∀ file, l.server.xfer = some file → file.mode = .put →
      ∀ n < file.numChunks, ∃ e ∈ l.sent, Carries t file n e

theorem carries_congr {file file' : SoxFileXfer} (hsize : file'.chunkSize = file.chunkSize)
    (hoffset : file'.offset = file.offset) (hlen : file'.data.length = file.data.length) (n : ℕ)
    (e : FileEvent) : Carries t file' n e ↔ Carries t file n e := by
  unfold Carries chunkRange
  rw [hsize, hoffset, hlen]

theorem not_carries_of_none {file : SoxFileXfer} {n : ℕ} {e : FileEvent}
    (h : chunkPayload e = none) : ¬ Carries t file n e := by
  rintro ⟨payload, chunk, start, stop, hpayload, -⟩
  rw [h] at hpayload
  cases hpayload

theorem mem_taken_iff {file : SoxFileXfer} {payload : List UInt8} {xfer : Option SoxFileXfer}
    {e : FileEvent} (hmode : file.mode = .put) (he : chunkPayload e = some payload)
    (h : handlePutChunk t (some file) payload = .ok xfer) (n : ℕ) :
    n ∈ taken (some file) xfer e ↔ Carries t file n e := by
  unfold taken Carries
  rw [he]
  dsimp only
  cases hchunk : readChunk payload with
  | error msg =>
    constructor
    · intro hn
      cases hn
    · rintro ⟨payload', chunk, start, stop, hpayload, hread, -⟩
      cases hpayload
      rw [hchunk] at hread
      cases hread
  | ok chunk =>
    obtain ⟨start, stop, hrange, ⟨hlen, rfl⟩ | ⟨hlen, data, received, -, hne, rfl⟩⟩ :=
      handlePutChunk_outcome hmode hchunk h
    · dsimp only
      rw [if_pos rfl]
      constructor
      · intro hn
        cases hn
      · rintro ⟨payload', chunk', start', stop', hpayload, hread, -, hrange', hlen'⟩
        cases hpayload
        rw [hchunk] at hread
        cases hread
        rw [hrange] at hrange'
        cases hrange'
        omega
    · have hchanged : some { file with data := data, chunksReceived := received } ≠ some file := by
        intro heq
        exact hne (congrArg SoxFileXfer.chunksReceived (Option.some.inj heq))
      dsimp only
      rw [if_neg hchanged, List.mem_singleton]
      constructor
      · rintro rfl
        exact ⟨payload, chunk, start, stop, rfl, hchunk, rfl, hrange, hlen⟩
      · rintro ⟨payload', chunk', start', stop', hpayload, hread, hnum, -⟩
        cases hpayload
        rw [hchunk] at hread
        cases hread
        exact hnum.symm

theorem handlePutChunk_keeps {file file' : SoxFileXfer} {payload : List UInt8}
    (hmode : file.mode = .put) (h : handlePutChunk t (some file) payload = .ok (some file')) :
    file'.writePath = file.writePath ∧ file'.chunkSize = file.chunkSize ∧
      file'.offset = file.offset ∧ file'.data.length = file.data.length := by
  cases hchunk : readChunk payload with
  | error msg =>
    rw [handlePutChunk_idle (.inr ⟨msg, hchunk⟩)] at h
    cases h
    exact ⟨rfl, rfl, rfl, rfl⟩
  | ok chunk =>
    obtain ⟨start, stop, -, ⟨-, hsame⟩ | ⟨-, data, received, hlen, -, hnew⟩⟩ :=
      handlePutChunk_outcome hmode hchunk h
    · cases hsame
      exact ⟨rfl, rfl, rfl, rfl⟩
    · cases hnew
      exact ⟨rfl, rfl, rfl, hlen⟩

theorem recorded_chunk {l : Ledger S} {server : FileServer S} {e : FileEvent} {file : SoxFileXfer}
    {payload : List UInt8} (hl : Recorded t l) (hx : l.server.xfer = some file)
    (he : chunkPayload e = some payload)
    (h : handlePutChunk t (some file) payload = .ok server.xfer) (ps : List Publication)
    (hps : ∀ p ∈ ps, p.Complete) :
    Recorded t ⟨server, e :: l.sent, taken l.server.xfer server.xfer e ++ l.received, ps⟩ := by
  by_cases hmode : file.mode = .put
  · refine ⟨hps, ?_, ?_⟩
    · intro file' hx' _
      rw [show server.xfer = some file' from hx'] at h
      obtain ⟨hpath, -⟩ := handlePutChunk_keeps hmode h
      rw [hpath]
      exact hl.writePath_isSome file hx hmode
    · intro file' hx' _ n
      have hx'' : server.xfer = some file' := hx'
      have hkeeps := handlePutChunk_keeps hmode (hx'' ▸ h)
      dsimp only
      rw [hx, List.mem_append, mem_taken_iff hmode he h, hl.received_iff file hx hmode,
        List.exists_mem_cons_iff]
      simp only [carries_congr hkeeps.2.1 hkeeps.2.2.1 hkeeps.2.2.2]
  · -- a chunk does not reach a GET
    have hidle : isPutTransferActive (some file) = false := by
      simpa [isPutTransferActive] using hmode
    rw [handlePutChunk_idle (.inl hidle)] at h
    have hsame : server.xfer = some file := (Except.ok.inj h).symm
    refine ⟨hps, ?_, ?_⟩
    · intro file' hx' hmode'
      cases hsame.symm.trans hx'
      exact absurd hmode' hmode
    · intro file' hx' hmode'
      cases hsame.symm.trans hx'
      exact absurd hmode' hmode

theorem written_complete {l : Ledger S} {e : FileEvent} (hl : Recorded t l)
    (hsent : SentAll t (.ok l) e) : ∀ p ∈ written l e, p.Complete := by
  intro p hp
  unfold written at hp
  cases e with
  | putChunk payload => cases hp
  | request req =>
    cases hx : l.server.xfer with
    | none =>
      rw [hx] at hp
      cases hp
    | some file =>
      rw [hx] at hp
      dsimp only at hp
      split_ifs at hp with hclose
      · obtain rfl := List.mem_singleton.1 hp
        intro n hn
        exact (hl.received_iff file hx hclose.2.1 n).2
          (hsent l rfl req rfl hclose.1 file hx hclose.2.1 n hn)
      · cases hp

theorem recorded_ledgerStep {sys : FileSystem t S} {l l' : Ledger S} {e : FileEvent}
    (hl : Recorded t l) (hsent : SentAll t (.ok l) e)
    (h : ledgerStep sys (.ok l) e = .ok l') : Recorded t l' := by
  cases hx : l.server.xfer with
  | none =>
    rw [ledgerStep_idle hx] at h
    obtain ⟨server, hstep, rfl⟩ := map_ok h
    refine ⟨hl.complete, fun file hfile hmode => fileStep_opens hx hstep hfile hmode, ?_⟩
    intro file _ _ n
    simp only [List.not_mem_nil, false_and, exists_false]
  | some file =>
    have hps : ∀ p ∈ written l e ++ l.published, p.Complete := by
      intro p hp
      rcases List.mem_append.1 hp with hp | hp
      · exact written_complete hl hsent p hp
      · exact hl.complete p hp
    rw [ledgerStep_open hx] at h
    obtain ⟨server, hstep, rfl⟩ := map_ok h
    cases hchunk : chunkPayload e with
    | some payload =>
      rw [fileStep_chunk sys _ hchunk, hx] at hstep
      obtain ⟨xfer, hput, rfl⟩ := map_ok hstep
      exact recorded_chunk hl hx hchunk hput _ hps
    | none =>
      have htaken : taken l.server.xfer server.xfer e = [] := by
        unfold taken
        rw [hchunk]
      rcases fileStep_keeps (by rw [hx]; rfl) hchunk hstep with hsame | hnone
      · refine ⟨hps, ?_, ?_⟩
        · intro file' hfile' hmode
          exact hl.writePath_isSome file' (hsame.symm.trans hfile') hmode
        · intro file' hfile' hmode n
          dsimp only
          rw [htaken, List.nil_append, List.exists_mem_cons_iff,
            hl.received_iff file' (hsame.symm.trans hfile') hmode,
            or_iff_right (not_carries_of_none hchunk)]
      · refine ⟨hps, ?_, ?_⟩
        · intro file' hfile'
          cases hnone.symm.trans hfile'
        · intro file' hfile'
          cases hnone.symm.trans hfile'

/-- A close before every announced chunk was sent publishes a torn file. -/
theorem ledgerStep_torn (sys : FileSystem t S) {l : Ledger S} {e : FileEvent}
    (hl : Recorded t l) (hunsent : ¬ SentAll t (.ok l) e) :
    ∃ l', ledgerStep sys (.ok l) e = .ok l' ∧ ∃ p ∈ l'.published, ¬ p.Complete := by
  unfold SentAll at hunsent
  push Not at hunsent
  obtain ⟨l₀, hl₀, req, rfl, hcmd, file, hx, hmode, n, hn, hmissing⟩ := hunsent
  cases hl₀
  have hpath := hl.writePath_isSome file hx hmode
  have hwritten : written l (.request req) = [⟨file, l.received⟩] := by
    unfold written
    rw [hx]
    exact if_pos ⟨hcmd, hmode, hpath⟩
  obtain ⟨server, hserver, -⟩ := fileStep_other sys l.server
    (e := .request req) (by simp [chunkPayload, hcmd])
    (by rintro req' he hread; cases he; rw [hcmd] at hread; cases hread)
  refine ⟨_, by rw [ledgerStep_open hx, hserver]; rfl, ⟨file, l.received⟩, ?_, ?_⟩
  · dsimp only
    rw [hwritten]
    exact List.mem_cons_self
  · intro hcomplete
    obtain ⟨e, he, hcarries⟩ := (hl.received_iff file hx hmode n).1 (hcomplete n hn)
    exact hmissing e he hcarries

/-- Over every run, no torn file is published exactly when each close of a PUT
    comes after a complete chunk within the file was sent for every announced number. -/
theorem published_complete_iff_sentAll (sys : FileSystem t S) (fs : S) (es : List FileEvent) :
    (∀ s ∈ states (ledgerStep sys) (.ok (Ledger.start fs)) es,
        ∀ l, s = .ok l → ∀ p ∈ l.published, p.Complete) ↔
      Along (ledgerStep sys) (SentAll t) (.ok (Ledger.start fs)) es := by
  apply states_iff_along (ledgerStep sys) (I := fun s => ∀ l, s = .ok l → Recorded t l)
  · intro s hs l hl
    exact (hs l hl).complete
  · intro s e hs hsent l' hl'
    cases s with
    | error f => cases hl'
    | ok l => exact recorded_ledgerStep (hs l rfl) hsent hl'
  · intro s e hs hunsent hcomplete
    cases s with
    | error f => exact hunsent fun l hl => by cases hl
    | ok l =>
      obtain ⟨l', hl', p, hp, htorn⟩ := ledgerStep_torn sys (hs l rfl) hunsent
      exact htorn (hcomplete l' hl' p hp)
  · intro l hl
    cases hl
    refine ⟨?_, ?_, ?_⟩
    · intro p hp
      cases hp
    · intro file hfile
      cases hfile
    · intro file hfile
      cases hfile

/-- A PUT of two chunks that is closed before the first one: two zero bytes are
    written to disk with neither chunk received. -/
theorem close_publishes_torn_file :
    ¬ ∀ s ∈ states (ledgerStep (diskFileSystem ⟨.bits64, .debug⟩)) (.ok (Ledger.start []))
        [.request (openTmp "p" 2 1), .request ⟨.fileClose, 2, []⟩],
      ∀ l, s = .ok l → ∀ p ∈ l.published, p.Complete := by
  intro h
  have hlast := h _ (run_mem_states _ _ _)
  have hrun : (run (ledgerStep (diskFileSystem ⟨.bits64, .debug⟩)) (.ok (Ledger.start []))
      [.request (openTmp "p" 2 1), .request ⟨.fileClose, 2, []⟩]).map
        (fun l => (l.server.fs, l.published)) =
      .ok ([("/tmp/a", [0, 0])], [⟨⟨[0, 0], 1, .put, some "/tmp/a", 2, 2, 0, 0⟩, []⟩]) := by
    decide +kernel
  cases hl : run (ledgerStep (diskFileSystem ⟨.bits64, .debug⟩)) (.ok (Ledger.start []))
      [.request (openTmp "p" 2 1), .request ⟨.fileClose, 2, []⟩] with
  | error f =>
    rw [hl] at hrun
    cases hrun
  | ok l =>
    rw [hl] at hrun
    have hpublished : l.published = [⟨⟨[0, 0], 1, .put, some "/tmp/a", 2, 2, 0, 0⟩, []⟩] :=
      congrArg Prod.snd (Except.ok.inj hrun)
    have hfirst : 0 ∈ ([] : List ℕ) :=
      hlast l hl _ (hpublished ▸ List.mem_cons_self) 0 (by decide)
    cases hfirst

end Publishing
end Sandstar.FileTransfer
