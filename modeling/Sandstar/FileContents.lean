import Sandstar.FileSafety
import Sandstar.Pieces

set_option autoImplicit false

namespace Sandstar.FileTransfer
open SoxProtocol TreeRequests Machine Runs Pieces Utf8

variable {t : Target} {S : Type}

section Messages

/-- The chunk message of piece `n`: number, length and bytes. -/
def chunkMessage (content : List UInt8) (size n : ℕ) : List UInt8 :=
  beBytes16 (UInt16.ofNat n) ++ beBytes16 (UInt16.ofNat (piece content size n).length) ++
    piece content size n

theorem readChunk_chunkMessage (content : List UInt8) {size n : ℕ} (hn : n < 65536)
    (hsize : size ≤ 65535) :
    readChunk (chunkMessage content size n) = .ok ⟨n, piece content size n⟩ := by
  have hlen : (piece content size n).length < 65536 :=
    Nat.lt_of_le_of_lt (length_piece_le content size n) (by omega)
  have hnum : (UInt16.ofNat n).toNat = n := UInt16.toNat_ofNat_of_lt' hn
  have hcount : (UInt16.ofNat (piece content size n).length).toNat =
      (piece content size n).length := UInt16.toNat_ofNat_of_lt' hlen
  unfold readChunk chunkMessage
  dsimp only
  rw [List.append_assoc, readU16_beBytes16]
  dsimp only
  rw [readU16_beBytes16]
  dsimp only
  rw [hcount, SoxReader.readBytes, if_pos (le_refl _)]
  dsimp only
  rw [List.take_length, hnum]

theorem chunk_start_le {content : List UInt8} {size n : ℕ}
    (h : n < chunkCount content.length size) : n * size ≤ content.length := by
  unfold chunkCount at h
  split_ifs at h with hempty
  · have hn : n = 0 := by omega
    rw [hn, Nat.zero_mul]
    exact Nat.zero_le _
  · exact Nat.le_of_lt (piece_start_lt h)

theorem pieceCount_le_chunkCount (length : ℕ) {size : ℕ} (hpos : 0 < size) :
    pieceCount length size ≤ chunkCount length size := by
  unfold pieceCount chunkCount
  split_ifs with hempty
  · rw [hempty, Nat.zero_add, Nat.div_eq_of_lt (by omega)]
    exact Nat.zero_le _
  · exact le_refl _

end Messages

section Put

/-- A PUT of `content` in progress, with the chunks in `D` received. -/
structure Gathering (content : List UInt8) (size : ℕ) (path : String) (D : Set ℕ)
    (file : SoxFileXfer) : Prop where
  mode_eq : file.mode = .put
  writePath_eq : file.writePath = some path
  chunkSize_eq : file.chunkSize = size
  offset_eq : file.offset = 0
  agrees : Agrees content size D file.data

def Counts (t : Target) (file : SoxFileXfer) (more : ℕ) : Prop :=
  t.profile = .release ∨ file.chunksReceived + more ≤ t.usizeMax

theorem add_counts {file : SoxFileXfer} {more : ℕ} (h : Counts t file (more + 1)) :
    ∃ received, t.add file.chunksReceived 1 = .ok received ∧
      Counts t { file with chunksReceived := received } more := by
  rcases h with hrelease | hroom
  · unfold Target.add Target.settle
    split_ifs
    · exact ⟨_, rfl, .inl hrelease⟩
    · rw [hrelease]
      exact ⟨_, rfl, .inl hrelease⟩
  · refine ⟨_, t.add_fits (by omega), .inr ?_⟩
    change file.chunksReceived + 1 + more ≤ t.usizeMax
    omega

theorem gathering_handlePutChunk {content : List UInt8} {size n more : ℕ} {path : String}
    {D : Set ℕ} {file : SoxFileXfer} (hpos : 0 < size) (hsize : size ≤ 65535)
    (hcontent : content.length ≤ t.usizeMax) (hn : n < chunkCount content.length size)
    (hn16 : n < 65536) (hcounts : Counts t file (more + 1))
    (hfile : Gathering content size path D file) :
    ∃ file', handlePutChunk t (some file) (chunkMessage content size n) = .ok (some file') ∧
      Gathering content size path (insert n D) file' ∧ Counts t file' more := by
  obtain ⟨received, hadd, hcounts'⟩ := add_counts hcounts
  have hend : chunkEnd file ⟨n, piece content size n⟩ ≤ file.data.length := by
    unfold chunkEnd
    rw [hfile.offset_eq, hfile.chunkSize_eq, Nat.zero_add, hfile.agrees.length_eq]
    exact piece_end_le (chunk_start_le hn)
  have hchunk := readChunk_chunkMessage content hn16 hsize
  have hfits := handlePutChunk_fits hfile.mode_eq hchunk
    (hend.trans (hfile.agrees.length_eq ▸ hcontent))
  rw [if_neg (by omega), hadd] at hfits
  refine ⟨_, hfits, ⟨hfile.mode_eq, hfile.writePath_eq, hfile.chunkSize_eq, hfile.offset_eq, ?_⟩,
    hcounts'⟩
  dsimp only [accept]
  rw [hfile.offset_eq, hfile.chunkSize_eq, Nat.zero_add]
  exact agrees_overwrite hpos (chunk_start_le hn) hfile.agrees

/-- Any deliveries of announced chunks leave a transfer that has them all. -/
theorem gathering_run (sys : FileSystem t S) (fs : S) {content : List UInt8} {size : ℕ}
    {path : String} (hpos : 0 < size) (hsize : size ≤ 65535)
    (hcontent : content.length ≤ t.usizeMax) (hmany : chunkCount content.length size ≤ 65536)
    {es : List FileEvent} {ns : List ℕ} {D : Set ℕ} {file : SoxFileXfer}
    (hes : es.map chunkPayload = ns.map fun n => some (chunkMessage content size n))
    (hns : ∀ n ∈ ns, n < chunkCount content.length size) (hcounts : Counts t file es.length)
    (hfile : Gathering content size path D file) :
    ∃ file', run (fileStep sys) (.ok ⟨fs, some file⟩) es = .ok ⟨fs, some file'⟩ ∧
      Gathering content size path (D ∪ {n | n ∈ ns}) file' := by
  induction es generalizing ns D file with
  | nil =>
    obtain rfl : ns = [] := by simpa using hes.symm
    refine ⟨file, rfl, ?_⟩
    simpa using hfile
  | cons e es ih =>
    cases ns with
    | nil => simp at hes
    | cons n ns =>
      rw [List.map_cons, List.map_cons] at hes
      obtain ⟨he, hes⟩ := List.cons.inj hes
      have hn := hns n List.mem_cons_self
      obtain ⟨file', hstep, hfile', hcounts'⟩ := gathering_handlePutChunk hpos hsize hcontent hn
        (Nat.lt_of_lt_of_le hn hmany) hcounts hfile
      obtain ⟨last, hrun, hlast⟩ :=
        ih hes (fun m hm => hns m (List.mem_cons_of_mem n hm)) hcounts' hfile'
      refine ⟨last, ?_, ?_⟩
      · rw [run_cons, fileStep_chunk sys _ he, hstep]
        exact hrun
      · have hset : insert n D ∪ {m | m ∈ ns} = D ∪ {m | m ∈ n :: ns} := by
          ext m
          simp only [Set.mem_union, Set.mem_insert_iff, Set.mem_ofPred_eq, List.mem_cons]
          tauto
        exact hset ▸ hlast

theorem gathering_openedPut {content : List UInt8} {o : OpenRequest} (path : String)
    (hsize : o.fileSize = content.length) (hoffset : o.offset = 0) :
    Gathering content o.chunkSize path ∅ (openedPut o path) where
  mode_eq := rfl
  writePath_eq := rfl
  chunkSize_eq := rfl
  offset_eq := hoffset
  agrees := agrees_start _ (by rw [← hsize]; exact List.length_replicate)

/-- The open request is accepted as a PUT of the content from the start of the file:
    the server holds no other transfer and the path is one it may write. -/
structure PutOpens (sys : FileSystem t S) (s : FileServer S) (req : SoxRequest)
    (content : List UInt8) (fs : S) (writePath : String) : Prop where
  cmd_eq : req.cmd = .fileOpen
  idle : s.xfer = none
  method_eq : (readOpenRequest t req.payload).method = "p"
  fileSize_eq : (readOpenRequest t req.payload).fileSize = content.length
  offset_eq : (readOpenRequest t req.payload).offset = 0
  path_ok : ∃ path, resolveSoxUri (readOpenRequest t req.payload).uri = .ok path ∧
    validateWritePath sys s.fs path = (fs, .ok writePath)

theorem fileStep_putOpens {sys : FileSystem t S} {s : FileServer S} {req : SoxRequest}
    {content : List UInt8} {fs : S} {writePath : String}
    (h : PutOpens sys s req content fs writePath) (hsize : content.length ≤ maxPutSize) :
    fileStep sys (.ok s) (.request req) =
      .ok ⟨fs, some (openedPut (readOpenRequest t req.payload) writePath)⟩ := by
  obtain ⟨path, hresolve, hvalid⟩ := h.path_ok
  have hopen : (handleFileOpen sys s req).1 =
      ⟨fs, some (openedPut (readOpenRequest t req.payload) writePath)⟩ := by
    unfold handleFileOpen
    dsimp only
    rw [hresolve]
    dsimp only
    rw [h.idle, if_neg (by simp), if_neg (by rw [h.method_eq]; decide), if_pos h.method_eq, hvalid]
    dsimp only
    rw [if_neg (by rw [h.fileSize_eq]; omega)]
    rfl
  rw [← hopen]
  unfold fileStep handleFileEvent
  dsimp only [bind, Except.bind]
  rw [h.cmd_eq]

theorem fileStep_close_put (sys : FileSystem t S) (fs : S) {file : SoxFileXfer} {path : String}
    {req : SoxRequest} (hcmd : req.cmd = .fileClose) (hmode : file.mode = .put)
    (hpath : file.writePath = some path) :
    fileStep sys (.ok ⟨fs, some file⟩) (.request req) =
      .ok ⟨(sys.write fs path file.data).1, none⟩ := by
  unfold fileStep handleFileEvent handleFileClose
  dsimp only [bind, Except.bind]
  rw [hcmd]
  dsimp only
  rw [if_pos hmode, hpath]
  dsimp only
  rcases sys.write fs path file.data with ⟨fs', _ | _⟩ <;> rfl

/-- The whole PUT: open, the announced chunks in the order `ns`, close. -/
theorem put_writes_content {sys : FileSystem t S} {s : FileServer S} {req close : SoxRequest}
    {content : List UInt8} {fs : S} {writePath : String} {es : List FileEvent} {ns : List ℕ}
    (hopen : PutOpens sys s req content fs writePath) (hclose : close.cmd = .fileClose)
    (hsize : content.length ≤ maxPutSize)
    (hmany : chunkCount content.length (readOpenRequest t req.payload).chunkSize ≤ 65536)
    (hes : es.map chunkPayload = ns.map fun n =>
      some (chunkMessage content (readOpenRequest t req.payload).chunkSize n))
    (hns : ∀ n, n ∈ ns ↔ n < chunkCount content.length (readOpenRequest t req.payload).chunkSize)
    (hcount : t.profile = .release ∨ es.length ≤ t.usizeMax) :
    run (fileStep sys) (.ok s) (.request req :: (es ++ [.request close])) =
      .ok ⟨(sys.write fs writePath content).1, none⟩ := by
  have hpos := readOpenRequest_chunkSize_pos t req.payload
  have hfits : content.length ≤ t.usizeMax :=
    calc
      content.length ≤ maxPutSize := hsize
      _ ≤ 2 ^ 32 - 1 := by decide
      _ ≤ t.usizeMax := t.usizeMax_ge
  have hcounts : Counts t (openedPut (readOpenRequest t req.payload) writePath) es.length := by
    rcases hcount with hrelease | hroom
    · exact .inl hrelease
    · exact .inr ((Nat.zero_add _).trans_le hroom)
  obtain ⟨file, hrun, hfile⟩ := gathering_run sys fs hpos
    (readOpenRequest_chunkSize_le t req.payload) hfits hmany hes (fun n hn => (hns n).1 hn) hcounts
    (gathering_openedPut writePath hopen.fileSize_eq hopen.offset_eq)
  have hdata : file.data = content := by
    apply agrees_all hpos hfile.agrees
    intro n hn
    exact .inr ((hns n).2 (Nat.lt_of_lt_of_le hn (pieceCount_le_chunkCount _ hpos)))
  rw [run_cons, run_concat, fileStep_putOpens hopen hsize, hrun,
    fileStep_close_put sys fs hclose hfile.mode_eq hfile.writePath_eq, hdata]

end Put

section Get

/-- The open request is accepted as a GET of a whole file that reads as the content. -/
structure GetOpens (sys : FileSystem t S) (s : FileServer S) (req : SoxRequest)
    (content : List UInt8) : Prop where
  cmd_eq : req.cmd = .fileOpen
  idle : s.xfer = none
  method_eq : (readOpenRequest t req.payload).method = "g"
  whole : (readOpenRequest t req.payload).fileSize = 0 ∨
    content.length ≤ (readOpenRequest t req.payload).fileSize
  offset_eq : (readOpenRequest t req.payload).offset = 0
  path_ok : ∃ path canonical, resolveSoxUri (readOpenRequest t req.payload).uri = .ok path ∧
    validateReadPath sys s.fs path = .ok canonical ∧ sys.read s.fs canonical = some content

theorem fileStep_getOpens {sys : FileSystem t S} {s : FileServer S} {req : SoxRequest}
    {content : List UInt8} (h : GetOpens sys s req content) :
    fileStep sys (.ok s) (.request req) =
      .ok { s with xfer := some (openedGet (readOpenRequest t req.payload) content) } := by
  obtain ⟨path, canonical, hresolve, hvalid, hread⟩ := h.path_ok
  have hopen : (handleFileOpen sys s req).1 =
      { s with xfer := some (openedGet (readOpenRequest t req.payload) content) } := by
    unfold handleFileOpen
    dsimp only
    rw [hresolve]
    dsimp only
    rw [h.idle, if_neg (by simp), if_pos h.method_eq, hvalid]
    dsimp only
    rw [hread]
    rfl
  rw [← hopen]
  unfold fileStep handleFileEvent
  dsimp only [bind, Except.bind]
  rw [h.cmd_eq]

theorem slice_piece {content : List UInt8} {size n : ℕ} (h : n * size < content.length) :
    slice content (n * size) (min (min (n * size + size) content.length) content.length) =
      .ok (piece content size n) := by
  unfold slice piece
  rw [if_pos ⟨by omega, by omega⟩, List.drop_take]
  congr 1
  rw [List.take_eq_take_iff, List.length_drop]
  omega

theorem handleFileRead_piece {file : SoxFileXfer} {n : ℕ} (reqId : UInt8)
    (hsize : file.chunkSize ≤ 65535) (hmode : file.mode = .get) (hoffset : file.offset = 0)
    (hwhole : file.fileSize = file.data.length) (hdata : file.data.length ≤ t.usizeMax)
    (hn16 : n < 65536) (hn : n * file.chunkSize < file.data.length) :
    handleFileRead t (some file) ⟨.fileRead, reqId, beBytes16 (UInt16.ofNat n)⟩ =
      .ok (some file,
        (SoxResponse.success .fileRead reqId).writeBytes (piece file.data file.chunkSize n)) := by
  have hnum : (UInt16.ofNat n).toNat = n := UInt16.toNat_ofNat_of_lt' hn16
  have hread : (SoxReader.mk (beBytes16 (UInt16.ofNat n))).readU16.1 = some (UInt16.ofNat n) := by
    rw [← List.append_nil (beBytes16 _), readU16_beBytes16]
  have hproduct : n * file.chunkSize ≤ t.usizeMax := by omega
  have hend : n * file.chunkSize + file.chunkSize ≤ t.usizeMax := by
    calc
      n * file.chunkSize + file.chunkSize = (n + 1) * file.chunkSize := (Nat.succ_mul _ _).symm
      _ ≤ 65536 * 65535 := Nat.mul_le_mul (by omega) hsize
      _ ≤ 2 ^ 32 - 1 := by decide
      _ ≤ t.usizeMax := t.usizeMax_ge
  unfold handleFileRead
  dsimp only
  rw [hread, Option.getD_some, hnum, if_neg (by rw [hmode]; decide), Target.checkedMul,
    if_pos hproduct, hoffset, hwhole]
  dsimp only
  rw [t.add_fits hproduct]
  dsimp only [bind, Except.bind]
  rw [Nat.add_zero, t.add_fits hend]
  dsimp only
  rw [t.add_fits (by omega), Nat.zero_add]
  dsimp only
  rw [if_pos ⟨hn, hn⟩, slice_piece hn]

/-- The chunks of an accepted GET, read in any order, are the pieces of the content. -/
theorem get_reads_pieces {sys : FileSystem t S} {s : FileServer S} {req : SoxRequest}
    {content : List UInt8} (h : GetOpens sys s req content) {server : FileServer S}
    (hserver : fileStep sys (.ok s) (.request req) = .ok server) {n : ℕ} (hn16 : n < 65536)
    (hn : n < pieceCount content.length (readOpenRequest t req.payload).chunkSize) (reqId : UInt8) :
    handleFileEvent sys server (.request ⟨.fileRead, reqId, beBytes16 (UInt16.ofNat n)⟩) =
      .ok (server, some ((SoxResponse.success .fileRead reqId).writeBytes
        (piece content (readOpenRequest t req.payload).chunkSize n))) := by
  rw [fileStep_getOpens h] at hserver
  cases hserver
  obtain ⟨path, canonical, -, -, hread⟩ := h.path_ok
  have hlen := sys.read_length _ _ _ hread
  have hwhole : (openedGet (readOpenRequest t req.payload) content).fileSize = content.length := by
    dsimp only [openedGet]
    rw [h.offset_eq, Nat.sub_zero]
    split_ifs with hzero
    · rfl
    · exact Nat.min_eq_right (h.whole.resolve_left hzero)
  have hdata : (openedGet (readOpenRequest t req.payload) content).data.length ≤ t.usizeMax := by
    change content.length ≤ t.usizeMax
    omega
  have hpiece := handleFileRead_piece reqId (readOpenRequest_chunkSize_le t req.payload) rfl
    h.offset_eq hwhole hdata hn16 (piece_start_lt hn)
  change withXfer _ (handleFileRead t _ _) = _
  rw [hpiece]
  rfl

end Get

section Reliability

/-- Both directions of a transfer and the two ways a chunk comes in. A PUT within
    the size limit whose announced chunks arrive in the order `ns`, with what
    repetitions it has, writes the content; a GET gives the content back; and a
    chunk leaves the same transfer by either command. -/
theorem fileTransfer_reliable (sys : FileSystem t S) (content : List UInt8) :
    (∀ (s : FileServer S) (req close : SoxRequest) (fs : S) (writePath : String)
        (es : List FileEvent) (ns : List ℕ),
      PutOpens sys s req content fs writePath → close.cmd = .fileClose →
      content.length ≤ maxPutSize →
      chunkCount content.length (readOpenRequest t req.payload).chunkSize ≤ 65536 →
      (es.map chunkPayload = ns.map fun n =>
        some (chunkMessage content (readOpenRequest t req.payload).chunkSize n)) →
      (∀ n, n ∈ ns ↔ n < chunkCount content.length (readOpenRequest t req.payload).chunkSize) →
      (t.profile = .release ∨ es.length ≤ t.usizeMax) →
      run (fileStep sys) (.ok s) (.request req :: (es ++ [.request close])) =
        .ok ⟨(sys.write fs writePath content).1, none⟩) ∧
    (∀ (s : FileServer S) (req : SoxRequest), GetOpens sys s req content →
      pieceCount content.length (readOpenRequest t req.payload).chunkSize ≤ 65536 →
      ∃ server, fileStep sys (.ok s) (.request req) = .ok server ∧
        ∃ chunks : ℕ → List UInt8,
          (∀ n < pieceCount content.length (readOpenRequest t req.payload).chunkSize, ∀ reqId,
            handleFileEvent sys server
                (.request ⟨.fileRead, reqId, beBytes16 (UInt16.ofNat n)⟩) =
              .ok (server,
                some ((SoxResponse.success .fileRead reqId).writeBytes (chunks n)))) ∧
          (List.range (pieceCount content.length
            (readOpenRequest t req.payload).chunkSize)).flatMap chunks = content) ∧
    (∀ (xfer : Option SoxFileXfer) (payload : List UInt8) (reqId : UInt8),
      (handleFileWriteChunkInner t xfer payload reqId).map Prod.fst =
        handlePutChunk t xfer payload) := by
  refine ⟨?_, ?_, handleFileWriteChunkInner_xfer t⟩
  · intro s req close fs writePath es ns hopen hclose hsize hmany hes hns hcount
    exact put_writes_content hopen hclose hsize hmany hes hns hcount
  · intro s req hopen hmany
    refine ⟨_, fileStep_getOpens hopen, piece content (readOpenRequest t req.payload).chunkSize,
      ?_, flatMap_piece content (readOpenRequest_chunkSize_pos t req.payload)⟩
    intro n hn reqId
    exact get_reads_pieces hopen (fileStep_getOpens hopen) (Nat.lt_of_lt_of_le hn hmany) hn reqId

/-- An open request for `/tmp/a` with no headers. -/
def openTmp (method : String) (fileSize : UInt32) (chunkSize : UInt16) : SoxRequest :=
  ⟨.fileOpen, 1, asBytes method ++ [0] ++ asBytes "/tmp/a" ++ [0] ++ beBytes32 fileSize ++
    beBytes16 chunkSize ++ [0]⟩

/-- Three bytes in chunks of two: the second chunk first and once again, both commands. -/
theorem fileTransfer_reliable_three_bytes :
    run (fileStep (diskFileSystem ⟨.bits64, .debug⟩)) (.ok ⟨[], none⟩)
      (.request (openTmp "p" 3 2) :: ([.putChunk [0, 1, 0, 1, 9],
        .request ⟨.fileWrite, 2, [0, 0, 0, 2, 7, 8]⟩, .putChunk [0, 1, 0, 1, 9]] ++
        [.request ⟨.fileClose, 3, []⟩])) = .ok ⟨[("/tmp/a", [7, 8, 9])], none⟩ := by
  refine (fileTransfer_reliable (diskFileSystem ⟨.bits64, .debug⟩) [7, 8, 9]).1 ⟨[], none⟩
    (openTmp "p" 3 2) ⟨.fileClose, 3, []⟩ [] "/tmp/a" _ [1, 0, 1] ?_ rfl (by decide)
    (by decide +kernel) (by decide +kernel) ?_ (.inr (by decide))
  · refine ⟨rfl, rfl, by decide +kernel, by decide +kernel, by decide +kernel, "/tmp/a", ?_, ?_⟩
    · decide +kernel
    · decide +kernel
  · have hcount : chunkCount 3
        (readOpenRequest ⟨.bits64, .debug⟩ (openTmp "p" 3 2).payload).chunkSize = 2 := by
      decide +kernel
    intro n
    change n ∈ [1, 0, 1] ↔ n < chunkCount 3 _
    rw [hcount]
    simp only [List.mem_cons, List.not_mem_nil, or_false]
    omega

theorem run_idle (sys : FileSystem t S) (fs : S) {es : List FileEvent}
    (h : ∀ e ∈ es, ∃ payload, chunkPayload e = some payload) :
    run (fileStep sys) (.ok ⟨fs, none⟩) es = .ok ⟨fs, none⟩ := by
  induction es with
  | nil => rfl
  | cons e es ih =>
    obtain ⟨payload, he⟩ := h e List.mem_cons_self
    rw [run_cons, fileStep_chunk sys _ he, handlePutChunk_idle (.inl rfl)]
    exact ih fun e' he' => h e' (List.mem_cons_of_mem e he')

/-- One byte over ten megabytes in 161 chunks: the open request, which reads as a PUT
    of that size from offset zero, is refused, and nothing is ever written. -/
theorem put_over_limit_writes_nothing :
    let content : List UInt8 := List.replicate 10485761 0
    readOpenRequest ⟨.bits64, .debug⟩ (openTmp "p" 10485761 65535).payload =
        ⟨"p", "/tmp/a", content.length, 65535, 0⟩ ∧
      chunkCount content.length 65535 = 161 ∧
      run (fileStep (diskFileSystem ⟨.bits64, .debug⟩)) (.ok ⟨[], none⟩)
        (.request (openTmp "p" 10485761 65535) ::
          (((List.range 161).map fun n => .putChunk (chunkMessage content 65535 n)) ++
            [.request ⟨.fileClose, 3, []⟩])) = .ok ⟨[], none⟩ := by
  intro content
  have hlen : content.length = 10485761 := List.length_replicate
  refine ⟨?_, ?_, ?_⟩
  · rw [hlen]
    decide +kernel
  · rw [hlen]
    decide +kernel
  · have hopen : fileStep (diskFileSystem ⟨.bits64, .debug⟩) (.ok ⟨[], none⟩)
        (.request (openTmp "p" 10485761 65535)) = .ok ⟨[], none⟩ := by
      decide +kernel
    rw [run_cons, hopen, run_concat, run_idle]
    · rfl
    · intro e he
      obtain ⟨n, -, rfl⟩ := List.mem_map.1 he
      exact ⟨_, rfl⟩

end Reliability
end Sandstar.FileTransfer
