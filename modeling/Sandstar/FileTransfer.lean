import Sandstar.TreeRequests
import Sandstar.Machine

set_option autoImplicit false

/-!
# SOX file transfer

Opening a file for reading or writing, its chunks, closing and renaming
(sox_handlers.rs). The operating system is a record of operations on a file
system state. A handler that panics does so while it holds the transfer mutex, so
a fault ends every later file request as well.
-/
namespace Sandstar.FileTransfer
open SoxProtocol TreeRequests Machine

inductive SoxFileXferMode
  | get
  | put
deriving DecidableEq, Repr

structure SoxFileXfer where
  data : List UInt8
  chunkSize : ℕ
  mode : SoxFileXferMode
  writePath : Option String
  fileSize : ℕ
  numChunks : ℕ
  chunksReceived : ℕ
  offset : ℕ
deriving DecidableEq, Repr

/-- The calls into the operating system. No vector is longer than `isize::MAX`,
    so none that a read returns passes half of the address space. -/
structure FileSystem (t : Target) (S : Type) where
  canonicalize : S → String → Option String
  pathExists : S → String → Bool
  createDirAll : S → String → S × Bool
  read : S → String → Option (List UInt8)
  write : S → String → List UInt8 → S × Bool
  rename : S → String → String → S × Bool
  tempDir : String
  read_length : ∀ s path data, read s path = some data → 2 * data.length ≤ t.usizeMax

/-- The file system and the one transfer the server holds. -/
structure FileServer (S : Type) where
  fs : S
  xfer : Option SoxFileXfer
deriving DecidableEq

def soxChunkSize : ℕ := 256

def kitsBaseDir : String := "/home/eacio/sandstar/etc/kits"

def manifestsDir : String := "/home/eacio/sandstar/etc/manifests"

section Paths

def startsWith (s start : String) : Bool := start.toList.isPrefixOf s.toList

def stripStart (s start : String) : Option String :=
  if startsWith s start then some (String.ofList (s.toList.drop start.toList.length)) else none

def resolveSoxUri (uri : String) : Except String String :=
  match stripStart uri "m:" with
  | some manifestName =>
    if manifestName = "m.zip" then .error "m.zip not supported"
    else .ok (manifestsDir ++ "/" ++ manifestName)
  | none => match stripStart uri "/kits/" with
    | some kitPath => .ok (kitsBaseDir ++ "/" ++ kitPath)
    | none => if startsWith uri "/" then .ok uri else .ok (kitsBaseDir ++ "/" ++ uri)

def hasTraversal : List Char → Bool
  | [] => false
  | c :: cs => (c = '.' && cs.head? = some '.') || c.toNat = 0 || hasTraversal cs

def pathComponents (path : String) : List String :=
  ((path.toList.splitOn '/').map String.ofList).filter fun seg => seg ≠ "" ∧ seg ≠ "."

def splitPath (path : String) : Option (String × String) :=
  match (pathComponents path).reverse with
  | [] => none
  | name :: parents => some ("/" ++ "/".intercalate parents.reverse, name)

def joinPath (parent name : String) : String :=
  if parent.toList.getLast? = some '/' then parent ++ name else parent ++ "/" ++ name

def trimSeparators (s : String) : String :=
  String.ofList (s.toList.reverse.dropWhile (fun c => c = '/' || c = '\\')).reverse

variable {t : Target} {S : Type}

def allowedWriteDirs (sys : FileSystem t S) (fs : S) : List String :=
  let dirs := [manifestsDir, "/home/eacio/sandstar/etc/config", "/tmp"]
  let temp := trimSeparators ((sys.canonicalize fs sys.tempDir).getD sys.tempDir)
  if temp ∈ dirs then dirs else dirs ++ [temp]

def validateWritePath (sys : FileSystem t S) (fs : S) (path : String) :
    S × Except String String :=
  if hasTraversal path.toList then (fs, .error "invalid path")
  else match splitPath path with
    | none => (fs, .error "invalid path")
    | some (parent, filename) =>
      let writeDirs := allowedWriteDirs sys fs
      let (fs, made) :=
        if sys.pathExists fs parent then (fs, true) else sys.createDirAll fs parent
      if !made then (fs, .error "cannot create directory")
      else match sys.canonicalize fs parent with
        | none => (fs, .error "invalid path")
        | some canonicalParent =>
          if writeDirs.any fun dir => startsWith canonicalParent dir then
            (fs, .ok (joinPath canonicalParent filename))
          else (fs, .error "invalid path")

def validateReadPath (sys : FileSystem t S) (fs : S) (path : String) : Except String String :=
  if hasTraversal path.toList then .error "invalid path"
  else match sys.canonicalize fs path with
    | none => .error "file not found"
    | some canonical =>
      if [kitsBaseDir, manifestsDir].any fun dir => startsWith canonical dir then .ok canonical
      else .error "invalid path"

end Paths

section Open

/-- `str::parse::<usize>`: an optional plus sign and decimal digits, within range. -/
def parseUsize (t : Target) (s : String) : Option ℕ :=
  let digits := match s.toList with
    | '+' :: cs => cs
    | cs => cs
  if digits ≠ [] ∧ digits.all fun c => 48 ≤ c.toNat && c.toNat ≤ 57 then
    let n := digits.foldl (fun n c => 10 * n + (c.toNat - 48)) 0
    if n ≤ t.usizeMax then some n else none
  else none

/-- The header loop, which ends at an empty key or the end of the payload. Every
    turn takes at least a terminator, so the remaining length bounds the turns. -/
def readHeaders (t : Target) : ℕ → SoxReader → ℕ → ℕ
  | 0, _, offset => offset
  | fuel + 1, r, offset => match r.readStr with
    | (none, _) => offset
    | (some key, r) =>
      if key = "" then offset
      else
        let val := r.readStr.1.getD ""
        readHeaders t fuel r.readStr.2
          (if key = "offset" then (parseUsize t val).getD 0 else offset)

structure OpenRequest where
  method : String
  uri : String
  fileSize : ℕ
  chunkSize : ℕ
  offset : ℕ
deriving DecidableEq, Repr

def readOpenRequest (t : Target) (payload : List UInt8) : OpenRequest :=
  let r : SoxReader := ⟨payload⟩
  let method := r.readStr.1.getD ""
  let r := r.readStr.2
  let uri := r.readStr.1.getD ""
  let r := r.readStr.2
  let fileSize := (r.readU32.1.getD 0).toNat
  let r := r.readU32.2
  let chunkSize := match r.readU16.1 with
    | some n => n.toNat
    | none => soxChunkSize
  let r := r.readU16.2
  let offset := readHeaders t (r.rest.length + 1) r 0
  ⟨method, uri, fileSize, if chunkSize = 0 then soxChunkSize else chunkSize, offset⟩

/-- The number of chunks of a file: a zero-byte file still takes one. -/
def chunkCount (fileSize chunkSize : ℕ) : ℕ :=
  if fileSize = 0 then 1 else (fileSize + chunkSize - 1) / chunkSize

def maxPutSize : ℕ := 10 * 1024 * 1024

def openReply (req : SoxRequest) (size chunkSize : ℕ) : SoxResponse :=
  (((SoxResponse.success .fileOpen req.reqId).writeU32 (UInt32.ofNat size)).writeU16
    (UInt16.ofNat chunkSize)).writeU8 0

variable {t : Target} {S : Type}

def handleFileOpen (sys : FileSystem t S) (s : FileServer S) (req : SoxRequest) :
    FileServer S × SoxResponse :=
  let o := readOpenRequest t req.payload
  match resolveSoxUri o.uri with
  | .error msg => (s, errorMsg req msg)
  | .ok path =>
    if s.xfer.isSome then (s, errorMsg req "busy")
    else if o.method = "g" then
      match validateReadPath sys s.fs path with
      | .error msg => (s, errorMsg req msg)
      | .ok canonical => match sys.read s.fs canonical with
        | none => (s, errorMsg req "file not found")
        | some data =>
          let size := if o.fileSize = 0 then data.length - o.offset
            else min o.fileSize (data.length - o.offset)
          ({ s with xfer := some ⟨data, o.chunkSize, .get, none, size, 0, 0, o.offset⟩ },
            openReply req size o.chunkSize)
    else if o.method = "p" then
      match validateWritePath sys s.fs path with
      | (fs, .error msg) => ({ s with fs := fs }, errorMsg req msg)
      | (fs, .ok writePath) =>
        if maxPutSize < o.fileSize then ({ s with fs := fs }, errorMsg req "too big")
        else
          (⟨fs, some ⟨List.replicate o.fileSize 0, o.chunkSize, .put, some writePath, o.fileSize,
            chunkCount o.fileSize o.chunkSize, 0, o.offset⟩⟩, openReply req o.fileSize o.chunkSize)
    else (s, errorMsg req "bad method")

end Open

section Chunks

abbrev XferResult := Except Fault (Option SoxFileXfer × SoxResponse)

def handleFileRead (t : Target) (xfer : Option SoxFileXfer) (req : SoxRequest) : XferResult :=
  let r : SoxReader := ⟨req.payload⟩
  let chunkNum := (r.readU16.1.getD 0).toNat
  match xfer with
  | none => .ok (xfer, errorMsg req "no file open")
  | some file =>
    if file.mode ≠ .get then .ok (xfer, errorMsg req "not in get mode")
    else match t.checkedMul chunkNum file.chunkSize with
      | none => .ok (xfer, errorMsg req "chunk out of range")
      | some product => do
        let start ← t.add product file.offset
        let stop ← t.add start file.chunkSize
        let fileEnd ← t.add file.offset file.fileSize
        let stop := min (min stop fileEnd) file.data.length
        if start < file.data.length ∧ start < fileEnd then do
          let bytes ← slice file.data start stop
          .ok (xfer, (SoxResponse.success .fileRead req.reqId).writeBytes bytes)
        else .ok (xfer, errorMsg req "chunk out of range")

structure Chunk where
  num : ℕ
  data : List UInt8
deriving DecidableEq, Repr

def readChunk (payload : List UInt8) : Except String Chunk :=
  let r : SoxReader := ⟨payload⟩
  match r.readU16 with
  | (none, _) => .error "bad chunk"
  | (some num, r) => match r.readU16 with
    | (none, _) => .error "bad chunk"
    | (some size, r) => match (r.readBytes size.toNat).1 with
      | none => .error "truncated chunk"
      | some data => .ok ⟨num.toNat, data⟩

def writeError (reqId : UInt8) (msg : String) : SoxResponse :=
  (SoxResponse.error .fileWrite reqId).writeStr msg

def handleFileWriteChunkInner (t : Target) (xfer : Option SoxFileXfer) (payload : List UInt8)
    (reqId : UInt8) : XferResult :=
  match readChunk payload with
  | .error msg => .ok (xfer, writeError reqId msg)
  | .ok chunk => match xfer with
    | none => .ok (xfer, writeError reqId "no file open")
    | some file =>
      if file.mode ≠ .put then .ok (xfer, writeError reqId "not in put mode")
      else do
        let product ← t.mul chunk.num file.chunkSize
        let writeStart ← t.add file.offset product
        let writeEnd ← t.add writeStart chunk.data.length
        if file.data.length < writeEnd then .ok (xfer, writeError reqId "chunk out of range")
        else do
          let data ← copyInto file.data writeStart writeEnd chunk.data
          let received ← t.add file.chunksReceived 1
          .ok (some { file with data := data, chunksReceived := received },
            SoxResponse.success .fileWrite reqId)

def handleFileWrite (t : Target) (xfer : Option SoxFileXfer) (req : SoxRequest) : XferResult :=
  handleFileWriteChunkInner t xfer req.payload req.reqId

def isPutTransferActive (xfer : Option SoxFileXfer) : Bool :=
  match xfer with
  | some file => file.mode = .put
  | none => false

/-- `handle_put_chunk`, the silent second way in: it never answers. -/
def handlePutChunk (t : Target) (xfer : Option SoxFileXfer) (payload : List UInt8) :
    Except Fault (Option SoxFileXfer) :=
  match readChunk payload with
  | .error _ => .ok xfer
  | .ok chunk => match xfer with
    | none => .ok xfer
    | some file =>
      if file.mode ≠ .put then .ok xfer
      else do
        let product ← t.mul chunk.num file.chunkSize
        let writeStart ← t.add file.offset product
        let writeEnd ← t.add writeStart chunk.data.length
        if file.data.length < writeEnd then .ok xfer
        else do
          let data ← copyInto file.data writeStart writeEnd chunk.data
          let received ← t.add file.chunksReceived 1
          .ok (some { file with data := data, chunksReceived := received })

end Chunks

section Close

variable {t : Target} {S : Type}

/-- `handle_file_close`: what a PUT has gathered is written as it stands. -/
def handleFileClose (sys : FileSystem t S) (s : FileServer S) (req : SoxRequest) :
    FileServer S × SoxResponse :=
  match s.xfer with
  | none => (s, SoxResponse.success .fileClose req.reqId)
  | some file =>
    if file.mode = .put then
      match file.writePath with
      | none => ({ s with xfer := none }, SoxResponse.success .fileClose req.reqId)
      | some path => match sys.write s.fs path file.data with
        | (fs, true) => (⟨fs, none⟩, SoxResponse.success .fileClose req.reqId)
        | (fs, false) => (⟨fs, none⟩, errorMsg req "write failed")
    else ({ s with xfer := none }, SoxResponse.success .fileClose req.reqId)

def handleFileRename (sys : FileSystem t S) (s : FileServer S) (req : SoxRequest) :
    FileServer S × SoxResponse :=
  let r : SoxReader := ⟨req.payload⟩
  let fromUri := r.readStr.1.getD ""
  let r := r.readStr.2
  let toUri := r.readStr.1.getD ""
  if fromUri = "" ∨ toUri = "" then (s, errorMsg req "empty path")
  else match resolveSoxUri fromUri with
    | .error msg => (s, errorMsg req msg)
    | .ok fromPath => match resolveSoxUri toUri with
      | .error msg => (s, errorMsg req msg)
      | .ok toPath => match validateWritePath sys s.fs fromPath with
        | (fs, .error msg) => ({ s with fs := fs }, errorMsg req msg)
        | (fs, .ok source) =>
          if !sys.pathExists fs source then ({ s with fs := fs }, errorMsg req "not found")
          else match validateWritePath sys fs toPath with
            | (fs, .error msg) => ({ s with fs := fs }, errorMsg req msg)
            | (fs, .ok dest) => match sys.rename fs source dest with
              | (fs, true) => ({ s with fs := fs }, SoxResponse.success .fileRename req.reqId)
              | (fs, false) => ({ s with fs := fs }, errorMsg req "rename failed")

end Close

section Server

variable {t : Target} {S : Type}

/-- A file request as the server receives it: a parsed request, or the payload of
    a chunk that arrives under the invoke letter during a PUT. -/
inductive FileEvent
  | request (req : SoxRequest)
  | putChunk (payload : List UInt8)
deriving DecidableEq, Repr

/-- The transfer a result leaves, put back beside the file system. -/
def withXfer (s : FileServer S) (r : XferResult) :
    Except Fault (FileServer S × Option SoxResponse) := do
  let (xfer, resp) ← r
  .ok ({ s with xfer := xfer }, some resp)

def handleFileEvent (sys : FileSystem t S) (s : FileServer S) :
    FileEvent → Except Fault (FileServer S × Option SoxResponse)
  | .putChunk payload => do
    let xfer ← handlePutChunk t s.xfer payload
    .ok ({ s with xfer := xfer }, none)
  | .request req => match req.cmd with
    | .fileOpen => let (s, resp) := handleFileOpen sys s req; .ok (s, some resp)
    | .fileRead => withXfer s (handleFileRead t s.xfer req)
    | .fileWrite => withXfer s (handleFileWrite t s.xfer req)
    | .fileClose => let (s, resp) := handleFileClose sys s req; .ok (s, some resp)
    | .fileRename => let (s, resp) := handleFileRename sys s req; .ok (s, some resp)
    | _ => .ok (s, none)

/-- The server after one more request; a fault is there to stay. -/
def fileStep (sys : FileSystem t S) (s : Except Fault (FileServer S)) (e : FileEvent) :
    Except Fault (FileServer S) := do
  let s ← s
  let (s, _) ← handleFileEvent sys s e
  .ok s

end Server
end Sandstar.FileTransfer
