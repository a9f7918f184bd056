import Sandstar.SvmInterpreter

set_option autoImplicit false

namespace Sandstar.Svm

section Loader

structure ScodeHeader where
  magic : Bytes 4
  majorVer : Bytes 1
  minorVer : Bytes 1
  blockSize : Bytes 1
  refSize : Bytes 1
  imageSize : Bytes 4
  dataSize : Bytes 4
  mainMethod : Bytes 2
  testsBix : Bytes 2
  resumeMethod : Bytes 2
deriving DecidableEq

structure ScodeImage where
  header : ScodeHeader
  code : List Byte
deriving DecidableEq

def scodeMagic : Bytes 4 := 0x5ED0BA07

def scodeHeaderSize : ℕ := 32

def hex8 (n : ℕ) : String :=
  String.ofList ((List.replicate 8 '0' ++ (Nat.toDigits 16 n).map Char.toUpper).reverse.take 8).reverse

namespace ScodeHeader

def parse (data : List Byte) : Except VmError ScodeHeader :=
  if data.length < scodeHeaderSize then
    .error (.badImage
      s!"scode too short for header: {data.length} bytes (need at least {scodeHeaderSize})")
  else
    .ok {
      magic := (readAt data 4 0).getD 0
      majorVer := (readAt data 1 4).getD 0
      minorVer := (readAt data 1 5).getD 0
      blockSize := (readAt data 1 6).getD 0
      refSize := (readAt data 1 7).getD 0
      imageSize := (readAt data 4 8).getD 0
      dataSize := (readAt data 4 12).getD 0
      mainMethod := (readAt data 2 16).getD 0
      testsBix := (readAt data 2 18).getD 0
      resumeMethod := (readAt data 2 24).getD 0 }

def validate (h : ScodeHeader) : Except VmError Unit :=
  if h.magic ≠ scodeMagic then
    .error (.badImage
      s!"bad magic: expected 0x{hex8 scodeMagic.toNat}, got 0x{hex8 h.magic.toNat}")
  else if h.majorVer ≠ 1 ∨ h.minorVer ≠ 5 then
    .error (.badImage
      s!"unsupported version: {h.majorVer.toNat}.{h.minorVer.toNat} (expected 1.5)")
  else if h.blockSize ≠ 4 then
    .error (.badImage s!"bad block size: expected 4, got {h.blockSize.toNat}")
  else if h.imageSize.toNat < scodeHeaderSize then
    .error (.badImage
      s!"image_size {h.imageSize.toNat} is smaller than header ({scodeHeaderSize})")
  else .ok ()

def mismatchMessage (size actual : ℕ) : String :=
  s!"image_size mismatch: header says {size} bytes, actual data is {actual} bytes"

def validateWithLength (h : ScodeHeader) (actualLen : ℕ) : Except VmError Unit := do
  h.validate
  if actualLen ≠ h.imageSize.toNat then
    .error (.badImage (mismatchMessage h.imageSize.toNat actualLen))
  else .ok ()

end ScodeHeader

namespace ScodeImage

def loadFromBytes (data : List Byte) : Except VmError ScodeImage := do
  let header ← ScodeHeader.parse data
  header.validateWithLength data.length
  .ok ⟨header, data⟩

def blockToOffset (image : ScodeImage) (block : Bytes 2) : ℕ :=
  block.toNat * image.header.blockSize.toNat

/-- `VmMemory::from_image` and `VmInterpreter::new`. -/
def interpreter (image : ScodeImage) : Except VmError Vm :=
  if image.header.dataSize = 0 then .error (.badImage "data_size is 0 in scode header")
  else .ok (.new image.code (List.replicate image.header.dataSize.toNat 0) image.header.blockSize)

end ScodeImage

end Loader

structure Runner where
  running : Bool
  interpreter : Option Vm
  resumeOffset : Option ℕ

namespace Runner

variable (natives : Natives)

/-- `start`, on the contents of the file or the error of reading it. -/
def start (r : Runner) (file : Except VmError (List Byte)) : Except Halt Unit × Runner :=
  if r.running then (.error (.error (.badImage "VM already running")), r)
  else
    match file.bind ScodeImage.loadFromBytes with
    | .error e => (.error (.error e), r)
    | .ok image =>
      let resumeMethod := image.header.resumeMethod
      let r := { r with
        resumeOffset := if resumeMethod ≠ 0 then some (image.blockToOffset resumeMethod) else none }
      match image.interpreter with
      | .error e => (.error (.error e), r)
      | .ok vm =>
        match vm.execute natives (image.blockToOffset image.header.mainMethod) with
        | (.error e, _) => (.error e, r)
        | (.ok _, vm) => (.ok (), { r with running := true, interpreter := some vm })

def resume (r : Runner) : Except Halt Cell × Runner :=
  if !r.running then (.error (.error .stopped), r)
  else
    match r.resumeOffset with
    | none => (.error (.error (.badImage "no resume method defined in scode header")), r)
    | some resumeOffset =>
      match r.interpreter with
      | none => (.error (.error .stopped), r)
      | some vm =>
        if vm.stopped then (.error (.error .stopped), { r with running := false })
        else
          let (result, vm) := vm.execute natives resumeOffset
          (result, { r with interpreter := some vm })

end Runner

end Sandstar.Svm
