import Mathlib.Algebra.Group.Nat.Defs
import Mathlib.Data.List.Basic

set_option autoImplicit false

namespace Sandstar.Sha256

def constants : List UInt32 :=
  [0x428a2f98, 0x71374491, 0xb5c0fbcf, 0xe9b5dba5, 0x3956c25b, 0x59f111f1,
    0x923f82a4, 0xab1c5ed5, 0xd807aa98, 0x12835b01, 0x243185be, 0x550c7dc3,
    0x72be5d74, 0x80deb1fe, 0x9bdc06a7, 0xc19bf174, 0xe49b69c1, 0xefbe4786,
    0x0fc19dc6, 0x240ca1cc, 0x2de92c6f, 0x4a7484aa, 0x5cb0a9dc, 0x76f988da,
    0x983e5152, 0xa831c66d, 0xb00327c8, 0xbf597fc7, 0xc6e00bf3, 0xd5a79147,
    0x06ca6351, 0x14292967, 0x27b70a85, 0x2e1b2138, 0x4d2c6dfc, 0x53380d13,
    0x650a7354, 0x766a0abb, 0x81c2c92e, 0x92722c85, 0xa2bfe8a1, 0xa81a664b,
    0xc24b8b70, 0xc76c51a3, 0xd192e819, 0xd6990624, 0xf40e3585, 0x106aa070,
    0x19a4c116, 0x1e376c08, 0x2748774c, 0x34b0bcb5, 0x391c0cb3, 0x4ed8aa4a,
    0x5b9cca4f, 0x682e6ff3, 0x748f82ee, 0x78a5636f, 0x84c87814, 0x8cc70208,
    0x90befffa, 0xa4506ceb, 0xbef9a3f7, 0xc67178f2]

structure Digest where
  (a b c d e f g h : UInt32)

def initial : Digest :=
  ⟨0x6a09e667, 0xbb67ae85, 0x3c6ef372, 0xa54ff53a, 0x510e527f, 0x9b05688c, 0x1f83d9ab, 0x5be0cd19⟩

def rotateRight (n x : UInt32) : UInt32 := (x >>> n) ||| (x <<< (32 - n))

/-- The schedule after `n` more words, the newest word first. -/
def schedule (words : List UInt32) : ℕ → List UInt32
  | 0 => words
  | n + 1 =>
    let words := schedule words n
    let word (i : ℕ) := words.getD i 0
    let small0 (x : UInt32) := rotateRight 7 x ^^^ rotateRight 18 x ^^^ (x >>> 3)
    let small1 (x : UInt32) := rotateRight 17 x ^^^ rotateRight 19 x ^^^ (x >>> 10)
    (small1 (word 1) + word 6 + small0 (word 14) + word 15) :: words

def round (s : Digest) (input : UInt32 × UInt32) : Digest :=
  let large0 := rotateRight 2 s.a ^^^ rotateRight 13 s.a ^^^ rotateRight 22 s.a
  let large1 := rotateRight 6 s.e ^^^ rotateRight 11 s.e ^^^ rotateRight 25 s.e
  let choice := (s.e &&& s.f) ^^^ (~~~s.e &&& s.g)
  let majority := (s.a &&& s.b) ^^^ (s.a &&& s.c) ^^^ (s.b &&& s.c)
  let first := s.h + large1 + choice + input.1 + input.2
  ⟨first + (large0 + majority), s.a, s.b, s.c, s.d + first, s.e, s.f, s.g⟩

def wordOf (bytes : List UInt8) : UInt32 :=
  bytes.foldl (fun word byte => (word <<< 8) ||| byte.toUInt32) 0

def compress (s : Digest) (block : List UInt8) : Digest :=
  let words := (List.range 16).map fun i => wordOf ((block.drop (4 * i)).take 4)
  let t := (constants.zip (schedule words.reverse 48).reverse).foldl round s
  ⟨s.a + t.a, s.b + t.b, s.c + t.c, s.d + t.d, s.e + t.e, s.f + t.f, s.g + t.g, s.h + t.h⟩

def bigEndian (count n : ℕ) : List UInt8 :=
  (List.range count).reverse.map fun i => UInt8.ofNat (n / 256 ^ i % 256)

/-- The message up to a whole number of blocks, its length at the end. -/
def padded (message : List UInt8) : List UInt8 :=
  message ++ 0x80 :: List.replicate ((119 - message.length % 64) % 64) 0 ++
    bigEndian 8 (8 * message.length)

def Digest.bytes (s : Digest) : List UInt8 :=
  [s.a, s.b, s.c, s.d, s.e, s.f, s.g, s.h].flatMap fun word => bigEndian 4 word.toNat

def sha256 (message : List UInt8) : List UInt8 :=
  let text := padded message
  let blocks := (List.range (text.length / 64)).map fun i => (text.drop (64 * i)).take 64
  (blocks.foldl compress initial).bytes

def hmac (key message : List UInt8) : List UInt8 :=
  let key := if 64 < key.length then sha256 key else key
  let key := key ++ List.replicate (64 - key.length) 0
  sha256 (key.map (· ^^^ 0x5c) ++ sha256 (key.map (· ^^^ 0x36) ++ message))

theorem hmac_length (key message : List UInt8) : (hmac key message).length = 32 := rfl

/-- One block of output: the exclusive or of the iterates. -/
def pbkdf2 (password salt : List UInt8) (iterations : UInt32) : List UInt8 :=
  let first := hmac password (salt ++ [0, 0, 0, 1])
  ((List.range (iterations.toNat - 1)).foldl (fun (last, sum) _ =>
    (hmac password last, sum.zipWith (· ^^^ ·) (hmac password last))) (first, first)).2

end Sandstar.Sha256
