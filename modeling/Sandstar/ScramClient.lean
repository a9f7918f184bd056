import Sandstar.PointFilter
import Sandstar.ScramAuth

set_option autoImplicit false

/-!
# The other end of a SCRAM handshake (auth.rs)

Stored credentials from a password, the messages of a client, and the removal of what has
expired. PBKDF2 comes from outside like the other hashes.
-/
namespace Sandstar.Auth
open Utf8 RoxWarp

/-- PBKDF2 with HMAC-SHA-256: password, salt and iterations. -/
abbrev Pbkdf2 := List UInt8 → List UInt8 → UInt32 → List UInt8

variable (crypto : Crypto) (hi : Pbkdf2)

def clientKey (saltedPassword : List UInt8) : List UInt8 :=
  crypto.hmacSha256 saltedPassword (asBytes "Client Key")

def StoredCredential.fromPasswordWithSalt (username password : String) (salt : List UInt8)
    (iterations : UInt32) : StoredCredential :=
  let saltedPassword := hi (asBytes password) salt iterations
  { username := username
    salt := salt
    iterations := iterations
    storedKey := crypto.sha256 (clientKey crypto saltedPassword)
    serverKey := crypto.hmacSha256 saltedPassword (asBytes "Server Key") }

def scramClientFirst (nonce username : String) : String × String :=
  let bare := "n=" ++ username ++ ",r=" ++ nonce
  ("n,," ++ bare, bare)

/-- The text of a `ParseIntError` for an unsigned 32-bit number. -/
def parseIntError (s : List Char) : String :=
  let rec walk (n : ℕ) : List Char → String
    | [] => "number too large to fit in target type"
    | c :: cs =>
      if !c.isDigit then "invalid digit found in string"
      else if 2 ^ 32 ≤ 10 * n + (c.toNat - 48) then "number too large to fit in target type"
      else walk (10 * n + (c.toNat - 48)) cs
  if s = [] then "cannot parse integer from empty string"
  else if s = ['+'] then "invalid digit found in string"
  else walk 0 (if s.head? = some '+' then s.tail else s)

structure ServerFirstFields where
  combinedNonce : Option String
  saltB64 : Option String
  iterations : Option UInt32

def readServerFirst (fields : ServerFirstFields) (part : String) :
    Except String ServerFirstFields :=
  match stripPrefix "r=" part with
  | some r => .ok { fields with combinedNonce := some r }
  | none => match stripPrefix "s=" part with
    | some s => .ok { fields with saltB64 := some s }
    | none => match stripPrefix "i=" part with
      | some i => match parseU32 i.toList with
        | some n => .ok { fields with iterations := some n }
        | none => .error ("bad iteration count: " ++ parseIntError i.toList)
      | none => .ok fields

def clientFinalMessage (saltedPassword : List UInt8)
    (clientFirstBare serverFirst combinedNonce : String) : String :=
  let key := clientKey crypto saltedPassword
  let withoutProof := "c=biws,r=" ++ combinedNonce
  let authMessage := clientFirstBare ++ "," ++ serverFirst ++ "," ++ withoutProof
  let signature := crypto.hmacSha256 (crypto.sha256 key) (asBytes authMessage)
  withoutProof ++ ",p=" ++ crypto.base64Encode (key.zipWith (· ^^^ ·) signature)

def scramClientFinal (password clientNonce clientFirstBare serverFirst : String) :
    Except String String :=
  match (parts serverFirst).foldlM readServerFirst ⟨none, none, none⟩ with
  | .error e => .error e
  | .ok fields => match fields.combinedNonce with
    | none => .error "missing r= in server-first"
    | some combinedNonce => match fields.saltB64 with
      | none => .error "missing s= in server-first"
      | some saltB64 => match fields.iterations with
        | none => .error "missing i= in server-first"
        | some iterations =>
          if !clientNonce.toList.isPrefixOf combinedNonce.toList then
            .error "server nonce doesn't start with client nonce"
          else match crypto.base64Decode saltB64 with
            | .error e => .error ("bad salt base64: " ++ e)
            | .ok salt => .ok (clientFinalMessage crypto (hi (asBytes password) salt iterations)
                clientFirstBare serverFirst combinedNonce)

def AuthShared.cleanupExpired (a : AuthShared) (now : Instant) : AuthShared :=
  { sessions := a.sessions.expireStale now
    handshakes := a.handshakes.retain fun _ h => !h.isExpired now }

end Sandstar.Auth
