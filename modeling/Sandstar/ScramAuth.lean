import Sandstar.FloatOps
import Sandstar.Table
import Sandstar.Utf8

set_option autoImplicit false

/-!
# SCRAM handshakes and sessions (auth.rs)

Users prove their password against a stored key and get a session token; a bearer
token is checked as it is. The hashes, the base64 codec and the random strings come
from outside.
-/
namespace Sandstar.Auth

open Utf8

/-- SHA-256, its HMAC and base64. -/
structure Crypto where
  hmacSha256 : List UInt8 → List UInt8 → List UInt8
  sha256 : List UInt8 → List UInt8
  base64Encode : List UInt8 → String
  base64Decode : String → Except String (List UInt8)

def Crypto.unused : Crypto := ⟨fun _ _ => [], fun _ => [], fun _ => "", fun _ => .error "unused"⟩

structure StoredCredential where
  username : String
  salt : List UInt8
  iterations : UInt32
  storedKey : List UInt8
  serverKey : List UInt8
deriving DecidableEq

structure AuthStore where
  credentials : Table String StoredCredential
  bearerToken : Option String

namespace AuthStore

def getCredential (s : AuthStore) (username : String) : Option StoredCredential :=
  s.credentials.get username

def checkBearer (s : AuthStore) (token : String) : Bool := s.bearerToken = some token

def isAuthRequired (s : AuthStore) : Bool := s.bearerToken.isSome || s.credentials.size != 0

end AuthStore

structure ScramHandshake where
  username : String
  clientNonce : String
  serverNonce : String
  clientFirstBare : String
  stored : StoredCredential
  createdAt : Instant
deriving DecidableEq

def handshakeTimeoutSecs : ℕ := 30

def ScramHandshake.isExpired (h : ScramHandshake) (now : Instant) : Bool :=
  handshakeTimeoutSecs ≤ (now - h.createdAt) / 1000000000

def parts (s : String) : List String := (s.toList.splitOn ',').map String.ofList

def stripPrefix (pre s : String) : Option String :=
  if pre.toList <+: s.toList then some (String.ofList (s.toList.drop pre.length)) else none

def beforeLast (text : List Char) : List Char → Option (List Char)
  | [] => none
  | c :: cs =>
    match beforeLast text cs with
    | some before => some (c :: before)
    | none => if text <+: c :: cs then some [] else none

/-- The value of the last part that starts with `key`, where no key before it in
    `earlier` fits. -/
def lastField (key : String) (earlier : List String) (ps : List String) : Option String :=
  ps.foldl (fun found p =>
    if earlier.any fun k => (stripPrefix k p).isSome then found
    else match stripPrefix key p with
      | some value => some value
      | none => found) none

structure ClientFirst where
  username : String
  nonce : String
  bare : String
deriving DecidableEq

def parseClientFirst (msg : String) : Except String ClientFirst :=
  match stripPrefix "n,," msg with
  | none => .error "missing GS2 header 'n,,'"
  | some bare =>
    match lastField "n=" [] (parts bare) with
    | none => .error "missing n= in client-first"
    | some username =>
      match lastField "r=" ["n="] (parts bare) with
      | none => .error "missing r= in client-first"
      | some nonce => .ok ⟨username, nonce, bare⟩

structure ClientFinal where
  nonce : String
  proof : List UInt8
  withoutProof : String
deriving DecidableEq

variable (crypto : Crypto)

def scramServerFirst (h : ScramHandshake) : String :=
  "r=" ++ h.clientNonce ++ h.serverNonce ++ ",s=" ++ crypto.base64Encode h.stored.salt ++ ",i=" ++
    toString h.stored.iterations

def parseClientFinal (msg : String) : Except String ClientFinal :=
  match lastField "c=" [] (parts msg) with
  | none => .error "missing c= in client-final"
  | some _ =>
    match lastField "r=" ["c="] (parts msg) with
    | none => .error "missing r= in client-final"
    | some nonce =>
      match lastField "p=" ["c=", "r="] (parts msg) with
      | none => .error "missing p= in client-final"
      | some proofB64 =>
        match crypto.base64Decode proofB64 with
        | .error e => .error ("invalid proof base64: " ++ e)
        | .ok proof =>
          match beforeLast ",p=".toList msg.toList with
          | none => .error "missing ,p= in client-final"
          | some before => .ok ⟨nonce, proof, String.ofList before⟩

def authMessage (h : ScramHandshake) (final : ClientFinal) : String :=
  h.clientFirstBare ++ "," ++ scramServerFirst crypto h ++ "," ++ final.withoutProof

def recoveredClientKey (h : ScramHandshake) (final : ClientFinal) : List UInt8 :=
  final.proof.zipWith (· ^^^ ·)
    (crypto.hmacSha256 h.stored.storedKey (asBytes (authMessage crypto h final)))

def scramVerifyClientFinal (now : Instant) (h : ScramHandshake) (clientFinalMsg : String) :
    Except String String :=
  if h.isExpired now then .error "handshake expired"
  else
    match parseClientFinal crypto clientFinalMsg with
    | .error e => .error e
    | .ok final =>
      if final.nonce ≠ h.clientNonce ++ h.serverNonce then .error "nonce mismatch"
      else if final.proof.length ≠ 32 then
        .error ("invalid proof length: " ++ toString final.proof.length ++ " (expected 32)")
      else if crypto.sha256 (recoveredClientKey crypto h final) ≠ h.stored.storedKey then
        .error "invalid client proof (wrong password)"
      else
        .ok (crypto.base64Encode
          (crypto.hmacSha256 h.stored.serverKey (asBytes (authMessage crypto h final))))

structure AuthSession where
  token : String
  username : String
  expiresAt : Instant
deriving DecidableEq

def AuthSession.isExpired (s : AuthSession) (now : Instant) : Bool := s.expiresAt ≤ now

def sessionLifetimeSecs : ℕ := 86400

structure SessionStore where
  sessions : Table String AuthSession
  maxSessions : ℕ

abbrev SessionOrder := Table.KeyOrder String AuthSession

namespace SessionStore

def expireStale (s : SessionStore) (now : Instant) : SessionStore :=
  { s with sessions := s.sessions.retain fun _ session => !session.isExpired now }

def oldest (s : SessionStore) (order : SessionOrder) : Option String :=
  (order.walk s.sessions).argmin fun token => ((s.sessions.get token).map (·.expiresAt)).getD 0

def createSession (s : SessionStore) (order : SessionOrder) (now : Instant)
    (token username : String) : SessionStore × AuthSession :=
  let s := if s.maxSessions ≤ s.sessions.size then s.expireStale now else s
  let s :=
    if s.maxSessions ≤ s.sessions.size then
      match s.oldest order with
      | some oldestToken => { s with sessions := s.sessions.erase oldestToken }
      | none => s
    else s
  let session : AuthSession := ⟨token, username, now + sessionLifetimeSecs * 1000000000⟩
  ({ s with sessions := s.sessions.insert token session }, session)

def validateToken (s : SessionStore) (now : Instant) (token : String) : Option AuthSession :=
  (s.sessions.get token).filter fun session => !session.isExpired now

end SessionStore

structure AuthShared where
  sessions : SessionStore
  handshakes : Table String ScramHandshake

def maxSessions : ℕ := 256

def AuthShared.new : AuthShared := ⟨⟨Table.empty, maxSessions⟩, Table.empty⟩

structure Draw where
  clientNonce : String
  serverNonce : String
  handshakeToken : String
  sessionToken : String
  order : SessionOrder

def Draw.unused : Draw := ⟨"", "", "", "", .ascending String AuthSession⟩

namespace AuthStore

def beginScram (store : AuthStore) (draw : Draw) (now : Instant) (a : AuthShared)
    (clientFirstMsg : String) : AuthShared × Except String (String × String) :=
  match parseClientFirst clientFirstMsg with
  | .error e => (a, .error e)
  | .ok first =>
    match store.getCredential first.username with
    | none => (a, .error "unknown user")
    | some stored =>
      let handshake : ScramHandshake :=
        ⟨first.username, first.nonce, draw.serverNonce, first.bare, stored, now⟩
      let handshakes := a.handshakes.retain fun _ h => !h.isExpired now
      ({ a with handshakes := handshakes.insert draw.handshakeToken handshake },
        .ok (draw.handshakeToken, scramServerFirst crypto handshake))

end AuthStore

def completeScram (draw : Draw) (now : Instant) (a : AuthShared)
    (handshakeToken clientFinalMsg : String) : AuthShared × Except String (String × String) :=
  match a.handshakes.get handshakeToken with
  | none => (a, .error "invalid or expired handshake token")
  | some handshake =>
    let a := { a with handshakes := a.handshakes.erase handshakeToken }
    match scramVerifyClientFinal crypto now handshake clientFinalMsg with
    | .error e => (a, .error e)
    | .ok serverSig =>
      let (sessions, session) :=
        a.sessions.createSession draw.order now draw.sessionToken handshake.username
      ({ a with sessions := sessions }, .ok (session.token, serverSig))

def AuthStore.checkToken (store : AuthStore) (now : Instant) (a : AuthShared) (token : String) :
    Bool :=
  !store.isAuthRequired || store.checkBearer token || (a.sessions.validateToken now token).isSome

/-- The message names a handshake that is under way, repeats its nonces and holds
    a key whose hash is the stored one. -/
def Proved (now : Instant) (a : AuthShared) (handshakeToken clientFinalMsg : String) : Prop :=
  ∃ h final, a.handshakes.get handshakeToken = some h ∧ h.isExpired now = false ∧
    parseClientFinal crypto clientFinalMsg = .ok final ∧
    final.nonce = h.clientNonce ++ h.serverNonce ∧ final.proof.length = 32 ∧
    crypto.sha256 (recoveredClientKey crypto h final) = h.stored.storedKey

theorem completeScram_ok_iff (draw : Draw) {now : Instant} {a : AuthShared}
    {handshakeToken clientFinalMsg : String} :
    (∃ reply, (completeScram crypto draw now a handshakeToken clientFinalMsg).2 = .ok reply) ↔
      Proved crypto now a handshakeToken clientFinalMsg := by
  unfold completeScram Proved
  cases hget : a.handshakes.get handshakeToken with
  | none => simp
  | some h =>
    simp only [scramVerifyClientFinal]
    cases hexpired : h.isExpired now with
    | true => simp [hexpired]
    | false =>
      cases hparse : parseClientFinal crypto clientFinalMsg with
      | error e => simp
      | ok final =>
        by_cases hnonce : final.nonce = h.clientNonce ++ h.serverNonce
        · by_cases hlen : final.proof.length = 32
          · by_cases hkey : crypto.sha256 (recoveredClientKey crypto h final) = h.stored.storedKey
            · simp [hnonce, hlen, hkey, hexpired]
            · simp [hnonce, hlen, hkey]
          · simp [hnonce, hlen]
        · simp [hnonce]

end Sandstar.Auth
