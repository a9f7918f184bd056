import Sandstar.ScramHandshakes
import Sandstar.WsConnections

set_option autoImplicit false

namespace Sandstar.Ws
open Auth

structure Challenge where
  handshakeToken : String
  hash : String
  salt : String
  iterations : UInt32

def challengeOf {F : Type} : ServerMsg F → Option Challenge
  | .challenge _ handshakeToken hash salt iterations => some ⟨handshakeToken, hash, salt, iterations⟩
  | _ => none

/-- A client answers a challenge with the token and the proof of an `Authenticate` message. -/
abbrev Answering := (username password : String) → Challenge → String × String

section Completion

variable (crypto : Crypto) (hi : Pbkdf2) (cfg : WsState)

def Accepts (client : Answering) (a : AuthShared) (draw draw' : Draw) (now : Instant)
    (username password : String) : Prop :=
  ∃ challenge, challengeOf (hello (F := ℚ) crypto cfg draw now a username none).2 = some challenge ∧
    (authenticate (F := ℚ) crypto cfg draw' now (hello (F := ℚ) crypto cfg draw now a username none).1
      (client username password challenge).1 (client username password challenge).2 none).2.2 = true

def Genuine (draw : Draw) : Prop :=
  ∃ clientBytes serverBytes, clientBytes.length = 24 ∧ serverBytes.length = 24 ∧
    draw.clientNonce = crypto.base64Encode clientBytes ∧
    draw.serverNonce = crypto.base64Encode serverBytes

def Completes (client : Answering) (username password : String) : Prop :=
  ∀ a draw draw' now, Genuine crypto draw →
    Accepts crypto cfg client a draw draw' now username password

variable {crypto cfg}

theorem challengeFields_scramServerFirst (hcrypto : crypto.Lawful) {h : ScramHandshake}
    (hclient : ',' ∉ h.clientNonce.toList) (hserver : ',' ∉ h.serverNonce.toList) :
    challengeFields (scramServerFirst crypto h) = (crypto.base64Encode h.stored.salt,
      UInt32.ofNat ((((toString h.stored.iterations).toNat?).filter (· < 2 ^ 32)).getD 0)) := by
  have hs : stripPrefix "s=" ("r=" ++ (h.clientNonce ++ h.serverNonce)) = none :=
    stripPrefix_other (by simp) (by simp)
  have hi : stripPrefix "i=" ("r=" ++ (h.clientNonce ++ h.serverNonce)) = none :=
    stripPrefix_other (by simp) (by simp)
  have hsi : stripPrefix "s=" ("i=" ++ toString h.stored.iterations) = none :=
    stripPrefix_other (by simp) (by simp)
  unfold challengeFields
  rw [parts_scramServerFirst hcrypto hclient hserver]
  simp only [List.foldl_cons, List.foldl_nil, hs, hi, hsi, stripPrefix_append]

/-- The handshake that `Hello` opens, and the challenge that goes out. -/
theorem hello_challenge (hcrypto : crypto.Lawful) {store : AuthStore}
    (hstore : cfg.authStore = some store) {username : String} (hname : ',' ∉ username.toList)
    {stored : StoredCredential} (hcred : store.getCredential username = some stored) {draw : Draw}
    (hclient : ',' ∉ draw.clientNonce.toList) (hserver : ',' ∉ draw.serverNonce.toList)
    (now : Instant) (a : AuthShared) :
    hello (F := ℚ) crypto cfg draw now a username none =
      ({ a with
          handshakes := (a.handshakes.retain fun _ h => !h.isExpired now).insert
            draw.handshakeToken ⟨username, draw.clientNonce, draw.serverNonce,
              (scramClientFirst draw.clientNonce username).2, stored, now⟩ },
        .challenge none draw.handshakeToken "SHA-256" (crypto.base64Encode stored.salt)
          (UInt32.ofNat ((((toString stored.iterations).toNat?).filter (· < 2 ^ 32)).getD 0))) := by
  have hmessage : "n,,n=" ++ username ++ ",r=" ++ draw.clientNonce =
      (scramClientFirst draw.clientNonce username).1 := by
    unfold scramClientFirst
    simp only [show "n,,n=" = "n,," ++ "n=" from rfl, String.append_assoc]
  have hopens : store.opens draw now (scramClientFirst draw.clientNonce username).1 =
      some ⟨username, draw.clientNonce, draw.serverNonce,
        (scramClientFirst draw.clientNonce username).2, stored, now⟩ := by
    unfold AuthStore.opens
    rw [parseClientFirst_scramClientFirst hname hclient]
    simp [hcred]
  unfold hello
  rw [hstore]
  simp only [hmessage, beginScram_opens crypto store hopens]
  rw [challengeFields_scramServerFirst hcrypto hclient hserver]

theorem authenticate_accepted {draw : Draw} {now : Instant} {a : AuthShared} {token proof : String}
    (h : (authenticate (F := ℚ) crypto cfg draw now a token proof none).2.2 = true) :
    ∃ clientFinal hs final, clientFinalOf crypto proof = .ok clientFinal ∧
      a.handshakes.get token = some hs ∧ parseClientFinal crypto clientFinal = .ok final ∧
      final.nonce = hs.clientNonce ++ hs.serverNonce := by
  unfold authenticate at h
  cases hstore : cfg.authStore with
  | none => simp [hstore] at h
  | some store =>
    cases hproof : clientFinalOf crypto proof with
    | error e => simp [hstore, hproof] at h
    | ok clientFinal =>
      simp only [hstore, hproof] at h
      cases hcomplete : completeScram crypto draw now a token clientFinal with
      | mk a' reply =>
        cases reply with
        | error e => simp [hcomplete] at h
        | ok reply =>
          obtain ⟨hs, final, hget, -, hparse, hnonce, -⟩ :=
            (completeScram_ok_iff crypto draw).1 ⟨reply, congrArg Prod.snd hcomplete⟩
          exact ⟨clientFinal, hs, final, rfl, hget, hparse, hnonce⟩

/-- On a server without handshakes, an accepted answer repeats the nonces that were drawn. -/
theorem accepts_nonce (hcrypto : crypto.Lawful) {store : AuthStore}
    (hstore : cfg.authStore = some store) {username : String} (hname : ',' ∉ username.toList)
    {stored : StoredCredential} (hcred : store.getCredential username = some stored) {draw : Draw}
    (hclient : ',' ∉ draw.clientNonce.toList) (hserver : ',' ∉ draw.serverNonce.toList)
    {client : Answering} {draw' : Draw} {now : Instant} {password : String}
    (h : Accepts crypto cfg client AuthShared.new draw draw' now username password) :
    ∃ clientFinal final, clientFinalOf crypto (client username password
        ⟨draw.handshakeToken, "SHA-256", crypto.base64Encode stored.salt,
          UInt32.ofNat ((((toString stored.iterations).toNat?).filter (· < 2 ^ 32)).getD 0)⟩).2 =
            .ok clientFinal ∧
      parseClientFinal crypto clientFinal = .ok final ∧
      final.nonce = draw.clientNonce ++ draw.serverNonce := by
  obtain ⟨challenge, hchallenge, haccepted⟩ := h
  rw [hello_challenge hcrypto hstore hname hcred hclient hserver] at hchallenge haccepted
  cases hchallenge
  obtain ⟨clientFinal, hs, final, hproof, hget, hparse, hnonce⟩ := authenticate_accepted haccepted
  rw [Table.get_insert] at hget
  split_ifs at hget
  · cases hget
    exact ⟨clientFinal, final, hproof, hparse, hnonce⟩
  · simp [Table.get_retain, AuthShared.new] at hget

/-- Of two servers that draw different nonces, one rejects the client. -/
theorem not_completes (hcrypto : crypto.Lawful) {store : AuthStore}
    (hstore : cfg.authStore = some store) {username : String} (hname : ',' ∉ username.toList)
    {stored : StoredCredential} (hcred : store.getCredential username = some stored)
    (client : Answering) (password : String) : ¬ Completes crypto cfg client username password := by
  intro hcompletes
  have haccepted : ∀ bytes, bytes.length = 24 → ∃ clientFinal final,
      clientFinalOf crypto (client username password ⟨"", "SHA-256",
        crypto.base64Encode stored.salt, UInt32.ofNat
          ((((toString stored.iterations).toNat?).filter (· < 2 ^ 32)).getD 0)⟩).2 =
            .ok clientFinal ∧
      parseClientFinal crypto clientFinal = .ok final ∧ final.nonce =
        crypto.base64Encode (List.replicate 24 0) ++ crypto.base64Encode bytes := by
    intro bytes hbytes
    have hdraw := hcompletes AuthShared.new ⟨crypto.base64Encode (List.replicate 24 0),
      crypto.base64Encode bytes, "", "", .ascending String AuthSession⟩ ⟨"", "", "", "", .ascending String AuthSession⟩ 0
      ⟨List.replicate 24 0, bytes, rfl, hbytes, rfl, rfl⟩
    exact accepts_nonce hcrypto hstore hname hcred (hcrypto.no_comma _) (hcrypto.no_comma _) hdraw
  obtain ⟨first, final, hfirst, hparse, hnonce⟩ := haccepted (List.replicate 24 0) rfl
  obtain ⟨second, final', hsecond, hparse', hnonce'⟩ := haccepted (List.replicate 24 1) rfl
  cases hfirst.symm.trans hsecond
  cases hparse.symm.trans hparse'
  have hsame := String.append_right_inj _ |>.1 (hnonce.symm.trans hnonce')
  have hbytes := congrArg crypto.base64Decode hsame
  rw [hcrypto.decode_encode, hcrypto.decode_encode] at hbytes
  exact absurd (Except.ok.inj hbytes) (by decide)

/-- No client completes the flow for any user. -/
theorem challenge_never_completed (hcrypto : crypto.Lawful) {store : AuthStore}
    (hstore : cfg.authStore = some store) {username password : String} {salt : List UInt8}
    {iterations : UInt32} (hname : ',' ∉ username.toList)
    (hcred : store.getCredential username =
      some (.fromPasswordWithSalt crypto hi username password salt iterations)) :
    ¬ ∃ client, Completes crypto cfg client username password :=
  fun ⟨client, hcompletes⟩ => not_completes hcrypto hstore hname hcred client password hcompletes

/-- The user `admin` cannot complete it. -/
theorem admin_never_completes :
    ¬ ∃ client, Completes sha256Crypto ⟨none, some adminStore⟩ client "admin" "secret" :=
  challenge_never_completed Sha256.pbkdf2 sha256Crypto_lawful rfl (by decide) adminStore_admin

/-- There is no client that serves all users. -/
theorem no_client_for_all : ¬ ∃ client, ∀ (cfg : WsState) store username password salt iterations,
    cfg.authStore = some store → ',' ∉ username.toList →
    store.getCredential username =
      some (.fromPasswordWithSalt sha256Crypto Sha256.pbkdf2 username password salt iterations) →
    Completes sha256Crypto cfg client username password := by
  rintro ⟨client, hclient⟩
  have hcompletes := hclient ⟨none, some adminStore⟩ adminStore "admin" "secret" [1, 2, 3] 2 rfl
    (by decide) adminStore_admin
  exact not_completes sha256Crypto_lawful rfl (by decide) adminStore_admin client "secret" hcompletes

end Completion
end Sandstar.Ws
