import Sandstar.Base64
import Sandstar.Runs
import Sandstar.ScramTexts
import Sandstar.Sha256

set_option autoImplicit false

namespace Sandstar.Auth
open Utf8 Runs

variable (crypto : Crypto) (hi : Pbkdf2) (store : AuthStore)

inductive Handshaking
  | beginScram (draw : Draw) (now : Instant) (clientFirst : String)
  | completeScram (draw : Draw) (now : Instant) (handshakeToken clientFinal : String)
  | cleanupExpired (now : Instant)

namespace Handshaking

def apply (a : AuthShared) : Handshaking → AuthShared
  | beginScram draw now clientFirst => (store.beginScram crypto draw now a clientFirst).1
  | completeScram draw now handshakeToken clientFinal =>
    (Auth.completeScram crypto draw now a handshakeToken clientFinal).1
  | cleanupExpired now => a.cleanupExpired now

def now : Handshaking → Instant
  | beginScram _ now _ => now
  | completeScram _ now _ _ => now
  | cleanupExpired now => now

end Handshaking

def AuthStore.opens (draw : Draw) (now : Instant) (clientFirst : String) : Option ScramHandshake :=
  match parseClientFirst clientFirst with
  | .error _ => none
  | .ok first => (store.getCredential first.username).map fun stored =>
    ⟨first.username, first.nonce, draw.serverNonce, first.bare, stored, now⟩

def Handshaking.Uses (token : String) : Handshaking → Prop
  | beginScram draw now clientFirst =>
    (store.opens draw now clientFirst).isSome ∧ draw.handshakeToken = token
  | completeScram _ _ handshakeToken _ => handshakeToken = token
  | cleanupExpired _ => False

section Steps

theorem beginScram_opens {draw : Draw} {now : Instant} {clientFirst : String} {h : ScramHandshake}
    (hopens : store.opens draw now clientFirst = some h) (a : AuthShared) :
    store.beginScram crypto draw now a clientFirst =
      ({ a with handshakes :=
          (a.handshakes.retain fun _ h => !h.isExpired now).insert draw.handshakeToken h },
        .ok (draw.handshakeToken, scramServerFirst crypto h)) := by
  unfold AuthStore.opens at hopens
  unfold AuthStore.beginScram
  cases hparse : parseClientFirst clientFirst with
  | error e => simp [hparse] at hopens
  | ok first =>
    simp only [hparse] at hopens
    obtain ⟨stored, hstored, rfl⟩ := Option.map_eq_some_iff.1 hopens
    simp only [hstored]

theorem beginScram_refused {draw : Draw} {now : Instant} {clientFirst : String}
    (hopens : store.opens draw now clientFirst = none) (a : AuthShared) :
    (store.beginScram crypto draw now a clientFirst).1 = a := by
  unfold AuthStore.opens at hopens
  unfold AuthStore.beginScram
  cases hparse : parseClientFirst clientFirst with
  | error e => rfl
  | ok first =>
    simp only [hparse, Option.map_eq_none_iff] at hopens
    simp only [hopens]

theorem completeScram_handshakes (draw : Draw) (now : Instant) (a : AuthShared)
    (handshakeToken clientFinal token : String) :
    (completeScram crypto draw now a handshakeToken clientFinal).1.handshakes.get token =
      if token = handshakeToken then none else a.handshakes.get token := by
  unfold completeScram
  cases hget : a.handshakes.get handshakeToken with
  | none =>
    by_cases ht : token = handshakeToken
    · simp [ht, hget]
    · simp [ht]
  | some h =>
    simp only
    cases scramVerifyClientFinal crypto now h clientFinal with
    | error e => exact Table.get_erase ..
    | ok serverSig => exact Table.get_erase ..

theorem handshake_step {a : AuthShared} {ev : Handshaking} {token : String} {h : ScramHandshake}
    (hget : (ev.apply crypto store a).handshakes.get token = some h) :
    (∃ draw now clientFirst, ev = .beginScram draw now clientFirst ∧
      store.opens draw now clientFirst = some h ∧ draw.handshakeToken = token) ∨
    (¬ ev.Uses store token ∧ a.handshakes.get token = some h) := by
  cases ev with
  | beginScram draw now clientFirst =>
    simp only [Handshaking.apply] at hget
    cases hopens : store.opens draw now clientFirst with
    | none =>
      rw [beginScram_refused crypto store hopens] at hget
      exact .inr ⟨by simp [Handshaking.Uses, hopens], hget⟩
    | some opened =>
      rw [beginScram_opens crypto store hopens, Table.get_insert] at hget
      split_ifs at hget with ht
      · cases hget
        exact .inl ⟨draw, now, clientFirst, rfl, hopens, ht.symm⟩
      · rw [Table.get_retain, Option.filter_eq_some_iff] at hget
        exact .inr ⟨fun huses => ht huses.2.symm, hget.1⟩
  | completeScram draw now handshakeToken clientFinal =>
    simp only [Handshaking.apply, completeScram_handshakes] at hget
    split_ifs at hget with ht
    exact .inr ⟨fun huses => ht huses.symm, hget⟩
  | cleanupExpired now =>
    simp only [Handshaking.apply, AuthShared.cleanupExpired, Table.get_retain,
      Option.filter_eq_some_iff] at hget
    exact .inr ⟨id, hget.1⟩

/-- A call that neither uses the token nor comes too late leaves its handshake under way. -/
theorem handshake_kept {a : AuthShared} {ev : Handshaking} {token : String} {h : ScramHandshake}
    (hget : a.handshakes.get token = some h) (huses : ¬ ev.Uses store token)
    (hlive : h.isExpired ev.now = false) :
    (ev.apply crypto store a).handshakes.get token = some h := by
  cases ev with
  | beginScram draw now clientFirst =>
    simp only [Handshaking.apply]
    cases hopens : store.opens draw now clientFirst with
    | none => rwa [beginScram_refused crypto store hopens]
    | some opened =>
      have ht : token ≠ draw.handshakeToken := by
        rintro rfl
        exact huses ⟨by simp [hopens], rfl⟩
      rw [beginScram_opens crypto store hopens, Table.get_insert_ne _ _ ht, Table.get_retain, hget]
      exact Option.filter_eq_some_iff.2 ⟨rfl, by simpa [Handshaking.now] using hlive⟩
  | completeScram draw now handshakeToken clientFinal =>
    simp only [Handshaking.apply, completeScram_handshakes]
    rwa [if_neg (Ne.symm huses)]
  | cleanupExpired now =>
    simp only [Handshaking.apply, AuthShared.cleanupExpired, Table.get_retain, hget]
    exact Option.filter_eq_some_iff.2 ⟨rfl, by simpa [Handshaking.now] using hlive⟩

end Steps

section Whole

/-- The shared state after these calls. -/
def after (events : List Handshaking) : AuthShared :=
  run (Handshaking.apply crypto store) AuthShared.new events

/-- A handshake under way was opened by a call that no later call has used. -/
theorem handshake_begun {events : List Handshaking} {token : String} {h : ScramHandshake}
    (hget : (after crypto store events).handshakes.get token = some h) :
    ∃ before draw start clientFirst between,
      events = before ++ .beginScram draw start clientFirst :: between ∧
      store.opens draw start clientFirst = some h ∧ draw.handshakeToken = token ∧
      ∀ ev ∈ between, ¬ ev.Uses store token := by
  induction events using List.reverseRecOn with
  | nil => simp [after, run, AuthShared.new] at hget
  | append_singleton events ev ih =>
    unfold after at hget
    rw [run_concat] at hget
    rcases handshake_step crypto store hget with ⟨draw, now, clientFirst, rfl, hopens, ht⟩ | ⟨huses, hbefore⟩
    · exact ⟨events, draw, now, clientFirst, [], rfl, hopens, ht, by simp⟩
    · obtain ⟨before, draw, start, clientFirst, between, rfl, hopens, ht, hbetween⟩ := ih hbefore
      refine ⟨before, draw, start, clientFirst, between ++ [ev], by simp, hopens, ht, ?_⟩
      intro ev' hev'
      rcases List.mem_append.1 hev' with hev' | hev'
      · exact hbetween ev' hev'
      · rwa [List.mem_singleton.1 hev']

/-- A handshake stays under way until its token is used or its time is over. -/
theorem handshake_lasts {a : AuthShared} {between : List Handshaking} {token : String}
    {h : ScramHandshake} (hget : a.handshakes.get token = some h)
    (huses : ∀ ev ∈ between, ¬ ev.Uses store token)
    (hlive : ∀ ev ∈ between, h.isExpired ev.now = false) :
    (run (Handshaking.apply crypto store) a between).handshakes.get token = some h := by
  induction between generalizing a with
  | nil => exact hget
  | cons ev between ih =>
    refine ih ?_ (fun ev' hev' => huses ev' (List.mem_cons_of_mem _ hev'))
      (fun ev' hev' => hlive ev' (List.mem_cons_of_mem _ hev'))
    exact handshake_kept crypto store hget (huses ev List.mem_cons_self) (hlive ev List.mem_cons_self)

theorem isExpired_mono {h : ScramHandshake} {t now : Instant} (hle : t ≤ now)
    (hlive : h.isExpired now = false) : h.isExpired t = false := by
  have hage : (t - h.createdAt) / 1000000000 ≤ (now - h.createdAt) / 1000000000 :=
    Nat.div_le_div_right (Nat.sub_le_sub_right hle _)
  exact decide_eq_false fun hlate => of_decide_eq_false hlive (Nat.le_trans hlate hage)

theorem completeScram_ok {draw : Draw} {now : Instant} {a : AuthShared}
    {token clientFinal sessionToken serverSig : String} {h : ScramHandshake}
    (hget : a.handshakes.get token = some h)
    (hok : (completeScram crypto draw now a token clientFinal).2 = .ok (sessionToken, serverSig)) :
    (((completeScram crypto draw now a token clientFinal).1.sessions.sessions.get
      sessionToken).map AuthSession.username) = some h.username := by
  unfold completeScram at hok ⊢
  simp only [hget] at hok ⊢
  cases hverify : scramVerifyClientFinal crypto now h clientFinal with
  | error e => simp [hverify] at hok
  | ok sig =>
    simp only [hverify, Except.ok.injEq, Prod.mk.injEq] at hok
    obtain ⟨rfl, -⟩ := hok
    simp only [SessionStore.createSession, Table.get_insert_self, Option.map_some]

theorem completeScram_verified (draw : Draw) {now : Instant} {a : AuthShared}
    {token clientFinal sig : String} {h : ScramHandshake}
    (hget : a.handshakes.get token = some h)
    (hverify : scramVerifyClientFinal crypto now h clientFinal = .ok sig) :
    ∃ reply, (completeScram crypto draw now a token clientFinal).2 = .ok reply := by
  unfold completeScram
  simp only [hget, hverify]
  exact ⟨_, rfl⟩

/-- Every session is issued for a handshake that an earlier call began and no call has used
    since, in time, to its user, on a proof over its own messages. -/
def SessionsProved : Prop :=
  ∀ events draw now token clientFinal sessionToken serverSig,
    (completeScram crypto draw now (after crypto store events) token clientFinal).2 =
      .ok (sessionToken, serverSig) →
    ∃ before draw₀ start clientFirst between h final,
      events = before ++ .beginScram draw₀ start clientFirst :: between ∧
      (store.beginScram crypto draw₀ start (after crypto store before) clientFirst).2 =
        .ok (token, scramServerFirst crypto h) ∧
      parseClientFirst clientFirst = .ok ⟨h.username, h.clientNonce, h.clientFirstBare⟩ ∧
      store.getCredential h.username = some h.stored ∧
      (∀ ev ∈ between, ¬ ev.Uses store token) ∧ h.createdAt = start ∧ h.isExpired now = false ∧
      parseClientFinal crypto clientFinal = .ok final ∧
      final.nonce = h.clientNonce ++ h.serverNonce ∧
      crypto.sha256 (recoveredClientKey crypto h final) = h.stored.storedKey ∧
      ((completeScram crypto draw now (after crypto store events) token
        clientFinal).1.sessions.sessions.get sessionToken).map AuthSession.username = some h.username

/-- The final message of a client that knows the password is accepted in time, whatever else
    has been called in between. -/
def GenuineAccepted : Prop :=
  ∀ username password salt iterations, ',' ∉ username.toList →
    store.getCredential username =
      some (.fromPasswordWithSalt crypto hi username password salt iterations) →
    ∀ before draw₀ start nonceBytes serverBytes between draw now,
      draw₀.serverNonce = crypto.base64Encode serverBytes →
      (∀ ev ∈ between, ¬ ev.Uses store draw₀.handshakeToken ∧ ev.now ≤ now) →
      (now - start) / 1000000000 < handshakeTimeoutSecs →
      let nonce := crypto.base64Encode nonceBytes
      let first := scramClientFirst nonce username
      ∃ serverFirst clientFinal reply,
        (store.beginScram crypto draw₀ start (after crypto store before) first.1).2 =
          .ok (draw₀.handshakeToken, serverFirst) ∧
        scramClientFinal crypto hi password nonce first.2 serverFirst = .ok clientFinal ∧
        (completeScram crypto draw now
          (after crypto store (before ++ .beginScram draw₀ start first.1 :: between))
          draw₀.handshakeToken clientFinal).2 = .ok reply

theorem opens_some {draw : Draw} {now : Instant} {clientFirst : String} {h : ScramHandshake}
    (hopens : store.opens draw now clientFirst = some h) :
    parseClientFirst clientFirst = .ok ⟨h.username, h.clientNonce, h.clientFirstBare⟩ ∧
      store.getCredential h.username = some h.stored ∧ h.createdAt = now := by
  unfold AuthStore.opens at hopens
  cases hparse : parseClientFirst clientFirst with
  | error e => simp [hparse] at hopens
  | ok first =>
    simp only [hparse] at hopens
    obtain ⟨stored, hstored, rfl⟩ := Option.map_eq_some_iff.1 hopens
    exact ⟨rfl, hstored, rfl⟩

theorem sessions_proved : SessionsProved crypto store := by
  intro events draw now token clientFinal sessionToken serverSig hok
  obtain ⟨h, final, hget, hlive, hparse, hnonce, -, hkey⟩ :=
    (completeScram_ok_iff crypto draw).1 ⟨_, hok⟩
  obtain ⟨before, draw₀, start, clientFirst, between, hevents, hopens, ht, hbetween⟩ :=
    handshake_begun crypto store hget
  obtain ⟨hfirst, hstored, hstart⟩ := opens_some store hopens
  refine ⟨before, draw₀, start, clientFirst, between, h, final, hevents, ?_, hfirst, hstored, hbetween,
    hstart, hlive, hparse, hnonce, hkey, completeScram_ok crypto hget hok⟩
  rw [beginScram_opens crypto store hopens, ht]

variable {crypto}

theorem scramClientFinal_serverFirst (hcrypto : crypto.Lawful) {h : ScramHandshake}
    (hclient : ',' ∉ h.clientNonce.toList) (hserver : ',' ∉ h.serverNonce.toList)
    (password : String) :
    scramClientFinal crypto hi password h.clientNonce h.clientFirstBare (scramServerFirst crypto h) =
      .ok (clientFinalMessage crypto (hi (asBytes password) h.stored.salt h.stored.iterations)
        h.clientFirstBare (scramServerFirst crypto h) (h.clientNonce ++ h.serverNonce)) := by
  unfold scramClientFinal
  rw [readServerFirst_scramServerFirst hcrypto hclient hserver]
  simp [hcrypto.decode_encode]

theorem scramVerify_clientFinalMessage (hcrypto : crypto.Lawful) {h : ScramHandshake}
    (hclient : ',' ∉ h.clientNonce.toList) (hserver : ',' ∉ h.serverNonce.toList)
    {saltedPassword : List UInt8}
    (hkey : h.stored.storedKey = crypto.sha256 (clientKey crypto saltedPassword)) {now : Instant}
    (hlive : h.isExpired now = false) :
    ∃ sig, scramVerifyClientFinal crypto now h (clientFinalMessage crypto saltedPassword
      h.clientFirstBare (scramServerFirst crypto h) (h.clientNonce ++ h.serverNonce)) = .ok sig := by
  have hnonce : ',' ∉ (h.clientNonce ++ h.serverNonce).toList := by simp [hclient, hserver]
  unfold scramVerifyClientFinal
  rw [if_neg (by simp [hlive])]
  unfold clientFinalMessage
  rw [parseClientFinal_message hcrypto hnonce]
  have hlength := hcrypto.hmac_length
  have hrecovered : ∀ signature : List UInt8, signature.length = 32 →
      ((clientKey crypto saltedPassword).zipWith (· ^^^ ·) signature).zipWith (· ^^^ ·) signature =
        clientKey crypto saltedPassword :=
    fun signature hsig => zipWith_xor_cancel ((hlength _ _).trans hsig.symm)
  simp only [ne_eq, not_true_eq_false, if_false]
  rw [if_neg, if_neg]
  · exact ⟨_, rfl⟩
  · simp only [recoveredClientKey, authMessage, hkey]
    rw [hrecovered _ (hlength _ _)]
    simp
  · simp [clientKey, hlength]

/-- A handshake that is under way is completed by the client that knows its password. -/
theorem accepted_of_opens (hcrypto : crypto.Lawful) {h : ScramHandshake} {draw₀ : Draw}
    {start : Instant} {clientFirst : String} (hopens : store.opens draw₀ start clientFirst = some h)
    (hclient : ',' ∉ h.clientNonce.toList) (hserver : ',' ∉ h.serverNonce.toList)
    {password : String} (hkey : h.stored.storedKey = crypto.sha256
      (clientKey crypto (hi (asBytes password) h.stored.salt h.stored.iterations)))
    (before between : List Handshaking) (draw : Draw) {now : Instant}
    (hlive : h.isExpired now = false)
    (hbetween : ∀ ev ∈ between, ¬ ev.Uses store draw₀.handshakeToken ∧ ev.now ≤ now) :
    ∃ serverFirst clientFinal reply,
      (store.beginScram crypto draw₀ start (after crypto store before) clientFirst).2 =
        .ok (draw₀.handshakeToken, serverFirst) ∧
      scramClientFinal crypto hi password h.clientNonce h.clientFirstBare serverFirst =
        .ok clientFinal ∧
      (completeScram crypto draw now
        (after crypto store (before ++ .beginScram draw₀ start clientFirst :: between))
        draw₀.handshakeToken clientFinal).2 = .ok reply := by
  have hget : (after crypto store (before ++
      .beginScram draw₀ start clientFirst :: between)).handshakes.get draw₀.handshakeToken =
        some h := by
    unfold after
    rw [run_append, run_cons]
    refine handshake_lasts crypto store ?_ (fun ev hev => (hbetween ev hev).1)
      (fun ev hev => isExpired_mono (hbetween ev hev).2 hlive)
    simp only [Handshaking.apply]
    rw [beginScram_opens crypto store hopens, Table.get_insert_self]
  have hfinal := scramClientFinal_serverFirst hi hcrypto hclient hserver password
  obtain ⟨sig, hverify⟩ := scramVerify_clientFinalMessage hcrypto hclient hserver hkey hlive
  obtain ⟨reply, hreply⟩ := completeScram_verified crypto draw hget hverify
  refine ⟨scramServerFirst crypto h, _, reply, ?_, hfinal, hreply⟩
  rw [beginScram_opens crypto store hopens]

theorem genuine_accepted (hcrypto : crypto.Lawful) : GenuineAccepted crypto hi store := by
  intro username password salt iterations hname hcred before draw₀ start nonceBytes serverBytes between
    draw now hserver hbetween htime
  dsimp only
  have hnonce := hcrypto.no_comma nonceBytes
  have hserver' : ',' ∉ draw₀.serverNonce.toList := hserver ▸ hcrypto.no_comma serverBytes
  have hopens : store.opens draw₀ start
      (scramClientFirst (crypto.base64Encode nonceBytes) username).1 =
        some ⟨username, crypto.base64Encode nonceBytes, draw₀.serverNonce,
          (scramClientFirst (crypto.base64Encode nonceBytes) username).2,
          .fromPasswordWithSalt crypto hi username password salt iterations, start⟩ := by
    unfold AuthStore.opens
    rw [parseClientFirst_scramClientFirst hname hnonce]
    simp [hcred]
  exact accepted_of_opens hi store hcrypto hopens hnonce hserver' rfl before between draw
    (decide_eq_false (Nat.not_le.2 htime)) hbetween

/-- Handshakes are safe and can be completed. -/
theorem scram_handshakes (hcrypto : crypto.Lawful) :
    SessionsProved crypto store ∧ GenuineAccepted crypto hi store :=
  ⟨sessions_proved crypto store, genuine_accepted hi store hcrypto⟩

end Whole

def sha256Crypto : Crypto :=
  ⟨Sha256.hmac, Sha256.sha256, fun bytes => String.ofList (Base64.encode bytes), fun s =>
    match Base64.decode s.toList with
    | some bytes => .ok bytes
    | none => .error "Invalid input"⟩

theorem sha256Crypto_lawful : sha256Crypto.Lawful where
  hmac_length := Sha256.hmac_length
  decode_encode bytes := by simp [sha256Crypto, Base64.decode_encode]
  no_comma bytes := by simpa [sha256Crypto] using Base64.no_comma_encode bytes

def adminStore : AuthStore :=
  ⟨Table.empty.insert "admin"
    (.fromPasswordWithSalt sha256Crypto Sha256.pbkdf2 "admin" "secret" [1, 2, 3] 2), none⟩

theorem adminStore_admin : adminStore.getCredential "admin" =
    some (.fromPasswordWithSalt sha256Crypto Sha256.pbkdf2 "admin" "secret" [1, 2, 3] 2) :=
  Table.get_insert_self ..

def adminDraw : Draw := ⟨"", sha256Crypto.base64Encode [4, 5, 6], "7f", "8e", .ascending String AuthSession⟩

/-- After a cleanup, 29 seconds later. -/
theorem admin_completes : ∃ serverFirst clientFinal reply,
    (adminStore.beginScram sha256Crypto adminDraw 0 (after sha256Crypto adminStore [])
      (scramClientFirst (sha256Crypto.base64Encode [9]) "admin").1).2 = .ok ("7f", serverFirst) ∧
    scramClientFinal sha256Crypto Sha256.pbkdf2 "secret" (sha256Crypto.base64Encode [9])
      (scramClientFirst (sha256Crypto.base64Encode [9]) "admin").2 serverFirst = .ok clientFinal ∧
    (completeScram sha256Crypto adminDraw 29000000000 (after sha256Crypto adminStore
      ([] ++ .beginScram adminDraw 0 (scramClientFirst (sha256Crypto.base64Encode [9]) "admin").1 ::
        [.cleanupExpired 5000000000])) "7f" clientFinal).2 = .ok reply :=
  (scram_handshakes Sha256.pbkdf2 adminStore sha256Crypto_lawful).2 "admin" "secret" [1, 2, 3] 2
    (by decide) adminStore_admin [] adminDraw 0 [9] [4, 5, 6]
    [.cleanupExpired 5000000000] adminDraw 29000000000 rfl
    (by simp [Handshaking.Uses, Handshaking.now]) (by decide)

end Sandstar.Auth
