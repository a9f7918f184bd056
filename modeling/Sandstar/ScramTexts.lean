import Sandstar.Decimals
import Sandstar.ScramClient

set_option autoImplicit false

namespace Sandstar.Auth
open Utf8 RoxWarp

section Parts

theorem parts_append {a : String} (h : ',' ∉ a.toList) (b : String) :
    parts (a ++ "," ++ b) = a :: parts b := by
  have hlist : (a ++ "," ++ b).toList = a.toList ++ ',' :: b.toList := by simp
  unfold parts
  rw [hlist, List.splitOn_append_cons_self_of_not_mem h, List.map_cons, String.ofList_toList]

theorem parts_single {a : String} (h : ',' ∉ a.toList) : parts a = [a] := by
  unfold parts
  rw [List.splitOn_eq_singleton h, List.map_singleton, String.ofList_toList]

theorem stripPrefix_append (pre s : String) : stripPrefix pre (pre ++ s) = some s := by
  have hpre : pre.toList <+: (pre ++ s).toList := by simp
  unfold stripPrefix
  rw [if_pos hpre, String.toList_append, ← String.length_toList, List.drop_left,
    String.ofList_toList]

/-- A key does not fit a part that begins with another letter. -/
theorem stripPrefix_other {pre s : String} (h : pre.toList.head? ≠ s.toList.head?)
    (hpre : pre.toList ≠ []) : stripPrefix pre s = none := by
  unfold stripPrefix
  refine if_neg fun hprefix => h ?_
  obtain ⟨rest, hrest⟩ := hprefix
  rw [← hrest]
  cases hlist : pre.toList with
  | nil => exact absurd hlist hpre
  | cons c cs => rfl

end Parts

section Last

theorem beforeLast_none {text cs : List Char} (h : ',' ∉ cs) : beforeLast (',' :: text) cs = none := by
  induction cs with
  | nil => rfl
  | cons c cs ih =>
    rw [List.mem_cons, not_or] at h
    have hprefix : ¬ (',' :: text) <+: c :: cs := fun hp => h.1 (List.cons_prefix_cons.1 hp).1
    rw [beforeLast, ih h.2]
    exact if_neg hprefix

theorem beforeLast_append (w : List Char) {q : List Char} (h : ',' ∉ q) :
    beforeLast ",p=".toList (w ++ ',' :: 'p' :: '=' :: q) = some w := by
  have htext : ",p=".toList = [',', 'p', '='] := rfl
  rw [htext]
  induction w with
  | nil =>
    have hrest : ',' ∉ 'p' :: '=' :: q := by simp [h]
    rw [List.nil_append, beforeLast, beforeLast_none hrest]
    simp
  | cons c w ih => rw [List.cons_append, beforeLast, ih]

end Last

section Numbers

theorem parseU32_toString (n : UInt32) : parseU32 (toString n).toList = some n := by
  have hlist : (toString n).toList = Nat.toDigits 10 n.toNat := Decimals.toList_nat n.toNat
  have hplus := Decimals.head_ne (c := '+') (by decide) n.toNat
  unfold parseU32
  rw [hlist]
  simp only [if_neg hplus, Decimals.sum_digits]
  rw [Decimals.all_isDigit, if_pos n.toNat_lt]
  simp [Nat.toDigits_ne_nil]

theorem no_comma_toString (n : UInt32) : ',' ∉ (toString n).toList := by
  have hlist : (toString n).toList = Nat.toDigits 10 n.toNat := Decimals.toList_nat n.toNat
  rw [hlist]
  exact Decimals.not_mem (by decide) n.toNat

end Numbers

theorem zipWith_xor_cancel {a b : List UInt8} (h : a.length = b.length) :
    (a.zipWith (· ^^^ ·) b).zipWith (· ^^^ ·) b = a := by
  induction a generalizing b with
  | nil => simp
  | cons x a ih =>
    cases b with
    | nil => cases h
    | cons y b =>
      simp only [List.zipWith_cons_cons, UInt8.xor_assoc, UInt8.xor_self, UInt8.xor_zero]
      rw [ih (Nat.succ.inj h)]

/-- HMAC-SHA-256 gives 32 bytes, base64 is read back and its alphabet has no comma. -/
structure Crypto.Lawful (crypto : Crypto) : Prop where
  hmac_length : ∀ key message, (crypto.hmacSha256 key message).length = 32
  decode_encode : ∀ bytes, crypto.base64Decode (crypto.base64Encode bytes) = .ok bytes
  no_comma : ∀ bytes, ',' ∉ (crypto.base64Encode bytes).toList

section Messages

theorem parseClientFirst_scramClientFirst {username nonce : String} (hname : ',' ∉ username.toList)
    (hnonce : ',' ∉ nonce.toList) :
    parseClientFirst (scramClientFirst nonce username).1 =
      .ok ⟨username, nonce, (scramClientFirst nonce username).2⟩ := by
  have hbare : "n=" ++ username ++ ",r=" ++ nonce = ("n=" ++ username) ++ "," ++ ("r=" ++ nonce) := by
    simp only [show ",r=" = "," ++ "r=" from rfl, String.append_assoc]
  have hparts : parts ("n=" ++ username ++ ",r=" ++ nonce) =
      ["n=" ++ username, "r=" ++ nonce] := by
    rw [hbare, parts_append (by simpa using hname), parts_single (by simpa using hnonce)]
  have hother : stripPrefix "n=" ("r=" ++ nonce) = none :=
    stripPrefix_other (by simp) (by simp)
  unfold parseClientFirst scramClientFirst
  simp only [stripPrefix_append, hparts, lastField, List.foldl_cons, List.foldl_nil, List.any_nil,
    List.any_cons, hother, Bool.false_eq_true, if_false, Option.isSome_some, Option.isSome_none,
    Bool.or_false, if_true]

variable {crypto : Crypto} (hcrypto : crypto.Lawful)

include hcrypto in
theorem parts_scramServerFirst {h : ScramHandshake} (hclient : ',' ∉ h.clientNonce.toList)
    (hserver : ',' ∉ h.serverNonce.toList) :
    parts (scramServerFirst crypto h) = ["r=" ++ (h.clientNonce ++ h.serverNonce),
      "s=" ++ crypto.base64Encode h.stored.salt, "i=" ++ toString h.stored.iterations] := by
  have hmessage : scramServerFirst crypto h = ("r=" ++ (h.clientNonce ++ h.serverNonce)) ++ "," ++
      (("s=" ++ crypto.base64Encode h.stored.salt) ++ "," ++
        ("i=" ++ toString h.stored.iterations)) := by
    unfold scramServerFirst
    simp only [show ",s=" = "," ++ "s=" from rfl, show ",i=" = "," ++ "i=" from rfl,
      String.append_assoc]
  have hsalt := hcrypto.no_comma h.stored.salt
  have hcount := no_comma_toString h.stored.iterations
  rw [hmessage, parts_append (by simp [hclient, hserver]), parts_append (by simpa using hsalt),
    parts_single (by simpa using hcount)]

include hcrypto in
theorem readServerFirst_scramServerFirst {h : ScramHandshake} (hclient : ',' ∉ h.clientNonce.toList)
    (hserver : ',' ∉ h.serverNonce.toList) :
    (parts (scramServerFirst crypto h)).foldlM readServerFirst ⟨none, none, none⟩ =
      .ok ⟨some (h.clientNonce ++ h.serverNonce), some (crypto.base64Encode h.stored.salt),
        some h.stored.iterations⟩ := by
  rw [parts_scramServerFirst hcrypto hclient hserver]
  have hs : stripPrefix "r=" ("s=" ++ crypto.base64Encode h.stored.salt) = none :=
    stripPrefix_other (by simp) (by simp)
  have hi : stripPrefix "r=" ("i=" ++ toString h.stored.iterations) = none :=
    stripPrefix_other (by simp) (by simp)
  have hi' : stripPrefix "s=" ("i=" ++ toString h.stored.iterations) = none :=
    stripPrefix_other (by simp) (by simp)
  simp only [List.foldlM_cons, List.foldlM_nil, readServerFirst, stripPrefix_append, hs, hi, hi',
    parseU32_toString]
  rfl

include hcrypto in
theorem parseClientFinal_message {nonce : String} (hnonce : ',' ∉ nonce.toList) (proof : List UInt8) :
    parseClientFinal crypto ("c=biws,r=" ++ nonce ++ ",p=" ++ crypto.base64Encode proof) =
      .ok ⟨nonce, proof, "c=biws,r=" ++ nonce⟩ := by
  have hcomma := hcrypto.no_comma proof
  have hmessage : "c=biws,r=" ++ nonce ++ ",p=" ++ crypto.base64Encode proof =
      "c=biws" ++ "," ++ (("r=" ++ nonce) ++ "," ++ ("p=" ++ crypto.base64Encode proof)) := by
    simp only [show "c=biws,r=" = "c=biws" ++ ("," ++ "r=") from rfl,
      show ",p=" = "," ++ "p=" from rfl, String.append_assoc]
  have hparts : parts ("c=biws,r=" ++ nonce ++ ",p=" ++ crypto.base64Encode proof) =
      ["c=biws", "r=" ++ nonce, "p=" ++ crypto.base64Encode proof] := by
    rw [hmessage, parts_append (by decide), parts_append (by simpa using hnonce),
      parts_single (by simpa using hcomma)]
  have hbefore : beforeLast ",p=".toList
      ("c=biws,r=" ++ nonce ++ ",p=" ++ crypto.base64Encode proof).toList =
        some ("c=biws,r=" ++ nonce).toList := by
    have hlist : ("c=biws,r=" ++ nonce ++ ",p=" ++ crypto.base64Encode proof).toList =
        ("c=biws,r=" ++ nonce).toList ++ ',' :: 'p' :: '=' :: (crypto.base64Encode proof).toList := by
      simp
    rw [hlist]
    exact beforeLast_append _ hcomma
  have hc : stripPrefix "c=" "c=biws" = some "biws" := stripPrefix_append "c=" "biws"
  have hrc : stripPrefix "c=" ("r=" ++ nonce) = none := stripPrefix_other (by simp) (by simp)
  have hpc : stripPrefix "c=" ("p=" ++ crypto.base64Encode proof) = none :=
    stripPrefix_other (by simp) (by simp)
  have hpr : stripPrefix "r=" ("p=" ++ crypto.base64Encode proof) = none :=
    stripPrefix_other (by simp) (by simp)
  unfold parseClientFinal
  simp only [hparts, lastField, List.foldl_cons, List.foldl_nil, List.any_nil, List.any_cons, hc, hrc,
    hpc, hpr, stripPrefix_append, Option.isSome_some, Option.isSome_none, Bool.or_false, Bool.false_or,
    Bool.false_eq_true, if_false, if_true, hcrypto.decode_encode, hbefore, String.ofList_toList]

end Messages
end Sandstar.Auth
