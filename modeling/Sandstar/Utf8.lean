import Mathlib

set_option autoImplicit false

/-!
# UTF-8 text on a byte wire

`asBytes` is the encoding of a string. `fromUtf8Lossy` decodes arbitrary bytes:
a well-formed sequence gives its character, and every maximal ill-formed part
gives one replacement character.
-/
namespace Sandstar.Utf8

def asBytes (s : String) : List UInt8 := s.toList.flatMap String.utf8EncodeChar

def isContinuation (b : UInt8) : Bool := 0x80 ≤ b && b ≤ 0xBF

/-- The second bytes a three- or four-byte leader admits: no overlong form, no
    surrogate, nothing above U+10FFFF. -/
def secondByteOk (lead b : UInt8) : Bool :=
  if lead = 0xE0 then 0xA0 ≤ b && b ≤ 0xBF
  else if lead = 0xED then 0x80 ≤ b && b ≤ 0x9F
  else if lead = 0xF0 then 0x90 ≤ b && b ≤ 0xBF
  else if lead = 0xF4 then 0x80 ≤ b && b ≤ 0x8F
  else isContinuation b

/-- How many bytes one replacement character stands for, where no character can be decoded. -/
def invalidLength : List UInt8 → ℕ
  | lead :: second :: rest =>
    if 0xE0 ≤ lead && lead ≤ 0xF4 && secondByteOk lead second then
      match rest with
      | third :: _ => if 0xF0 ≤ lead && isContinuation third then 3 else 2
      | [] => 2
    else 1
  | _ => 1

def lossyChars : ℕ → List UInt8 → List Char
  | 0, _ => []
  | _ + 1, [] => []
  | rounds + 1, b :: bs =>
    match (b :: bs).toByteArray.utf8DecodeChar? 0 with
    | some c => c :: lossyChars rounds ((b :: bs).drop c.utf8Size)
    | none => '\uFFFD' :: lossyChars rounds ((b :: bs).drop (invalidLength (b :: bs)))

def fromUtf8Lossy (bytes : List UInt8) : String :=
  String.ofList (lossyChars bytes.length bytes)

theorem decodeChar_encodeChar (c : Char) (rest : List UInt8) :
    (String.utf8EncodeChar c ++ rest).toByteArray.utf8DecodeChar? 0 = some c := by
  rw [List.toByteArray_append]
  exact ByteArray.utf8DecodeChar?_utf8EncodeChar_append

theorem lossyChars_encodeChar (rounds : ℕ) (c : Char) (rest : List UInt8) :
    lossyChars (rounds + 1) (String.utf8EncodeChar c ++ rest) = c :: lossyChars rounds rest := by
  have hdecode := decodeChar_encodeChar c rest
  have hdrop : (String.utf8EncodeChar c ++ rest).drop c.utf8Size = rest := by
    rw [← String.length_utf8EncodeChar c]
    exact List.drop_left
  cases hb : String.utf8EncodeChar c ++ rest with
  | nil =>
    have hlen := congrArg List.length hb
    have hpos := c.utf8Size_pos
    simp only [List.length_append, String.length_utf8EncodeChar, List.length_nil] at hlen
    omega
  | cons b bs =>
    rw [hb] at hdecode hdrop
    simp only [lossyChars, hdecode, hdrop]

theorem lossyChars_flatMap (cs : List Char) (rounds : ℕ) (h : cs.length ≤ rounds) :
    lossyChars rounds (cs.flatMap String.utf8EncodeChar) = cs := by
  induction cs generalizing rounds with
  | nil => cases rounds <;> rfl
  | cons c cs ih =>
    obtain ⟨k, rfl⟩ : ∃ k, rounds = k + 1 :=
      ⟨rounds - 1, by simp only [List.length_cons] at h; omega⟩
    rw [List.flatMap_cons, lossyChars_encodeChar, ih k (by simpa using h)]

theorem length_le_flatMap (cs : List Char) :
    cs.length ≤ (cs.flatMap String.utf8EncodeChar).length := by
  induction cs with
  | nil => exact Nat.zero_le _
  | cons c cs ih =>
    have hpos := c.utf8Size_pos
    simp only [List.flatMap_cons, List.length_append, String.length_utf8EncodeChar,
      List.length_cons]
    omega

theorem fromUtf8Lossy_asBytes (s : String) : fromUtf8Lossy (asBytes s) = s := by
  unfold fromUtf8Lossy asBytes
  rw [lossyChars_flatMap _ _ (length_le_flatMap s.toList)]
  exact String.ofList_toList

theorem ofNat_ne_zero {n : ℕ} (hpos : 0 < n) (hlt : n < 256) : (0 : UInt8) ≠ UInt8.ofNat n := by
  intro h
  have hn := congrArg UInt8.toNat h
  rw [UInt8.toNat_ofNat', Nat.mod_eq_of_lt hlt] at hn
  change 0 = n at hn
  omega

theorem nul_of_mem_utf8EncodeChar {c : Char} (h : (0 : UInt8) ∈ String.utf8EncodeChar c) :
    c = '\x00' := by
  unfold String.utf8EncodeChar at h
  dsimp only at h
  split_ifs at h with h1
  · have hn := congrArg UInt8.toNat (List.mem_singleton.1 h)
    rw [UInt8.toNat_ofNat', Nat.mod_eq_of_lt (by omega)] at hn
    exact Char.ext (UInt32.toNat_inj.1 hn.symm)
  -- the bytes of the longer forms all have their high bit set
  · simp only [List.mem_cons, List.not_mem_nil, or_false] at h
    rcases h with h | h <;> exact absurd h (ofNat_ne_zero (by omega) (by omega))
  · simp only [List.mem_cons, List.not_mem_nil, or_false] at h
    rcases h with h | h | h <;> exact absurd h (ofNat_ne_zero (by omega) (by omega))
  · simp only [List.mem_cons, List.not_mem_nil, or_false] at h
    rcases h with h | h | h | h <;> exact absurd h (ofNat_ne_zero (by omega) (by omega))

theorem nul_of_mem_asBytes {s : String} (h : (0 : UInt8) ∈ asBytes s) : '\x00' ∈ s.toList := by
  obtain ⟨c, hc, hmem⟩ := List.mem_flatMap.1 h
  exact nul_of_mem_utf8EncodeChar hmem ▸ hc

end Sandstar.Utf8
