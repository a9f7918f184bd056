import Sandstar.BacnetValues
import Sandstar.BigEndian
import Sandstar.ModbusFrames

set_option autoImplicit false

namespace Sandstar.Bacnet

open Decoding SoxProtocol

def tagBits (tagByte : UInt8) : ℕ := (tagByte >>> 4 &&& 0x0F).toNat

def lengthBits (tagByte : UInt8) : ℕ := (tagByte &&& 0x07).toNat

/-- A length of `width` bytes behind the first `header` ones. -/
def lengthField (header width : ℕ) (data : List UInt8) : Option (ℕ × ℕ) :=
  if header + width ≤ data.length then
    some (header + width, BigEndian.value ((data.drop header).take width))
  else none

def documentedContent (data : List UInt8) (lvt : ℕ) : Option (ℕ × ℕ) :=
  if lvt ≤ 4 then some (1, lvt)
  else if lvt = 5 then
    match data[1]? with
    | none => none
    | some b =>
      if b = 254 then lengthField 2 2 data
      else if b = 255 then lengthField 2 4 data
      else some (2, b.toNat)
  else if lvt = 6 then lengthField 1 2 data
  else lengthField 1 4 data

def wholeContent (data : List UInt8) (lvt : ℕ) : Option (ℕ × ℕ) :=
  (documentedContent data lvt).filter fun (header, length) => header + length ≤ data.length

def contentEnd (data : List UInt8) (lvt : ℕ) : Option ℕ :=
  (wholeContent data lvt).map fun (header, length) => header + length

def FitsTag (tag length : ℕ) : Prop :=
  match tag with
  | 0 | 1 => False
  | 2 | 3 | 9 => 1 ≤ length ∧ length ≤ 4
  | 4 | 10 | 11 | 12 => length = 4
  | 5 => length = 8
  | _ => True

structure FollowsLengths (tagByte : UInt8) (rest : List UInt8) : Prop where
  consumes : ∀ v n, decodeApplicationTag (tagByte :: rest) = .ok (v, n) →
    contentEnd (tagByte :: rest) (lengthBits tagByte) = some n
  decodes : ∀ header length,
    wholeContent (tagByte :: rest) (lengthBits tagByte) = some (header, length) →
    FitsTag (tagBits tagByte) length →
    ∃ v, decodeApplicationTag (tagByte :: rest) = .ok (v, header + length)

def DecodesNumber (tagByte : UInt8) (rest : List UInt8)
    (Denotes : BacnetValue → List UInt8 → Prop) : Prop :=
  ∀ header length,
    wholeContent (tagByte :: rest) (lengthBits tagByte) = some (header, length) →
    1 ≤ length → length ≤ 4 →
    ∃ v, decodeApplicationTag (tagByte :: rest) = .ok (v, header + length) ∧
      Denotes v (((tagByte :: rest).drop header).take length)

def DenotesUnsigned (v : BacnetValue) (content : List UInt8) : Prop :=
  ∃ n, v = .unsigned n ∧ n.toNat = BigEndian.value content

def DenotesSigned (v : BacnetValue) (content : List UInt8) : Prop :=
  ∃ n, v = .signed n ∧ n.toInt = BigEndian.signedValue content

/-- The documented format, for one tag byte and what follows. -/
structure ConformsToFormat (tagByte : UInt8) (rest : List UInt8) : Prop where
  lengths : tagBits tagByte ≠ 0 → tagBits tagByte ≠ 1 → FollowsLengths tagByte rest
  unsigned : tagBits tagByte = 2 → DecodesNumber tagByte rest DenotesUnsigned
  signed : tagBits tagByte = 3 → DecodesNumber tagByte rest DenotesSigned

def EscapedContent (tag : ℕ) (data : List UInt8) (lvt : ℕ) : Prop :=
  5 ≤ lvt ∧ ∃ header length, wholeContent data lvt = some (header, length) ∧ FitsTag tag length

def EndsAfter (total : ℕ) (data : List UInt8) (lvt : ℕ) : Prop :=
  contentEnd data lvt = if total ≤ data.length then some total else none

/-- When the branch for the tag takes what the rule says. -/
def LengthsAgree (tag : ℕ) (data : List UInt8) (lvt : ℕ) : Prop :=
  match tag with
  | 0 | 1 => True
  -- no escape is known
  | 2 | 3 | 4 | 9 | 10 | 11 | 12 => ¬EscapedContent tag data lvt
  -- eight bytes, whatever the length bits say
  | 5 => 9 ≤ data.length → contentEnd data lvt = some 9
  -- an escape of one byte is taken as the length itself, and the last one is not known
  | 7 => (lvt = 5 → ∀ b, data[1]? = some b → 254 ≤ b → EndsAfter (2 + b.toNat) data lvt) ∧
      (lvt = 7 → contentEnd data lvt = none)
  -- the length bits are the length
  | _ => 5 ≤ lvt → EndsAfter (1 + lvt) data lvt

def SignAgrees (data : List UInt8) (lvt : ℕ) : Prop :=
  ¬(lvt = 3 ∧ 4 ≤ data.length ∧ ∃ b, data[1]? = some b ∧ 128 ≤ b)

section Branches

variable {data rest : List UInt8} {tagByte : UInt8} {lvt : ℕ}

/-- The decoder returns a value and goes on at `some n`, or returns none. -/
def Takes (x : Decoder BacnetError (BacnetValue × ℕ)) : Option ℕ → Prop
  | some n => ∃ v, x = .ok (v, n)
  | none => ∃ e, x = .error e

theorem wholeContent_direct (h : lvt ≤ 4) :
    wholeContent data lvt = if 1 + lvt ≤ data.length then some (1, lvt) else none := by
  unfold wholeContent documentedContent
  rw [if_pos h]
  split_ifs with hwhole
  · exact if_pos (by simpa using hwhole)
  · exact if_neg (by simpa using hwhole)

theorem contentEnd_direct (h : lvt ≤ 4) :
    contentEnd data lvt = if 1 + lvt ≤ data.length then some (1 + lvt) else none := by
  unfold contentEnd
  rw [wholeContent_direct h]
  split <;> rfl

theorem follows_iff {taken : Option ℕ} (h : Takes (decodeApplicationTag (tagByte :: rest)) taken) :
    FollowsLengths tagByte rest ↔
      (∀ n, taken = some n → contentEnd (tagByte :: rest) (lengthBits tagByte) = some n) ∧
        (taken = none → ∀ header length,
          wholeContent (tagByte :: rest) (lengthBits tagByte) = some (header, length) →
          ¬FitsTag (tagBits tagByte) length) := by
  cases taken with
  | none =>
    obtain ⟨e, he⟩ := h
    constructor
    · intro hfollows
      refine ⟨fun n hn => (nomatch hn), fun _ header length hwhole hfits => ?_⟩
      obtain ⟨v, hv⟩ := hfollows.decodes header length hwhole hfits
      rw [he] at hv
      cases hv
    · rintro ⟨-, hnone⟩
      refine ⟨fun v n hn => ?_, fun header length hwhole hfits => ?_⟩
      · rw [he] at hn
        cases hn
      · exact absurd hfits (hnone rfl header length hwhole)
  | some n =>
    obtain ⟨v, hv⟩ := h
    constructor
    · intro hfollows
      refine ⟨?_, fun hn => (nomatch hn)⟩
      rintro _ ⟨⟩
      exact hfollows.consumes v n hv
    · rintro ⟨hsome, -⟩
      have hend := hsome n rfl
      refine ⟨fun w m hm => ?_, fun header length hwhole _ => ⟨v, ?_⟩⟩
      · rw [hv] at hm
        cases hm
        exact hend
      · unfold contentEnd at hend
        rw [hwhole] at hend
        rw [hv, ← Option.some.inj hend]

theorem skipTag_takes (truncated : String) :
    Takes (skipTag data lvt truncated) (if 1 + lvt ≤ data.length then some (1 + lvt) else none) := by
  unfold skipTag
  split_ifs with hshort hfits
  · omega
  · exact ⟨_, rfl⟩
  · exact ⟨_, rfl⟩
  · omega

theorem decodeBytes_takes (truncated : String) (make : List UInt8 → BacnetValue) :
    Takes (decodeBytes data lvt truncated make)
      (if 1 + lvt ≤ data.length then some (1 + lvt) else none) := by
  unfold decodeBytes range
  split_ifs with hshort hfits hrange
  · omega
  · exact ⟨_, rfl⟩
  · exact ⟨_, rfl⟩
  · omega
  · omega
  · exact ⟨_, rfl⟩

theorem index_ok {i : ℕ} (h : i < data.length) :
    index (E := BacnetError) data i = .ok (data.get ⟨i, h⟩) := by
  unfold index
  rw [List.getElem?_eq_getElem h]
  rfl

theorem indexU32_ok {pos : ℕ} (h : pos + 3 < data.length) : ∃ n, indexU32 data pos = .ok n := by
  unfold indexU32
  rw [index_ok (by omega : pos < data.length), index_ok (by omega : pos + 1 < data.length),
    index_ok (by omega : pos + 2 < data.length), index_ok h]
  exact ⟨_, rfl⟩

theorem decodeFour_takes (invalid : String) (make : UInt8 → UInt8 → UInt8 → UInt8 → BacnetValue) :
    Takes (decodeFour data lvt invalid make) (if lvt = 4 ∧ 5 ≤ data.length then some 5 else none) := by
  unfold decodeFour
  by_cases hfour : lvt = 4 ∧ 5 ≤ data.length
  · rw [if_pos hfour, if_neg (by omega), index_ok (by omega : 1 < data.length),
      index_ok (by omega : 2 < data.length), index_ok (by omega : 3 < data.length),
      index_ok (by omega : 4 < data.length)]
    exact ⟨_, rfl⟩
  · rw [if_neg hfour, if_pos (by omega)]
    exact ⟨_, rfl⟩

theorem decodeReal_takes :
    Takes (decodeReal data lvt) (if lvt = 4 ∧ 5 ≤ data.length then some 5 else none) := by
  unfold decodeReal
  split_ifs with hfour hshort hboth hboth
  · exact absurd hshort.1 hfour
  · exact ⟨_, rfl⟩
  · omega
  · exact ⟨_, rfl⟩
  · obtain ⟨n, hn⟩ := @indexU32_ok data 1 (by omega)
    rw [hn]
    exact ⟨_, rfl⟩
  · omega

theorem decodeObjectId_takes :
    Takes (decodeObjectId data lvt) (if lvt = 4 ∧ 5 ≤ data.length then some 5 else none) := by
  unfold decodeObjectId
  split_ifs with hfour hshort hboth hboth
  · exact absurd hshort.1 hfour
  · exact ⟨_, rfl⟩
  · omega
  · exact ⟨_, rfl⟩
  · obtain ⟨n, hn⟩ := @indexU32_ok data 1 (by omega)
    rw [hn]
    exact ⟨_, rfl⟩
  · omega

theorem decodeDouble_takes :
    Takes (decodeDouble data) (if 9 ≤ data.length then some 9 else none) := by
  unfold decodeDouble
  split_ifs with hshort hfits
  · omega
  · exact ⟨_, rfl⟩
  · obtain ⟨hi, hhi⟩ := @indexU32_ok data 1 (by omega)
    obtain ⟨lo, hlo⟩ := @indexU32_ok data 5 (by omega)
    rw [hhi, hlo]
    exact ⟨_, rfl⟩
  · omega

theorem threeBytes_toNat (a b c : UInt8) :
    (a.toUInt32 <<< 16 ||| b.toUInt32 <<< 8 ||| c.toUInt32).toNat = BigEndian.value [a, b, c] := by
  have ha := a.toNat_lt
  have hb := b.toNat_lt
  have hc := c.toNat_lt
  have hhigh : a.toNat <<< 16 % 2 ^ 32 = a.toNat <<< 16 := by
    rw [Nat.shiftLeft_eq]
    omega
  have hmid : b.toNat <<< 8 % 2 ^ 32 = b.toNat <<< 8 := by
    rw [Nat.shiftLeft_eq]
    omega
  have hlow : b.toNat <<< 8 ||| c.toNat = 256 * b.toNat + c.toNat := by
    rw [← Nat.shiftLeft_add_eq_or_of_lt hc, Nat.shiftLeft_eq]
    omega
  rw [UInt32.toNat_or, UInt32.toNat_or, UInt32.toNat_shiftLeft, UInt32.toNat_shiftLeft,
    UInt8.toNat_toUInt32, UInt8.toNat_toUInt32, UInt8.toNat_toUInt32]
  change a.toNat <<< 16 % 2 ^ 32 ||| b.toNat <<< 8 % 2 ^ 32 ||| c.toNat = _
  rw [hhigh, hmid, Nat.or_assoc, hlow, ← Nat.shiftLeft_add_eq_or_of_lt (by omega),
    Nat.shiftLeft_eq, BigEndian.value_three]
  omega

theorem beU32_toNat (a b c d : UInt8) : (beU32 a b c d).toNat = BigEndian.value [a, b, c, d] := by
  have ha := a.toNat_lt
  have hrest : BigEndian.value [b, c, d] < 2 ^ 24 :=
    lt_of_lt_of_eq (BigEndian.value_lt [b, c, d]) (by norm_num)
  have hhigh : a.toNat <<< 24 % 2 ^ 32 = a.toNat <<< 24 := by
    rw [Nat.shiftLeft_eq]
    omega
  unfold beU32
  rw [UInt32.or_assoc, UInt32.or_assoc, ← UInt32.or_assoc (b.toUInt32 <<< 16), UInt32.toNat_or,
    threeBytes_toNat, UInt32.toNat_shiftLeft, UInt8.toNat_toUInt32]
  change a.toNat <<< 24 % 2 ^ 32 ||| BigEndian.value [b, c, d] = _
  rw [hhigh, ← Nat.shiftLeft_add_eq_or_of_lt hrest, Nat.shiftLeft_eq, BigEndian.value_three,
    BigEndian.value_four]
  omega

theorem readUnsigned_value {len : ℕ} (hlen : len ≤ 4) (h : len ≤ rest.length) :
    ∃ n, readUnsigned rest len = .ok n ∧ n.toNat = BigEndian.value (rest.take len) := by
  unfold readUnsigned
  rw [if_neg (Nat.not_lt.2 h)]
  match len, rest, h with
  | 0, _, _ => exact ⟨0, rfl, by simp [BigEndian.value_nil]⟩
  | 1, a :: _, _ => exact ⟨_, rfl, by simp [BigEndian.value_one]⟩
  | 2, a :: b :: _, _ => exact ⟨_, rfl, by simp [BigEndian.value_two, Modbus.beU16_toNat]⟩
  | 3, a :: b :: c :: _, _ => exact ⟨_, rfl, threeBytes_toNat a b c⟩
  | 4, a :: b :: c :: d :: _, _ => exact ⟨_, rfl, beU32_toNat a b c d⟩
  | _ + 5, _, _ => omega

theorem readUnsigned_takes (make : UInt32 → BacnetValue) :
    Takes (readUnsigned rest lvt >>= fun n => pure (make n, 1 + lvt))
      (if lvt ≤ 4 ∧ lvt ≤ rest.length then some (1 + lvt) else none) := by
  split_ifs with hfits
  · obtain ⟨n, hn, -⟩ := readUnsigned_value hfits.1 hfits.2
    rw [hn]
    exact ⟨_, rfl⟩
  · unfold readUnsigned
    split_ifs with hshort
    · exact ⟨_, rfl⟩
    · have hwide : 5 ≤ lvt := by omega
      match lvt, hwide with
      | _ + 5, _ => exact ⟨_, rfl⟩

theorem signExtend_eq_iff {len : ℕ} (hpos : 1 ≤ len) (hlen : len ≤ 4) {content : List UInt8}
    (hcontent : content.length = len) {n : UInt32} (hn : n.toNat = BigEndian.value content) :
    (signExtend len n).toInt = BigEndian.signedValue content ↔
      ¬(len = 3 ∧ ∃ b, content[0]? = some b ∧ 128 ≤ b) := by
  unfold signExtend
  match len, content, hcontent with
  | 1, [a], _ =>
    have hlow : n.toUInt8.toNat = BigEndian.value [a] := by
      rw [UInt32.toNat_toUInt8, hn]
      exact Nat.mod_eq_of_lt (by simpa using BigEndian.value_lt [a])
    have hsign : n.toUInt8.toInt8.toInt32.toInt = Int.bmod n.toUInt8.toNat 256 := by
      rw [Int8.toInt_toInt32]
      exact BitVec.toInt_eq_toNat_bmod _
    simp [hsign, hlow, BigEndian.signedValue]
  | 2, [a, b], _ =>
    have hlow : n.toUInt16.toNat = BigEndian.value [a, b] := by
      rw [UInt32.toNat_toUInt16, hn]
      exact Nat.mod_eq_of_lt (by simpa using BigEndian.value_lt [a, b])
    have hsign : n.toUInt16.toInt16.toInt32.toInt = Int.bmod n.toUInt16.toNat 65536 := by
      rw [Int16.toInt_toInt32]
      exact BitVec.toInt_eq_toNat_bmod _
    simp [hsign, hlow, BigEndian.signedValue]
  | 3, [a, b, c], _ =>
    have hlt : BigEndian.value [a, b, c] < 2 ^ 24 :=
      lt_of_lt_of_eq (BigEndian.value_lt [a, b, c]) (by norm_num)
    have hraw : n.toInt32.toInt = (BigEndian.value [a, b, c] : ℤ) := by
      rw [show n.toInt32.toInt = Int.bmod n.toNat (2 ^ 32) from BitVec.toInt_eq_toNat_bmod _, hn,
        Int.bmod_def, Int.emod_eq_of_lt (by omega) (by omega), if_pos (by omega)]
    have hfirst : (128 : UInt8) ≤ a ↔ 128 ≤ a.toNat := by
      rw [UInt8.le_iff_toNat_le]
      rfl
    have hb := b.toNat_lt
    have hc := c.toNat_lt
    change n.toInt32.toInt = _ ↔ _
    rw [hraw, eq_comm, BigEndian.signedValue_eq_value_iff (by simp), BigEndian.value_three]
    simp [hfirst]
    omega
  | 4, [a, b, c, d], _ =>
    have hsign : n.toInt32.toInt = Int.bmod n.toNat 4294967296 := BitVec.toInt_eq_toNat_bmod _
    simp [hsign, hn, BigEndian.signedValue]

theorem characterString_takes {strLen headerLen : ℕ}
    (h : characterStringLength data lvt = .ok (strLen, headerLen)) (hheader : headerLen ≤ data.length) :
    Takes (decodeCharacterString data lvt)
      (if headerLen + strLen ≤ data.length then some (headerLen + strLen) else none) := by
  unfold decodeCharacterString
  rw [h]
  change Takes (if strLen = 0 then _ else _) _
  by_cases hzero : strLen = 0
  · rw [if_pos hzero, if_pos (by omega), hzero]
    exact ⟨_, rfl⟩
  · rw [if_neg hzero]
    split_ifs with hshort hfits hlong hfits
    · omega
    · exact ⟨_, rfl⟩
    · rw [range, if_pos ⟨by omega, by omega⟩]
      exact ⟨_, rfl⟩
    · omega
    · exact ⟨_, rfl⟩
    · omega

end Branches

section Tags

variable {tagByte : UInt8} {rest : List UInt8} {header length total : ℕ}

theorem wholeContent_short {data : List UInt8} {lvt : ℕ} (h : lvt ≤ 4)
    (hwhole : wholeContent data lvt = some (header, length)) :
    header = 1 ∧ length = lvt ∧ 1 + lvt ≤ data.length := by
  rw [wholeContent_direct h] at hwhole
  split_ifs at hwhole with hle
  cases hwhole
  exact ⟨rfl, rfl, hle⟩

theorem wholeContent_fits {data : List UInt8} {lvt : ℕ}
    (hwhole : wholeContent data lvt = some (header, length)) : header + length ≤ data.length := by
  unfold wholeContent at hwhole
  simpa using (Option.filter_eq_some_iff.1 hwhole).2

theorem lengthField_header {data : List UInt8} {start width : ℕ} (hstart : 1 ≤ start)
    (h : lengthField start width data = some (header, length)) : 1 ≤ header := by
  unfold lengthField at h
  split_ifs at h
  cases h
  omega

theorem wholeContent_header {data : List UInt8} {lvt : ℕ}
    (hwhole : wholeContent data lvt = some (header, length)) : 1 ≤ header := by
  have hdocumented := (Option.filter_eq_some_iff.1 hwhole).1
  unfold documentedContent at hdocumented
  split_ifs at hdocumented with hshort hone htwo
  · cases hdocumented
    exact le_rfl
  · split at hdocumented
    · cases hdocumented
    · split_ifs at hdocumented
      · exact lengthField_header (by decide) hdocumented
      · exact lengthField_header (by decide) hdocumented
      · cases hdocumented
        decide
  · exact lengthField_header le_rfl hdocumented
  · exact lengthField_header le_rfl hdocumented

/-- A branch that takes short contents and rejects every escape. -/
theorem follows_direct_iff {taken : Option ℕ}
    (h : Takes (decodeApplicationTag (tagByte :: rest)) taken)
    (hsome : ∀ n, taken = some n → lengthBits tagByte ≤ 4 ∧
      contentEnd (tagByte :: rest) (lengthBits tagByte) = some n)
    (hnone : taken = none → lengthBits tagByte ≤ 4 → lengthBits tagByte ≤ rest.length →
      ¬FitsTag (tagBits tagByte) (lengthBits tagByte)) :
    FollowsLengths tagByte rest ↔
      ¬EscapedContent (tagBits tagByte) (tagByte :: rest) (lengthBits tagByte) := by
  rw [follows_iff h]
  constructor
  · rintro ⟨-, hrejects⟩ ⟨hescape, header, length, hwhole, hfits⟩
    have htaken : taken = none := by
      cases taken with
      | none => rfl
      | some n => exact absurd (hsome n rfl).1 (by omega)
    exact hrejects htaken header length hwhole hfits
  · intro hescaped
    refine ⟨fun n hn => (hsome n hn).2, fun htaken header length hwhole hfits => ?_⟩
    by_cases hshort : lengthBits tagByte ≤ 4
    · obtain ⟨-, rfl, hle⟩ := wholeContent_short hshort hwhole
      exact hnone htaken hshort (by simp at hle; omega) hfits
    · exact hescaped ⟨by omega, header, length, hwhole, hfits⟩

theorem follows_number_iff
    (h : Takes (decodeApplicationTag (tagByte :: rest))
      (if lengthBits tagByte ≤ 4 ∧ lengthBits tagByte ≤ rest.length then
        some (1 + lengthBits tagByte) else none)) :
    FollowsLengths tagByte rest ↔
      ¬EscapedContent (tagBits tagByte) (tagByte :: rest) (lengthBits tagByte) := by
  refine follows_direct_iff h (fun n hn => ?_) (fun hn hshort hle => ?_)
  · split_ifs at hn with hboth
    cases hn
    refine ⟨hboth.1, ?_⟩
    rw [contentEnd_direct hboth.1, if_pos (by simp; omega)]
  · rw [if_pos ⟨hshort, hle⟩] at hn
    cases hn

theorem follows_four_iff (hfits : FitsTag (tagBits tagByte) = FitsTag 4)
    (h : Takes (decodeApplicationTag (tagByte :: rest))
      (if lengthBits tagByte = 4 ∧ 5 ≤ (tagByte :: rest).length then some 5 else none)) :
    FollowsLengths tagByte rest ↔
      ¬EscapedContent (tagBits tagByte) (tagByte :: rest) (lengthBits tagByte) := by
  refine follows_direct_iff h (fun n hn => ?_) (fun hn hshort hle hlength => ?_)
  · split_ifs at hn with hboth
    cases hn
    refine ⟨hboth.1.le, ?_⟩
    rw [contentEnd_direct hboth.1.le, hboth.1, if_pos hboth.2]
  · rw [hfits] at hlength
    have hfour : lengthBits tagByte = 4 := hlength
    rw [if_pos ⟨hfour, by simp; omega⟩] at hn
    cases hn

theorem endsAfter_documented {data : List UInt8} {lvt : ℕ}
    (h : documentedContent data lvt = some (header, length)) :
    EndsAfter (header + length) data lvt := by
  unfold EndsAfter contentEnd wholeContent
  rw [h]
  split_ifs with hle
  · simp [hle]
  · simpa using hle

/-- A branch that takes `total` bytes if they are there, and all of whose lengths fit. -/
theorem follows_total_iff (hfits : ∀ length, FitsTag (tagBits tagByte) length)
    (h : Takes (decodeApplicationTag (tagByte :: rest))
      (if total ≤ (tagByte :: rest).length then some total else none)) :
    FollowsLengths tagByte rest ↔ EndsAfter total (tagByte :: rest) (lengthBits tagByte) := by
  rw [follows_iff h]
  unfold EndsAfter
  constructor
  · rintro ⟨hsome, hnone⟩
    split_ifs with hle
    · exact hsome total (if_pos hle)
    · unfold contentEnd
      rw [Option.map_eq_none_iff, Option.eq_none_iff_forall_ne_some]
      rintro ⟨header, length⟩ hwhole
      exact hnone (if_neg hle) header length hwhole (hfits length)
  · intro hend
    refine ⟨fun n hn => hend.trans hn, fun hn header length hwhole _ => ?_⟩
    rw [hn] at hend
    unfold contentEnd at hend
    rw [hwhole] at hend
    cases hend

/-- A branch that takes the length bits for the length. -/
theorem follows_bits_iff (hfits : ∀ length, FitsTag (tagBits tagByte) length)
    (h : Takes (decodeApplicationTag (tagByte :: rest))
      (if 1 + lengthBits tagByte ≤ (tagByte :: rest).length then some (1 + lengthBits tagByte)
        else none)) :
    FollowsLengths tagByte rest ↔ (5 ≤ lengthBits tagByte →
      EndsAfter (1 + lengthBits tagByte) (tagByte :: rest) (lengthBits tagByte)) := by
  rw [follows_total_iff hfits h]
  refine ⟨fun hend _ => hend, fun hend => ?_⟩
  by_cases hshort : lengthBits tagByte ≤ 4
  · exact endsAfter_documented (if_pos hshort)
  · exact hend (by omega)

theorem follows_double_iff (htag : tagBits tagByte = 5)
    (h : Takes (decodeApplicationTag (tagByte :: rest))
      (if 9 ≤ (tagByte :: rest).length then some 9 else none)) :
    FollowsLengths tagByte rest ↔ (9 ≤ (tagByte :: rest).length →
      contentEnd (tagByte :: rest) (lengthBits tagByte) = some 9) := by
  rw [follows_iff h]
  constructor
  · rintro ⟨hsome, -⟩ hle
    exact hsome 9 (if_pos hle)
  · intro hend
    refine ⟨fun n hn => ?_, fun hn header length hwhole hlength => ?_⟩
    · split_ifs at hn with hle
      rw [hend hle, hn]
    · split_ifs at hn with hle
      have hheader := wholeContent_header hwhole
      have hwithin := wholeContent_fits hwhole
      rw [htag] at hlength
      have height : length = 8 := hlength
      omega

theorem lengthBits_le (tagByte : UInt8) : lengthBits tagByte ≤ 7 := by
  unfold lengthBits
  rw [UInt8.toNat_and]
  exact Nat.and_le_right

theorem tagBits_lt (tagByte : UInt8) : tagBits tagByte < 16 := by
  unfold tagBits
  rw [UInt8.toNat_and]
  exact Nat.lt_succ_of_le Nat.and_le_right

/-- A rejected tag whose content is not whole. -/
theorem follows_none (h : Takes (decodeApplicationTag (tagByte :: rest)) none)
    (hwhole : wholeContent (tagByte :: rest) (lengthBits tagByte) = none) :
    FollowsLengths tagByte rest := by
  refine (follows_iff h).2 ⟨fun n hn => (nomatch hn), fun _ header length hsome => ?_⟩
  rw [hwhole] at hsome
  cases hsome

theorem follows_string_iff (htag : tagBits tagByte = 7)
    (hdecode : decodeApplicationTag (tagByte :: rest) =
      decodeCharacterString (tagByte :: rest) (lengthBits tagByte)) :
    FollowsLengths tagByte rest ↔
      LengthsAgree 7 (tagByte :: rest) (lengthBits tagByte) := by
  have hfits : ∀ length, FitsTag (tagBits tagByte) length := by
    rw [htag]
    exact fun _ => trivial
  have htotal {strLen headerLen : ℕ}
      (h : characterStringLength (tagByte :: rest) (lengthBits tagByte) = .ok (strLen, headerLen))
      (hheader : headerLen ≤ (tagByte :: rest).length) : FollowsLengths tagByte rest ↔
        EndsAfter (headerLen + strLen) (tagByte :: rest) (lengthBits tagByte) := by
    refine follows_total_iff hfits ?_
    rw [hdecode]
    exact characterString_takes h hheader
  have hrejected {e : Halt BacnetError}
      (h : characterStringLength (tagByte :: rest) (lengthBits tagByte) = .error e) :
      Takes (decodeApplicationTag (tagByte :: rest)) none := by
    rw [hdecode]
    unfold decodeCharacterString
    rw [h]
    exact ⟨_, rfl⟩
  change _ ↔ (lengthBits tagByte = 5 → _) ∧ (lengthBits tagByte = 7 → _)
  have hle := lengthBits_le tagByte
  obtain hshort | hone | htwo | hfour : lengthBits tagByte ≤ 4 ∨ lengthBits tagByte = 5 ∨
      lengthBits tagByte = 6 ∨ lengthBits tagByte = 7 := by omega
  · rw [htotal (if_pos hshort) (by simp)]
    refine iff_of_true (endsAfter_documented (if_pos hshort)) ⟨fun h => ?_, fun h => ?_⟩ <;> omega
  · rw [hone] at htotal hrejected ⊢
    cases rest with
    | nil =>
      refine iff_of_true (follows_none (hrejected rfl) ?_) ⟨fun _ b hb => ?_, fun h => ?_⟩
      · rw [hone]
        rfl
      · cases hb
      · omega
    | cons b more =>
      rw [htotal (characterStringLength_one tagByte b more) (by simp)]
      constructor
      · intro hend
        refine ⟨fun _ c hc _ => ?_, fun h => by omega⟩
        cases hc
        exact hend
      · rintro ⟨hescape, -⟩
        by_cases hb : 254 ≤ b
        · exact hescape rfl b rfl hb
        · have h254 : b ≠ 254 := fun h => hb (by rw [h]; decide)
          have h255 : b ≠ 255 := fun h => hb (by rw [h]; decide)
          refine endsAfter_documented ?_
          change (if b = 254 then _ else if b = 255 then _ else _) = _
          rw [if_neg h254, if_neg h255]
  · rw [htwo] at htotal hrejected ⊢
    refine iff_of_true ?_ ⟨fun h => by omega, fun h => by omega⟩
    match rest with
    | [] => exact follows_none (hrejected rfl) (by rw [htwo]; rfl)
    | [_] => exact follows_none (hrejected rfl) (by rw [htwo]; rfl)
    | hi :: lo :: more =>
      have hlength : characterStringLength (tagByte :: hi :: lo :: more) 6 =
          .ok ((beU16 hi lo).toNat, 3) := rfl
      refine (htotal hlength (by simp)).2 ?_
      refine endsAfter_documented ?_
      change lengthField 1 2 (tagByte :: hi :: lo :: more) = _
      unfold lengthField
      rw [if_pos (by simp)]
      change some (3, BigEndian.value [hi, lo]) = _
      rw [BigEndian.value_two, Modbus.beU16_toNat]
  · rw [hfour] at hrejected ⊢
    constructor
    · intro hfollows
      refine ⟨fun h => by omega, fun _ => ?_⟩
      unfold contentEnd
      rw [Option.map_eq_none_iff, Option.eq_none_iff_forall_ne_some]
      rintro ⟨header, length⟩ hwhole
      obtain ⟨e, he⟩ := hrejected rfl
      obtain ⟨v, hv⟩ := hfollows.decodes header length (by rw [hfour]; exact hwhole) (hfits length)
      rw [he] at hv
      cases hv
    · rintro ⟨-, hend⟩
      refine follows_none (hrejected rfl) ?_
      rw [hfour]
      exact Option.map_eq_none_iff.1 (hend rfl)

/-- Every tag but Null and Boolean takes the length the rule gives exactly if its branch agrees
    with the rule. -/
theorem followsLengths_iff (hclass : tagByte >>> 3 &&& 0x01 = 0) (hnull : tagBits tagByte ≠ 0)
    (hboolean : tagBits tagByte ≠ 1) :
    FollowsLengths tagByte rest ↔
      LengthsAgree (tagBits tagByte) (tagByte :: rest) (lengthBits tagByte) := by
  have hlt := tagBits_lt tagByte
  have hbranch {x : Decoder BacnetError (BacnetValue × ℕ)} {taken : Option ℕ}
      (hdecode : decodeApplicationTag (tagByte :: rest) = x) (h : Takes x taken) :
      Takes (decodeApplicationTag (tagByte :: rest)) taken := hdecode ▸ h
  have hopen : decodeApplicationTag (tagByte :: rest) = _ := if_neg (not_not.2 hclass)
  generalize htag : tagBits tagByte = tag at *
  have hmatch : (tagByte >>> 4 &&& 0x0F).toNat = tag := htag
  rw [hmatch] at hopen
  interval_cases tag
  · exact absurd rfl hnull
  · exact absurd rfl hboolean
  · have h := @follows_number_iff tagByte rest (hbranch hopen (readUnsigned_takes _))
    rwa [htag] at h
  · have h := @follows_number_iff tagByte rest (hbranch hopen (readUnsigned_takes _))
    rwa [htag] at h
  · have h := @follows_four_iff tagByte rest (by rw [htag]) (hbranch hopen decodeReal_takes)
    rwa [htag] at h
  · exact follows_double_iff htag (hbranch hopen decodeDouble_takes)
  · exact follows_bits_iff (by rw [htag]; exact fun _ => trivial)
      (hbranch hopen (decodeBytes_takes _ _))
  · exact follows_string_iff htag hopen
  · exact follows_bits_iff (by rw [htag]; exact fun _ => trivial)
      (hbranch hopen (decodeBytes_takes _ _))
  · have h := @follows_number_iff tagByte rest (hbranch hopen (readUnsigned_takes _))
    rwa [htag] at h
  · have h := @follows_four_iff tagByte rest (by rw [htag]; rfl) (hbranch hopen (decodeFour_takes _ _))
    rwa [htag] at h
  · have h := @follows_four_iff tagByte rest (by rw [htag]; rfl) (hbranch hopen (decodeFour_takes _ _))
    rwa [htag] at h
  · have h := @follows_four_iff tagByte rest (by rw [htag]; rfl) (hbranch hopen decodeObjectId_takes)
    rwa [htag] at h
  all_goals
    exact follows_bits_iff (by rw [htag]; exact fun _ => trivial) (hbranch hopen (skipTag_takes _))

theorem readUnsigned_content
    (hlengths : ¬EscapedContent 2 (tagByte :: rest) (lengthBits tagByte))
    (hwhole : wholeContent (tagByte :: rest) (lengthBits tagByte) = some (header, length))
    (hpos : 1 ≤ length) (hlength : length ≤ 4) :
    header = 1 ∧ length = lengthBits tagByte ∧ ∃ n, readUnsigned rest length = .ok n ∧
      n.toNat = BigEndian.value (rest.take length) := by
  have hshort : lengthBits tagByte ≤ 4 := by
    by_contra hlong
    exact hlengths ⟨by omega, header, length, hwhole, hpos, hlength⟩
  obtain ⟨rfl, rfl, hle⟩ := wholeContent_short hshort hwhole
  exact ⟨rfl, rfl, readUnsigned_value hshort (by simp at hle; omega)⟩

theorem decodesUnsigned (hclass : tagByte >>> 3 &&& 0x01 = 0) (htag : tagBits tagByte = 2)
    (hlengths : ¬EscapedContent 2 (tagByte :: rest) (lengthBits tagByte)) :
    DecodesNumber tagByte rest DenotesUnsigned := by
  intro header length hwhole hpos hlength
  obtain ⟨rfl, rfl, n, hread, hn⟩ := readUnsigned_content hlengths hwhole hpos hlength
  have hopen : decodeApplicationTag (tagByte :: rest) = _ := if_neg (not_not.2 hclass)
  have hmatch : (tagByte >>> 4 &&& 0x0F).toNat = 2 := htag
  rw [hmatch] at hopen
  refine ⟨.unsigned n, hopen.trans ?_, n, rfl, hn⟩
  change (readUnsigned rest (lengthBits tagByte) >>= fun n =>
    pure (BacnetValue.unsigned n, 1 + lengthBits tagByte)) = _
  rw [hread]
  rfl

theorem decodesSigned_iff (hclass : tagByte >>> 3 &&& 0x01 = 0) (htag : tagBits tagByte = 3)
    (hlengths : ¬EscapedContent 3 (tagByte :: rest) (lengthBits tagByte)) :
    DecodesNumber tagByte rest DenotesSigned ↔ SignAgrees (tagByte :: rest) (lengthBits tagByte) := by
  have hopen : decodeApplicationTag (tagByte :: rest) = _ := if_neg (not_not.2 hclass)
  have hmatch : (tagByte >>> 4 &&& 0x0F).toNat = 3 := htag
  rw [hmatch] at hopen
  have hdecoded {n : UInt32} (hread : readUnsigned rest (lengthBits tagByte) = .ok n) :
      decodeApplicationTag (tagByte :: rest) =
        .ok (.signed (signExtend (lengthBits tagByte) n), 1 + lengthBits tagByte) := by
    refine hopen.trans ?_
    change (readUnsigned rest (lengthBits tagByte) >>= fun n =>
      pure (BacnetValue.signed (signExtend (lengthBits tagByte) n), 1 + lengthBits tagByte)) = _
    rw [hread]
    rfl
  constructor
  · rintro hdecodes ⟨hthree, hle, b, hb, hneg⟩
    have hwhole : wholeContent (tagByte :: rest) (lengthBits tagByte) =
        some (1, lengthBits tagByte) := by
      rw [wholeContent_direct (by omega), if_pos (by omega)]
    obtain ⟨-, -, n, hread, hn⟩ := readUnsigned_content hlengths hwhole (by omega) (by omega)
    obtain ⟨v, hv, m, rfl, hm⟩ := hdecodes 1 (lengthBits tagByte) hwhole (by omega) (by omega)
    rw [hdecoded hread] at hv
    cases hv
    have hlen : (rest.take (lengthBits tagByte)).length = lengthBits tagByte := by
      simp at hle ⊢
      omega
    refine (signExtend_eq_iff (by omega) (by omega) hlen hn).1 hm ⟨hthree, b, ?_, hneg⟩
    rw [List.getElem?_take_of_lt (by omega)]
    exact hb
  · intro hsign header length hwhole hpos hlength
    have hle := wholeContent_fits hwhole
    obtain ⟨rfl, rfl, n, hread, hn⟩ := readUnsigned_content hlengths hwhole hpos hlength
    have hlen : (rest.take (lengthBits tagByte)).length = lengthBits tagByte := by
      simp at hle ⊢
      omega
    refine ⟨_, hdecoded hread, _, rfl, (signExtend_eq_iff hpos hlength hlen hn).2 ?_⟩
    rintro ⟨hthree, b, hb, hneg⟩
    rw [List.getElem?_take_of_lt (by omega)] at hb
    exact hsign ⟨hthree, by omega, b, hb, hneg⟩

/-- What is decoded has the documented format exactly if the branch for the tag agrees with
    the rule for lengths, and a signed number of three bytes is not negative. -/
theorem conforms_iff (tagByte : UInt8) (rest : List UInt8)
    (hclass : tagByte >>> 3 &&& 0x01 = 0) :
    ConformsToFormat tagByte rest ↔
      LengthsAgree (tagBits tagByte) (tagByte :: rest) (lengthBits tagByte) ∧
        (tagBits tagByte = 3 → SignAgrees (tagByte :: rest) (lengthBits tagByte)) := by
  have hlengths : (tagBits tagByte ≠ 0 → tagBits tagByte ≠ 1 → FollowsLengths tagByte rest) ↔
      LengthsAgree (tagBits tagByte) (tagByte :: rest) (lengthBits tagByte) := by
    by_cases hnull : tagBits tagByte = 0
    · rw [hnull]
      exact iff_of_true (fun h => absurd rfl h) trivial
    · by_cases hboolean : tagBits tagByte = 1
      · rw [hboolean]
        exact iff_of_true (fun _ h => absurd rfl h) trivial
      · rw [← followsLengths_iff hclass hnull hboolean]
        exact ⟨fun h => h hnull hboolean, fun h _ _ => h⟩
  constructor
  · rintro ⟨hfollows, -, hsigned⟩
    have hagree := hlengths.1 hfollows
    refine ⟨hagree, fun htag => ?_⟩
    rw [htag] at hagree
    exact (decodesSigned_iff hclass htag hagree).1 (hsigned htag)
  · rintro ⟨hagree, hsign⟩
    refine ⟨hlengths.2 hagree, fun htag => ?_, fun htag => ?_⟩
    · rw [htag] at hagree
      exact decodesUnsigned hclass htag hagree
    · have hnumber := hsign htag
      rw [htag] at hagree
      exact (decodesSigned_iff hclass htag hagree).2 hnumber

/-- Two bytes of the number 300 behind their tag byte. -/
theorem conforms_twoBytes : ConformsToFormat 0x22 [0x01, 0x2C] :=
  (conforms_iff 0x22 [0x01, 0x2C] (by decide)).2
    ⟨fun h => absurd h.1 (by decide), fun h => absurd h (by decide)⟩

/-- An octet string of eight bytes is cut after five, the eight bytes of a double are taken one
    early, and minus one in three bytes is read as a large number. -/
theorem format_missed :
    ¬ConformsToFormat 0x65 [8, 1, 2, 3, 4, 5, 6, 7, 8] ∧
      ¬ConformsToFormat 0x55 [8, 0x3F, 0xF0, 0, 0, 0, 0, 0, 0] ∧
      ¬ConformsToFormat 0x33 [0xFF, 0xFF, 0xFF] := by
  refine ⟨fun h => ?_, fun h => ?_, fun h => ?_⟩
  · exact absurd ((h.lengths (by decide) (by decide)).consumes _ _ rfl) (by decide)
  · exact absurd ((h.lengths (by decide) (by decide)).consumes _ _ rfl) (by decide)
  · obtain ⟨v, hv, n, rfl, hn⟩ := h.signed (by decide) 1 3 (by decide) (by decide) (by decide)
    cases hv
    exact absurd hn (by decide)

end Tags

end Sandstar.Bacnet
