import Sandstar.RowsSession

set_option autoImplicit false

namespace Sandstar.Rows

open SoxProtocol SoxSlots

inductive Meaning
  | number (x : ℚ)
  | boolean (b : Bool)
  | text (s : String)
deriving DecidableEq

def scalarMeaning : JsonScalar → Option Meaning
  | .null => none
  | .bool b => some (.boolean b)
  | .posInt n => some (.number n.toNat)
  | .negInt n => some (.number n.toInt)
  | .float x => some (.number x)
  | .str s => some (.text s)

def meaning : Json → Option Meaning
  | .scalar s => scalarMeaning s
  | _ => none

/-- The JSON form of the slot value stands for the same as the JSON value. -/
def SameMeaning (json : Json) (v : SlotValue) : Prop :=
  ∃ m, meaning json = some m ∧ scalarMeaning (slotValueToJson v) = some m

def SameValue : SlotValue → SlotValue → Prop
  | .float a, .float b => finite32 a = finite32 b
  | .double a, .double b => finite64 a = finite64 b
  | v, w => v = w

def FiniteValue : SlotValue → Prop
  | .float bits => (finite32 bits).isSome
  | .double bits => (finite64 bits).isSome
  | _ => True

/-- A value of the type: one that the decoder produces, or a string in a buffer. -/
def OfType (typeId : UInt8) (v : SlotValue) : Prop :=
  (∃ r, (decodeSlotValue r typeId).1 = some v) ∨ typeId = SoxValueType.buf.code ∧ ∃ s, v = .str s

def IsNumber32 (x : ℚ) : Prop := ∃ bits, finite32 bits = some x

def IsNumber64 (x : ℚ) : Prop := ∃ bits, finite64 bits = some x

/-- The conversions are exact on the numbers of the type they convert to. -/
structure Platform.Exact (p : Platform) : Prop where
  toF32 : ∀ x, IsNumber32 x → finite32 (p.toF32 x) = some x
  toF64 : ∀ x, IsNumber64 x → finite64 (p.toF64 x) = some x
  nearest : ∀ x, IsNumber32 x ∨ IsNumber64 x → p.nearest x = x

section Reading

variable {p : Platform} {json : Json} {i : Int64} {x : ℚ}

theorem toInt_nonneg {n : Int64} (h : ¬n < 0) : 0 ≤ n.toInt := by
  rw [Int64.lt_iff_toInt_lt] at h
  simpa using h

theorem toNat_toUInt64 {n : Int64} (h : ¬n < 0) : (n.toUInt64.toNat : ℤ) = n.toInt := by
  have hpos := toInt_nonneg h
  rw [Int64.toNat_toUInt64_of_le (Int64.le_iff_toInt_le.2 (by simpa using hpos))]
  exact Int.toNat_of_nonneg hpos

theorem asI64_ofInt64 (n : Int64) : Json.asI64 (.scalar (.ofInt64 n)) = some n := by
  unfold JsonScalar.ofInt64
  split_ifs with hneg
  · rfl
  · have hnat := toNat_toUInt64 hneg
    have hlt := n.toInt_lt
    unfold Json.asI64
    dsimp only
    rw [if_pos (by omega), Int64.toInt64_toUInt64]

theorem meaning_ofInt64 (n : Int64) : scalarMeaning (.ofInt64 n) = some (.number n.toInt) := by
  unfold JsonScalar.ofInt64
  split_ifs with hneg
  · rfl
  · have hnat := toNat_toUInt64 hneg
    unfold scalarMeaning
    rw [← hnat]
    rfl

theorem toInt_toInt64 {n : UInt64} (h : n.toNat < 2 ^ 63) : n.toInt64.toInt = n.toNat :=
  BitVec.toInt_eq_toNat_of_lt (by
    change 2 * n.toNat < 2 ^ 64
    omega)

theorem meaning_of_asI64 (h : json.asI64 = some i) : meaning json = some (.number i.toInt) := by
  unfold Json.asI64 at h
  split at h
  · split_ifs at h with hlt
    cases h
    rw [toInt_toInt64 hlt]
    rfl
  · cases h
    rfl
  · cases h

theorem meaning_of_asF64 (hp : p.Exact) (h : meaning json = some (.number x))
    (hx : IsNumber32 x ∨ IsNumber64 x) : asF64 p json = some x := by
  unfold meaning at h
  split at h
  · rename_i scalar
    cases scalar with
    | posInt n =>
      cases h
      exact congrArg some (hp.nearest _ hx)
    | negInt n =>
      cases h
      exact congrArg some (hp.nearest _ hx)
    | float y =>
      cases h
      rfl
    | _ => cases h
  · cases h

variable {v w : SlotValue}

theorem read_int (typeId : UInt8) (h : typeId = 4 ∨ typeId = 2 ∨ typeId = 3) :
    jsonToSlotValue p json typeId = json.asI64.map fun i => .int i.toInt32 := by
  obtain rfl | rfl | rfl := h <;> rfl

theorem toInt_toInt32_iff (i : Int64) :
    i.toInt32.toInt = i.toInt ↔ -2 ^ 31 ≤ i.toInt ∧ i.toInt < 2 ^ 31 := by
  have hlow := i.toInt32.le_toInt
  have hhigh := i.toInt32.toInt_lt
  constructor
  · intro h
    omega
  · rintro ⟨hle, hlt⟩
    rw [Int64.toInt_toInt32]
    exact Int.bmod_eq_of_le (by omega) (by omega)

theorem int_kept (hread : json.asI64 = some i) (hle : -2 ^ 31 ≤ i.toInt) (hlt : i.toInt < 2 ^ 31) :
    SameMeaning json (.int i.toInt32) := by
  refine ⟨.number i.toInt, meaning_of_asI64 hread, ?_⟩
  change scalarMeaning (.ofInt64 i.toInt32.toInt64) = _
  rw [meaning_ofInt64, Int32.toInt_toInt64, (toInt_toInt32_iff i).2 ⟨hle, hlt⟩]

theorem long_kept (hread : json.asI64 = some i) : SameMeaning json (.long i) :=
  ⟨.number i.toInt, meaning_of_asI64 hread, meaning_ofInt64 i⟩

theorem meaning_floatJson (value : Option ℚ) : scalarMeaning (floatJson value) = value.map .number := by
  cases value <;> rfl

theorem number_kept_iff {value : Option ℚ} {IsNumber : ℚ → Prop}
    (hform : slotValueToJson v = floatJson value) (hsound : ∀ x, value = some x → IsNumber x)
    (hexact : ∀ x, meaning json = some (.number x) → IsNumber x → value = some x) :
    SameMeaning json v ↔ ∃ x, meaning json = some (.number x) ∧ IsNumber x := by
  unfold SameMeaning
  rw [hform, meaning_floatJson]
  constructor
  · rintro ⟨m, hm, hvalue⟩
    obtain ⟨x, hx, rfl⟩ := Option.map_eq_some_iff.1 hvalue
    exact ⟨x, hm, hsound x hx⟩
  · rintro ⟨x, hm, hx⟩
    refine ⟨.number x, hm, ?_⟩
    rw [hexact x hm hx]
    rfl

theorem float_kept_iff (hp : p.Exact) {y : ℚ} (hread : asF64 p json = some y) :
    SameMeaning json (.float (p.toF32 y)) ↔
      ∃ x, meaning json = some (.number x) ∧ IsNumber32 x := by
  refine number_kept_iff rfl (fun x hx => ⟨_, hx⟩) fun x hm hx => ?_
  have hy : y = x := Option.some.inj (hread.symm.trans (meaning_of_asF64 hp hm (.inl hx)))
  rw [hy]
  exact hp.toF32 x hx

theorem double_kept_iff (hp : p.Exact) {y : ℚ} (hread : asF64 p json = some y) :
    SameMeaning json (.double (p.toF64 y)) ↔
      ∃ x, meaning json = some (.number x) ∧ IsNumber64 x := by
  refine number_kept_iff rfl (fun x hx => ⟨_, hx⟩) fun x hm hx => ?_
  have hy : y = x := Option.some.inj (hread.symm.trans (meaning_of_asF64 hp hm (.inr hx)))
  rw [hy]
  exact hp.toF64 x hx

theorem bool_kept {b : Bool} (hread : json.asBool = some b) : SameMeaning json (.bool b) := by
  unfold Json.asBool at hread
  split at hread
  · cases hread
    exact ⟨.boolean b, rfl, rfl⟩
  · cases hread

theorem str_kept {s : String} (hread : json.asStr = some s) : SameMeaning json (.str s) := by
  unfold Json.asStr at hread
  split at hread
  · cases hread
    exact ⟨.text s, rfl, rfl⟩
  · cases hread

end Reading

section RoundTrip

variable {p : Platform} {typeId : UInt8} {v w : SlotValue}

inductive HasKind : UInt8 → SlotValue → Prop
  | bool (b : Bool) : HasKind 1 (.bool b)
  | small (typeId : UInt8) (n : Int32) (h : typeId = 4 ∨ typeId = 2 ∨ typeId = 3) :
      HasKind typeId (.int n)
  | long (n : Int64) : HasKind 5 (.long n)
  | float (bits : UInt32) : HasKind 6 (.float bits)
  | double (bits : UInt64) : HasKind 7 (.double bits)
  | buf (bytes : List UInt8) : HasKind 8 (.buf bytes)
  | str (s : String) : HasKind 8 (.str s)
  | null (typeId : UInt8) (h : ∀ t : SoxValueType, t ≠ .void → typeId ≠ t.code) :
      HasKind typeId .null

theorem hasKind_of_decoded {r : SoxReader} (h : (decodeSlotValue r typeId).1 = some v) :
    HasKind typeId v := by
  unfold decodeSlotValue at h
  split_ifs at h with hbool hint hlong hfloat hdouble hbuf hbyte hshort
  · obtain ⟨b, -, rfl⟩ := Option.map_eq_some_iff.1 h
    exact hbool ▸ .bool _
  · obtain ⟨n, -, rfl⟩ := Option.map_eq_some_iff.1 h
    exact .small typeId n (.inl hint)
  · obtain ⟨n, -, rfl⟩ := Option.map_eq_some_iff.1 h
    exact hlong ▸ .long _
  · obtain ⟨bits, -, rfl⟩ := Option.map_eq_some_iff.1 h
    exact hfloat ▸ .float bits
  · obtain ⟨bits, -, rfl⟩ := Option.map_eq_some_iff.1 h
    exact hdouble ▸ .double bits
  · split at h
    · obtain ⟨bytes, -, rfl⟩ := Option.map_eq_some_iff.1 h
      exact hbuf ▸ .buf bytes
    · cases h
  · obtain ⟨n, -, rfl⟩ := Option.map_eq_some_iff.1 h
    exact .small typeId _ (.inr (.inl hbyte))
  · obtain ⟨n, -, rfl⟩ := Option.map_eq_some_iff.1 h
    exact .small typeId _ (.inr (.inr hshort))
  · cases h
    refine .null typeId fun t ht => ?_
    cases t <;> first | exact absurd rfl ht | assumption

theorem hasKind_of_ofType (h : OfType typeId v) : HasKind typeId v := by
  obtain ⟨r, hr⟩ | ⟨rfl, s, rfl⟩ := h
  · exact hasKind_of_decoded hr
  · exact .str s

/-- A finite value that is neither null nor a buffer of bytes comes back. -/
theorem value_survives (hp : p.Exact) (hkind : HasKind typeId v) (hfinite : FiniteValue v)
    (hnull : v ≠ .null) (hbuf : ∀ bytes, v ≠ .buf bytes) :
    ∃ w, jsonToSlotValue p (.scalar (slotValueToJson v)) typeId = some w ∧ SameValue v w := by
  cases hkind with
  | bool b => exact ⟨.bool b, rfl, rfl⟩
  | small typeId n h =>
    rw [read_int typeId h]
    change ∃ w, (Json.asI64 (.scalar (.ofInt64 n.toInt64))).map _ = some w ∧ _
    rw [asI64_ofInt64]
    exact ⟨_, rfl, congrArg SlotValue.int (Int32.toInt32_toInt64 n).symm⟩
  | long n => exact ⟨.long n, congrArg (Option.map SlotValue.long) (asI64_ofInt64 n), rfl⟩
  | float bits =>
    obtain ⟨x, hx⟩ := Option.isSome_iff_exists.1 hfinite
    change ∃ w, (asF64 p (.scalar (floatJson (finite32 bits)))).map _ = some w ∧ _
    rw [hx]
    refine ⟨_, rfl, ?_⟩
    change finite32 bits = finite32 (p.toF32 x)
    rw [hx, hp.toF32 x ⟨bits, hx⟩]
  | double bits =>
    obtain ⟨x, hx⟩ := Option.isSome_iff_exists.1 hfinite
    change ∃ w, (asF64 p (.scalar (floatJson (finite64 bits)))).map _ = some w ∧ _
    rw [hx]
    refine ⟨_, rfl, ?_⟩
    change finite64 bits = finite64 (p.toF64 x)
    rw [hx, hp.toF64 x ⟨bits, hx⟩]
  | buf bytes => exact absurd rfl (hbuf bytes)
  | str s => exact ⟨.str s, rfl, rfl⟩
  | null typeId h => exact absurd rfl hnull

/-- A type without a wire form takes no value back. -/
theorem null_refused (hkind : HasKind typeId .null) (json : Json) :
    jsonToSlotValue p json typeId = none := by
  cases hkind with
  | null _ h =>
    unfold jsonToSlotValue
    rw [if_neg (h .bool nofun), if_neg (h .int nofun), if_neg (h .long nofun),
      if_neg (h .float nofun), if_neg (h .double nofun), if_neg (h .buf nofun),
      if_neg (not_or.2 ⟨h .byte nofun, h .short nofun⟩)]

/-- What a JSON value that is taken becomes: the same boolean, string or long, the same integer
    if it fits, and the same number exactly if the floating-point type has it. -/
structure KeptAt (json : Json) (typeId : UInt8) (w : SlotValue) : Prop where
  same : typeId = SoxValueType.bool.code ∨ typeId = SoxValueType.buf.code ∨
    typeId = SoxValueType.long.code → SameMeaning json w
  small : typeId = SoxValueType.int.code ∨ typeId = SoxValueType.byte.code ∨
    typeId = SoxValueType.short.code → ∀ i : ℤ, meaning json = some (.number i) →
      -2 ^ 31 ≤ i → i < 2 ^ 31 → SameMeaning json w
  float : typeId = SoxValueType.float.code →
    (SameMeaning json w ↔ ∃ x, meaning json = some (.number x) ∧ IsNumber32 x)
  double : typeId = SoxValueType.double.code →
    (SameMeaning json w ↔ ∃ x, meaning json = some (.number x) ∧ IsNumber64 x)

theorem keptAt (hp : p.Exact) {json : Json} (h : jsonToSlotValue p json typeId = some w) :
    KeptAt json typeId w where
  same htype := by
    obtain rfl | rfl | rfl := htype
    · obtain ⟨b, hb, rfl⟩ := Option.map_eq_some_iff.1 h
      exact bool_kept hb
    · obtain ⟨s, hs, rfl⟩ := Option.map_eq_some_iff.1 h
      exact str_kept hs
    · obtain ⟨i, hi, rfl⟩ := Option.map_eq_some_iff.1 h
      exact long_kept hi
  small htype i hm hle hlt := by
    rw [read_int typeId htype] at h
    obtain ⟨n, hn, rfl⟩ := Option.map_eq_some_iff.1 h
    have hnumber := meaning_of_asI64 hn
    rw [hm] at hnumber
    have hi : i = n.toInt := by
      have hcast := Meaning.number.inj (Option.some.inj hnumber)
      exact_mod_cast hcast
    exact int_kept hn (hi ▸ hle) (hi ▸ hlt)
  float htype := by
    subst htype
    obtain ⟨y, hy, rfl⟩ := Option.map_eq_some_iff.1 h
    exact float_kept_iff hp hy
  double htype := by
    subst htype
    obtain ⟨y, hy, rfl⟩ := Option.map_eq_some_iff.1 h
    exact double_kept_iff hp hy

/-- At every type the finite values other than null and buffers of bytes come back from their
    JSON form, null is refused, and what is taken of a JSON value is what the type keeps. -/
theorem slot_values_survive (p : Platform) (hp : p.Exact) (typeId : UInt8) :
    (∀ v, OfType typeId v → FiniteValue v → v ≠ .null → (∀ bytes, v ≠ .buf bytes) →
      ∃ w, jsonToSlotValue p (.scalar (slotValueToJson v)) typeId = some w ∧ SameValue v w) ∧
      (OfType typeId .null → ∀ json, jsonToSlotValue p json typeId = none) ∧
      ∀ json w, jsonToSlotValue p json typeId = some w → KeptAt json typeId w :=
  ⟨fun _ htype hfinite hnull hbuf => value_survives hp (hasKind_of_ofType htype) hfinite hnull hbuf,
    fun htype json => null_refused (hasKind_of_ofType htype) json, fun _ _ h => keptAt hp h⟩

open Classical in
noncomputable def exactPlatform : Platform where
  usizeBits := 64
  nearest := id
  toF32 x := if h : IsNumber32 x then h.choose else 0x7F800000
  toF64 x := if h : IsNumber64 x then h.choose else 0x7FF0000000000000
  tagged _ := none
  print _ := ""

theorem exactPlatform_exact : exactPlatform.Exact where
  toF32 x h := by
    have hbits : exactPlatform.toF32 x = h.choose := dif_pos h
    rw [hbits]
    exact h.choose_spec
  toF64 x h := by
    have hbits : exactPlatform.toF64 x = h.choose := dif_pos h
    rw [hbits]
    exact h.choose_spec
  nearest _ _ := rfl

/-- The float 0.5 comes back. -/
theorem half_survives :
    ∃ w, jsonToSlotValue exactPlatform (.scalar (slotValueToJson (.float 0x3F000000))) 6 = some w ∧
      SameValue (.float 0x3F000000) w :=
  (slot_values_survive exactPlatform exactPlatform_exact 6).1 (.float 0x3F000000)
    (.inl ⟨⟨[0x3F, 0, 0, 0]⟩, rfl⟩) (by decide : (finite32 0x3F000000).isSome = true) nofun nofun

/-- The conversions of the platform at 16777217, the first integer between two floats. -/
def betweenFloats : Platform :=
  ⟨64, id, fun _ => 0x4B800000, fun _ => 0x4170000010000000, fun _ => none, fun _ => ""⟩

/-- Null does not come back at a type without a wire form, and 16777217 is another number at
    `Float`. -/
theorem null_and_integer_lost :
    (OfType 0 .null ∧ jsonToSlotValue betweenFloats (.scalar (slotValueToJson .null)) 0 = none) ∧
      jsonToSlotValue betweenFloats (.scalar (.posInt 16777217)) 6 = some (.float 0x4B800000) ∧
        ¬SameMeaning (.scalar (.posInt 16777217)) (.float 0x4B800000) := by
  refine ⟨⟨.inl ⟨⟨[]⟩, rfl⟩, rfl⟩, rfl, ?_⟩
  rintro ⟨m, hm, hform⟩
  cases hm
  exact absurd hform (by decide +kernel)

end RoundTrip

end Sandstar.Rows
