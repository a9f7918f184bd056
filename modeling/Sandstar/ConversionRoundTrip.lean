import Sandstar.EngineConversion

set_option autoImplicit false

/-!
# Converting a reading and back

On the range path `convert` divides by the range only when both ends are configured,
while `revert` multiplies by the difference of the ends with a default for each one
that is missing. Offset and scale are undone in the opposite order.
-/
namespace Sandstar.Engine.ValueConv

variable {conv : ValueConv ℚ}

/-- No function, no table and no threshold: the value is scaled by its range. -/
structure RangePath (conv : ValueConv ℚ) : Prop where
  convFunc : conv.convFunc = none
  tableIndex : conv.tableIndex = none
  adcMode : conv.adcMode = false
  range_ne : ∀ low high, conv.low = some low → conv.high = some high → high - low ≠ 0
  scale_ne : ∀ scale, conv.scale = some scale → scale ≠ 0

def linear (conv : ValueConv ℚ) (raw : ℚ) : ℚ :=
  ((if conv.low.isSome && conv.high.isSome then raw / (conv.high.getD 1 - conv.low.getD 0)
    else raw) + conv.offset.getD 0) * conv.scale.getD 1

/-- None of the clamps changes the reading or its engineering value. -/
structure Unclamped (conv : ValueConv ℚ) (raw : ℚ) : Prop where
  low_le : conv.low.getD 0 ≤ raw
  le_high : raw ≤ conv.high.getD 4096
  min_le : ∀ min, conv.min = some min → min ≤ conv.linear raw
  le_max : ∀ max, conv.max = some max → conv.linear raw ≤ max

/-- The raw value of the reverted conversion. -/
def roundTrip (conv : ValueConv ℚ) (value : EngineValue ℚ) (tables : TableStore ℚ)
    (flowDetected : Option Bool) : Option ℚ :=
  (conv.convert value tables flowDetected).bind fun converted =>
    (conv.revert converted.1 tables).map EngineValue.raw

theorem clamp_of_mem {x low high : ℚ} (hlow : low ≤ x) (hhigh : x ≤ high) :
    FloatOps.clamp x low high = some x := by
  unfold FloatOps.clamp
  have hle : FloatOps.le low high = true := decide_eq_true (hlow.trans hhigh)
  have hl : FloatOps.lt x low = false := decide_eq_false (not_lt.2 hlow)
  have hh : FloatOps.lt high x = false := decide_eq_false (not_lt.2 hhigh)
  rw [hle, hl, hh]
  rfl

theorem clampOutput_of_mem {x : ℚ} (hmin : ∀ min, conv.min = some min → min ≤ x)
    (hmax : ∀ max, conv.max = some max → x ≤ max) : conv.clampOutput x = x := by
  have hlow : ∀ min, conv.min = some min → FloatOps.max x min = x :=
    fun min hconv => max_eq_left (hmin min hconv)
  have hhigh : ∀ max, conv.max = some max → FloatOps.min x max = x :=
    fun max hconv => min_eq_left (hmax max hconv)
  unfold clampOutput
  cases hconvMin : conv.min with
  | none =>
    cases hconvMax : conv.max with
    | none => rfl
    | some max => exact hhigh max hconvMax
  | some min =>
    dsimp only
    rw [hlow min hconvMin]
    cases hconvMax : conv.max with
    | none => rfl
    | some max => exact hhigh max hconvMax

theorem tableOrRange_eq (h : RangePath conv) (value : EngineValue ℚ) (tables : TableStore ℚ)
    (raw : ℚ) :
    conv.tableOrRange value tables (conv.low.getD 0) (conv.high.getD 4096) raw =
      .inr (if conv.low.isSome && conv.high.isSome then
        raw / (conv.high.getD 1 - conv.low.getD 0) else raw) := by
  unfold tableOrRange
  rw [h.adcMode, h.tableIndex]
  cases hlow : conv.low with
  | none => rfl
  | some low =>
    cases hhigh : conv.high with
    | none => rfl
    | some high =>
      have hrange : FloatOps.eq (high - low) (FloatOps.lit 0) = false :=
        decide_eq_false (h.range_ne low high hlow hhigh)
      simp [hrange]

/-- The result of `convert` where no clamp bites. -/
theorem convert_eq (h : RangePath conv) {value : EngineValue ℚ} (hin : Unclamped conv value.raw)
    (tables : TableStore ℚ) (flowDetected : Option Bool) :
    conv.convert value tables flowDetected =
      some (EngineValue.withCurFlag
        { value with status := .ok, cur := conv.linear value.raw, trigger := false },
        flowDetected) := by
  have hclamp : FloatOps.clamp value.raw (conv.low.getD (FloatOps.lit 0))
      (conv.high.getD (FloatOps.lit 4096)) = some value.raw :=
    clamp_of_mem hin.low_le hin.le_high
  have hfirst : conv.tableOrRange value tables (conv.low.getD (FloatOps.lit 0))
      (conv.high.getD (FloatOps.lit 4096)) value.raw = _ := tableOrRange_eq h value tables value.raw
  have hlinear := clampOutput_of_mem hin.min_le hin.le_max
  have hnoTable : (conv.tableIndex.isSome && conv.low.isNone && conv.high.isNone) = false := by
    rw [h.tableIndex]
    rfl
  unfold convert convertTableOrRange
  rw [h.convFunc, hnoTable]
  dsimp only
  rw [if_neg Bool.false_ne_true, hclamp]
  dsimp only
  rw [hfirst]
  dsimp only
  generalize hcur : (if conv.low.isSome && conv.high.isSome then
    value.raw / (conv.high.getD 1 - conv.low.getD 0) else value.raw) = cur
  unfold linear at hlinear ⊢
  rw [hcur] at hlinear ⊢
  cases hoffset : conv.offset with
  | none =>
    cases hscale : conv.scale with
    | none =>
      simp only [hoffset, hscale, Option.getD_none, add_zero, mul_one] at hlinear ⊢
      rw [hlinear]
    | some scale =>
      simp only [hoffset, hscale, Option.getD_none, Option.getD_some, add_zero] at hlinear ⊢
      rw [hlinear]
  | some offset =>
    cases hscale : conv.scale with
    | none =>
      simp only [hoffset, hscale, Option.getD_none, Option.getD_some, mul_one] at hlinear ⊢
      rw [hlinear]
    | some scale =>
      simp only [hoffset, hscale, Option.getD_some] at hlinear ⊢
      rw [hlinear]

/-- The value that `revert` finds before it multiplies by the range. -/
theorem unscaled_linear (h : RangePath conv) (raw : ℚ) :
    conv.linear raw / conv.scale.getD 1 - conv.offset.getD 0 =
      if conv.low.isSome && conv.high.isSome then
        raw / (conv.high.getD 1 - conv.low.getD 0) else raw := by
  have hscale : conv.scale.getD 1 ≠ 0 := by
    cases hconv : conv.scale with
    | none => exact one_ne_zero
    | some scale => exact h.scale_ne scale hconv
  unfold linear
  rw [mul_div_assoc, div_self hscale, mul_one, add_sub_cancel_right]

theorem revert_unlimited (h : RangePath conv) {value : EngineValue ℚ}
    (hmin : ∀ min, conv.min = some min → min ≤ value.cur)
    (hmax : ∀ max, conv.max = some max → value.cur ≤ max) (tables : TableStore ℚ) :
    conv.revert value tables = revert { conv with min := none, max := none } value tables := by
  have hhigh : ∀ max, conv.max = some max → FloatOps.min value.cur max = value.cur :=
    fun max hconv => min_eq_left (hmax max hconv)
  have hlow : ∀ min, conv.min = some min → FloatOps.max value.cur min = value.cur :=
    fun min hconv => max_eq_left (hmin min hconv)
  unfold revert
  rw [h.tableIndex]
  cases hmaxConv : conv.max with
  | none =>
    cases hminConv : conv.min with
    | none => rfl
    | some min => simp only [hlow min hminConv]
  | some max =>
    simp only [hhigh max hmaxConv]
    cases hminConv : conv.min with
    | none => rfl
    | some min => simp only [hlow min hminConv]

def span (conv : ValueConv ℚ) : ValueConv ℚ :=
  { conv with offset := none, scale := none, min := none, max := none }

theorem revert_span (h : RangePath conv) (value : EngineValue ℚ) (tables : TableStore ℚ) :
    revert { conv with min := none, max := none } value tables =
      conv.span.revert
        { value with cur := value.cur / conv.scale.getD 1 - conv.offset.getD 0 } tables := by
  have hscale : ∀ scale, conv.scale = some scale → FloatOps.eq scale (FloatOps.lit 0) = false :=
    fun scale hconv => decide_eq_false (h.scale_ne scale hconv)
  unfold revert span
  cases hconv : conv.scale with
  | none =>
    dsimp only [Option.getD]
    rw [div_one]
    cases conv.offset with
    | none =>
      dsimp only
      rw [sub_zero]
    | some offset => rfl
  | some scale =>
    dsimp only [Option.getD]
    rw [hscale scale hconv]
    cases conv.offset with
    | none =>
      dsimp only
      rw [sub_zero]
      rfl
    | some offset => rfl

/-- Without an end configured, the missing ends take the defaults 0 and 1. -/
theorem span_revert (h : RangePath conv) (value : EngineValue ℚ) (tables : TableStore ℚ) :
    (conv.span.revert value tables).map EngineValue.raw =
      match conv.low, conv.high with
      | some low, some high => FloatOps.clamp (value.cur * (high - low)) low high
      | low, high => some (value.cur * (high.getD 1 - low.getD 0)) := by
  unfold revert span
  rw [h.adcMode, h.tableIndex]
  cases hlow : conv.low with
  | none => rfl
  | some low =>
    cases hhigh : conv.high with
    | none => rfl
    | some high =>
      simp only [Option.getD_some, Bool.false_eq_true, if_false]
      cases FloatOps.clamp (value.cur * (high - low)) low high with
      | none => rfl
      | some raw => rfl

/-- The result of `revert` on an engineering value where no clamp bites. -/
theorem revert_raw (h : RangePath conv) {value : EngineValue ℚ} {raw : ℚ}
    (hin : Unclamped conv raw) (hcur : value.cur = conv.linear raw) (tables : TableStore ℚ) :
    (conv.revert value tables).map EngineValue.raw =
      some (if conv.low.isSome && conv.high.isSome then raw
        else raw * (conv.high.getD 1 - conv.low.getD 0)) := by
  rw [revert_unlimited h (fun min hconv => hcur ▸ hin.min_le min hconv)
    (fun max hconv => hcur ▸ hin.le_max max hconv), revert_span h, span_revert h]
  dsimp only
  rw [hcur, unscaled_linear h]
  cases hlow : conv.low with
  | none => rfl
  | some low =>
    cases hhigh : conv.high with
    | none => rfl
    | some high =>
      have hcancel : raw / (high - low) * (high - low) = raw :=
        div_mul_cancel₀ raw (h.range_ne low high hlow hhigh)
      have hlow_le := hin.low_le
      have hle_high := hin.le_high
      rw [hlow] at hlow_le
      rw [hhigh] at hle_high
      dsimp only [Option.isSome, Bool.and_self, Option.getD]
      have hboth : (true && true) = true := rfl
      rw [if_pos hboth, if_pos hboth, hcancel]
      exact clamp_of_mem hlow_le hle_high

/-- A reading survives the round trip exactly when both ends of its range are configured,
    or neither, or the default of the missing one makes no difference. -/
theorem roundTrip_iff (h : RangePath conv) {value : EngineValue ℚ}
    (hin : Unclamped conv value.raw) (tables : TableStore ℚ) (flowDetected : Option Bool) :
    conv.roundTrip value tables flowDetected = some value.raw ↔
      (conv.low.isSome = conv.high.isSome ∨ value.raw = 0 ∨
        conv.high.getD 1 - conv.low.getD 0 = 1) := by
  have hsame : ∀ k : ℚ, value.raw * k = value.raw ↔ value.raw = 0 ∨ k = 1 := by
    intro k
    rw [mul_right_eq_self₀, or_comm]
  unfold roundTrip
  rw [convert_eq h hin]
  dsimp only [Option.bind]
  rw [revert_raw h hin rfl, Option.some_inj]
  cases hlow : conv.low with
  | none =>
    cases hhigh : conv.high with
    | none => simp
    | some high => simpa using hsame high
  | some low =>
    cases hhigh : conv.high with
    | none => simpa using hsame (1 - low)
    | some high => simp

def fullRange : ValueConv ℚ :=
  { ValueConv.default with
    low := some 2, high := some 10, offset := some 1, scale := some 3, min := some 0,
    max := some 100 }

theorem roundTrip_fullRange :
    fullRange.roundTrip { EngineValue.default with raw := 6 } [] none = some 6 := by
  have hpath : RangePath fullRange := by
    refine ⟨rfl, rfl, rfl, ?_, ?_⟩
    · rintro _ _ ⟨⟩ ⟨⟩
      norm_num
    · rintro _ ⟨⟩
      norm_num
  have hin : Unclamped fullRange 6 := by
    refine ⟨?_, ?_, ?_, ?_⟩
    · norm_num [fullRange]
    · norm_num [fullRange]
    · rintro _ ⟨⟩
      norm_num [linear, fullRange]
    · rintro _ ⟨⟩
      norm_num [linear, fullRange]
  exact (roundTrip_iff hpath hin [] none).2 (.inl rfl)

def lowOnly : ValueConv ℚ := { ValueConv.default with low := some 2 }

theorem lowOnly_not_roundTrip :
    ¬ ∀ (conv : ValueConv ℚ) (value : EngineValue ℚ) (tables : TableStore ℚ)
      (flowDetected : Option Bool), RangePath conv → Unclamped conv value.raw →
        conv.roundTrip value tables flowDetected = some value.raw := by
  intro hround
  have hpath : RangePath lowOnly :=
    ⟨rfl, rfl, rfl, fun _ _ _ hhigh => (nomatch hhigh), fun _ hscale => (nomatch hscale)⟩
  have hin : Unclamped lowOnly 10 := by
    refine ⟨?_, ?_, fun _ hmin => (nomatch hmin), fun _ hmax => (nomatch hmax)⟩
    · norm_num [lowOnly]
    · norm_num [lowOnly, ValueConv.default]
  have h := hround lowOnly { EngineValue.default with raw := 10 } [] none hpath hin
  unfold roundTrip at h
  rw [convert_eq hpath hin] at h
  dsimp only [Option.bind] at h
  rw [revert_raw hpath hin rfl] at h
  norm_num [lowOnly, ValueConv.default] at h

end Sandstar.Engine.ValueConv
