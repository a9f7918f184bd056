import Sandstar.WriteLevels

set_option autoImplicit false

/-!
# Reading back what a virtual channel was written

`revert` works on the record that the channel then stores. It leaves there the value with scale
and offset taken off, which is an engineering value only where these change nothing. The next
read answers with the record, or with the source's value where no priority level holds one.
-/
namespace Sandstar.Engine
open FloatOps

section Write

variable {F : Type} [FloatOps F]

def ValueConv.limited (conv : ValueConv F) (v : F) : F :=
  let v := match conv.max with
    | some max => FloatOps.min v max
    | none => v
  match conv.min with
  | some min => FloatOps.max v min
  | none => v

def ValueConv.divided (conv : ValueConv F) (v : F) : F :=
  match conv.scale with
  | some scale => if !FloatOps.eq scale (lit 0) then v / scale else v
  | none => v

def ValueConv.unscaled (conv : ValueConv F) (v : F) : F :=
  match conv.offset with
  | some offset => conv.divided v - offset
  | none => conv.divided v

theorem revert_cur {conv : ValueConv F} {value reverted : EngineValue F} {tables : TableStore F}
    (h : conv.revert value tables = some reverted) :
    reverted.cur = conv.unscaled (conv.limited value.cur) := by
  unfold ValueConv.revert at h
  dsimp only at h
  split at h
  · cases h
  · cases h
    rfl

variable {hal : Hal F} {e : State F} {id : ChannelId} {ch : Channel F} {value : EngineValue F}

theorem channelWrite_disabled (hget : e.channels.get id = some ch)
    (hvirtual : ch.channelType.isVirtual = true) (hflags : value.flags = ⟨false, true⟩)
    (hdisabled : ch.enabled = false) :
    e.channelWrite hal id value = some (e, { value with status := .disabled }, .ok ()) := by
  unfold State.channelWrite
  rw [hget]
  dsimp only
  rw [hvirtual, hflags, hdisabled, Bool.or_true]
  rfl

theorem channelWrite_virtual (hget : e.channels.get id = some ch)
    (hvirtual : ch.channelType.isVirtual = true) (hflags : value.flags = ⟨false, true⟩)
    (henabled : ch.enabled = true) :
    e.channelWrite hal id value = (ch.conv.revert value e.tables).map fun reverted =>
      (e.setChannel id { ch with value := reverted }, reverted, .ok ()) := by
  unfold State.channelWrite
  rw [hget]
  dsimp only
  rw [hvirtual, hflags, henabled, Bool.or_true]
  dsimp only [Bool.not_true, Bool.not_false, Bool.false_or, Bool.and_false, Bool.false_and,
    Bool.and_true, Bool.and_self]
  cases ch.conv.revert value e.tables with
  | none => rfl
  | some reverted =>
    cases htype : ch.channelType with
    | virtualAnalog | virtualDigital => rfl
    | analog | digital | pwm | triac | i2c | uart =>
      rw [htype] at hvirtual
      cases hvirtual

end Write

section Read

variable {F : Type} [FloatOps F] {hal : Hal F} {now : Instant} {e : State F} {id : ChannelId}
  {ch : Channel F}

def Channel.waits (ch : Channel F) : Bool :=
  ch.failed && decide (ch.retryCounter < retryCooldownBase)

def State.virtualCur (e : State F) (ch : Channel F) : F :=
  if ch.waits then lit 0 else if ch.hasWrittenValue then ch.value.cur else e.sourceCur ch

theorem channelRead_disabled (hget : e.channels.get id = some ch) (hdisabled : ch.enabled = false) :
    e.channelRead hal now id = some (e, .ok (EngineValue.withStatus .disabled)) := by
  unfold State.channelRead
  rw [hget]
  dsimp only
  rw [hdisabled]
  rfl

/-- Recovery leaves the values of all channels, so that the source of one reads the same. -/
theorem sourceCur_recover (hget : e.channels.get id = some ch) :
    (e.setChannel id ch.recover).sourceCur ch.recover = e.sourceCur ch := by
  unfold State.sourceCur State.setChannel Channel.recover
  cases hsrc : ch.channelIn with
  | none => rfl
  | some src =>
    dsimp only
    rw [Table.get_insert]
    split_ifs with hself
    · rw [hself, hget]
    · rfl

theorem read_virtual (hvirtual : ch.channelType.isVirtual = true) (tables : TableStore F)
    (source : F) : ∃ ch' r, Channel.read hal now id tables source ch = some (ch', r) ∧
      r.cur = if ch.hasWrittenValue then ch.value.cur else source := by
  unfold Channel.read
  rw [if_pos hvirtual]
  cases ch.hasWrittenValue with
  | false => exact ⟨_, _, rfl, rfl⟩
  | true => exact ⟨_, _, rfl, rfl⟩

theorem tryI2cRecovery_virtual (hvirtual : ch.channelType.isVirtual = true) :
    e.tryI2cRecovery hal id ch =
      if ch.waits then (e.setChannel id ch.waitOn, some (EngineValue.withStatus .down))
      else (if ch.failed then e.setChannel id ch.recover else e, none) := by
  have htype : ch.channelType ≠ .i2c := by
    intro hi2c
    rw [hi2c] at hvirtual
    cases hvirtual
  have hcooldown : e.cooldown ch = retryCooldownBase := if_neg htype
  unfold State.tryI2cRecovery Channel.waits
  rw [hcooldown, if_neg htype]
  cases ch.failed with
  | false => rfl
  | true =>
    by_cases hwait : ch.retryCounter < retryCooldownBase
    · rw [if_pos hwait, decide_eq_true hwait]
      rfl
    · rw [if_neg hwait, decide_eq_false hwait]
      rfl

theorem channelRead_virtual (hget : e.channels.get id = some ch)
    (hvirtual : ch.channelType.isVirtual = true) (henabled : ch.enabled = true) :
    ∃ e' r, e.channelRead hal now id = some (e', .ok r) ∧ r.cur = e.virtualCur ch := by
  unfold State.channelRead State.virtualCur
  rw [hget]
  dsimp only
  rw [henabled, tryI2cRecovery_virtual hvirtual]
  cases ch.waits with
  | true => exact ⟨_, _, rfl, rfl⟩
  | false =>
    -- the channel that is read is the recovered one if it had failed
    cases hfailed : ch.failed with
    | false =>
      obtain ⟨ch', r, hread, hcur⟩ :=
        @read_virtual F _ hal now id ch hvirtual e.tables (e.sourceCur ch)
      simp only [Bool.not_true, Bool.false_eq_true, if_false, hget, hread]
      exact ⟨_, _, rfl, hcur⟩
    | true =>
      obtain ⟨ch', r, hread, hcur⟩ :=
        @read_virtual F _ hal now id ch.recover hvirtual e.tables (e.sourceCur ch)
      have hsame : (e.setChannel id ch.recover).channels.get id = some ch.recover :=
        Table.get_insert_self _ _ _
      have htables : (e.setChannel id ch.recover).tables = e.tables := rfl
      simp only [Bool.not_true, Bool.false_eq_true, if_false, if_true, hsame,
        sourceCur_recover hget, htables, hread]
      exact ⟨_, _, rfl, hcur⟩

end Read

section Units

variable {conv : ValueConv ℚ}

def ValueConv.factor (conv : ValueConv ℚ) : ℚ :=
  match conv.scale with
  | some scale => if scale = 0 then 1 else scale
  | none => 1

theorem factor_ne_zero (conv : ValueConv ℚ) : conv.factor ≠ 0 := by
  unfold ValueConv.factor
  split
  · split_ifs with hzero
    · exact one_ne_zero
    · exact hzero
  · exact one_ne_zero

theorem divided_eq (conv : ValueConv ℚ) (v : ℚ) : conv.divided v = v / conv.factor := by
  unfold ValueConv.divided ValueConv.factor
  cases conv.scale with
  | none => exact (div_one v).symm
  | some scale =>
    have heq : FloatOps.eq scale (lit 0) = decide (scale = 0) := rfl
    dsimp only
    rw [heq]
    by_cases hzero : scale = 0
    · rw [decide_eq_true hzero, if_pos hzero]
      exact (div_one v).symm
    · rw [decide_eq_false hzero, if_neg hzero]
      rfl

theorem unscaled_eq (conv : ValueConv ℚ) (v : ℚ) :
    conv.unscaled v = v / conv.factor - conv.offset.getD 0 := by
  unfold ValueConv.unscaled
  rw [divided_eq]
  cases conv.offset with
  | none => exact (sub_zero _).symm
  | some offset => rfl

/-- Scale and offset leave a value alone when they are 1 and 0, or at one other value. -/
theorem unscaled_eq_iff (v : ℚ) :
    conv.unscaled v = v ↔ v = (v + conv.offset.getD 0) * conv.factor := by
  rw [unscaled_eq, sub_eq_iff_eq_add, div_eq_iff (factor_ne_zero conv)]

theorem revert_isSome_iff {value : EngineValue ℚ} {tables : TableStore ℚ} :
    (conv.revert value tables).isSome = true ↔
      ∀ low high, conv.low = some low → conv.high = some high → low ≤ high := by
  rw [revert_isSome]
  unfold ValueConv.inverted
  cases hlow : conv.low with
  | none => simp
  | some low =>
    cases hhigh : conv.high with
    | none => simp
    | some high =>
      have hle : FloatOps.le low high = decide (low ≤ high) := rfl
      simp [hle]

end Units

section ReadBack

variable {hal : Hal ℚ} {now : Instant} {e : State ℚ} {id : ChannelId} {ch : Channel ℚ}
  {value : EngineValue ℚ}

/-- The write is taken, the channel then holds the value `target`, and the next read answers
    with it. -/
def ReadsBack (hal : Hal ℚ) (now : Instant) (e : State ℚ) (id : ChannelId)
    (value : EngineValue ℚ) (target : ℚ) : Prop :=
  ∃ e' written, e.channelWrite hal id value = some (e', written, .ok ()) ∧
    (∃ ch, e'.channels.get id = some ch ∧ ch.value.cur = target) ∧
    ∃ e'' r, e'.channelRead hal now id = some (e'', .ok r) ∧ r.cur = target

/-- When the value `v` reads back. A disabled channel keeps its value and answers 0, a failed
    one that waits to recover answers 0 too. -/
def Keeps (e : State ℚ) (id : ChannelId) (ch : Channel ℚ) (v : ℚ) : Prop :=
  let x := ch.conv.limited v
  if ch.enabled then
    (∀ low high, ch.conv.low = some low → ch.conv.high = some high → low ≤ high) ∧
      x = (x + ch.conv.offset.getD 0) * ch.conv.factor ∧
      if ch.waits then x = 0
      else ch.hasWrittenValue = true ∨ ch.channelIn = some id ∨ e.sourceCur ch = x
  else ch.value.cur = x ∧ x = 0

theorem sourceCur_stored (e : State ℚ) (id : ChannelId) (ch : Channel ℚ) (stored : EngineValue ℚ) :
    (e.setChannel id { ch with value := stored }).sourceCur { ch with value := stored } =
      if ch.channelIn = some id then stored.cur else e.sourceCur ch := by
  unfold State.sourceCur State.setChannel
  cases hsrc : ch.channelIn with
  | none => rfl
  | some src =>
    dsimp only
    rw [Table.get_insert]
    by_cases hself : src = id
    · rw [if_pos hself, if_pos (congrArg some hself)]
    · rw [if_neg hself, if_neg (fun heq => hself (Option.some.inj heq))]

/-- What the channel answers with right after `stored` has been recorded. -/
theorem virtualCur_stored {stored : EngineValue ℚ} :
    (e.setChannel id { ch with value := stored }).virtualCur { ch with value := stored } =
        stored.cur ↔
      if ch.waits then stored.cur = 0
      else ch.hasWrittenValue = true ∨ ch.channelIn = some id ∨ e.sourceCur ch = stored.cur := by
  unfold State.virtualCur
  rw [sourceCur_stored]
  have hwaits : Channel.waits { ch with value := stored } = ch.waits := rfl
  have hwritten : Channel.hasWrittenValue { ch with value := stored } = ch.hasWrittenValue := rfl
  rw [hwaits, hwritten]
  cases ch.waits with
  | true => exact eq_comm
  | false =>
    cases ch.hasWrittenValue with
    | true => simp
    | false =>
      by_cases hself : ch.channelIn = some id
      · simp [hself]
      · simp [hself]

/-- A value written to a virtual channel reads back within the limits of the channel exactly
    when the range is in order, scale and offset leave it alone, and the read answers with the
    record. -/
theorem virtualReadsBack_iff (hget : e.channels.get id = some ch)
    (hvirtual : ch.channelType.isVirtual = true) (hflags : value.flags = ⟨false, true⟩) :
    ReadsBack hal now e id value (ch.conv.limited value.cur) ↔ Keeps e id ch value.cur := by
  unfold ReadsBack Keeps
  cases henabled : ch.enabled with
  | false =>
    rw [channelWrite_disabled hget hvirtual hflags henabled]
    constructor
    · rintro ⟨e', written, hwrite, ⟨ch', hget', hcur⟩, e'', r, hread, hanswer⟩
      cases hwrite
      rw [hget] at hget'
      cases hget'
      rw [channelRead_disabled hget henabled] at hread
      cases hread
      exact ⟨hcur, hanswer.symm⟩
    · rintro ⟨hcur, hzero⟩
      exact ⟨e, _, rfl, ⟨ch, hget, hcur⟩, e, _, channelRead_disabled hget henabled, hzero.symm⟩
  | true =>
    rw [channelWrite_virtual hget hvirtual hflags henabled, if_pos rfl, ← unscaled_eq_iff,
      ← @revert_isSome_iff ch.conv value e.tables]
    cases hrevert : ch.conv.revert value e.tables with
    | none =>
      constructor
      · rintro ⟨e', written, hwrite, -⟩
        cases hwrite
      · rintro ⟨hsome, -⟩
        cases hsome
    | some reverted =>
      have hstored := revert_cur hrevert
      have hget' : (e.setChannel id { ch with value := reverted }).channels.get id =
          some { ch with value := reverted } := Table.get_insert_self _ _ _
      obtain ⟨e'', r, hread, hanswer⟩ :=
        @channelRead_virtual ℚ _ hal now _ id _ hget' hvirtual henabled
      constructor
      · rintro ⟨e', written, hwrite, ⟨ch', hch, hcur⟩, e₂, r₂, hread₂, hcur₂⟩
        cases hwrite
        rw [hget'] at hch
        cases hch
        rw [hread] at hread₂
        cases hread₂
        refine ⟨rfl, hstored.symm.trans hcur, ?_⟩
        have hback := virtualCur_stored.1 (hanswer.symm.trans (hcur₂.trans hcur.symm))
        rw [hcur] at hback
        exact hback
      · rintro ⟨-, hunits, hback⟩
        have hcur : reverted.cur = ch.conv.limited value.cur := hstored.trans hunits
        rw [← hcur] at hback
        exact ⟨_, _, rfl, ⟨_, hget', hcur⟩, e'', r, hread,
          hanswer.trans ((virtualCur_stored.2 hback).trans hcur)⟩

def limitedVirtual (scale : Option ℚ) : Channel ℚ :=
  { (Channel.new 1 .virtualAnalog .output 0 0 false ValueConv.default "setpoint" : Channel ℚ) with
    conv := { (ValueConv.default : ValueConv ℚ) with scale := scale, min := some 0, max := some 50 }
    priorityArray := some ⟨fun i => if i.val = 7 then ⟨some 80, "user", 0, none⟩
      else WriteLevel.default ℚ, ⟨7, by decide⟩⟩ }

theorem readsBack_limitedVirtual :
    ReadsBack sampleHal 0 (oneChannel (limitedVirtual none)) 1 (EngineValue.default.setCur 80)
      50 := by
  have hlimited : (limitedVirtual none).conv.limited 80 = 50 := by decide
  have hiff := @virtualReadsBack_iff sampleHal 0 _ 1 _ (EngineValue.default.setCur 80)
    (get_oneChannel (limitedVirtual none)) rfl rfl
  have hkeeps : Keeps (oneChannel (limitedVirtual none)) 1 (limitedVirtual none) 80 := by
    refine ⟨fun low high hlow => ?_, ?_, Or.inl rfl⟩
    · cases hlow
    · change (limitedVirtual none).conv.limited 80 = ((limitedVirtual none).conv.limited 80 + 0) * 1
      rw [add_zero, mul_one]
  rw [← hlimited]
  exact hiff.2 hkeeps

/-- Ten written to a channel with the scale 2 is recorded as five. -/
theorem scaledVirtual_not_readsBack :
    ¬ ReadsBack sampleHal 0 (oneChannel (limitedVirtual (some 2))) 1
      (EngineValue.default.setCur 10) ((limitedVirtual (some 2)).conv.limited 10) := by
  rintro ⟨e', written, hwrite, ⟨ch', hget', hcur⟩, -⟩
  rw [channelWrite_virtual (get_oneChannel _) rfl rfl rfl] at hwrite
  obtain ⟨reverted, hrevert, heq⟩ := Option.map_eq_some_iff.1 hwrite
  cases heq
  have hlimited : (limitedVirtual (some 2)).conv.limited 10 = 10 := by decide
  have hfactor : (limitedVirtual (some 2)).conv.factor = 2 := by
    unfold ValueConv.factor limitedVirtual
    exact if_neg two_ne_zero
  have hoffset : (limitedVirtual (some 2)).conv.offset.getD 0 = 0 := rfl
  have hstored : written.cur = 10 / 2 - 0 := by
    rw [revert_cur hrevert, unscaled_eq, hfactor, hoffset]
    exact congrArg (fun x => x / 2 - 0) hlimited
  have hsame : some { limitedVirtual (some 2) with value := written } = some ch' :=
    (Table.get_insert_self _ _ _).symm.trans hget'
  cases hsame
  have hten : (10 : ℚ) / 2 - 0 = 10 := hstored.symm.trans (hcur.trans hlimited)
  norm_num at hten

end ReadBack

end Sandstar.Engine
