import Sandstar.PollSchedule

set_option autoImplicit false

namespace Sandstar.Engine

variable {F : Type}

section Detection

def detectedTable (id : ChannelId) (unit : String) (tables : TableStore F) :
    Option (ℕ × TableItem F) :=
  if ¬ (1100 ≤ id.toNat ∧ id.toNat ≤ 1723) then none
  else if ¬ (11 ≤ id.toNat / 100 ∧ id.toNat / 100 ≤ 71) then none
  else if unit = "" then none
  else (variantToTag (id.toNat % 100)).bind fun tag => (tables.findByTag tag).bind fun index =>
    (tables.get index).map fun table => (index, table)

/-- The parameters that a detected table gives. -/
def ValueConv.filled (conv : ValueConv F) (index : ℕ) (table : TableItem F) : ValueConv F :=
  let conv := { conv with tableIndex := some index }
  let conv := match table.lowValue, table.highValue with
    | some low, some high => { conv with low := some low, high := some high }
    | _, _ => conv
  match conv.min with
  | some _ => conv
  | none =>
    let range := unitRange conv.unit table.ranges
    { conv with min := some range.1, max := some range.2 }

def ValueConv.complete (conv : ValueConv F) : Bool :=
  conv.tableIndex.isSome && conv.low.isSome && conv.high.isSome

theorem autoDetectSensor_eq (id : ChannelId) (conv : ValueConv F) (tables : TableStore F) :
    autoDetectSensor id conv tables =
      if conv.complete then conv
      else match detectedTable id conv.unit tables with
        | none => conv
        | some (index, table) => conv.filled index table := by
  unfold autoDetectSensor detectedTable ValueConv.complete
  split_ifs <;> try rfl
  cases variantToTag (id.toNat % 100) with
  | none => rfl
  | some tag =>
    dsimp only [Option.bind_some]
    cases tables.findByTag tag with
    | none => rfl
    | some index =>
      dsimp only [Option.bind_some]
      cases tables.get index <;> rfl

theorem filled_unit (conv : ValueConv F) (index : ℕ) (table : TableItem F) :
    (conv.filled index table).unit = conv.unit := by
  unfold ValueConv.filled
  cases table.lowValue <;> cases table.highValue <;> cases conv.min <;> rfl

theorem filled_filled (conv : ValueConv F) (index : ℕ) (table : TableItem F) :
    (conv.filled index table).filled index table = conv.filled index table := by
  unfold ValueConv.filled
  cases table.lowValue <;> cases table.highValue <;> cases conv.min <;> simp

theorem autoDetectSensor_again (id : ChannelId) (conv : ValueConv F) (tables : TableStore F) :
    autoDetectSensor id (autoDetectSensor id conv tables) tables =
      autoDetectSensor id conv tables := by
  by_cases hcomplete : conv.complete
  · have hsame : autoDetectSensor id conv tables = conv := by
      rw [autoDetectSensor_eq, if_pos hcomplete]
    rw [hsame, hsame]
  · cases htable : detectedTable id conv.unit tables with
    | none =>
      have hsame : autoDetectSensor id conv tables = conv := by
        rw [autoDetectSensor_eq, if_neg hcomplete, htable]
      rw [hsame, hsame]
    | some found =>
      have hfilled : autoDetectSensor id conv tables = conv.filled found.1 found.2 := by
        rw [autoDetectSensor_eq, if_neg hcomplete, htable]
      rw [hfilled, autoDetectSensor_eq, filled_unit, htable]
      dsimp only
      rw [filled_filled, ite_self]

theorem filters_autoDetectSensor (id : ChannelId) (conv : ValueConv F) (tables : TableStore F) :
    (autoDetectSensor id conv tables).filterConfig = conv.filterConfig ∧
      (autoDetectSensor id conv tables).convFunc = conv.convFunc ∧
      (autoDetectSensor id conv tables).flowConfig = conv.flowConfig := by
  rw [autoDetectSensor_eq]
  split_ifs
  · exact ⟨rfl, rfl, rfl⟩
  · cases detectedTable id conv.unit tables with
    | none => exact ⟨rfl, rfl, rfl⟩
    | some found =>
      dsimp only
      unfold ValueConv.filled
      cases found.2.lowValue <;> cases found.2.highValue <;> cases conv.min <;>
        exact ⟨rfl, rfl, rfl⟩

end Detection

variable [FloatOps F]

def FlowConfig.Ordered (cfg : FlowConfig F) : Prop :=
  ∀ raw : F, FloatOps.le cfg.hystOn raw = true → FloatOps.le cfg.hystOff raw = true

section Conversion

variable {conv : ValueConv F} {tables : TableStore F}

theorem applyHysteresis_again {on off raw : F} (detected : Bool)
    (h : FloatOps.le on raw = true → FloatOps.le off raw = true) :
    applyHysteresis raw on off (applyHysteresis raw on off detected).2 =
      applyHysteresis raw on off detected := by
  unfold applyHysteresis
  cases FloatOps.le raw (FloatOps.lit 0) <;> cases detected <;>
    cases hon : FloatOps.le on raw <;> cases hoff : FloatOps.le off raw <;> simp_all

theorem convertTableOrRange_again {value w : EngineValue F}
    (h : conv.convertTableOrRange value tables = some w) :
    conv.convertTableOrRange ⟨w.status, value.raw, w.cur, value.flags, value.trigger⟩ tables =
      some w := by
  unfold ValueConv.convertTableOrRange at h ⊢
  split_ifs at h ⊢ with hlimits
  · cases h
    rfl
  · exact h

def FlowConfig.detect (cfg : FlowConfig F) (raw : F) (flow : Option Bool) : F × Option Bool :=
  match cfg.hysteresisEnabled, flow with
  | true, some detected =>
    ((applyHysteresis raw cfg.hystOn cfg.hystOff detected).1,
      some (applyHysteresis raw cfg.hystOn cfg.hystOff detected).2)
  | _, _ => (raw, flow)

theorem detect_again {cfg : FlowConfig F} {flow : Option Bool}
    (h : flow = none ∨ cfg.hysteresisEnabled = false ∨ cfg.Ordered) (raw : F) :
    cfg.detect raw (cfg.detect raw flow).2 = cfg.detect raw flow := by
  unfold FlowConfig.detect
  cases henabled : cfg.hysteresisEnabled with
  | false => rfl
  | true =>
    cases flow with
    | none => rfl
    | some detected =>
      have hordered : cfg.Ordered := by simpa [henabled] using h
      have hagain := applyHysteresis_again detected (hordered raw)
      simp only [hagain]

theorem convert_flow {value : EngineValue F} {flow : Option Bool} {convFunc : ConversionFn}
    (h : conv.convFunc = some convFunc) :
    conv.convert value tables flow =
      let cfg := conv.flowConfig.getD FlowConfig.default
      let found := cfg.detect (FloatOps.max value.raw (FloatOps.lit 0)) flow
      (conv.applyCombinedTransform (ValueConv.runConversion convFunc cfg found.1)).map fun cur =>
        (EngineValue.withCurFlag ⟨.ok, found.1, conv.clampOutput cur, value.flags, false⟩,
          found.2) := by
  unfold ValueConv.convert FlowConfig.detect
  rw [h]
  dsimp only
  cases (conv.flowConfig.getD FlowConfig.default).hysteresisEnabled <;> cases flow <;> dsimp only <;>
    split <;> simp_all

/-- A second conversion of a reading gives the same: only the status and the value may
    come from the first. -/
theorem convert_again {value w : EngineValue F} {flow flow' : Option Bool}
    (hflow : conv.convFunc = none ∨ flow = none ∨
      (conv.flowConfig.getD FlowConfig.default).hysteresisEnabled = false ∨
      (conv.flowConfig.getD FlowConfig.default).Ordered)
    (h : conv.convert value tables flow = some (w, flow')) :
    conv.convert ⟨w.status, value.raw, w.cur, value.flags, value.trigger⟩ tables flow' =
      some (w, flow') := by
  cases hconv : conv.convFunc with
  | none =>
    unfold ValueConv.convert at h ⊢
    rw [hconv] at h ⊢
    dsimp only at h ⊢
    cases hvalue : conv.convertTableOrRange value tables with
    | none =>
      rw [hvalue] at h
      cases h
    | some v =>
      rw [hvalue] at h
      cases h
      rw [convertTableOrRange_again hvalue]
  | some convFunc =>
    rw [convert_flow hconv] at h ⊢
    obtain ⟨cur, hcur, heq⟩ := Option.map_eq_some_iff.1 h
    obtain ⟨hw, rfl⟩ := Prod.mk.inj heq
    have hsame := detect_again (hflow.resolve_left (by simp [hconv]))
      (FloatOps.max value.raw (FloatOps.lit 0))
    dsimp only
    rw [hsame, hcur, Option.map_some, hw]

end Conversion

structure Channel.Memoryless (ch : Channel F) : Prop where
  sdp810 : ch.isSdp810 = false
  spike : (ch.conv.filterConfig.bind FilterConfig.spikeFilter).isNone
  smoothing : (ch.conv.filterConfig.bind FilterConfig.smoothing).isNone
  rate : (ch.conv.filterConfig.bind FilterConfig.rateLimit).isNone
  flow : ch.conv.convFunc = none ∨ ch.flowDetected = none ∨
    (ch.conv.flowConfig.getD FlowConfig.default).hysteresisEnabled = false ∨
    (ch.conv.flowConfig.getD FlowConfig.default).Ordered

def Channel.lasting (ch : Channel F) :=
  (ch.id, ch.channelIn, ch.enabled, ch.channelType, ch.device, ch.address, ch.label,
    ch.pwmDisabled, ch.trigger, ch.priorityArray, ch.conv.filterConfig, ch.conv.convFunc,
    ch.conv.flowConfig, ch.flowDetected.isNone)

def Channel.answer (hal : Hal F) (ch : Channel F) : Except HalError F :=
  match ch.channelType with
  | .analog => hal.readAnalog ch.device ch.address
  | .digital | .triac => Channel.readDigitalAsFloat hal ch.address
  | .pwm => if ch.pwmDisabled then .ok (FloatOps.lit 0) else hal.readPwm ch.device ch.address
  | .i2c => hal.readI2c ch.device ch.address ch.label
  | .uart => hal.readUart ch.device ch.label
  | .virtualAnalog | .virtualDigital => .error (.busError ch.device "unreachable")

def Channel.finish (ch : Channel F) (now : Instant) : Channel F :=
  (ch.rejectSdp810Spike.filterSpike.smooth.limitRate now).triggerOnZero

section Read

variable {hal : Hal F} {now : Instant} {id : ChannelId} {tables : TableStore F} {sourceCur : F}
  {ch ch' : Channel F} {v : EngineValue F}

theorem Channel.read_hardware (h : ch.channelType.isVirtual = false) :
    Channel.read hal now id tables sourceCur ch =
      match ch.answer hal with
      | .error _ => some ({ ch with failed := true, value := { ch.value with status := .down } },
          EngineValue.withStatus .down)
      | .ok raw => (((ch.storeRaw raw).detectSensor id tables).convertValue tables).map fun c =>
          (c.finish now, (c.finish now).value) := by
  unfold Channel.read
  rw [if_neg (by simp [h])]
  change (match ch.answer hal with
    | .error _ => _
    | .ok raw => _) = _
  cases ch.answer hal with
  | error err => rfl
  | ok raw => dsimp only; cases Channel.convertValue _ tables <;> rfl

theorem Channel.lasting_storeRaw (ch : Channel F) (raw : F) :
    (ch.storeRaw raw).lasting = ch.lasting := rfl

omit [FloatOps F] in
theorem Channel.lasting_detectSensor (ch : Channel F) (id : ChannelId) (tables : TableStore F) :
    (ch.detectSensor id tables).lasting = ch.lasting := by
  obtain ⟨hfilter, hconv, hflow⟩ := filters_autoDetectSensor id ch.conv tables
  unfold Channel.lasting Channel.detectSensor
  rw [hfilter, hconv, hflow]

theorem isNone_convert {conv : ValueConv F} {value w : EngineValue F} {flow flow' : Option Bool}
    (h : conv.convert value tables flow = some (w, flow')) : flow'.isNone = flow.isNone := by
  cases hconv : conv.convFunc with
  | none =>
    unfold ValueConv.convert at h
    rw [hconv] at h
    dsimp only at h
    split at h <;> cases h
    rfl
  | some convFunc =>
    rw [convert_flow hconv] at h
    obtain ⟨cur, -, heq⟩ := Option.map_eq_some_iff.1 h
    obtain ⟨-, rfl⟩ := Prod.mk.inj heq
    unfold FlowConfig.detect
    cases (conv.flowConfig.getD FlowConfig.default).hysteresisEnabled <;> cases flow <;> rfl

theorem Channel.lasting_convertValue (h : ch.convertValue tables = some ch') :
    ch'.lasting = ch.lasting := by
  unfold Channel.convertValue at h
  split at h
  · cases h
  · rename_i value flow hconvert
    cases h
    unfold Channel.lasting
    rw [isNone_convert hconvert]

theorem Channel.lasting_rejectSdp810Spike (ch : Channel F) :
    ch.rejectSdp810Spike.lasting = ch.lasting := by
  unfold Channel.rejectSdp810Spike Channel.checkSdp810Spike
  dsimp only
  split_ifs <;> rfl

theorem Channel.lasting_filterSpike (ch : Channel F) : ch.filterSpike.lasting = ch.lasting := by
  unfold Channel.filterSpike
  cases ch.conv.filterConfig.bind FilterConfig.spikeFilter <;> rfl

theorem Channel.lasting_smooth (ch : Channel F) : ch.smooth.lasting = ch.lasting := by
  unfold Channel.smooth
  cases ch.conv.filterConfig.bind FilterConfig.smoothing <;> rfl

theorem Channel.lasting_limitRate (ch : Channel F) (now : Instant) :
    (ch.limitRate now).lasting = ch.lasting := by
  unfold Channel.limitRate
  cases ch.conv.filterConfig.bind FilterConfig.rateLimit <;> rfl

theorem Channel.lasting_triggerOnZero (ch : Channel F) : ch.triggerOnZero.lasting = ch.lasting := by
  unfold Channel.triggerOnZero
  split_ifs <;> rfl

theorem Channel.lasting_finish (ch : Channel F) (now : Instant) :
    (ch.finish now).lasting = ch.lasting := by
  unfold Channel.finish
  rw [Channel.lasting_triggerOnZero, Channel.lasting_limitRate, Channel.lasting_smooth,
    Channel.lasting_filterSpike, Channel.lasting_rejectSdp810Spike]

theorem Channel.lasting_read (h : Channel.read hal now id tables sourceCur ch = some (ch', v)) :
    ch'.lasting = ch.lasting := by
  cases hvirtual : ch.channelType.isVirtual with
  | true =>
    unfold Channel.read at h
    rw [if_pos hvirtual] at h
    split_ifs at h <;> cases h <;> rfl
  | false =>
    rw [Channel.read_hardware hvirtual] at h
    cases hanswer : ch.answer hal with
    | error err =>
      rw [hanswer] at h
      cases h
      rfl
    | ok raw =>
      rw [hanswer] at h
      obtain ⟨c, hc, heq⟩ := Option.map_eq_some_iff.1 h
      cases heq
      rw [Channel.lasting_finish, Channel.lasting_convertValue hc, Channel.lasting_detectSensor,
        Channel.lasting_storeRaw]

theorem Channel.answer_congr (h : ch'.lasting = ch.lasting) : ch'.answer hal = ch.answer hal := by
  simp only [Channel.lasting, Prod.mk.injEq] at h
  obtain ⟨-, -, -, htype, hdevice, haddress, hlabel, hdisabled, -⟩ := h
  unfold Channel.answer
  rw [htype, hdevice, haddress, hlabel, hdisabled]

theorem Channel.memoryless_congr (h : ch'.lasting = ch.lasting) :
    ch'.Memoryless ↔ ch.Memoryless := by
  simp only [Channel.lasting, Prod.mk.injEq] at h
  obtain ⟨hid, -, -, htype, -, -, -, -, -, -, hfilter, hconv, hflow, hnone⟩ := h
  have hflowNone : ch'.flowDetected = none ↔ ch.flowDetected = none := by
    rw [← Option.isNone_iff_eq_none, ← Option.isNone_iff_eq_none, hnone]
  have hsdp : ch'.isSdp810 = ch.isSdp810 := by
    unfold Channel.isSdp810
    rw [hid, htype]
  constructor
  · rintro ⟨h₁, h₂, h₃, h₄, h₅⟩
    rw [hsdp] at h₁
    rw [hfilter] at h₂ h₃ h₄
    rw [hconv, hflow, hflowNone] at h₅
    exact ⟨h₁, h₂, h₃, h₄, h₅⟩
  · rintro ⟨h₁, h₂, h₃, h₄, h₅⟩
    rw [← hsdp] at h₁
    rw [← hfilter] at h₂ h₃ h₄
    rw [← hconv, ← hflow, ← hflowNone] at h₅
    exact ⟨h₁, h₂, h₃, h₄, h₅⟩

theorem Channel.Memoryless.finish_eq (h : ch.Memoryless) (now : Instant) :
    ch.finish now = ch.triggerOnZero := by
  have hsdp : ch.rejectSdp810Spike = ch := by
    simp [Channel.rejectSdp810Spike, Channel.checkSdp810Spike, h.sdp810, Channel.setValueCur]
  have hspike : ch.filterSpike = ch := by
    unfold Channel.filterSpike
    rw [Option.isNone_iff_eq_none.1 h.spike]
  have hsmooth : ch.smooth = ch := by
    unfold Channel.smooth
    rw [Option.isNone_iff_eq_none.1 h.smoothing]
  have hrate : ch.limitRate now = ch := by
    unfold Channel.limitRate
    rw [Option.isNone_iff_eq_none.1 h.rate]
  unfold Channel.finish
  rw [hsdp, hspike, hsmooth, hrate]

theorem Channel.Memoryless.storeRaw_eq (h : ch.Memoryless) (raw : F) :
    ch.storeRaw raw = { ch with value := ch.value.setRaw raw } := by
  have hraw : ({ ch with value := ch.value.setRaw raw } : Channel F).validateI2cRaw raw = raw := by
    have hsdp : ({ ch with value := ch.value.setRaw raw } : Channel F).isSdp810 = false := h.sdp810
    unfold Channel.validateI2cRaw
    rw [hsdp]
    rfl
  unfold Channel.storeRaw
  dsimp only
  rw [hraw]
  rfl

theorem Channel.triggerOnZero_eq (ch : Channel F) :
    ch.triggerOnZero = { ch with value := { ch.value with
      trigger := if FloatOps.eq ch.value.cur (FloatOps.lit 0) then ch.trigger
        else ch.value.trigger } } := by
  unfold Channel.triggerOnZero
  split_ifs <;> rfl

theorem Channel.Memoryless.prepared_eq (h : ch.Memoryless) (id : ChannelId)
    (tables : TableStore F) (raw : F) :
    (ch.storeRaw raw).detectSensor id tables =
      { ch with value := ch.value.setRaw raw, conv := autoDetectSensor id ch.conv tables } := by
  rw [h.storeRaw_eq]
  rfl

/-- The channel that a conversion has left is converted to itself once more. -/
theorem Channel.Memoryless.convert_again {raw : F} (h : ch.Memoryless)
    (hconvert : ((ch.storeRaw raw).detectSensor id tables).convertValue tables = some ch') :
    ((ch'.triggerOnZero.storeRaw raw).detectSensor id tables).convertValue tables = some ch' := by
  have hlasting : ch'.triggerOnZero.lasting = ch.lasting := by
    rw [Channel.lasting_triggerOnZero, Channel.lasting_convertValue hconvert,
      Channel.lasting_detectSensor, Channel.lasting_storeRaw]
  have hflow := h.flow
  obtain ⟨-, hconv, hcfg⟩ := filters_autoDetectSensor id ch.conv tables
  rw [← hconv, ← hcfg] at hflow
  rw [((Channel.memoryless_congr hlasting).2 h).prepared_eq]
  rw [h.prepared_eq] at hconvert
  unfold Channel.convertValue at hconvert ⊢
  dsimp only at hconvert ⊢
  split at hconvert
  · cases hconvert
  · rename_i w flow hw
    cases hconvert
    have hagain := Engine.convert_again hflow hw
    change (autoDetectSensor id ch.conv tables).convert
      ⟨w.status, raw, w.cur, ⟨true, false⟩, false⟩ tables flow = some (w, flow) at hagain
    rw [Channel.triggerOnZero_eq]
    dsimp only
    rw [autoDetectSensor_again]
    have hvalue : EngineValue.setRaw { w with trigger := if FloatOps.eq w.cur (FloatOps.lit 0)
        then ch.trigger else w.trigger } raw = ⟨w.status, raw, w.cur, ⟨true, false⟩, false⟩ := rfl
    rw [hvalue, hagain]

/-- A read of a channel without memory that has not failed is undone by nothing: the same
    hardware reads it to itself. -/
theorem Channel.Memoryless.read_again (h : ch'.Memoryless)
    (hvirtual : ch'.channelType.isVirtual = false) (hfailed : ch'.failed = false)
    (hread : Channel.read hal now id tables sourceCur ch = some (ch', v)) (now' : Instant)
    (sourceCur' : F) :
    Channel.read hal now' id tables sourceCur' ch' = some (ch', ch'.value) := by
  have hlasting := Channel.lasting_read hread
  have hmem := (Channel.memoryless_congr hlasting).1 h
  have htype : ch'.channelType = ch.channelType := by
    simp only [Channel.lasting, Prod.mk.injEq] at hlasting
    exact hlasting.2.2.2.1
  rw [Channel.read_hardware (htype ▸ hvirtual)] at hread
  rw [Channel.read_hardware hvirtual, Channel.answer_congr hlasting]
  cases hanswer : ch.answer hal with
  | error err =>
    rw [hanswer] at hread
    cases hread
    cases hfailed
  | ok raw =>
    rw [hanswer] at hread
    obtain ⟨c, hc, heq⟩ := Option.map_eq_some_iff.1 hread
    have hcmem : c.Memoryless := by
      refine (Channel.memoryless_congr ?_).2 hmem
      rw [Channel.lasting_convertValue hc, Channel.lasting_detectSensor, Channel.lasting_storeRaw]
    obtain ⟨rfl, -⟩ := Prod.mk.inj heq
    dsimp only
    rw [hcmem.finish_eq, hmem.convert_again hc, Option.map_some, hcmem.finish_eq]

def Channel.Settled (hal : Hal F) (id : ChannelId) (tables : TableStore F) (ch : Channel F) :
    Prop :=
  ch.enabled = true → ch.failed = false →
    if ch.channelType.isVirtual then ch.value.status = .ok ∧ ch.value.flags.cur = true
    else ch.Memoryless → ∀ now sourceCur,
      Channel.read hal now id tables sourceCur ch = some (ch, ch.value)

theorem Channel.read_settled (h : Channel.read hal now id tables sourceCur ch = some (ch', v)) :
    ch'.Settled hal id tables := by
  intro _ hfailed
  have hlasting := Channel.lasting_read h
  have htype : ch'.channelType = ch.channelType := by
    simp only [Channel.lasting, Prod.mk.injEq] at hlasting
    exact hlasting.2.2.2.1
  split_ifs with hvirtual
  · rw [htype] at hvirtual
    unfold Channel.read at h
    rw [if_pos hvirtual] at h
    split_ifs at h <;> cases h <;> exact ⟨rfl, rfl⟩
  · exact fun hmem => hmem.read_again (Bool.eq_false_of_not_eq_true hvirtual) hfailed h

theorem Channel.attempt_settled {cooldown : UInt32}
    (h : Channel.attempt hal now id tables cooldown sourceCur ch = some (ch', v)) :
    ch'.Settled hal id tables := by
  unfold Channel.attempt at h
  cases henabled : ch.enabled with
  | false =>
    rw [henabled] at h
    cases h
    intro henabled'
    rw [henabled] at henabled'
    cases henabled'
  | true =>
    rw [henabled] at h
    cases hfailed : ch.failed with
    | false =>
      have hretry : ch.retry hal cooldown = .read := by simp [Channel.retry, hfailed]
      rw [hretry] at h
      exact Channel.read_settled h
    | true =>
      cases hretry : ch.retry hal cooldown with
      | read =>
        rw [hretry] at h
        exact Channel.read_settled h
      | cooling =>
        rw [hretry] at h
        cases h
        exact fun _ hfailed' => absurd (hfailed.symm.trans hfailed') (by decide)
      | failedAgain =>
        rw [hretry] at h
        cases h
        exact fun _ hfailed' => absurd (hfailed.symm.trans hfailed') (by decide)

theorem Channel.lasting_attempt {cooldown : UInt32}
    (h : Channel.attempt hal now id tables cooldown sourceCur ch = some (ch', v)) :
    ch'.lasting = ch.lasting := by
  unfold Channel.attempt at h
  split_ifs at h
  · cases h
    rfl
  · cases hretry : ch.retry hal cooldown with
    | cooling =>
      rw [hretry] at h
      cases h
      rfl
    | failedAgain =>
      rw [hretry] at h
      cases h
      rfl
    | read =>
      rw [hretry] at h
      rw [Channel.lasting_read h]
      unfold Channel.recovered
      split_ifs <;> rfl

end Read

/-- A channel that a read leaves as it is: one that is not read at all, or one of the
    last cycle that has not failed and has nothing to remember or to catch up with. -/
def State.Traceless (e : State F) (polled : List ChannelId) (id : ChannelId) : Prop :=
  ∀ ch, e.channels.get id = some ch → ch.enabled = true →
    id ∈ polled ∧ ch.failed = false ∧
      if ch.channelType.isVirtual then ch.hasWrittenValue = true ∨ e.sourceCur ch = ch.value.cur
      else ch.Memoryless

def State.SettledOn (e : State F) (hal : Hal F) (ids : List ChannelId) : Prop :=
  ∀ id ∈ ids, ∀ ch, e.channels.get id = some ch → ch.Settled hal id e.tables

theorem State.channelRead_traceless {hal : Hal F} {e : State F} {polled : List ChannelId}
    {id : ChannelId} (h : e.Traceless polled id)
    (hsettled : e.SettledOn hal polled) (now : Instant) :
    (e.channelRead hal now id).map Prod.fst = some e := by
  cases hch : e.channels.get id with
  | none => simp [State.channelRead, hch]
  | some ch =>
    cases henabled : ch.enabled with
    | false => simp [State.channelRead, hch, henabled]
    | true =>
      obtain ⟨hpolled, hfailed, hkind⟩ := h ch hch henabled
      have hsame := hsettled id hpolled ch hch henabled hfailed
      have hrecovered : ch.recovered = ch := by simp [Channel.recovered, hfailed]
      have hretry : ch.retry hal (e.cooldown ch) = .read := by simp [Channel.retry, hfailed]
      have hbackoff : e.backoffAfter hal ch = e.i2cBackoff := by
        simp [State.backoffAfter, hfailed]
      have hread : Channel.read hal now id e.tables (e.sourceCur ch) ch = some (ch, ch.value) := by
        split_ifs at hkind hsame with hvirtual
        · obtain ⟨hstatus, hflag⟩ := hsame
          have hvalue : EngineValue.withCurFlag { ch.value with status := .ok } = ch.value := by
            simp [EngineValue.withCurFlag, ← hstatus, ← hflag]
          unfold Channel.read
          rw [if_pos hvirtual]
          split_ifs with hwritten
          · dsimp only
            rw [hvalue]
          · rw [hkind.resolve_left hwritten]
            dsimp only
            rw [hvalue]
        · exact hsame hkind now (e.sourceCur ch)
      rw [State.channelRead_present hch]
      unfold Channel.attempt
      rw [henabled, hretry, hrecovered, hbackoff]
      simp only [Bool.not_true, Bool.false_eq_true, if_false, hread, Option.map_some,
        Table.insert_present hch]

section Cycle

variable {hal : Hal F} {now : Instant} {e e' : State F} {ids : List ChannelId} {id : ChannelId}
  {r : Except EngineError (EngineValue F)}

theorem State.SettledOn.read (h : e.SettledOn hal ids)
    (hread : e.channelRead hal now id = some (e', r)) : e'.SettledOn hal (id :: ids) := by
  intro a ha c hc
  have hkeep : a ∈ ids → ∀ c, e.channels.get a = some c → c.Settled hal a e.tables := h a
  cases hch : e.channels.get id with
  | none =>
    simp only [State.channelRead, hch] at hread
    cases hread
    have hne : a ≠ id := fun heq => by simp [heq, hch] at hc
    exact hkeep (List.mem_of_ne_of_mem hne ha) c hc
  | some ch =>
    rw [State.channelRead_present hch] at hread
    split at hread
    · cases hread
    · rename_i ch' value hattempt
      cases hread
      rw [Table.get_insert] at hc
      split_ifs at hc with hne
      · cases hc
        subst hne
        exact Channel.attempt_settled hattempt
      · exact hkeep (List.mem_of_ne_of_mem hne ha) c hc

theorem State.SettledOn.recordResult (h : e.SettledOn hal ids) :
    (e.recordResult id r).1.SettledOn hal ids := by
  obtain ⟨hc, ht, -⟩ := State.recordResult_frame e id r
  unfold State.SettledOn
  rw [hc, ht]
  exact h

theorem State.SettledOn.subset {ids' : List ChannelId} (h : e.SettledOn hal ids)
    (hsub : ids' ⊆ ids) : e.SettledOn hal ids' :=
  fun id hid => h id (hsub hid)

theorem pollLoop_cons {clock : ChannelId → Instant} {cache : I2cReadCache F}
    {notifications : List (Notification F)} (hcache : State.CacheAgrees hal cache)
    (h : e.pollLoop hal clock cache (id :: ids) = some (e', notifications)) :
    ∃ e₁ r rest, e.channelRead hal (clock id) id = some (e₁, r) ∧
      (e₁.recordResult id r).1.pollLoop hal clock cache ids = some (e', rest) := by
  unfold State.pollLoop at h
  rw [State.pollChannel_eq hcache] at h
  cases hread : e.channelRead hal (clock id) id with
  | none => simp [hread] at h
  | some p =>
    rw [hread] at h
    dsimp only at h
    split at h
    · cases h
    · rename_i e₂ rest hrest
      cases h
      exact ⟨p.1, p.2, rest, rfl, hrest⟩

theorem State.SettledOn.pollLoop {clock : ChannelId → Instant} {cache : I2cReadCache F}
    {notifications : List (Notification F)} {done : List ChannelId}
    (hcache : State.CacheAgrees hal cache) (h : e.SettledOn hal done)
    (hloop : e.pollLoop hal clock cache ids = some (e', notifications)) :
    e'.SettledOn hal (ids ++ done) := by
  induction ids generalizing e done notifications with
  | nil =>
    cases hloop
    exact h
  | cons id ids ih =>
    obtain ⟨e₁, r, rest, hread, hrest⟩ := pollLoop_cons hcache hloop
    refine (ih (h.read hread).recordResult hrest).subset ?_
    intro a
    simp only [List.mem_append, List.mem_cons]
    tauto

theorem State.settledOn_pollUpdate {expireClock readClock : ChannelId → Instant}
    {channelOrder : List ChannelId} {notifications : List (Notification F)}
    (h : e.pollUpdate hal expireClock readClock channelOrder ids = some (e', notifications)) :
    e'.SettledOn hal ids := by
  unfold State.pollUpdate at h
  split at h
  · cases h
  · rename_i e₀ _
    have hnone : e₀.SettledOn hal [] := fun a ha => absurd ha List.not_mem_nil
    have hall := hnone.pollLoop (State.preReadI2cChannels_agrees hal e₀ ids) h
    rwa [List.append_nil] at hall

end Cycle

end Sandstar.Engine
