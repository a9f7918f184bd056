import Sandstar.EngineRereads

set_option autoImplicit false

/-!
# Two engines that agree but for some channels

The reads and the poll cycles of the engine look at a channel, at what it copies and at
the back-off of its sensor. So two engines that agree outside a set of channels go on
agreeing there, if the set holds what copies its channels and what shares their sensors.
-/
namespace Sandstar.Engine

variable {F : Type} [FloatOps F]

def Channel.converted (ch : Channel F) (tables : TableStore F) (value : EngineValue F) :
    Option (EngineValue F) :=
  if value.flags.raw && !value.flags.cur then
    match ch.conv.convert value tables none with
    | some (value, _) => some value
    | none => none
  else if value.flags.cur && !value.flags.raw then ch.conv.revert value tables
  else some value

def Channel.finishWrite (ch : Channel F) (value : EngineValue F)
    (halResult : Except HalError Unit) : Channel F :=
  { ch with value := match halResult with
      | .error _ => { value with status := .down }
      | .ok _ => value }

def Channel.written (hal : Hal F) (tables : TableStore F) (ch : Channel F)
    (value : EngineValue F) : Option (Channel F) :=
  if !(ch.direction.isOutput || ch.channelType.isVirtual) ||
      (!value.flags.raw && !value.flags.cur) then some ch
  else if !ch.enabled then some ch
  else (ch.converted tables value).map fun value =>
    match ch.channelType with
    | .digital | .triac =>
      let bit := FloatOps.lt (FloatOps.lit (1 / 2)) value.raw
      let level : F := if bit then FloatOps.lit 1 else FloatOps.lit 0
      let value := if !ch.conv.adcMode then { value with raw := level, cur := level } else value
      ch.finishWrite value (hal.writeDigital ch.address bit)
    | .pwm => ch.finishWrite value (hal.writePwm ch.device ch.address value.raw)
    | .virtualAnalog | .virtualDigital => { ch with value := value }
    | .analog | .i2c | .uart => ch

def Channel.expired (hal : Hal F) (now : Instant) (tables : TableStore F) (ch : Channel F) :
    Option (Channel F) :=
  match ch.priorityArray with
  | none => some ch
  | some pa =>
    let (pa, expired) := pa.expireTimedLevels now
    let ch := { ch with priorityArray := some pa }
    if expired then
      match pa.effective.1 with
      | some val => ch.written hal tables (EngineValue.default.setCur val)
      | none => some ch
    else some ch

section Writes

variable {hal : Hal F} {now : Instant} {e e' : State F} {id : ChannelId} {ch ch' : Channel F}
  {tables : TableStore F}

omit [FloatOps F] in
theorem State.finishWrite_fst (e : State F) (id : ChannelId) (ch : Channel F)
    (value : EngineValue F) (r : Except HalError Unit) :
    (e.finishWrite id ch value r).1 = e.setChannel id (ch.finishWrite value r) := by
  cases r <;> rfl

theorem State.channelWrite_present (h : e.channels.get id = some ch) (value : EngineValue F) :
    (e.channelWrite hal id value).map Prod.fst =
      (ch.written hal e.tables value).map (e.setChannel id) := by
  have hsame : e.setChannel id ch = e := by
    unfold State.setChannel
    rw [Table.insert_present h]
  unfold State.channelWrite Channel.written
  rw [h]
  dsimp only
  by_cases hdirection : (!(ch.direction.isOutput || ch.channelType.isVirtual) ||
      (!value.flags.raw && !value.flags.cur)) = true
  · rw [if_pos hdirection, if_pos hdirection]
    simp [hsame]
  · rw [if_neg hdirection, if_neg hdirection]
    cases ch.enabled with
    | false => simp [hsame]
    | true =>
      unfold Channel.converted
      simp only [Bool.not_true, Bool.false_eq_true, if_false]
      by_cases hraw : (value.flags.raw && !value.flags.cur) = true
      · simp only [if_pos hraw]
        cases ch.conv.convert value e.tables none with
        | none => rfl
        | some _ => cases ch.channelType <;> simp [State.finishWrite_fst, hsame]
      simp only [if_neg hraw]
      by_cases hcur : (value.flags.cur && !value.flags.raw) = true
      · simp only [if_pos hcur]
        cases ch.conv.revert value e.tables with
        | none => rfl
        | some _ => cases ch.channelType <;> simp [State.finishWrite_fst, hsame]
      · simp only [if_neg hcur]
        cases ch.channelType <;> simp [State.finishWrite_fst, hsame]

omit [FloatOps F] in
theorem State.setChannel_setChannel (e : State F) (id : ChannelId) (ch ch' : Channel F) :
    (e.setChannel id ch).setChannel id ch' = e.setChannel id ch' := by
  unfold State.setChannel
  rw [Table.insert_insert]

theorem State.expireChannel_present (h : e.channels.get id = some ch) :
    e.expireChannel hal now id = (ch.expired hal now e.tables).map (e.setChannel id) := by
  have hsame : e.setChannel id ch = e := by
    unfold State.setChannel
    rw [Table.insert_present h]
  unfold State.expireChannel Channel.expired
  rw [h]
  dsimp only
  cases ch.priorityArray with
  | none => simp [hsame]
  | some pa =>
    dsimp only
    generalize pa.expireTimedLevels now = result
    obtain ⟨pa, expired⟩ := result
    dsimp only
    generalize ({ ch with priorityArray := some pa } : Channel F) = ch'
    have hget : (e.setChannel id ch').channels.get id = some ch' := Table.get_insert_self _ _ _
    cases expired with
    | false => rfl
    | true =>
      cases pa.effective.1 with
      | none => rfl
      | some val =>
        have hwrite : ((e.setChannel id ch').channelWrite hal id
            (EngineValue.default.setCur val)).map Prod.fst = _ :=
          State.channelWrite_present hget _
        have htwice : (e.setChannel id ch').setChannel id = e.setChannel id :=
          funext fun c => State.setChannel_setChannel e id ch' c
        rw [htwice] at hwrite
        refine Eq.trans ?_ hwrite
        dsimp only
        cases (e.setChannel id ch').channelWrite hal id (EngineValue.default.setCur val) <;> rfl

end Writes

abbrev Wiring := ChannelId → Option (ChannelType × Option ChannelId × UInt32 × UInt32)

def Channel.wiring (ch : Channel F) : ChannelType × Option ChannelId × UInt32 × UInt32 :=
  (ch.channelType, ch.channelIn, ch.device, ch.address)

def State.wiring (e : State F) : Wiring := fun id => (e.channels.get id).map Channel.wiring

/-- The set holds the virtual channels that copy its channels and the I2C channels that
    share a sensor with one of them. -/
structure Wiring.Closed (w : Wiring) (D : Set ChannelId) : Prop where
  copies : ∀ id type src device address, w id = some (type, some src, device, address) →
    type.isVirtual = true → src ∈ D → id ∈ D
  sensors : ∀ id other source source' device address,
    w id = some (.i2c, source, device, address) →
      w other = some (.i2c, source', device, address) → id ∈ D → other ∈ D

section Wiring

variable {hal : Hal F} {now : Instant} {e e' : State F} {id : ChannelId} {ch ch' : Channel F}

omit [FloatOps F] in
theorem State.wiring_insert (h : e.channels.get id = some ch) (hwiring : ch'.wiring = ch.wiring)
    (a : ChannelId) :
    ((e.channels.insert id ch').get a).map Channel.wiring = e.wiring a := by
  unfold State.wiring
  rw [Table.get_insert]
  split_ifs with ha
  · rw [ha, h, Option.map_some, Option.map_some, hwiring]
  · rfl

theorem Channel.wiring_attempt {cooldown : UInt32} {sourceCur : F} {tables : TableStore F}
    {v : EngineValue F}
    (h : Channel.attempt hal now id tables cooldown sourceCur ch = some (ch', v)) :
    ch'.wiring = ch.wiring := by
  have hlasting := Channel.lasting_attempt h
  simp only [Channel.lasting, Prod.mk.injEq] at hlasting
  obtain ⟨-, hin, -, htype, hdevice, haddress, -⟩ := hlasting
  unfold Channel.wiring
  rw [hin, htype, hdevice, haddress]

theorem Channel.wiring_written {tables : TableStore F} {value : EngineValue F}
    (h : ch.written hal tables value = some ch') : ch'.wiring = ch.wiring := by
  unfold Channel.written at h
  split at h
  · cases h
    rfl
  · split at h
    · cases h
      rfl
    · obtain ⟨v, -, rfl⟩ := Option.map_eq_some_iff.1 h
      split <;> rfl

theorem Channel.wiring_expired {tables : TableStore F}
    (h : ch.expired hal now tables = some ch') : ch'.wiring = ch.wiring := by
  unfold Channel.expired at h
  cases hpa : ch.priorityArray with
  | none =>
    rw [hpa] at h
    cases h
    rfl
  | some pa =>
    rw [hpa] at h
    dsimp only at h
    split_ifs at h
    · split at h
      · have hwritten := Channel.wiring_written h
        exact hwritten
      · cases h
        rfl
    · cases h
      rfl

end Wiring

/-- The engines agree on the channels outside the set, on what was recorded of them and on
    the back-off of their sensors. -/
structure Agree (D : Set ChannelId) (w : Wiring) (e₁ e₂ : State F) : Prop where
  tables : e₁.tables = e₂.tables
  left : e₁.wiring = w
  right : e₂.wiring = w
  channel : ∀ id ∉ D, e₁.channels.get id = e₂.channels.get id
  poll : ∀ id ∉ D, e₁.polls.get id = e₂.polls.get id
  backoff : ∀ id ∉ D, ∀ source device address, w id = some (.i2c, source, device, address) →
    e₁.i2cBackoff.get (device, address) = e₂.i2cBackoff.get (device, address)

section Agreement

omit [FloatOps F]

variable {D : Set ChannelId} {w : Wiring} {hal : Hal F} {now : Instant} {e e₁ e₂ e₁' e₂' : State F}
  {id : ChannelId} {ch ch' : Channel F}

theorem Agree.symm (h : Agree D w e₁ e₂) : Agree D w e₂ e₁ :=
  ⟨h.tables.symm, h.right, h.left, fun a ha => (h.channel a ha).symm,
    fun a ha => (h.poll a ha).symm,
    fun a ha source device address hw => (h.backoff a ha source device address hw).symm⟩

theorem State.get_backoffAfter {key : UInt32 × UInt32} (hcool : e₁.cooldown ch = e₂.cooldown ch)
    (hkey : e₁.i2cBackoff.get key = e₂.i2cBackoff.get key) :
    (e₁.backoffAfter hal ch).get key = (e₂.backoffAfter hal ch).get key := by
  unfold State.backoffAfter
  rw [hcool]
  split_ifs with hdue
  · cases hal.reinitI2cSensor ch.device ch.address ch.label with
    | error err =>
      dsimp only
      rw [Table.get_insert, Table.get_insert]
      split_ifs with hown
      · rw [← hown, hkey]
      · exact hkey
    | ok u =>
      dsimp only
      rw [Table.get_modify, Table.get_modify, hkey]
  · exact hkey

/-- The back-off of another sensor is kept. -/
theorem State.get_backoffAfter_ne {key : UInt32 × UInt32}
    (h : ch.channelType = .i2c → key ≠ (ch.device, ch.address)) :
    (e.backoffAfter hal ch).get key = e.i2cBackoff.get key := by
  unfold State.backoffAfter
  split_ifs with hdue
  · have hne := h hdue.2.2.1
    cases hal.reinitI2cSensor ch.device ch.address ch.label with
    | error err => exact Table.get_insert_ne _ _ hne
    | ok u => exact Table.get_modify_ne _ _ hne
  · rfl

/-- Replacing a channel of the set on one side keeps the agreement. -/
theorem Agree.replace_left (h : Agree D w e₁ e₂) (hclosed : w.Closed D) (hid : id ∈ D)
    (hch : e₁.channels.get id = some ch) (hwiring : ch'.wiring = ch.wiring)
    (b : Table (UInt32 × UInt32) I2cBackoffState)
    (hb : b = e₁.i2cBackoff ∨ b = e₁.backoffAfter hal ch) :
    Agree D w { e₁ with channels := e₁.channels.insert id ch', i2cBackoff := b } e₂ where
  tables := h.tables
  left := by
    rw [← h.left]
    exact funext fun a => State.wiring_insert hch hwiring a
  right := h.right
  channel a ha := by
    have hne : a ≠ id := fun heq => ha (heq ▸ hid)
    exact (Table.get_insert_ne _ _ hne).trans (h.channel a ha)
  poll := h.poll
  backoff a ha source device address hw := by
    refine Eq.trans ?_ (h.backoff a ha source device address hw)
    rcases hb with rfl | rfl
    · rfl
    · refine State.get_backoffAfter_ne fun htype hkey => ?_
      cases hkey
      refine ha (hclosed.sensors id a ch.channelIn source _ _ ?_ hw hid)
      rw [← h.left, State.wiring, hch, Option.map_some, Channel.wiring, htype]

theorem Agree.replace_both (h : Agree D w e₁ e₂) (hch₁ : e₁.channels.get id = some ch)
    (hch₂ : e₂.channels.get id = some ch) (hwiring : ch'.wiring = ch.wiring)
    (b₁ b₂ : Table (UInt32 × UInt32) I2cBackoffState)
    (hb : ∀ key, e₁.i2cBackoff.get key = e₂.i2cBackoff.get key → b₁.get key = b₂.get key) :
    Agree D w { e₁ with channels := e₁.channels.insert id ch', i2cBackoff := b₁ }
      { e₂ with channels := e₂.channels.insert id ch', i2cBackoff := b₂ } where
  tables := h.tables
  left := by
    rw [← h.left]
    exact funext fun a => State.wiring_insert hch₁ hwiring a
  right := by
    rw [← h.right]
    exact funext fun a => State.wiring_insert hch₂ hwiring a
  channel a ha := by
    change (e₁.channels.insert id ch').get a = (e₂.channels.insert id ch').get a
    rw [Table.get_insert, Table.get_insert, h.channel a ha]
  poll := h.poll
  backoff a ha source device address hw := hb _ (h.backoff a ha source device address hw)

end Agreement

section Turns

variable {D : Set ChannelId} {w : Wiring} {hal : Hal F} {now : Instant} {e₁ e₂ e₁' e₂' : State F}
  {id : ChannelId} {r₁ r₂ : Except EngineError (EngineValue F)}

theorem Channel.attempt_source {hal : Hal F} {id : ChannelId} {tables : TableStore F}
    {cooldown : UInt32} {ch : Channel F} {s₁ s₂ : F}
    (h : ch.channelType.isVirtual = true → s₁ = s₂) :
    Channel.attempt hal now id tables cooldown s₁ ch =
      Channel.attempt hal now id tables cooldown s₂ ch := by
  have htype : ch.recovered.channelType = ch.channelType := by
    unfold Channel.recovered
    split_ifs <;> rfl
  unfold Channel.attempt
  rw [Channel.read_source fun hv _ => h (htype ▸ hv)]

omit [FloatOps F] in
theorem Agree.get_wiring {ch : Channel F} (h : Agree D w e₁ e₂)
    (hch : e₁.channels.get id = some ch) : w id = some ch.wiring := by
  rw [← h.left, State.wiring, hch, Option.map_some]

theorem Agree.sourceCur {ch : Channel F} (h : Agree D w e₁ e₂) (hclosed : w.Closed D)
    (hid : id ∉ D) (hch : e₁.channels.get id = some ch) (hvirtual : ch.channelType.isVirtual = true) :
    e₁.sourceCur ch = e₂.sourceCur ch := by
  unfold State.sourceCur
  cases hin : ch.channelIn with
  | none => rfl
  | some src =>
    have hwid : w id = some (ch.channelType, some src, ch.device, ch.address) := by
      rw [h.get_wiring hch, Channel.wiring, hin]
    have hsrc : src ∉ D := fun hsrc => hid (hclosed.copies id _ _ _ _ hwid hvirtual hsrc)
    dsimp only
    rw [h.channel src hsrc]

theorem Agree.traceless {polled : List ChannelId} (h : Agree D w e₁ e₂) (hclosed : w.Closed D)
    (hid : id ∉ D) (htraceless : e₁.Traceless polled id) : e₂.Traceless polled id := by
  intro ch hch henabled
  have hch₁ := (h.channel id hid).trans hch
  obtain ⟨hpolled, hfailed, hkind⟩ := htraceless ch hch₁ henabled
  refine ⟨hpolled, hfailed, ?_⟩
  split_ifs at hkind ⊢ with hvirtual
  · rwa [← h.sourceCur hclosed hid hch₁ hvirtual]
  · exact hkind

theorem Agree.read_left (h : Agree D w e₁ e₂) (hclosed : w.Closed D) (hid : id ∈ D)
    (hread : e₁.channelRead hal now id = some (e₁', r₁)) : Agree D w e₁' e₂ := by
  cases hch : e₁.channels.get id with
  | none =>
    simp only [State.channelRead, hch] at hread
    cases hread
    exact h
  | some ch =>
    rw [State.channelRead_present hch] at hread
    split at hread
    · cases hread
    · rename_i ch' value hattempt
      cases hread
      exact h.replace_left hclosed hid hch (Channel.wiring_attempt hattempt) _ (Or.inr rfl)

theorem Agree.read_both (h : Agree D w e₁ e₂) (hclosed : w.Closed D)
    (hread₁ : e₁.channelRead hal now id = some (e₁', r₁))
    (hread₂ : e₂.channelRead hal now id = some (e₂', r₂)) :
    Agree D w e₁' e₂' ∧ (id ∉ D → r₁ = r₂) := by
  by_cases hid : id ∈ D
  · exact ⟨((h.read_left hclosed hid hread₁).symm.read_left hclosed hid hread₂).symm,
      fun hnot => absurd hid hnot⟩
  · have hsame := h.channel id hid
    cases hch : e₁.channels.get id with
    | none =>
      have hch₂ := hsame.symm.trans hch
      simp only [State.channelRead, hch] at hread₁
      simp only [State.channelRead, hch₂] at hread₂
      cases hread₁
      cases hread₂
      exact ⟨h, fun _ => rfl⟩
    | some ch =>
      have hch₂ := hsame.symm.trans hch
      have hwid := h.get_wiring hch
      have hcool : e₁.cooldown ch = e₂.cooldown ch := by
        unfold State.cooldown
        split_ifs with htype
        · rw [h.backoff id hid ch.channelIn ch.device ch.address
            (by rw [hwid, Channel.wiring, htype])]
        · rfl
      have hattempts : Channel.attempt hal now id e₂.tables (e₂.cooldown ch) (e₂.sourceCur ch) ch =
          Channel.attempt hal now id e₁.tables (e₁.cooldown ch) (e₁.sourceCur ch) ch := by
        rw [h.tables, hcool, Channel.attempt_source (h.sourceCur hclosed hid hch)]
      rw [State.channelRead_present hch] at hread₁
      rw [State.channelRead_present hch₂, hattempts] at hread₂
      cases hattempt : Channel.attempt hal now id e₁.tables (e₁.cooldown ch) (e₁.sourceCur ch) ch with
      | none =>
        rw [hattempt] at hread₁
        cases hread₁
      | some p =>
        rw [hattempt] at hread₁ hread₂
        cases hread₁
        cases hread₂
        exact ⟨h.replace_both hch hch₂ (Channel.wiring_attempt hattempt) _ _
          fun key hkey => State.get_backoffAfter hcool hkey, fun _ => rfl⟩

theorem Agree.expire_left (h : Agree D w e₁ e₂) (hclosed : w.Closed D) (hid : id ∈ D)
    (hexpire : e₁.expireChannel hal now id = some e₁') : Agree D w e₁' e₂ := by
  cases hch : e₁.channels.get id with
  | none =>
    simp only [State.expireChannel, hch] at hexpire
    cases hexpire
    exact h
  | some ch =>
    rw [State.expireChannel_present hch] at hexpire
    obtain ⟨ch', hexpired, rfl⟩ := Option.map_eq_some_iff.1 hexpire
    have hkept : e₁.i2cBackoff = e₁.i2cBackoff ∨ e₁.i2cBackoff = e₁.backoffAfter hal ch := Or.inl rfl
    exact h.replace_left hclosed hid hch (Channel.wiring_expired hexpired) _ hkept

theorem Agree.expire_both (h : Agree D w e₁ e₂) (hclosed : w.Closed D)
    (hexpire₁ : e₁.expireChannel hal now id = some e₁')
    (hexpire₂ : e₂.expireChannel hal now id = some e₂') : Agree D w e₁' e₂' := by
  by_cases hid : id ∈ D
  · exact ((h.expire_left hclosed hid hexpire₁).symm.expire_left hclosed hid hexpire₂).symm
  · have hsame := h.channel id hid
    cases hch : e₁.channels.get id with
    | none =>
      have hch₂ := hsame.symm.trans hch
      simp only [State.expireChannel, hch] at hexpire₁
      simp only [State.expireChannel, hch₂] at hexpire₂
      cases hexpire₁
      cases hexpire₂
      exact h
    | some ch =>
      have hch₂ := hsame.symm.trans hch
      rw [State.expireChannel_present hch] at hexpire₁
      rw [State.expireChannel_present hch₂] at hexpire₂
      obtain ⟨ch', hexpired, rfl⟩ := Option.map_eq_some_iff.1 hexpire₁
      rw [← h.tables, hexpired] at hexpire₂
      cases hexpire₂
      exact h.replace_both hch hch₂ (Channel.wiring_expired hexpired) _ _ fun key hkey => hkey

theorem State.get_recordResult (e : State F) (id : ChannelId)
    (r : Except EngineError (EngineValue F)) :
    (e.recordResult id r).1.polls.get id = (e.polls.get id).map fun item => match r with
      | .error _ => { item with consecutiveFailCount :=
          if consecutiveFailThreshold ≤ item.consecutiveFailCount + 1 then 0
          else item.consecutiveFailCount + 1 }
      | .ok value =>
        ⟨value, if !item.lastValue.valuesEqual value then 0 else item.unchangedCount + 1, 0⟩ := by
  unfold State.recordResult
  cases r with
  | error err =>
    dsimp only
    rw [Table.get_modify, if_pos rfl]
  | ok value =>
    cases hitem : e.polls.get id with
    | none => exact hitem
    | some item => exact Table.get_insert_self _ _ _

theorem Agree.recordResult (h : Agree D w e₁ e₂) (hr : id ∉ D → r₁ = r₂) :
    Agree D w (e₁.recordResult id r₁).1 (e₂.recordResult id r₂).1 := by
  obtain ⟨hc₁, ht₁, -, -, hb₁, hp₁⟩ := State.recordResult_frame e₁ id r₁
  obtain ⟨hc₂, ht₂, -, -, hb₂, hp₂⟩ := State.recordResult_frame e₂ id r₂
  refine ⟨?_, ?_, ?_, fun a ha => ?_, fun a ha => ?_, fun a ha source device address hw => ?_⟩
  · rw [ht₁, ht₂, h.tables]
  · rw [← h.left]
    exact congrArg (fun c : Table ChannelId (Channel F) => fun a => (c.get a).map Channel.wiring) hc₁
  · rw [← h.right]
    exact congrArg (fun c : Table ChannelId (Channel F) => fun a => (c.get a).map Channel.wiring) hc₂
  · rw [hc₁, hc₂, h.channel a ha]
  · by_cases hid : a = id
    · subst hid
      rw [State.get_recordResult, State.get_recordResult, hr ha, h.poll a ha]
    · rw [hp₁ a hid, hp₂ a hid, h.poll a ha]
  · rw [hb₁, hb₂, h.backoff a ha source device address hw]

end Turns

section Cycle

variable {D : Set ChannelId} {w : Wiring} {hal : Hal F} {e₁ e₂ e₁' e₂' : State F}
  {clock expireClock readClock : ChannelId → Instant} {cache₁ cache₂ : I2cReadCache F}
  {ids channelOrder polledIds : List ChannelId} {n₁ n₂ : List (Notification F)}

theorem Agree.expireTimers (h : Agree D w e₁ e₂) (hclosed : w.Closed D)
    (hexpire₁ : e₁.expirePriorityTimers hal clock ids = some e₁')
    (hexpire₂ : e₂.expirePriorityTimers hal clock ids = some e₂') : Agree D w e₁' e₂' := by
  unfold State.expirePriorityTimers at hexpire₁ hexpire₂
  induction ids generalizing e₁ e₂ with
  | nil =>
    cases hexpire₁
    cases hexpire₂
    exact h
  | cons id ids ih =>
    rw [List.foldlM_cons] at hexpire₁ hexpire₂
    obtain ⟨e₁'', hhead₁, htail₁⟩ := Option.bind_eq_some_iff.1 hexpire₁
    obtain ⟨e₂'', hhead₂, htail₂⟩ := Option.bind_eq_some_iff.1 hexpire₂
    exact ih (h.expire_both hclosed hhead₁ hhead₂) htail₁ htail₂

theorem Agree.pollLoop (h : Agree D w e₁ e₂) (hclosed : w.Closed D)
    (hcache₁ : State.CacheAgrees hal cache₁) (hcache₂ : State.CacheAgrees hal cache₂)
    (hloop₁ : e₁.pollLoop hal clock cache₁ ids = some (e₁', n₁))
    (hloop₂ : e₂.pollLoop hal clock cache₂ ids = some (e₂', n₂)) : Agree D w e₁' e₂' := by
  induction ids generalizing e₁ e₂ n₁ n₂ with
  | nil =>
    cases hloop₁
    cases hloop₂
    exact h
  | cons id ids ih =>
    obtain ⟨a₁, r₁, rest₁, hread₁, htail₁⟩ := pollLoop_cons hcache₁ hloop₁
    obtain ⟨a₂, r₂, rest₂, hread₂, htail₂⟩ := pollLoop_cons hcache₂ hloop₂
    obtain ⟨hagree, hr⟩ := h.read_both hclosed hread₁ hread₂
    exact ih (hagree.recordResult hr) htail₁ htail₂

theorem Agree.pollUpdate (h : Agree D w e₁ e₂) (hclosed : w.Closed D)
    (hpoll₁ : e₁.pollUpdate hal expireClock readClock channelOrder polledIds = some (e₁', n₁))
    (hpoll₂ : e₂.pollUpdate hal expireClock readClock channelOrder polledIds = some (e₂', n₂)) :
    Agree D w e₁' e₂' := by
  unfold State.pollUpdate at hpoll₁ hpoll₂
  cases hexpire₁ : e₁.expirePriorityTimers hal expireClock channelOrder with
  | none => simp [hexpire₁] at hpoll₁
  | some a₁ =>
    cases hexpire₂ : e₂.expirePriorityTimers hal expireClock channelOrder with
    | none => simp [hexpire₂] at hpoll₂
    | some a₂ =>
      rw [hexpire₁] at hpoll₁
      rw [hexpire₂] at hpoll₂
      exact (h.expireTimers hclosed hexpire₁ hexpire₂).pollLoop hclosed
        (State.preReadI2cChannels_agrees hal a₁ polledIds)
        (State.preReadI2cChannels_agrees hal a₂ polledIds) hpoll₁ hpoll₂

end Cycle

end Sandstar.Engine
