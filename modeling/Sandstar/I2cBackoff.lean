import Sandstar.PollSchedule
import Sandstar.Runs

set_option autoImplicit false

/-!
# The back-off of failed I2C sensors

Every operation of the engine with the hardware calls it makes, in the order it
makes them. Over any run of operations, each with its own answers of the
hardware, the cooldown of a sensor climbs by doubling up to the maximum and falls
back only with a successful re-initialisation, and a channel that waits for its
cooldown is not read.
-/
namespace Sandstar.Engine

variable {F : Type}

section Calls

inductive HalCall
  | readAnalog (device address : UInt32)
  | readDigital (address : UInt32)
  | readI2c (device address : UInt32) (label : String)
  | readPwm (device address : UInt32)
  | readUart (device : UInt32) (label : String)
  | reinitI2cSensor (device address : UInt32) (label : String)
deriving DecidableEq, Repr

def HalCall.isRead : HalCall → Bool
  | .reinitI2cSensor _ _ _ => false
  | _ => true

def HalCall.SameAnswer (hal hal' : Hal F) : HalCall → Prop
  | .readAnalog device address => hal.readAnalog device address = hal'.readAnalog device address
  | .readDigital address => hal.readDigital address = hal'.readDigital address
  | .readI2c device address label =>
    hal.readI2c device address label = hal'.readI2c device address label
  | .readPwm device address => hal.readPwm device address = hal'.readPwm device address
  | .readUart device label => hal.readUart device label = hal'.readUart device label
  | .reinitI2cSensor device address label =>
    hal.reinitI2cSensor device address label = hal'.reinitI2cSensor device address label

def Channel.readCalls (cache : I2cReadCache F) (ch : Channel F) : List HalCall :=
  match ch.channelType with
  | .analog => [.readAnalog ch.device ch.address]
  | .digital | .triac => [.readDigital ch.address]
  | .pwm => if ch.pwmDisabled then [] else [.readPwm ch.device ch.address]
  | .i2c => match cache.get (ch.device, ch.address, ch.label) with
    | some _ => []
    | none => [.readI2c ch.device ch.address ch.label]
  | .uart => [.readUart ch.device ch.label]
  | .virtualAnalog | .virtualDigital => []

def State.recoveryCalls (e : State F) (ch : Channel F) : List HalCall :=
  if !ch.failed then []
  else if ch.retryCounter < e.cooldown ch then []
  else if ch.channelType = .i2c then [.reinitI2cSensor ch.device ch.address ch.label]
  else []

def State.preReadCalls (e : State F) (cache : I2cReadCache F) (id : ChannelId) : List HalCall :=
  match e.channels.get id with
  | none => []
  | some ch =>
    if ch.channelType = .i2c ∧ ch.enabled ∧ ¬ ch.failed then
      match cache.get (ch.device, ch.address, ch.label) with
      | some _ => []
      | none => [.readI2c ch.device ch.address ch.label]
    else []

variable [FloatOps F]

def State.channelReadCalls (hal : Hal F) (cache : I2cReadCache F) (e : State F) (id : ChannelId) :
    List HalCall :=
  match e.channels.get id with
  | none => []
  | some ch =>
    if !ch.enabled then []
    else e.recoveryCalls ch ++ match e.tryI2cRecovery hal id ch with
      | (_, some _) => []
      | (e, none) => match e.channels.get id with
        | none => []
        | some ch => ch.readCalls cache

end Calls

section Operations

variable [FloatOps F]

/-- One operation of the engine, with the answers the hardware gives during it. -/
inductive EngineOp (F : Type)
  | read (hal : Hal F) (now : Instant) (id : ChannelId)
  | preRead (hal : Hal F) (cache : I2cReadCache F) (id : ChannelId)
  | poll (hal : Hal F) (clock : ChannelId → Instant) (cache : I2cReadCache F) (id : ChannelId)
  | write (hal : Hal F) (id : ChannelId) (value : EngineValue F)
  | expire (hal : Hal F) (now : Instant) (id : ChannelId)
  /-- A change from outside of all but the back-off table, which is private to the reads:
      a new configuration, a priority write, another subscriber. -/
  | configure (channels : Table ChannelId (Channel F)) (tables : TableStore F)
      (polls : Table ChannelId (PollItem F)) (watches : List WatchItem) (notifies : List UInt64)

/-- The state an operation leaves; `none` after a panic. -/
def engineStep (t : Option (State F)) (op : EngineOp F) : Option (State F) :=
  match t with
  | none => none
  | some e => match op with
    | .read hal now id => (e.channelRead hal now id).map Prod.fst
    | .preRead _ _ _ => some e
    | .poll hal clock cache id => (e.pollChannel hal clock cache id).map Prod.fst
    | .write hal id value => (e.channelWrite hal id value).map Prod.fst
    | .expire hal now id => e.expireChannel hal now id
    | .configure channels tables polls watches notifies =>
      some ⟨channels, tables, polls, watches, notifies, e.i2cBackoff⟩

/-- The read and re-initialisation calls of an operation, each with the channel it is made for. -/
def EngineOp.calls (e : State F) : EngineOp F → List (ChannelId × HalCall)
  | .read hal _ id => (e.channelReadCalls hal Table.empty id).map (Prod.mk id)
  | .preRead _ cache id => (e.preReadCalls cache id).map (Prod.mk id)
  | .poll hal _ cache id => (e.channelReadCalls hal cache id).map (Prod.mk id)
  | .write _ _ _ | .expire _ _ _ | .configure _ _ _ _ _ => []

def EngineOp.Reinitialises (e : State F) (key : UInt32 × UInt32) (op : EngineOp F) : Prop :=
  ∃ id label, (id, HalCall.reinitI2cSensor key.1 key.2 label) ∈ op.calls e ∧
    match op with
    | .read hal _ _ | .poll hal _ _ _ => ∃ u, hal.reinitI2cSensor key.1 key.2 label = .ok u
    | _ => False

end Operations

section Cooldowns

def IsDoublingStep (cooldown : UInt32) : Prop :=
  ∃ k : ℕ, cooldown.toNat = min (retryCooldownBase.toNat * 2 ^ k) retryCooldownMax.toNat

theorem isDoublingStep_base : IsDoublingStep retryCooldownBase := ⟨0, by decide⟩

theorem toNat_min_double {c : UInt32} (h : c.toNat ≤ retryCooldownMax.toNat) :
    (min (c * 2) retryCooldownMax).toNat = min (c.toNat * 2) retryCooldownMax.toNat := by
  have hmax : retryCooldownMax.toNat = 300 := rfl
  have hmul : (c * 2).toNat = c.toNat * 2 := by
    rw [UInt32.toNat_mul]
    apply Nat.mod_eq_of_lt
    change c.toNat * 2 < 2 ^ 32
    omega
  have hle : c * 2 ≤ retryCooldownMax ↔ c.toNat * 2 ≤ retryCooldownMax.toNat := by
    rw [UInt32.le_iff_toNat_le, hmul]
  have hmin : min (c * 2) retryCooldownMax =
      if c * 2 ≤ retryCooldownMax then c * 2 else retryCooldownMax := rfl
  rw [hmin]
  split_ifs with hcap
  · rw [hmul, min_eq_left (hle.1 hcap)]
  · rw [min_eq_right]
    have := mt hle.2 hcap
    omega

theorem IsDoublingStep.double {c : UInt32} (h : IsDoublingStep c) :
    IsDoublingStep (min (c * 2) retryCooldownMax) := by
  obtain ⟨k, hk⟩ := h
  have hle : c.toNat ≤ retryCooldownMax.toNat := by
    rw [hk]
    exact min_le_right _ _
  refine ⟨k + 1, ?_⟩
  rw [toNat_min_double hle, hk, pow_succ, ← mul_assoc]
  generalize retryCooldownBase.toNat * 2 ^ k = n
  omega

inductive CooldownStep (e : State F) (key : UInt32 × UInt32) (reinit : Prop) (e' : State F) : Prop
  | kept (h : e'.sensorCooldown key = e.sensorCooldown key)
  | doubled (h : e'.sensorCooldown key = min (e.sensorCooldown key * 2) retryCooldownMax)
  | reset (hreinit : reinit) (h : e'.sensorCooldown key = retryCooldownBase)

theorem CooldownStep.doubling {e e' : State F} {key : UInt32 × UInt32} {reinit : Prop}
    (h : CooldownStep e key reinit e') (hc : IsDoublingStep (e.sensorCooldown key)) :
    IsDoublingStep (e'.sensorCooldown key) := by
  cases h with
  | kept h =>
    rw [h]
    exact hc
  | doubled h =>
    rw [h]
    exact hc.double
  | reset _ h =>
    rw [h]
    exact isDoublingStep_base

theorem toNat_sensorCooldown_le {c : UInt32} (h : IsDoublingStep c) :
    retryCooldownBase.toNat ≤ c.toNat ∧ c.toNat ≤ retryCooldownMax.toNat := by
  obtain ⟨k, hk⟩ := h
  have hbase : retryCooldownBase.toNat = 30 := rfl
  have hmax : retryCooldownMax.toNat = 300 := rfl
  have hpow : 1 ≤ 2 ^ k := Nat.one_le_two_pow
  rw [hk]
  constructor
  · rw [hbase, hmax]
    omega
  · exact min_le_right _ _

theorem CooldownStep.mono {e e' : State F} {key : UInt32 × UInt32} {p q : Prop}
    (h : CooldownStep e key p e') (hpq : p → q) : CooldownStep e key q e' := by
  cases h with
  | kept h => exact .kept h
  | doubled h => exact .doubled h
  | reset hp h => exact .reset (hpq hp) h

/-- Doubling leaves the base behind, so only a reset leads back to it. -/
theorem CooldownStep.returns {e e' : State F} {key : UInt32 × UInt32} {reinit : Prop}
    (h : CooldownStep e key reinit e') (hc : IsDoublingStep (e.sensorCooldown key))
    (haway : e.sensorCooldown key ≠ retryCooldownBase)
    (hback : e'.sensorCooldown key = retryCooldownBase) : reinit := by
  cases h with
  | kept h => exact absurd (h.symm.trans hback) haway
  | doubled h =>
    obtain ⟨hlow, hhigh⟩ := toNat_sensorCooldown_le hc
    have hbase : retryCooldownBase.toNat = 30 := rfl
    have hmax : retryCooldownMax.toNat = 300 := rfl
    have heq := congrArg UInt32.toNat (h.symm.trans hback)
    rw [toNat_min_double hhigh] at heq
    omega
  | reset hreinit _ => exact hreinit

end Cooldowns

section Steps

/-- The hardware as a poll cycle sees it: cached I2C answers first. -/
def Hal.through (hal : Hal F) (cache : I2cReadCache F) : Hal F :=
  { hal with
    readI2c := fun device address label => match cache.get (device, address, label) with
      | some r => r
      | none => hal.readI2c device address label }

variable [FloatOps F]

theorem Channel.readCached_through (hal : Hal F) (now : Instant) (cache : I2cReadCache F)
    (id : ChannelId) (tables : TableStore F) (sourceCur : F) (ch : Channel F) :
    Channel.readCached hal now cache id tables sourceCur ch =
      Channel.read (hal.through cache) now id tables sourceCur ch := by
  unfold Channel.readCached Channel.read
  cases htype : ch.channelType with
  | i2c =>
    unfold Hal.through
    dsimp only
    cases cache.get (ch.device, ch.address, ch.label) with
    | none => rfl
    | some r =>
      cases r with
      | ok raw => rfl
      | error err => rfl
  | _ => rfl

theorem State.channelReadCached_through (hal : Hal F) (now : Instant) (cache : I2cReadCache F)
    (e : State F) (id : ChannelId) :
    e.channelReadCached hal now cache id = e.channelRead (hal.through cache) now id := by
  unfold State.channelReadCached State.channelRead
  simp only [Channel.readCached_through]
  rfl

theorem State.channelRead_sensorCooldown {hal : Hal F} {now : Instant} {e e' : State F}
    {id : ChannelId} {result : Except EngineError (EngineValue F)}
    (h : e.channelRead hal now id = some (e', result)) (key : UInt32 × UInt32) :
    e'.sensorCooldown key = e.sensorCooldown key ∨
      ∃ ch, e.channels.get id = some ch ∧
        e'.sensorCooldown key = ch.retried hal key (e.sensorCooldown key) := by
  cases hch : e.channels.get id with
  | none =>
    unfold State.channelRead at h
    rw [hch] at h
    cases h
    exact Or.inl rfl
  | some ch =>
    rw [State.channelRead_present hch] at h
    cases hread : Channel.attempt hal now id e.tables (e.cooldown ch) (e.sourceCur ch) ch with
    | none =>
      rw [hread] at h
      cases h
    | some p =>
      rw [hread] at h
      cases h
      exact Or.inr ⟨ch, rfl, State.sensorCooldown_backoffAfter hal e ch _ key⟩

theorem State.reinit_mem_channelReadCalls {hal : Hal F} {cache : I2cReadCache F} {e : State F}
    {id : ChannelId} {ch : Channel F} (hch : e.channels.get id = some ch) (henabled : ch.enabled)
    (hfailed : ch.failed) (htype : ch.channelType = .i2c)
    (hdue : ¬ ch.retryCounter < e.cooldown ch) :
    HalCall.reinitI2cSensor ch.device ch.address ch.label ∈ e.channelReadCalls hal cache id := by
  unfold State.channelReadCalls State.recoveryCalls
  simp [hch, henabled, hfailed, hdue, htype]

theorem State.cooldownStep_retried (hal : Hal F) (cache : I2cReadCache F) {e e' : State F}
    {id : ChannelId} {ch : Channel F} {key : UInt32 × UInt32}
    (hch : e.channels.get id = some ch)
    (h : e'.sensorCooldown key = ch.retried hal key (e.sensorCooldown key)) :
    CooldownStep e key (∃ label,
      HalCall.reinitI2cSensor key.1 key.2 label ∈ e.channelReadCalls hal cache id ∧
        ∃ u, hal.reinitI2cSensor key.1 key.2 label = .ok u) e' := by
  unfold Channel.retried at h
  split_ifs at h with hretry
  · obtain ⟨henabled, hfailed, htype, hkey, hdue⟩ := hretry
    subst key
    have hcool : e.cooldown ch = e.sensorCooldown (ch.device, ch.address) := by
      rw [State.cooldown_eq, if_pos htype]
    rw [← hcool] at hdue
    cases hre : hal.reinitI2cSensor ch.device ch.address ch.label with
    | error err =>
      rw [hre] at h
      exact .doubled h
    | ok u =>
      rw [hre] at h
      exact .reset ⟨ch.label,
        State.reinit_mem_channelReadCalls hch henabled hfailed htype hdue, u, hre⟩ h
  · exact .kept h

theorem engineStep_cooldownStep {e e' : State F} {op : EngineOp F}
    (h : engineStep (some e) op = some e') (key : UInt32 × UInt32) :
    CooldownStep e key (op.Reinitialises e key) e' := by
  cases op with
  | read hal now id =>
    obtain ⟨r, hr, rfl⟩ := Option.map_eq_some_iff.1 h
    rcases State.channelRead_sensorCooldown hr key with hkept | ⟨ch, hch, hretried⟩
    · exact .kept hkept
    · exact (State.cooldownStep_retried hal Table.empty hch hretried).mono
        fun ⟨label, hmem, hok⟩ => ⟨id, label, List.mem_map.2 ⟨_, hmem, rfl⟩, hok⟩
  | preRead hal cache id =>
    cases h
    exact .kept rfl
  | poll hal clock cache id =>
    obtain ⟨r, hr, rfl⟩ := Option.map_eq_some_iff.1 h
    unfold State.pollChannel at hr
    rw [State.channelReadCached_through] at hr
    cases hread : e.channelRead (hal.through cache) (clock id) id with
    | none =>
      rw [hread] at hr
      cases hr
    | some p =>
      rw [hread] at hr
      cases hr
      have hrecord : ∀ k, (p.1.recordResult id p.2).1.sensorCooldown k = p.1.sensorCooldown k := by
        intro k
        unfold State.sensorCooldown
        rw [(State.recordResult_frame p.1 id p.2).2.2.2.2.1]
      rcases State.channelRead_sensorCooldown hread key with hkept | ⟨ch, hch, hretried⟩
      · exact .kept ((hrecord key).trans hkept)
      · exact (State.cooldownStep_retried hal cache hch
          ((hrecord key).trans hretried)).mono
            fun ⟨label, hmem, hok⟩ => ⟨id, label, List.mem_map.2 ⟨_, hmem, rfl⟩, hok⟩
  | write hal id value =>
    obtain ⟨r, hr, rfl⟩ := Option.map_eq_some_iff.1 h
    obtain ⟨channels, hframe⟩ := State.channelWrite_frame hr
    rw [hframe]
    exact .kept rfl
  | expire hal now id =>
    obtain ⟨channels, hframe⟩ := State.expireChannel_frame h
    rw [hframe]
    exact .kept rfl
  | configure channels tables polls watches notifies =>
    cases h
    exact .kept rfl

theorem State.channelReadCalls_cooling {hal : Hal F} {cache : I2cReadCache F} {e : State F}
    {id : ChannelId} {ch : Channel F} (hch : e.channels.get id = some ch) (hfailed : ch.failed)
    (hcool : ch.retryCounter < e.cooldown ch) : e.channelReadCalls hal cache id = [] := by
  unfold State.channelReadCalls State.recoveryCalls State.tryI2cRecovery
  simp [hch, hfailed, hcool]

theorem EngineOp.calls_cooling {e : State F} {id : ChannelId} {ch : Channel F}
    (hch : e.channels.get id = some ch) (hfailed : ch.failed)
    (hcool : ch.retryCounter < e.cooldown ch) (op : EngineOp F) (call : HalCall) :
    (id, call) ∉ op.calls e := by
  intro hmem
  cases op with
  | read hal now other =>
    obtain ⟨c, hc, heq⟩ := List.mem_map.1 hmem
    cases heq
    rw [State.channelReadCalls_cooling hch hfailed hcool] at hc
    cases hc
  | preRead hal cache other =>
    obtain ⟨c, hc, heq⟩ := List.mem_map.1 hmem
    cases heq
    unfold State.preReadCalls at hc
    simp [hch, hfailed] at hc
  | poll hal clock cache other =>
    obtain ⟨c, hc, heq⟩ := List.mem_map.1 hmem
    cases heq
    rw [State.channelReadCalls_cooling hch hfailed hcool] at hc
    cases hc
  | write hal other value => cases hmem
  | expire hal now other => cases hmem
  | configure channels tables polls watches notifies => cases hmem
end Steps

section Completeness

variable [FloatOps F]

theorem Channel.readCached_congr {hal hal' : Hal F} {cache : I2cReadCache F} {ch : Channel F}
    (h : ∀ call ∈ ch.readCalls cache, call.SameAnswer hal hal') (now : Instant)
    (id : ChannelId) (tables : TableStore F) (sourceCur : F) :
    Channel.readCached hal now cache id tables sourceCur ch =
      Channel.readCached hal' now cache id tables sourceCur ch := by
  unfold Channel.readCalls at h
  unfold Channel.readCached
  cases htype : ch.channelType with
  | analog =>
    simp only [htype, List.mem_singleton, forall_eq] at h
    change hal.readAnalog _ _ = hal'.readAnalog _ _ at h
    simp only [h]
  | digital =>
    simp only [htype, List.mem_singleton, forall_eq] at h
    change hal.readDigital _ = hal'.readDigital _ at h
    simp only [Channel.readDigitalAsFloat, h]
  | triac =>
    simp only [htype, List.mem_singleton, forall_eq] at h
    change hal.readDigital _ = hal'.readDigital _ at h
    simp only [Channel.readDigitalAsFloat, h]
  | pwm =>
    cases hoff : ch.pwmDisabled with
    | true => rfl
    | false =>
      simp only [htype, hoff, Bool.false_eq_true, if_false, List.mem_singleton, forall_eq] at h
      change hal.readPwm _ _ = hal'.readPwm _ _ at h
      simp only [h]
  | i2c =>
    cases hcache : cache.get (ch.device, ch.address, ch.label) with
    | some r =>
      cases r with
      | ok raw => rfl
      | error err => rfl
    | none =>
      simp only [htype, hcache, List.mem_singleton, forall_eq] at h
      change hal.readI2c _ _ _ = hal'.readI2c _ _ _ at h
      simp only [h]
  | uart =>
    simp only [htype, List.mem_singleton, forall_eq] at h
    change hal.readUart _ _ = hal'.readUart _ _ at h
    simp only [h]
  | virtualAnalog => rfl
  | virtualDigital => rfl

theorem State.tryI2cRecovery_congr {hal hal' : Hal F} {e : State F} {ch : Channel F}
    (h : ∀ call ∈ e.recoveryCalls ch, call.SameAnswer hal hal') (id : ChannelId) :
    e.tryI2cRecovery hal id ch = e.tryI2cRecovery hal' id ch := by
  unfold State.recoveryCalls at h
  unfold State.tryI2cRecovery
  split_ifs at h ⊢ with hfailed hcool htype
  · rfl
  · rfl
  · rw [List.forall_mem_singleton] at h
    change hal.reinitI2cSensor _ _ _ = hal'.reinitI2cSensor _ _ _ at h
    rw [h]
  · rfl

/-- The listed calls are all a read makes: hardware that answers them alike is read alike. -/
theorem State.channelReadCached_congr {hal hal' : Hal F} {cache : I2cReadCache F} {e : State F}
    {id : ChannelId} (h : ∀ call ∈ e.channelReadCalls hal cache id, call.SameAnswer hal hal')
    (now : Instant) :
    e.channelReadCached hal now cache id = e.channelReadCached hal' now cache id := by
  unfold State.channelReadCalls at h
  unfold State.channelReadCached
  cases hch : e.channels.get id with
  | none => rfl
  | some ch =>
    rw [hch] at h
    dsimp only at h ⊢
    split_ifs at h ⊢ with henabled
    · rfl
    · have hrecovery := State.tryI2cRecovery_congr
        (fun call hc => h call (List.mem_append_left _ hc)) id
      rw [← hrecovery]
      rcases hr : e.tryI2cRecovery hal id ch with ⟨e₁, _ | down⟩
      · rw [hr] at h
        dsimp only at h ⊢
        cases hch₁ : e₁.channels.get id with
        | none => rfl
        | some ch₁ =>
          rw [hch₁] at h
          dsimp only at h ⊢
          rw [Channel.readCached_congr fun call hc => h call (List.mem_append_right _ hc)]
      · rfl

theorem State.channelRead_congr {hal hal' : Hal F} {e : State F} {id : ChannelId}
    (h : ∀ call ∈ e.channelReadCalls hal Table.empty id, call.SameAnswer hal hal')
    (now : Instant) : e.channelRead hal now id = e.channelRead hal' now id := by
  have hplain : ∀ hal : Hal F, e.channelRead hal now id =
      e.channelReadCached hal now Table.empty id := by
    intro hal
    rw [State.channelReadCached_through]
    rfl
  rw [hplain hal, hplain hal']
  exact State.channelReadCached_congr h now

end Completeness

section Cycles
open Runs

variable [FloatOps F]

def preReadOps (hal : Hal F) (e : State F) : I2cReadCache F → List ChannelId → List (EngineOp F)
  | _, [] => []
  | cache, id :: ids => .preRead hal cache id :: preReadOps hal e (e.preRead hal cache id) ids

def pollOps (hal : Hal F) (expireClock readClock : ChannelId → Instant) (e : State F)
    (channelOrder polledIds : List ChannelId) : List (EngineOp F) :=
  channelOrder.map (fun id => .expire hal (expireClock id) id) ++
    match e.expirePriorityTimers hal expireClock channelOrder with
    | none => []
    | some e => preReadOps hal e Table.empty polledIds ++
        polledIds.map (.poll hal readClock (e.preReadI2cChannels hal polledIds))

theorem run_engineStep_none (ops : List (EngineOp F)) : run engineStep none ops = none := by
  induction ops with
  | nil => rfl
  | cons op ops ih => exact ih

theorem run_expire (hal : Hal F) (clock : ChannelId → Instant) (e : State F)
    (ids : List ChannelId) :
    run engineStep (some e) (ids.map fun id => .expire hal (clock id) id) =
      e.expirePriorityTimers hal clock ids := by
  induction ids generalizing e with
  | nil => rfl
  | cons id ids ih =>
    unfold State.expirePriorityTimers
    rw [List.map_cons, run_cons, List.foldlM_cons]
    change run engineStep (e.expireChannel hal (clock id) id) _ = _
    cases e.expireChannel hal (clock id) id with
    | none => exact run_engineStep_none _
    | some e₁ => exact ih e₁

theorem run_preReadOps (hal : Hal F) (e : State F) (cache : I2cReadCache F)
    (ids : List ChannelId) : run engineStep (some e) (preReadOps hal e cache ids) = some e := by
  induction ids generalizing cache with
  | nil => rfl
  | cons id ids ih => exact ih _

theorem run_poll (hal : Hal F) (clock : ChannelId → Instant) (cache : I2cReadCache F) (e : State F)
    (ids : List ChannelId) :
    run engineStep (some e) (ids.map (.poll hal clock cache)) =
      (e.pollLoop hal clock cache ids).map Prod.fst := by
  induction ids generalizing e with
  | nil => rfl
  | cons id ids ih =>
    unfold State.pollLoop
    rw [List.map_cons, run_cons]
    change run engineStep ((e.pollChannel hal clock cache id).map Prod.fst) _ = _
    cases e.pollChannel hal clock cache id with
    | none => exact run_engineStep_none _
    | some p =>
      dsimp only [Option.map_some]
      rw [ih p.1]
      cases p.1.pollLoop hal clock cache ids with
      | none => rfl
      | some q => rfl

theorem pollUpdate_eq_run (hal : Hal F) (expireClock readClock : ChannelId → Instant)
    (e : State F) (channelOrder polledIds : List ChannelId) :
    (e.pollUpdate hal expireClock readClock channelOrder polledIds).map Prod.fst =
      run engineStep (some e) (pollOps hal expireClock readClock e channelOrder polledIds) := by
  unfold State.pollUpdate pollOps
  rw [run_append, run_expire]
  cases e.expirePriorityTimers hal expireClock channelOrder with
  | none => rfl
  | some e₁ =>
    dsimp only
    rw [run_append, run_preReadOps, run_poll]

end Cycles

section Runs
open Runs

/-- An engine whose sensors have not failed yet. -/
def State.fresh (channels : Table ChannelId (Channel F)) (tables : TableStore F)
    (polls : Table ChannelId (PollItem F)) (watches : List WatchItem) (notifies : List UInt64) :
    State F :=
  ⟨channels, tables, polls, watches, notifies, Table.empty⟩

/-- Every tracked sensor waits for one of the doubling steps. -/
def State.CooldownsDouble (e : State F) : Prop :=
  ∀ key b, e.i2cBackoff.get key = some b → IsDoublingStep b.cooldown

def Backed (t : Option (State F)) : Prop :=
  ∀ e, t = some e → ∀ key, IsDoublingStep (e.sensorCooldown key)

theorem backed_fresh (channels : Table ChannelId (Channel F)) (tables : TableStore F)
    (polls : Table ChannelId (PollItem F)) (watches : List WatchItem) (notifies : List UInt64) :
    Backed (some (State.fresh channels tables polls watches notifies)) := by
  intro e he key
  cases he
  exact isDoublingStep_base

theorem Backed.cooldownsDouble {e : State F} (h : Backed (some e)) : e.CooldownsDouble := by
  intro key b hb
  have hkey := h e rfl key
  unfold State.sensorCooldown at hkey
  rw [hb] at hkey
  exact hkey

variable [FloatOps F]

/-- A cooldown that has grown is the base again only by a successful re-initialisation. -/
def ResetByReinit (e : State F) (op : EngineOp F) : Prop :=
  ∀ e', engineStep (some e) op = some e' → ∀ key, e.sensorCooldown key ≠ retryCooldownBase →
    e'.sensorCooldown key = retryCooldownBase → op.Reinitialises e key

/-- No hardware read is made for a failed channel that waits for its cooldown. -/
def SparesCooling (e : State F) (op : EngineOp F) : Prop :=
  ∀ id ch, e.channels.get id = some ch → ch.failed → ch.retryCounter < e.cooldown ch →
    ∀ call, (id, call) ∈ op.calls e → call.isRead = false

theorem engineStep_backed {t : Option (State F)} (h : Backed t) (op : EngineOp F) :
    Backed (engineStep t op) := by
  intro e' he' key
  cases t with
  | none => cases he'
  | some e => exact (engineStep_cooldownStep he' key).doubling (h e rfl key)

/-- In every run from an engine without failed sensors, each tracked sensor waits
    for one of the doubling steps, a cooldown falls back to the base only with a
    successful re-initialisation, and a channel that is waiting is not read. -/
theorem i2cBackoff_doubles_resets_spares (channels : Table ChannelId (Channel F))
    (tables : TableStore F) (polls : Table ChannelId (PollItem F)) (watches : List WatchItem)
    (notifies : List UInt64) (ops : List (EngineOp F)) :
    (∀ t ∈ states engineStep (some (State.fresh channels tables polls watches notifies)) ops,
      ∀ e, t = some e → e.CooldownsDouble ∧ ∀ op, ResetByReinit e op ∧ SparesCooling e op) := by
  intro t ht e he
  have hbacked : Backed t := states_always engineStep (I := Backed)
    (fun _ op h => engineStep_backed h op) (backed_fresh channels tables polls watches notifies) ops t ht
  subst he
  refine ⟨hbacked.cooldownsDouble, fun op => ⟨?_, ?_⟩⟩
  · intro e' hstep key haway hback
    exact (engineStep_cooldownStep hstep key).returns (hbacked e rfl key) haway hback
  · intro id ch hch hfailed hcool call hmem
    exact absurd hmem (EngineOp.calls_cooling hch hfailed hcool op call)

def deafSensor : Channel ℚ :=
  { Channel.new 4 .i2c .input 1 64 false ValueConv.default "flow" with
    failed := true
    retryCounter := 30 }

def deafHal : Hal ℚ :=
  { sampleHal with
    readI2c := fun device _ _ => .error (.busError device "no answer")
    reinitI2cSensor := fun device _ _ => .error (.busError device "no answer") }

def deafRun : Option (State ℚ) :=
  run engineStep (some (State.fresh (Table.empty.insert 4 deafSensor) [] Table.empty [] []))
    [.read deafHal 0 4]

theorem deafRun_doubles :
    ∃ e, deafRun = some e ∧ e.sensorCooldown (1, 64) = 60 ∧ e.CooldownsDouble := by
  have hcooldown : (deafRun.map fun e => e.sensorCooldown (1, 64)) = some 60 := by decide +kernel
  obtain ⟨e, he, hsixty⟩ := Option.map_eq_some_iff.1 hcooldown
  have hall := i2cBackoff_doubles_resets_spares (Table.empty.insert 4 deafSensor) [] Table.empty
    [] [] [.read deafHal 0 4] deafRun (run_mem_states _ _ _) e he
  exact ⟨e, he, hsixty, hall.1⟩

end Runs

end Sandstar.Engine
