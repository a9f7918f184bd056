import Sandstar.EngineChannels

set_option autoImplicit false

/-!
# The order of a poll cycle

A read touches its own channel and the back-off of its sensor, and looks at no
more than the source of a virtual channel. So the order in which a cycle visits
the polled channels shows only through those two, and where neither moves during
the cycle every order gives the same values and reports the same changes.
-/
namespace Sandstar.Engine

variable {F : Type}

section Locality

inductive Retry
  | cooling
  | failedAgain
  | read

def Channel.retry (hal : Hal F) (cooldown : UInt32) (ch : Channel F) : Retry :=
  if !ch.failed then .read
  else if ch.retryCounter < cooldown then .cooling
  else if ch.channelType = .i2c then
    match hal.reinitI2cSensor ch.device ch.address ch.label with
    | .error _ => .failedAgain
    | .ok _ => .read
  else .read

def Channel.recovered (ch : Channel F) : Channel F :=
  if ch.failed then ch.recover else ch

def State.sensorCooldown (e : State F) (key : UInt32 × UInt32) : UInt32 :=
  match e.i2cBackoff.get key with
  | some b => b.cooldown
  | none => retryCooldownBase

def State.backoffAfter (hal : Hal F) (e : State F) (ch : Channel F) :
    Table (UInt32 × UInt32) I2cBackoffState :=
  if ch.enabled ∧ ch.failed ∧ ch.channelType = .i2c ∧ ¬ ch.retryCounter < e.cooldown ch then
    match hal.reinitI2cSensor ch.device ch.address ch.label with
    | .error _ =>
      e.i2cBackoff.insert (ch.device, ch.address)
        ((e.i2cBackoff.get (ch.device, ch.address)).getD I2cBackoffState.new).recordFailure
    | .ok _ => e.i2cBackoff.modify (ch.device, ch.address) I2cBackoffState.reset
  else e.i2cBackoff

theorem State.cooldown_eq (e : State F) (ch : Channel F) :
    e.cooldown ch =
      if ch.channelType = .i2c then e.sensorCooldown (ch.device, ch.address)
      else retryCooldownBase := rfl

variable [FloatOps F]

def Channel.attempt (hal : Hal F) (now : Instant) (id : ChannelId) (tables : TableStore F)
    (cooldown : UInt32) (sourceCur : F) (ch : Channel F) : Option (Channel F × EngineValue F) :=
  if !ch.enabled then some (ch, EngineValue.withStatus .disabled)
  else match ch.retry hal cooldown with
    | .cooling => some (ch.waitOn, EngineValue.withStatus .down)
    | .failedAgain => some (ch.waitAnew, EngineValue.withStatus .down)
    | .read => Channel.read hal now id tables sourceCur ch.recovered

theorem State.sourceCur_recovered {e : State F} {id : ChannelId} {ch : Channel F}
    (h : e.channels.get id = some ch) (b : Table (UInt32 × UInt32) I2cBackoffState) :
    State.sourceCur { e with channels := e.channels.insert id ch.recovered, i2cBackoff := b }
      ch.recovered = e.sourceCur ch := by
  have hvalue : ch.recovered.value = ch.value := by
    unfold Channel.recovered
    split_ifs <;> rfl
  have hin : ch.recovered.channelIn = ch.channelIn := by
    unfold Channel.recovered
    split_ifs <;> rfl
  unfold State.sourceCur
  rw [hin]
  cases ch.channelIn with
  | none => rfl
  | some src =>
    dsimp only
    rw [Table.get_insert]
    split_ifs with hsrc
    · rw [hsrc, h]
      dsimp only
      rw [hvalue]
    · rfl

/-- A read of a present channel replaces that channel and may move the back-off
    of its sensor; it does nothing else. -/
theorem State.channelRead_present {hal : Hal F} {now : Instant} {e : State F} {id : ChannelId}
    {ch : Channel F} (h : e.channels.get id = some ch) :
    e.channelRead hal now id =
      match Channel.attempt hal now id e.tables (e.cooldown ch) (e.sourceCur ch) ch with
      | none => none
      | some (ch', value) =>
        some ({ e with channels := e.channels.insert id ch', i2cBackoff := e.backoffAfter hal ch },
          .ok value) := by
  unfold State.channelRead Channel.attempt State.backoffAfter
  rw [h]
  dsimp only
  cases henabled : ch.enabled with
  | false => simp [Table.insert_present h]
  | true =>
    simp only [Bool.not_true, Bool.false_eq_true, if_false, true_and]
    unfold State.tryI2cRecovery Channel.retry
    cases hfailed : ch.failed with
    | false =>
      have hrec : ch.recovered = ch := by simp [Channel.recovered, hfailed]
      simp only [Bool.not_false, if_true, Bool.false_eq_true, false_and, if_false, h, hrec]
      rfl
    | true =>
      have hrec : ch.recovered = ch.recover := by
        simp [Channel.recovered, hfailed]
      simp only [Bool.not_true, Bool.false_eq_true, if_false, true_and]
      by_cases hcool : ch.retryCounter < e.cooldown ch
      · simp only [hcool, if_true, not_true_eq_false, and_false, if_false]
        rfl
      · simp only [hcool, if_false, not_false_eq_true, and_true]
        by_cases htype : ch.channelType = .i2c
        · simp only [htype, if_true]
          cases hre : hal.reinitI2cSensor ch.device ch.address ch.label with
          | error err => rfl
          | ok u =>
            simp only [State.setChannel, Table.get_insert_self, Table.insert_insert]
            rw [← hrec]
            cases hread : Channel.read hal now id e.tables (e.sourceCur ch) ch.recovered with
            | none => rw [State.sourceCur_recovered h, hread]
            | some p => rw [State.sourceCur_recovered h, hread]
        · simp only [htype, if_false, State.setChannel, Table.get_insert_self, Table.insert_insert]
          have hsrc := State.sourceCur_recovered h e.i2cBackoff
          rw [← hrec]
          cases hread : Channel.read hal now id e.tables (e.sourceCur ch) ch.recovered with
          | none => rw [hsrc, hread]
          | some p => rw [hsrc, hread]

end Locality

section Seen

variable [FloatOps F]

def Channel.CopiesSource (ch : Channel F) : Prop :=
  ch.enabled ∧ ch.channelType.isVirtual ∧ ¬ ch.hasWrittenValue ∧
    (ch.failed → ¬ ch.retryCounter < retryCooldownBase)

def Channel.Revivable (hal : Hal F) (ch : Channel F) : Prop :=
  ch.enabled ∧ ch.failed ∧ ch.channelType = .i2c ∧
    ∃ u, hal.reinitI2cSensor ch.device ch.address ch.label = .ok u

/-- What a read shows: the stored value and the returned one. -/
def seen (r : Option (Channel F × EngineValue F)) : Option (EngineValue F × EngineValue F) :=
  r.map fun p => (p.1.value, p.2)

theorem Channel.read_source {hal : Hal F} {now : Instant} {id : ChannelId} {tables : TableStore F}
    {ch : Channel F} {s₁ s₂ : F}
    (hs : ch.channelType.isVirtual → ¬ ch.hasWrittenValue → s₁ = s₂) :
    Channel.read hal now id tables s₁ ch = Channel.read hal now id tables s₂ ch := by
  unfold Channel.read
  by_cases hv : ch.channelType.isVirtual = true
  · by_cases hw : ch.hasWrittenValue = true
    · simp only [hv, hw, if_true]
    · rw [hs hv hw]
  · simp only [hv, Bool.false_eq_true, if_false]

/-- What a read shows depends on the cooldown only for a revivable channel, and
    on the source only for a channel that copies it. -/
theorem Channel.attempt_seen {hal : Hal F} {now : Instant} {id : ChannelId}
    {tables : TableStore F} {ch : Channel F} {c₁ c₂ : UInt32} {s₁ s₂ : F}
    (hbase : ch.channelType ≠ .i2c → c₁ = retryCooldownBase ∧ c₂ = retryCooldownBase)
    (hc : ch.Revivable hal → (ch.retryCounter < c₁ ↔ ch.retryCounter < c₂))
    (hs : ch.CopiesSource → s₁ = s₂) :
    seen (Channel.attempt hal now id tables c₁ s₁ ch) =
      seen (Channel.attempt hal now id tables c₂ s₂ ch) := by
  unfold Channel.attempt
  by_cases henabled : ch.enabled = true
  swap
  · simp only [henabled, Bool.not_false, if_true]
  simp only [henabled, Bool.not_true, Bool.false_eq_true, if_false]
  by_cases hfailed : ch.failed = true
  swap
  · have hretry : ∀ c, ch.retry hal c = .read := fun c => by simp [Channel.retry, hfailed]
    have hrec : ch.recovered = ch := by simp [Channel.recovered, hfailed]
    rw [hretry, hretry, hrec]
    dsimp only
    rw [Channel.read_source fun hv hw =>
      hs ⟨henabled, hv, hw, fun hf => absurd hf hfailed⟩]
  have hrec : ch.recovered = ch.recover := by simp [Channel.recovered, hfailed]
  by_cases htype : ch.channelType = .i2c
  · have hnotVirtual : ch.recovered.channelType.isVirtual = false := by
      rw [hrec]
      change ch.channelType.isVirtual = false
      rw [htype]
      rfl
    cases hre : hal.reinitI2cSensor ch.device ch.address ch.label with
    | error err =>
      -- waiting on and failing again look alike
      have hdown : ∀ c s, seen (match ch.retry hal c with
          | .cooling => some (ch.waitOn, EngineValue.withStatus .down)
          | .failedAgain => some (ch.waitAnew, EngineValue.withStatus .down)
          | .read => Channel.read hal now id tables s ch.recovered) =
          some (ch.value, EngineValue.withStatus .down) := by
        intro c s
        by_cases hcool : ch.retryCounter < c
        · have hretry : ch.retry hal c = .cooling := by simp [Channel.retry, hfailed, hcool]
          rw [hretry]
          rfl
        · have hretry : ch.retry hal c = .failedAgain := by
            simp [Channel.retry, hfailed, hcool, htype, hre]
          rw [hretry]
          rfl
      rw [hdown c₁ s₁, hdown c₂ s₂]
    | ok u =>
      have hretry : ch.retry hal c₁ = ch.retry hal c₂ := by
        simp only [Channel.retry, hc ⟨henabled, hfailed, htype, u, hre⟩]
      have hread : Channel.read hal now id tables s₁ ch.recovered =
          Channel.read hal now id tables s₂ ch.recovered := by
        apply Channel.read_source
        intro hv
        rw [hnotVirtual] at hv
        cases hv
      rw [hretry, hread]
  · obtain ⟨rfl, rfl⟩ := hbase htype
    by_cases hcool : ch.retryCounter < retryCooldownBase
    · have hretry : ch.retry hal retryCooldownBase = .cooling := by
        simp [Channel.retry, hfailed, hcool]
      rw [hretry]
    · have hread : Channel.read hal now id tables s₁ ch.recovered =
          Channel.read hal now id tables s₂ ch.recovered := by
        apply Channel.read_source
        intro hv hw
        rw [hrec] at hv hw
        exact hs ⟨henabled, hv, hw, fun _ => hcool⟩
      rw [hread]

end Seen

section Cycle

def Channel.retried (hal : Hal F) (key : UInt32 × UInt32) (cooldown : UInt32) (ch : Channel F) :
    UInt32 :=
  if ch.enabled ∧ ch.failed ∧ ch.channelType = .i2c ∧ (ch.device, ch.address) = key ∧
      ¬ ch.retryCounter < cooldown then
    match hal.reinitI2cSensor ch.device ch.address ch.label with
    | .error _ => min (cooldown * 2) retryCooldownMax
    | .ok _ => retryCooldownBase
  else cooldown

def State.retried (hal : Hal F) (e : State F) (key : UInt32 × UInt32) (cooldown : UInt32)
    (id : ChannelId) : UInt32 :=
  match e.channels.get id with
  | some ch => ch.retried hal key cooldown
  | none => cooldown

def State.cooldownAfter (hal : Hal F) (e : State F) (key : UInt32 × UInt32)
    (ids : List ChannelId) : UInt32 :=
  ids.foldl (e.retried hal key) (e.sensorCooldown key)

theorem State.sensorCooldown_backoffAfter (hal : Hal F) (e : State F) (ch : Channel F)
    (channels : Table ChannelId (Channel F)) (key : UInt32 × UInt32) :
    State.sensorCooldown { e with channels := channels, i2cBackoff := e.backoffAfter hal ch } key =
      ch.retried hal key (e.sensorCooldown key) := by
  unfold State.backoffAfter Channel.retried
  by_cases hfailed : ch.enabled ∧ ch.failed ∧ ch.channelType = .i2c
  swap
  · rw [if_neg fun h => hfailed ⟨h.1, h.2.1, h.2.2.1⟩,
      if_neg fun h => hfailed ⟨h.1, h.2.1, h.2.2.1⟩]
    rfl
  obtain ⟨henabled, hfailed, htype⟩ := hfailed
  have hcool : e.cooldown ch = e.sensorCooldown (ch.device, ch.address) := by
    rw [State.cooldown_eq, if_pos htype]
  simp only [henabled, hfailed, htype, hcool, true_and]
  by_cases hkey : (ch.device, ch.address) = key
  · subst key
    simp only [true_and]
    by_cases hdue : ch.retryCounter < e.sensorCooldown (ch.device, ch.address)
    · rw [if_neg (not_not.2 hdue), if_neg (not_not.2 hdue)]
      rfl
    · rw [if_pos hdue, if_pos hdue]
      unfold State.sensorCooldown
      cases hre : hal.reinitI2cSensor ch.device ch.address ch.label with
      | error err =>
        simp only [Table.get_insert_self]
        cases e.i2cBackoff.get (ch.device, ch.address) with
        | none => rfl
        | some b => rfl
      | ok u =>
        simp only [Table.get_modify, if_true]
        cases e.i2cBackoff.get (ch.device, ch.address) with
        | none => rfl
        | some b => rfl
  · simp only [hkey, false_and, if_false]
    by_cases hdue : ch.retryCounter < e.sensorCooldown (ch.device, ch.address)
    · rw [if_neg (not_not.2 hdue)]
      rfl
    · rw [if_pos hdue]
      unfold State.sensorCooldown
      cases hre : hal.reinitI2cSensor ch.device ch.address ch.label with
      | error err => simp only [Table.get_insert_ne _ _ (Ne.symm hkey)]
      | ok u => simp only [Table.get_modify_ne _ _ (Ne.symm hkey)]

variable [FloatOps F]

def State.observe (hal : Hal F) (clock : ChannelId → Instant) (e : State F) (id : ChannelId) :
    Option (Option (EngineValue F) × List (Notification F)) :=
  match e.channelRead hal (clock id) id with
  | none => none
  | some (e', result) =>
    some ((e'.channels.get id).map Channel.value, (e'.recordResult id result).2)

/-- No copied source is itself polled and moved by the cycle. -/
def State.SourcesStill (hal : Hal F) (clock : ChannelId → Instant) (e : State F) : Prop :=
  ∀ id ∈ e.polls.keys, ∀ ch, e.channels.get id = some ch → ch.CopiesSource →
    ∀ src ∈ e.polls.keys, ch.channelIn = some src → src ≠ id →
      ∀ e' result, e.channelRead hal (clock src) src = some (e', result) →
        (e'.channels.get src).map (fun c => c.value.cur) =
          (e.channels.get src).map (fun c => c.value.cur)

/-- Whether a revivable channel is due does not change with the turns of the others. -/
def State.RetriesStill (hal : Hal F) (e : State F) : Prop :=
  ∀ id ∈ e.polls.keys, ∀ ch, e.channels.get id = some ch → ch.Revivable hal →
    ∀ ids : List ChannelId, ids.Nodup → (∀ i ∈ ids, i ∈ e.polls.keys) → id ∉ ids →
      (ch.retryCounter < e.cooldownAfter hal (ch.device, ch.address) ids ↔
        ch.retryCounter < e.sensorCooldown (ch.device, ch.address))

/-- The state `e` after the channels `done` have been polled from `e₀`: what the
    others hold is untouched, and the polled ones show what they show in `e₀`. -/
structure State.Reached (hal : Hal F) (clock : ChannelId → Instant) (e₀ e : State F)
    (done : List ChannelId) : Prop where
  tables : e.tables = e₀.tables
  watches : e.watches = e₀.watches
  notifies : e.notifies = e₀.notifies
  channel : ∀ id ∉ done, e.channels.get id = e₀.channels.get id
  poll : ∀ id ∉ done, e.polls.get id = e₀.polls.get id
  shown : ∀ id ∈ done, ∃ changes,
    e₀.observe hal clock id = some ((e.channels.get id).map Channel.value, changes)
  cooldown : ∀ key, e.sensorCooldown key = e₀.cooldownAfter hal key done

theorem State.reached_refl (hal : Hal F) (clock : ChannelId → Instant) (e : State F) :
    State.Reached hal clock e e [] where
  tables := rfl
  watches := rfl
  notifies := rfl
  channel _ _ := rfl
  poll _ _ := rfl
  shown _ h := absurd h List.not_mem_nil
  cooldown _ := rfl

theorem State.recordResult_frame (e : State F) (id : ChannelId)
    (result : Except EngineError (EngineValue F)) :
    (e.recordResult id result).1.channels = e.channels ∧
      (e.recordResult id result).1.tables = e.tables ∧
      (e.recordResult id result).1.watches = e.watches ∧
      (e.recordResult id result).1.notifies = e.notifies ∧
      (e.recordResult id result).1.i2cBackoff = e.i2cBackoff ∧
      ∀ a ≠ id, (e.recordResult id result).1.polls.get a = e.polls.get a := by
  unfold State.recordResult
  cases result with
  | error err =>
    refine ⟨rfl, rfl, rfl, rfl, rfl, fun a ha => ?_⟩
    exact Table.get_modify_ne _ _ ha
  | ok value =>
    dsimp only
    cases e.polls.get id with
    | none => exact ⟨rfl, rfl, rfl, rfl, rfl, fun a _ => rfl⟩
    | some item =>
      refine ⟨rfl, rfl, rfl, rfl, rfl, fun a ha => ?_⟩
      exact Table.get_insert_ne _ _ ha

/-- The changes a result reports depend on the poll item and the subscribers alone. -/
theorem State.recordResult_changes {e₁ e₂ : State F} {id : ChannelId}
    (hpoll : e₁.polls.get id = e₂.polls.get id) (hwatches : e₁.watches = e₂.watches)
    (hnotifies : e₁.notifies = e₂.notifies) (result : Except EngineError (EngineValue F)) :
    (e₁.recordResult id result).2 = (e₂.recordResult id result).2 := by
  unfold State.recordResult
  cases result with
  | error err => rfl
  | ok value =>
    dsimp only
    rw [hpoll]
    cases e₂.polls.get id with
    | none => rfl
    | some item =>
      dsimp only
      unfold State.collectNotifications
      rw [hwatches, hnotifies]

/-- A source that is still has its first value in every state a cycle reaches. -/
theorem State.Reached.sourceCur {hal : Hal F} {clock : ChannelId → Instant} {e₀ e : State F}
    {done : List ChannelId} (h : State.Reached hal clock e₀ e done)
    (hstill : e₀.SourcesStill hal clock) (hdone : ∀ i ∈ done, i ∈ e₀.polls.keys)
    {id : ChannelId} (hid : id ∉ done) (hpolled : id ∈ e₀.polls.keys) {ch : Channel F}
    (hch : e₀.channels.get id = some ch) (hcopies : ch.CopiesSource) :
    e.sourceCur ch = e₀.sourceCur ch := by
  unfold State.sourceCur
  cases hin : ch.channelIn with
  | none => rfl
  | some src =>
    dsimp only
    by_cases hsrc : src ∈ done
    · obtain ⟨changes, hshown⟩ := h.shown src hsrc
      unfold State.observe at hshown
      cases hread : e₀.channelRead hal (clock src) src with
      | none =>
        rw [hread] at hshown
        cases hshown
      | some p =>
        rw [hread] at hshown
        have hvalue : (p.1.channels.get src).map Channel.value =
            (e.channels.get src).map Channel.value :=
          congrArg Prod.fst (Option.some.inj hshown)
        have hne : src ≠ id := fun he => hid (he ▸ hsrc)
        have hcur := hstill id hpolled ch hch hcopies src (hdone src hsrc) hin hne p.1 p.2 hread
        have hcur' : (e.channels.get src).map (fun c => c.value.cur) =
            (e₀.channels.get src).map (fun c => c.value.cur) := by
          have := congrArg (Option.map EngineValue.cur) hvalue
          simp only [Option.map_map] at this
          exact this.symm.trans hcur
        cases ha : e.channels.get src with
        | none =>
          cases hb : e₀.channels.get src with
          | none => rfl
          | some c => rw [ha, hb] at hcur'; cases hcur'
        | some c =>
          cases hb : e₀.channels.get src with
          | none => rw [ha, hb] at hcur'; cases hcur'
          | some c₀ =>
            rw [ha, hb] at hcur'
            exact Option.some.inj hcur'
    · rw [h.channel src hsrc]

/-- In every state a cycle reaches, a channel still to be polled shows what it
    shows at the start. -/
theorem State.Reached.observe {hal : Hal F} {clock : ChannelId → Instant} {e₀ e : State F}
    {done : List ChannelId} (h : State.Reached hal clock e₀ e done)
    (hsources : e₀.SourcesStill hal clock) (hretries : e₀.RetriesStill hal)
    (hnodup : done.Nodup) (hdone : ∀ i ∈ done, i ∈ e₀.polls.keys)
    {id : ChannelId} (hid : id ∉ done) (hpolled : id ∈ e₀.polls.keys) :
    e.observe hal clock id = e₀.observe hal clock id := by
  have hch := h.channel id hid
  unfold State.observe
  cases hget : e₀.channels.get id with
  | none =>
    rw [hget] at hch
    simp only [State.channelRead, hch, hget]
    rfl
  | some ch =>
    rw [hget] at hch
    rw [State.channelRead_present hch, State.channelRead_present hget]
    have hseen : seen (Channel.attempt hal (clock id) id e.tables (e.cooldown ch)
        (e.sourceCur ch) ch) = seen (Channel.attempt hal (clock id) id e₀.tables
        (e₀.cooldown ch) (e₀.sourceCur ch) ch) := by
      rw [h.tables]
      apply Channel.attempt_seen
      · intro htype
        simp only [State.cooldown_eq, htype, if_false, and_self]
      · intro hrevivable
        simp only [State.cooldown_eq, hrevivable.2.2.1, if_true]
        rw [h.cooldown]
        exact hretries id hpolled ch hget hrevivable done hnodup hdone hid
      · exact h.sourceCur hsources hdone hid hpolled hget
    cases ha : Channel.attempt hal (clock id) id e.tables (e.cooldown ch) (e.sourceCur ch) ch with
    | none =>
      rw [ha] at hseen
      rw [Option.map_eq_none_iff.1 hseen.symm]
    | some p =>
      rw [ha] at hseen
      obtain ⟨q, hq, hpq⟩ := Option.map_eq_some_iff.1 hseen.symm
      rw [hq]
      dsimp only
      obtain ⟨hvalue, hresult⟩ : q.1.value = p.1.value ∧ q.2 = p.2 := Prod.mk.injEq .. ▸ hpq
      rw [Table.get_insert_self, Table.get_insert_self, Option.map_some, Option.map_some, hvalue,
        hresult]
      refine congrArg (fun changes => some (some p.1.value, changes)) ?_
      apply State.recordResult_changes
      · exact h.poll id hid
      · exact h.watches
      · exact h.notifies

theorem State.pollChannel_eq {hal : Hal F} {cache : I2cReadCache F}
    (hcache : State.CacheAgrees hal cache) (clock : ChannelId → Instant) (e : State F)
    (id : ChannelId) :
    e.pollChannel hal clock cache id =
      match e.channelRead hal (clock id) id with
      | none => none
      | some (e', result) => some (e'.recordResult id result) := by
  unfold State.pollChannel
  cases hread : e.channelRead hal (clock id) id with
  | none => rw [State.channelReadCached_eq hcache, hread]
  | some r => rw [State.channelReadCached_eq hcache, hread]

theorem State.channelRead_frame {hal : Hal F} {now : Instant} {e e' : State F} {id : ChannelId}
    {result : Except EngineError (EngineValue F)}
    (h : e.channelRead hal now id = some (e', result)) :
    e'.tables = e.tables ∧ e'.watches = e.watches ∧ e'.notifies = e.notifies ∧
      e'.polls = e.polls ∧ (∀ a ≠ id, e'.channels.get a = e.channels.get a) ∧
      ∀ key, e'.sensorCooldown key = e.retried hal key (e.sensorCooldown key) id := by
  unfold State.retried
  cases hget : e.channels.get id with
  | none =>
    simp only [State.channelRead, hget] at h
    cases h
    exact ⟨rfl, rfl, rfl, rfl, fun _ _ => rfl, fun _ => rfl⟩
  | some ch =>
    rw [State.channelRead_present hget] at h
    cases ha : Channel.attempt hal now id e.tables (e.cooldown ch) (e.sourceCur ch) ch with
    | none =>
      rw [ha] at h
      cases h
    | some p =>
      rw [ha] at h
      cases h
      refine ⟨rfl, rfl, rfl, rfl, fun a hne => ?_, fun key => ?_⟩
      · exact Table.get_insert_ne _ _ hne
      · exact State.sensorCooldown_backoffAfter hal e ch _ key

/-- One turn of the loop reaches the next state of the cycle, and reports what
    the channel shows at the start. -/
theorem State.Reached.step {hal : Hal F} {clock : ChannelId → Instant} {e₀ e e₁ : State F}
    {done : List ChannelId} (h : State.Reached hal clock e₀ e done) {id : ChannelId}
    (hid : id ∉ done) {result : Except EngineError (EngineValue F)}
    (hread : e.channelRead hal (clock id) id = some (e₁, result))
    (hobserve : e.observe hal clock id = e₀.observe hal clock id) :
    State.Reached hal clock e₀ (e₁.recordResult id result).1 (done ++ [id]) := by
  obtain ⟨htables, hwatches, hnotifies, hpolls, hchannels, hcooldown⟩ :=
    State.channelRead_frame hread
  obtain ⟨hc, ht, hw, hn, hb, hp⟩ := State.recordResult_frame e₁ id result
  have hmem : ∀ a, a ∉ done ++ [id] → a ∉ done ∧ a ≠ id := by
    intro a ha
    simpa [not_or] using ha
  refine ⟨ht.trans (htables.trans h.tables), hw.trans (hwatches.trans h.watches),
    hn.trans (hnotifies.trans h.notifies), fun a ha => ?_, fun a ha => ?_, fun a ha => ?_,
    fun key => ?_⟩
  · rw [hc, hchannels a (hmem a ha).2]
    exact h.channel a (hmem a ha).1
  · rw [hp a (hmem a ha).2, hpolls]
    exact h.poll a (hmem a ha).1
  · rcases List.mem_append.1 ha with ha | ha
    · obtain ⟨changes, hshown⟩ := h.shown a ha
      have hne : a ≠ id := fun he => hid (he ▸ ha)
      refine ⟨changes, ?_⟩
      rw [hc, hchannels a hne]
      exact hshown
    · obtain rfl := List.mem_singleton.1 ha
      refine ⟨(e₁.recordResult a result).2, ?_⟩
      rw [← hobserve, hc]
      unfold State.observe
      rw [hread]
  · have hsensor : State.sensorCooldown (e₁.recordResult id result).1 key =
        e₁.sensorCooldown key := by
      unfold State.sensorCooldown
      rw [hb]
    rw [hsensor, hcooldown key, h.cooldown key]
    unfold State.cooldownAfter
    rw [List.foldl_append]
    unfold State.retried
    rw [h.channel id hid]
    rfl

/-- The outcome of the loop from any reached state: it panics exactly when some
    channel left shows a panic, and else ends in the state that follows, with the
    changes its channels show at the start. -/
theorem State.Reached.loop {hal : Hal F} {clock : ChannelId → Instant} {cache : I2cReadCache F}
    (hcache : State.CacheAgrees hal cache) {e₀ : State F}
    (hsources : e₀.SourcesStill hal clock) (hretries : e₀.RetriesStill hal)
    (ids : List ChannelId) : ∀ {e : State F} {done : List ChannelId},
      State.Reached hal clock e₀ e done → (done ++ ids).Nodup →
      (∀ i ∈ done ++ ids, i ∈ e₀.polls.keys) →
      match State.pollLoop hal clock cache e ids with
      | none => ∃ id ∈ ids, e₀.observe hal clock id = none
      | some (e', changes) =>
        State.Reached hal clock e₀ e' (done ++ ids) ∧
          ∀ n, n ∈ changes ↔
            ∃ id ∈ ids, ∃ v ns, e₀.observe hal clock id = some (v, ns) ∧ n ∈ ns := by
  induction ids with
  | nil =>
    intro e done h _ _
    simp only [State.pollLoop, List.append_nil]
    exact ⟨h, fun n => by simp⟩
  | cons id ids ih =>
    intro e done h hnodup hpolled
    have hid : id ∉ done := by
      intro hmem
      exact (List.nodup_append.1 hnodup).2.2 id hmem id List.mem_cons_self rfl
    have hobserve : e.observe hal clock id = e₀.observe hal clock id :=
      h.observe hsources hretries (List.nodup_append.1 hnodup).1
        (fun i hi => hpolled i (List.mem_append_left _ hi)) hid (hpolled id (by simp))
    unfold State.pollLoop
    rw [State.pollChannel_eq hcache]
    cases hread : e.channelRead hal (clock id) id with
    | none =>
      have hnone : e.observe hal clock id = none := by
        unfold State.observe
        rw [hread]
      exact ⟨id, List.mem_cons_self, hobserve ▸ hnone⟩
    | some p =>
      have hstep := h.step hid hread hobserve
      have hshow : e₀.observe hal clock id =
          some ((p.1.channels.get id).map Channel.value, (p.1.recordResult id p.2).2) := by
        rw [← hobserve]
        unfold State.observe
        rw [hread]
      have hrest : done ++ id :: ids = (done ++ [id]) ++ ids := by simp
      rw [hrest] at hnodup hpolled ⊢
      have hloop := ih hstep hnodup hpolled
      dsimp only at hloop ⊢
      cases htail : State.pollLoop hal clock cache (p.1.recordResult id p.2).1 ids with
      | none =>
        rw [htail] at hloop
        obtain ⟨a, ha, hnone⟩ := hloop
        exact ⟨a, List.mem_cons_of_mem _ ha, hnone⟩
      | some q =>
        rw [htail] at hloop
        refine ⟨hloop.1, fun n => ?_⟩
        rw [List.mem_append, hloop.2 n]
        constructor
        · rintro (hn | ⟨a, ha, v, ns, hv, hn⟩)
          · exact ⟨id, List.mem_cons_self, _, _, hshow, hn⟩
          · exact ⟨a, List.mem_cons_of_mem _ ha, v, ns, hv, hn⟩
        · rintro ⟨a, ha, v, ns, hv, hn⟩
          rcases List.mem_cons.1 ha with rfl | ha
          · rw [hshow] at hv
            cases hv
            exact Or.inl hn
          · exact Or.inr ⟨a, ha, v, ns, hv, hn⟩

end Cycle

section Order

variable [FloatOps F]

/-- An iteration order of a hash map: each key once. -/
def Enumerates {K V : Type} [DecidableEq K] (m : Table K V) (order : List K) : Prop :=
  order.Nodup ∧ ∀ k, k ∈ order ↔ k ∈ m.keys

/-- Both cycles panic, or both end with the same channel values and the same
    set of reported changes. -/
def SameOutcome : Option (State F × List (Notification F)) →
    Option (State F × List (Notification F)) → Prop
  | none, none => True
  | some (e₁, changes₁), some (e₂, changes₂) =>
    (∀ id, (e₁.channels.get id).map Channel.value = (e₂.channels.get id).map Channel.value) ∧
      ∀ n, n ∈ changes₁ ↔ n ∈ changes₂
  | _, _ => False

theorem pollLoop_sameOutcome {hal : Hal F} {clock : ChannelId → Instant}
    {cache₁ cache₂ : I2cReadCache F} (hcache₁ : State.CacheAgrees hal cache₁)
    (hcache₂ : State.CacheAgrees hal cache₂) {e : State F} (hsources : e.SourcesStill hal clock)
    (hretries : e.RetriesStill hal) {order₁ order₂ : List ChannelId}
    (h₁ : Enumerates e.polls order₁) (h₂ : Enumerates e.polls order₂) :
    SameOutcome (State.pollLoop hal clock cache₁ e order₁)
      (State.pollLoop hal clock cache₂ e order₂) := by
  have hmem : ∀ id, id ∈ order₁ ↔ id ∈ order₂ := fun id => (h₁.2 id).trans (h₂.2 id).symm
  have hloop₁ := State.Reached.loop hcache₁ hsources hretries order₁
    (State.reached_refl hal clock e) h₁.1 fun i hi => (h₁.2 i).1 hi
  have hloop₂ := State.Reached.loop hcache₂ hsources hretries order₂
    (State.reached_refl hal clock e) h₂.1 fun i hi => (h₂.2 i).1 hi
  cases hl₁ : State.pollLoop hal clock cache₁ e order₁ with
  | none =>
    cases hl₂ : State.pollLoop hal clock cache₂ e order₂ with
    | none => trivial
    | some q =>
      rw [hl₁] at hloop₁
      rw [hl₂] at hloop₂
      obtain ⟨id, hid, hnone⟩ := hloop₁
      obtain ⟨changes, hshown⟩ := hloop₂.1.shown id ((hmem id).1 hid)
      rw [hnone] at hshown
      cases hshown
  | some p =>
    cases hl₂ : State.pollLoop hal clock cache₂ e order₂ with
    | none =>
      rw [hl₁] at hloop₁
      rw [hl₂] at hloop₂
      obtain ⟨id, hid, hnone⟩ := hloop₂
      obtain ⟨changes, hshown⟩ := hloop₁.1.shown id ((hmem id).2 hid)
      rw [hnone] at hshown
      cases hshown
    | some q =>
      rw [hl₁] at hloop₁
      rw [hl₂] at hloop₂
      refine ⟨fun id => ?_, fun n => ?_⟩
      · by_cases hid : id ∈ order₁
        · obtain ⟨changes₁, hshown₁⟩ := hloop₁.1.shown id hid
          obtain ⟨changes₂, hshown₂⟩ := hloop₂.1.shown id ((hmem id).1 hid)
          rw [hshown₁] at hshown₂
          exact congrArg Prod.fst (Option.some.inj hshown₂)
        · rw [hloop₁.1.channel id hid, hloop₂.1.channel id fun h => hid ((hmem id).2 h)]
      · rw [hloop₁.2 n, hloop₂.2 n]
        simp only [hmem]

theorem State.channelWrite_frame {hal : Hal F} {e : State F} {id : ChannelId}
    {value : EngineValue F} {r : State F × EngineValue F × Except EngineError Unit}
    (h : e.channelWrite hal id value = some r) :
    ∃ channels, r.1 = { e with channels := channels } := by
  unfold State.channelWrite at h
  cases hch : e.channels.get id with
  | none =>
    rw [hch] at h
    cases h
    exact ⟨_, rfl⟩
  | some ch =>
    rw [hch] at h
    dsimp only at h
    split_ifs at h
    all_goals first | (cases h; exact ⟨_, rfl⟩) | skip
    all_goals
      split at h
      · cases h
      · split at h <;> cases h <;> exact ⟨_, rfl⟩

theorem State.expireChannel_frame {hal : Hal F} {now : Instant} {e e' : State F} {id : ChannelId}
    (h : e.expireChannel hal now id = some e') :
    ∃ channels, e' = { e with channels := channels } := by
  unfold State.expireChannel at h
  cases hch : e.channels.get id with
  | none =>
    rw [hch] at h
    cases h
    exact ⟨_, rfl⟩
  | some ch =>
    rw [hch] at h
    dsimp only at h
    cases hpa : ch.priorityArray with
    | none =>
      rw [hpa] at h
      cases h
      exact ⟨_, rfl⟩
    | some pa =>
      rw [hpa] at h
      dsimp only at h
      split_ifs at h
      · split at h
        · split at h
          · rename_i hw
            cases h
            obtain ⟨channels, hframe⟩ := State.channelWrite_frame hw
            exact ⟨channels, hframe⟩
          · cases h
        · cases h
          exact ⟨_, rfl⟩
      · cases h
        exact ⟨_, rfl⟩

theorem State.expirePriorityTimers_polls {hal : Hal F} {clock : ChannelId → Instant}
    (ids : List ChannelId) : ∀ {e e' : State F},
      e.expirePriorityTimers hal clock ids = some e' → e'.polls = e.polls := by
  unfold State.expirePriorityTimers
  induction ids with
  | nil =>
    intro e e' h
    cases h
    rfl
  | cons id ids ih =>
    intro e e' h
    rw [List.foldlM_cons] at h
    cases hfirst : e.expireChannel hal (clock id) id with
    | none =>
      rw [hfirst] at h
      cases h
    | some e₁ =>
      rw [hfirst] at h
      obtain ⟨channels, hframe⟩ := State.expireChannel_frame hfirst
      rw [ih h, hframe]

/-- Where, after the timed writes have expired, no copied source and no due
    retry is moved by the cycle itself, the order of the polled channels shows
    neither in the channel values nor in the reported changes. -/
theorem pollUpdate_order_independent {hal : Hal F} {expireClock readClock : ChannelId → Instant}
    {e : State F} {channelOrder order₁ order₂ : List ChannelId}
    (h₁ : Enumerates e.polls order₁) (h₂ : Enumerates e.polls order₂)
    (hstill : ∀ e', e.expirePriorityTimers hal expireClock channelOrder = some e' →
      e'.SourcesStill hal readClock ∧ e'.RetriesStill hal) :
    SameOutcome (e.pollUpdate hal expireClock readClock channelOrder order₁)
      (e.pollUpdate hal expireClock readClock channelOrder order₂) := by
  unfold State.pollUpdate
  cases hexp : e.expirePriorityTimers hal expireClock channelOrder with
  | none => trivial
  | some e' =>
    obtain ⟨hsources, hretries⟩ := hstill e' hexp
    rw [← State.expirePriorityTimers_polls channelOrder hexp] at h₁ h₂
    exact pollLoop_sameOutcome (State.preReadI2cChannels_agrees hal e' order₁)
      (State.preReadI2cChannels_agrees hal e' order₂) hsources hretries h₁ h₂

end Order

section Example

/-- Analog inputs read 7, everything else answers zero. -/
def sampleHal : Hal ℚ where
  readAnalog _ _ := .ok 7
  readDigital _ := .ok false
  readI2c _ _ _ := .ok 0
  readPwm _ _ := .ok 0
  readUart _ _ := .ok 0
  writeDigital _ _ := .ok ()
  writePwm _ _ _ := .ok ()
  reinitI2cSensor _ _ _ := .ok ()

def sampleInput : Channel ℚ := Channel.new 1 .analog .input 0 0 false ValueConv.default "in"

def sampleVirtual (src : ChannelId) : Channel ℚ :=
  { Channel.new 2 .virtualAnalog .none 0 0 false ValueConv.default "copy" with
    channelIn := some src }

def samplePoll : PollItem ℚ := ⟨EngineValue.default, 0, 0⟩

def sampleState (src : ChannelId) : State ℚ where
  channels := ((Table.empty.insert 1 sampleInput).insert 2 (sampleVirtual src)).insert 3 sampleInput
  tables := []
  polls := (Table.empty.insert 1 samplePoll).insert 2 samplePoll
  watches := []
  notifies := [9]
  i2cBackoff := Table.empty

def samplePollUpdate (src : ChannelId) (order : List ChannelId) :
    Option (State ℚ × List (Notification ℚ)) :=
  (sampleState src).pollUpdate sampleHal (fun _ => 0) (fun _ => 0) [1, 2, 3] order

def curAfter (r : Option (State ℚ × List (Notification ℚ))) (id : ChannelId) : Option ℚ :=
  r.bind fun p => (p.1.channels.get id).map fun ch => ch.value.cur

theorem SameOutcome.curAfter {a b : Option (State ℚ × List (Notification ℚ))}
    (h : SameOutcome a b) (id : ChannelId) : curAfter a id = curAfter b id := by
  cases a with
  | none =>
    cases b with
    | none => rfl
    | some q => exact h.elim
  | some p =>
    cases b with
    | none => exact h.elim
    | some q =>
      have hvalue := congrArg (Option.map EngineValue.cur) (h.1 id)
      simp only [Option.map_map] at hvalue
      exact hvalue

theorem sample_enumerates (src : ChannelId) {order : List ChannelId} (hnodup : order.Nodup)
    (h : ∀ k, k ∈ order ↔ k = 1 ∨ k = 2) : Enumerates (sampleState src).polls order := by
  refine ⟨hnodup, fun k => (h k).trans ?_⟩
  change _ ↔ k ∈ ((Table.empty.insert 1 samplePoll).insert 2 samplePoll : Table _ _).keys
  rw [Table.keys_insert, Table.keys_insert]
  simp [Table.empty, or_comm]

def sensorHal : Hal ℚ :=
  { sampleHal with
    readI2c := fun _ _ _ => .ok 5
    reinitI2cSensor := fun _ _ label => if label = "a" then .error (.ioError "") else .ok () }

def sampleProbe (id : ChannelId) (label : String) : Channel ℚ :=
  { Channel.new id .i2c .input 2 64 false ValueConv.default label with
    failed := true
    retryCounter := retryCooldownBase }

def sensorState : State ℚ where
  channels := (Table.empty.insert 1 (sampleProbe 1 "a")).insert 2 (sampleProbe 2 "b")
  tables := []
  polls := (Table.empty.insert 1 samplePoll).insert 2 samplePoll
  watches := []
  notifies := []
  i2cBackoff := Table.empty

def sensorPollUpdate (order : List ChannelId) : Option (State ℚ × List (Notification ℚ)) :=
  sensorState.pollUpdate sensorHal (fun _ => 0) (fun _ => 0) [1, 2] order

theorem sensorState_sourcesStill : sensorState.SourcesStill sensorHal fun _ => 0 := by
  intro id hid ch hch hcopies
  exfalso
  have hid' : id = 1 ∨ id = 2 := by
    have hkeys : sensorState.polls.keys = {2, 1} := rfl
    rw [hkeys] at hid
    simpa [or_comm] using hid
  rcases hid' with rfl | rfl
  · cases (show some (sampleProbe 1 "a") = some ch from hch)
    cases hcopies.2.1
  · cases (show some (sampleProbe 2 "b") = some ch from hch)
    cases hcopies.2.1

/-- A virtual channel that copies a polled input shows the new reading or the old one, as the
    input is polled before or after it. And where no source is copied, a probe comes back or
    waits on, as it is polled before or after another one of its sensor that fails again. -/
theorem pollUpdate_order_dependent :
    (¬ ∀ (hal : Hal ℚ) (expireClock readClock : ChannelId → Instant) (e : State ℚ)
      (channelOrder order₁ order₂ : List ChannelId),
      Enumerates e.polls order₁ → Enumerates e.polls order₂ →
        SameOutcome (e.pollUpdate hal expireClock readClock channelOrder order₁)
          (e.pollUpdate hal expireClock readClock channelOrder order₂)) ∧
      ¬ ∀ (hal : Hal ℚ) (expireClock readClock : ChannelId → Instant) (e : State ℚ)
        (channelOrder order₁ order₂ : List ChannelId),
        Enumerates e.polls order₁ → Enumerates e.polls order₂ →
          (∀ e', e.expirePriorityTimers hal expireClock channelOrder = some e' →
            e'.SourcesStill hal readClock) →
          SameOutcome (e.pollUpdate hal expireClock readClock channelOrder order₁)
            (e.pollUpdate hal expireClock readClock channelOrder order₂) := by
  refine ⟨fun h => ?_, fun h => ?_⟩
  · have hsame : SameOutcome (samplePollUpdate 1 [1, 2]) (samplePollUpdate 1 [2, 1]) :=
      h _ _ _ _ _ _ _ (sample_enumerates 1 (by decide) (by simp))
        (sample_enumerates 1 (by decide) (by simp [or_comm]))
    have hfirst : curAfter (samplePollUpdate 1 [1, 2]) 2 = some 7 := by decide +kernel
    have hlast : curAfter (samplePollUpdate 1 [2, 1]) 2 = some 0 := by decide +kernel
    have heq := hsame.curAfter 2
    rw [hfirst, hlast] at heq
    revert heq
    decide
  · have hsame : SameOutcome (sensorPollUpdate [1, 2]) (sensorPollUpdate [2, 1]) := by
      refine h _ _ _ _ _ _ _ (sample_enumerates 1 (by decide) (by simp))
        (sample_enumerates 1 (by decide) (by simp [or_comm])) fun e' hexp => ?_
      have he : sensorState = e' := Option.some.inj hexp
      exact he ▸ sensorState_sourcesStill
    have hfirst : curAfter (sensorPollUpdate [1, 2]) 2 = some 0 := by decide +kernel
    have hlast : curAfter (sensorPollUpdate [2, 1]) 2 = some 5 := by decide +kernel
    have heq := hsame.curAfter 2
    rw [hfirst, hlast] at heq
    revert heq
    decide

/-- With a source that is not polled, both orders of the sample agree. -/
theorem pollUpdate_order_independent_unpolled :
    curAfter (samplePollUpdate 3 [1, 2]) 1 = some 7 ∧
      SameOutcome (samplePollUpdate 3 [1, 2]) (samplePollUpdate 3 [2, 1]) := by
  refine ⟨by decide +kernel, ?_⟩
  have horder : Enumerates (sampleState 3).polls [1, 2] :=
    sample_enumerates 3 (by decide) (by simp)
  have hkeys : ∀ k, k ∈ (sampleState 3).polls.keys ↔ k = 1 ∨ k = 2 := fun k =>
    (horder.2 k).symm.trans (by simp)
  apply pollUpdate_order_independent horder
  · exact sample_enumerates 3 (by decide) (by simp [or_comm])
  intro e' hexp
  have he : sampleState 3 = e' := Option.some.inj hexp
  subst he
  refine ⟨fun id hid ch hch _ src hsrc hin _ => ?_, fun id hid ch hch hrevivable => ?_⟩
  · rcases (hkeys id).1 hid with rfl | rfl
    · cases (show some sampleInput = some ch from hch)
      cases hin
    · cases (show some (sampleVirtual 3) = some ch from hch)
      cases hin
      rcases (hkeys 3).1 hsrc with h | h
      · exact absurd h (by decide)
      · exact absurd h (by decide)
  · rcases (hkeys id).1 hid with rfl | rfl
    · cases (show some sampleInput = some ch from hch)
      cases hrevivable.2.1
    · cases (show some (sampleVirtual 3) = some ch from hch)
      cases hrevivable.2.1

end Example
end Sandstar.Engine
