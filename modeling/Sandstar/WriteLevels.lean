import Sandstar.PollSchedule
import Sandstar.PriorityArray

set_option autoImplicit false

namespace Sandstar.Engine
open FloatOps PriorityArray

variable {F : Type}

theorem PriorityArray.Cached.eq {p q : PriorityArray F} (hp : Cached p) (hq : Cached q)
    (hlevels : p.levels = q.levels) : p = q := by
  have hvalue : ∀ i, p.value i = q.value i := by
    intro i
    unfold PriorityArray.value
    rw [hlevels]
  have hactive : p.activeLevel = q.activeLevel := by
    rcases lt_trichotomy p.activeLevel q.activeLevel with hlt | heq | hlt
    · have hnone := hq.above _ hlt
      rw [← hvalue] at hnone
      rw [hp.empty hnone] at hlt
      exact absurd (le_lastLevel q.activeLevel) (not_le.2 hlt)
    · exact heq
    · have hnone := hp.above _ hlt
      rw [hvalue] at hnone
      rw [hq.empty hnone] at hlt
      exact absurd (le_lastLevel p.activeLevel) (not_le.2 hlt)
  cases p
  cases q
  cases hlevels
  cases hactive
  rfl

theorem recalculateActive_levels (p : PriorityArray F) :
    p.recalculateActive.levels = p.levels := by
  unfold recalculateActive
  cases (List.finRange maxLevels).find? fun i => (p.value i).isSome with
  | none => rfl
  | some i => rfl

theorem storeLevel_levels (p : PriorityArray F) (level : UInt8) (idx : Fin maxLevels)
    (entry : WriteLevel F) :
    (p.storeLevel level idx entry).1.levels = Function.update p.levels idx entry := by
  unfold storeLevel
  dsimp only
  by_cases hvalue : entry.value.isSome = true
  · rw [if_pos hvalue]
    by_cases hle : idx ≤ p.activeLevel
    · rw [if_pos hle]
    · rw [if_neg hle]
  · rw [if_neg hvalue]
    dsimp only
    by_cases hidx : idx = p.activeLevel
    · rw [if_pos hidx, recalculateActive_levels]
    · rw [if_neg hidx]

theorem value_storeLevel (p : PriorityArray F) (level : UInt8) (idx : Fin maxLevels) (entry : WriteLevel F)
    (i : Fin maxLevels) :
    (p.storeLevel level idx entry).1.value i = if i = idx then entry.value else p.value i := by
  unfold PriorityArray.value
  rw [storeLevel_levels]
  by_cases hi : i = idx
  · rw [if_pos hi, hi, Function.update_self]
  · rw [if_neg hi, Function.update_of_ne hi]

theorem PriorityArray.Cached.effective_isSome {p : PriorityArray F} (h : Cached p) :
    p.effective.1.isSome ↔ ∃ i, (p.value i).isSome := by
  constructor
  · intro hactive
    exact ⟨p.activeLevel, hactive⟩
  · rintro ⟨i, hi⟩
    by_contra hnone
    rw [Option.not_isSome_iff_eq_none] at hnone
    rw [h.all_empty hnone i] at hi
    cases hi

variable [FloatOps F]

/-- The deadline that `set_level` computes panics. -/
def deadlinePanics (now : Instant) (value : Option F) (duration : F) : Prop :=
  (FloatOps.lt (lit 0) duration && value.isSome) = true ∧ deadline now duration = none

def levelEntry (now : Instant) (value : Option F) (who : String) (duration : F) : WriteLevel F :=
  ⟨value, String.ofList (who.toList.take maxWhoLen), duration,
    if FloatOps.lt (lit 0) duration && value.isSome then deadline now duration else none⟩

theorem setLevel_panics {p : PriorityArray F} {now : Instant} {level : UInt8} {value : Option F}
    {who : String} {duration : F} (hlevel : 1 ≤ level.toNat ∧ level.toNat ≤ maxLevels)
    (h : deadlinePanics now value duration) : p.setLevel now level value who duration = none := by
  unfold setLevel
  rw [dif_pos hlevel]
  dsimp only
  rw [if_pos h.1, h.2]

theorem setLevel_eq {p : PriorityArray F} {now : Instant} {level : UInt8} {value : Option F}
    {who : String} {duration : F} (hlevel : 1 ≤ level.toNat ∧ level.toNat ≤ maxLevels)
    (h : ¬ deadlinePanics now value duration) :
    p.setLevel now level value who duration =
      some (p.storeLevel level ⟨level.toNat - 1, level_pred_lt hlevel⟩
        (levelEntry now value who duration)) := by
  unfold setLevel levelEntry
  rw [dif_pos hlevel]
  dsimp only
  by_cases htimed : (FloatOps.lt (lit 0) duration && value.isSome) = true
  · rw [if_pos htimed, if_pos htimed]
    cases hdeadline : deadline now duration with
    | none => exact absurd ⟨htimed, hdeadline⟩ h
    | some d => rfl
  · rw [if_neg htimed, if_neg htimed]

/-- `channel_write_level`; `none` where it panics. -/
def State.channelWriteLevel (hal : Hal F) (now : Instant) (e : State F) (id : ChannelId)
    (level : UInt8) (value : Option F) (who : String) (duration : F) :
    Option (State F × Except EngineError (WriteResult F)) :=
  match e.channels.get id with
  | none => some (e, .error (.channelNotFound id))
  | some ch =>
    if 1 ≤ level.toNat ∧ level.toNat ≤ maxLevels then
      match (ch.priorityArray.getD PriorityArray.default).setLevel now level value who duration with
      | none => none
      | some (pa, result) =>
        let e := e.setChannel id { ch with priorityArray := some pa }
        match result.effectiveValue with
        | none => some (e, .ok result)
        | some effectiveVal =>
          match e.channelWrite hal id (EngineValue.default.setCur effectiveVal) with
          | none => none
          | some (e, _, .error err) => some (e, .error err)
          | some (e, _, .ok _) => some (e, .ok result)
    else some (e, .error (.invalidWriteLevel level))

/-- Both ends of the range are set and in the wrong order, where `revert` panics. -/
def ValueConv.inverted (conv : ValueConv F) : Bool :=
  match conv.low, conv.high with
  | some low, some high => !FloatOps.le low high
  | _, _ => false

def Channel.refuses (ch : Channel F) : Bool :=
  !(ch.direction.isOutput || ch.channelType.isVirtual) ||
    (ch.enabled && !ch.conv.inverted && match ch.channelType with
      | .analog | .i2c | .uart => true
      | _ => false)

theorem revert_isSome (conv : ValueConv F) (value : EngineValue F) (tables : TableStore F) :
    (conv.revert value tables).isSome = !conv.inverted := by
  unfold ValueConv.revert ValueConv.inverted FloatOps.clamp
  cases hlow : conv.low with
  | none => rfl
  | some low =>
    cases hhigh : conv.high with
    | none => rfl
    | some high =>
      dsimp only
      cases hle : FloatOps.le low high with
      | true => rfl
      | false => rfl

/-- A write of an engineering value is refused by a channel that takes none, and leaves
    the engine as it was. -/
theorem channelWrite_refused {hal : Hal F} {e : State F} {id : ChannelId} {ch : Channel F}
    (hget : e.channels.get id = some ch) (h : ch.refuses = true) (v : F) :
    ∃ value, e.channelWrite hal id (EngineValue.default.setCur v) =
      some (e, value, .error (.writeNotSupported id)) := by
  unfold State.channelWrite
  rw [hget]
  dsimp only [EngineValue.setCur]
  unfold Channel.refuses at h
  cases hwritable : ch.direction.isOutput || ch.channelType.isVirtual with
  | false => exact ⟨_, rfl⟩
  | true =>
    rw [hwritable, Bool.not_true, Bool.false_or, Bool.and_eq_true, Bool.and_eq_true] at h
    obtain ⟨⟨henabled, hinverted⟩, htype⟩ := h
    have hsome := revert_isSome ch.conv (EngineValue.default.setCur v) e.tables
    rw [hinverted] at hsome
    obtain ⟨reverted, hreverted⟩ := Option.isSome_iff_exists.1 hsome
    dsimp only [EngineValue.setCur] at hreverted
    simp only [henabled, hreverted]
    cases hconv : ch.channelType with
    | analog | i2c | uart => exact ⟨reverted, rfl⟩
    | digital | triac | pwm | virtualAnalog | virtualDigital =>
      rw [hconv] at htype
      cases htype

theorem channelWrite_taken {hal : Hal F} {e : State F} {id : ChannelId} {ch : Channel F}
    (hget : e.channels.get id = some ch) (h : ch.refuses = false) {v : F}
    {r : State F × EngineValue F × Except EngineError Unit}
    (hwrite : e.channelWrite hal id (EngineValue.default.setCur v) = some r) : r.2.2 = .ok () := by
  unfold State.channelWrite at hwrite
  rw [hget] at hwrite
  dsimp only [EngineValue.setCur] at hwrite
  unfold Channel.refuses at h
  rw [Bool.or_eq_false_iff, Bool.not_eq_false'] at h
  obtain ⟨hwritable, hrest⟩ := h
  simp only [hwritable] at hwrite
  cases henabled : ch.enabled with
  | false =>
    simp only [henabled] at hwrite
    cases hwrite
    rfl
  | true =>
    have hsome := revert_isSome ch.conv (EngineValue.default.setCur v) e.tables
    cases hrevert : ch.conv.revert (EngineValue.default.setCur v) e.tables with
    | none =>
      dsimp only [EngineValue.setCur] at hrevert
      simp only [henabled, hrevert] at hwrite
      cases hwrite
    | some reverted =>
      rw [hrevert] at hsome
      rw [henabled, ← hsome] at hrest
      dsimp only [EngineValue.setCur] at hrevert
      simp only [henabled, hrevert] at hwrite
      cases hconv : ch.channelType with
      | analog | i2c | uart =>
        rw [hconv] at hrest
        cases hrest
      | digital | triac | pwm | virtualAnalog | virtualDigital =>
        rw [hconv] at hwrite
        cases hwrite
        rfl

/-- A failed call leaves the priority array, its absence included, and the value. -/
def Atomic (hal : Hal F) (now : Instant) (e : State F) (id : ChannelId) (level : UInt8)
    (value : Option F) (who : String) (duration : F) : Prop :=
  ∀ e' err, e.channelWriteLevel hal now id level value who duration = some (e', .error err) →
    (e'.channels.get id).map (fun ch => (ch.priorityArray, ch.value)) =
      (e.channels.get id).map fun ch => (ch.priorityArray, ch.value)

/-- The call records something new on a channel that refuses it: some level holds a value
    then, and the level did not hold the same entry. -/
structure RecordsRefused (now : Instant) (ch : Channel F) (level : UInt8) (value : Option F)
    (who : String) (duration : F) : Prop where
  valid : 1 ≤ level.toNat ∧ level.toNat ≤ maxLevels
  refuses : ch.refuses = true
  deadline : ¬ deadlinePanics now value duration
  holds : value.isSome ∨ ∃ pa i, ch.priorityArray = some pa ∧ i.val ≠ level.toNat - 1 ∧
    (pa.value i).isSome
  new : ∀ pa, ch.priorityArray = some pa →
    pa.levels ⟨level.toNat - 1, level_pred_lt valid⟩ ≠ levelEntry now value who duration

/-- The arrays of the channels cache their active level; every operation on an array keeps
    that (`step_cached`). -/
def CachedArrays (e : State F) : Prop :=
  ∀ id ch pa, e.channels.get id = some ch → ch.priorityArray = some pa → Cached pa

section Failures

variable {hal : Hal F} {now : Instant} {e : State F} {id : ChannelId} {level : UInt8}
  {value : Option F} {who : String} {duration : F}

theorem cached_getD (hcached : CachedArrays e) {ch : Channel F}
    (hget : e.channels.get id = some ch) :
    Cached (ch.priorityArray.getD PriorityArray.default) := by
  cases hpa : ch.priorityArray with
  | none => exact default_cached
  | some pa => exact hcached id ch pa hget hpa

/-- A level holds a value after the call exactly if the call brings one or another level
    held one. -/
theorem holds_iff (ch : Channel F) (hlevel : 1 ≤ level.toNat ∧ level.toNat ≤ maxLevels) :
    (∃ i, (((ch.priorityArray.getD PriorityArray.default).storeLevel level
        ⟨level.toNat - 1, level_pred_lt hlevel⟩ (levelEntry now value who duration)).1.value
          i).isSome) ↔
      value.isSome ∨ ∃ pa i, ch.priorityArray = some pa ∧ i.val ≠ level.toNat - 1 ∧
        (pa.value i).isSome := by
  constructor
  · rintro ⟨i, hi⟩
    rw [value_storeLevel] at hi
    by_cases hidx : i = ⟨level.toNat - 1, level_pred_lt hlevel⟩
    · rw [if_pos hidx] at hi
      exact .inl hi
    · rw [if_neg hidx] at hi
      cases hpa : ch.priorityArray with
      | none =>
        rw [hpa] at hi
        cases hi
      | some pa =>
        rw [hpa] at hi
        exact .inr ⟨pa, i, rfl, fun hval => hidx (Fin.ext hval), hi⟩
  · rintro (hvalue | ⟨pa, i, hpa, hne, hi⟩)
    · refine ⟨⟨level.toNat - 1, level_pred_lt hlevel⟩, ?_⟩
      rw [value_storeLevel, if_pos rfl]
      exact hvalue
    · refine ⟨i, ?_⟩
      have hidx : i ≠ ⟨level.toNat - 1, level_pred_lt hlevel⟩ := fun h => hne (congrArg Fin.val h)
      rw [value_storeLevel, if_neg hidx, hpa]
      exact hi

def recorded (now : Instant) (ch : Channel F) (level : UInt8)
    (hlevel : 1 ≤ level.toNat ∧ level.toNat ≤ maxLevels) (value : Option F) (who : String)
    (duration : F) : PriorityArray F :=
  ((ch.priorityArray.getD PriorityArray.default).storeLevel level
    ⟨level.toNat - 1, level_pred_lt hlevel⟩ (levelEntry now value who duration)).1

def recordedChannel (now : Instant) (ch : Channel F) (level : UInt8)
    (hlevel : 1 ≤ level.toNat ∧ level.toNat ≤ maxLevels) (value : Option F) (who : String)
    (duration : F) : Channel F :=
  { ch with priorityArray := some (recorded now ch level hlevel value who duration) }

theorem recorded_cached (hcached : CachedArrays e) {ch : Channel F}
    (hget : e.channels.get id = some ch) (hlevel : 1 ≤ level.toNat ∧ level.toNat ≤ maxLevels) :
    Cached (recorded now ch level hlevel value who duration) :=
  (storeLevel_spec (cached_getD hcached hget) (number_pred hlevel.1 hlevel.2) _).1

theorem channelWriteLevel_refused (hcached : CachedArrays e) {ch : Channel F}
    (hget : e.channels.get id = some ch) (hlevel : 1 ≤ level.toNat ∧ level.toNat ≤ maxLevels)
    (hdeadline : ¬ deadlinePanics now value duration) (hrefuses : ch.refuses = true)
    (hholds : (recorded now ch level hlevel value who duration).effective.1.isSome) :
    e.channelWriteLevel hal now id level value who duration =
      some (e.setChannel id (recordedChannel now ch level hlevel value who duration),
        .error (.writeNotSupported id)) := by
  obtain ⟨v, hv⟩ := Option.isSome_iff_exists.1 hholds
  have hresult := (storeLevel_spec (cached_getD hcached hget) (number_pred hlevel.1 hlevel.2)
    (levelEntry now value who duration)).2
  have hget' : (e.setChannel id (recordedChannel now ch level hlevel value who duration)).channels.get
      id = some (recordedChannel now ch level hlevel value who duration) :=
    Table.get_insert_self _ _ _
  obtain ⟨written, hwrite⟩ := @channelWrite_refused F _ hal _ _ _ hget' hrefuses v
  unfold State.channelWriteLevel
  rw [hget]
  dsimp only
  rw [if_pos hlevel, setLevel_eq hlevel hdeadline]
  dsimp only
  rw [hresult]
  unfold recordedChannel recorded at hwrite ⊢
  unfold recorded at hv
  rw [hv]
  dsimp only
  rw [hwrite]

/-- What a failed call leaves: the engine as it was, or a level recorded on a channel that
    refuses it. -/
theorem channelWriteLevel_error (hcached : CachedArrays e) {e' : State F} {err : EngineError}
    (h : e.channelWriteLevel hal now id level value who duration = some (e', .error err)) :
    e' = e ∨ ∃ ch, ∃ hlevel : 1 ≤ level.toNat ∧ level.toNat ≤ maxLevels,
      e.channels.get id = some ch ∧ ch.refuses = true ∧ ¬ deadlinePanics now value duration ∧
        (recorded now ch level hlevel value who duration).effective.1.isSome ∧
        e' = e.setChannel id (recordedChannel now ch level hlevel value who duration) := by
  unfold State.channelWriteLevel at h
  cases hget : e.channels.get id with
  | none =>
    rw [hget] at h
    cases h
    exact .inl rfl
  | some ch =>
    rw [hget] at h
    dsimp only at h
    by_cases hlevel : 1 ≤ level.toNat ∧ level.toNat ≤ maxLevels
    · rw [if_pos hlevel] at h
      by_cases hdeadline : deadlinePanics now value duration
      · rw [setLevel_panics hlevel hdeadline] at h
        cases h
      · have hresult := (storeLevel_spec (cached_getD hcached hget)
          (number_pred hlevel.1 hlevel.2) (levelEntry now value who duration)).2
        rw [setLevel_eq hlevel hdeadline] at h
        dsimp only at h
        rw [hresult] at h
        dsimp only at h
        refine .inr ⟨ch, hlevel, rfl, ?_⟩
        have hget' : (e.setChannel id (recordedChannel now ch level hlevel value who
            duration)).channels.get id = some (recordedChannel now ch level hlevel value who
              duration) := Table.get_insert_self _ _ _
        cases hv : (recorded now ch level hlevel value who duration).effective.1 with
        | none =>
          unfold recorded at hv
          rw [hv] at h
          cases h
        | some v =>
          unfold recorded at hv
          rw [hv] at h
          dsimp only at h
          cases hrefuses : ch.refuses with
          | true =>
            obtain ⟨written, hwrite⟩ := @channelWrite_refused F _ hal _ _ _ hget' hrefuses v
            unfold recordedChannel recorded at hwrite
            rw [hwrite] at h
            cases h
            exact ⟨rfl, hdeadline, rfl, rfl⟩
          | false =>
            have htaken := @channelWrite_taken F _ hal _ id _ hget' hrefuses v
            unfold recordedChannel recorded at htaken
            revert h
            generalize State.channelWrite hal _ id (EngineValue.default.setCur v) = written at htaken
            intro h
            cases written with
            | none => cases h
            | some w =>
              obtain ⟨left, leftValue, answer⟩ := w
              have hok : answer = .ok () := htaken rfl
              subst hok
              cases h
    · rw [if_neg hlevel] at h
      cases h
      exact .inl rfl

/-- A failed call leaves array and value as they were exactly when it does not record
    anything new on a channel that refuses it. -/
theorem channelWriteLevel_atomic_iff (hcached : CachedArrays e) :
    Atomic hal now e id level value who duration ↔
      ∀ ch, e.channels.get id = some ch → ¬ RecordsRefused now ch level value who duration := by
  constructor
  · intro hatomic ch hget hrec
    have hcached' : Cached (recorded now ch level hrec.valid value who duration) :=
      recorded_cached hcached hget hrec.valid
    have hholds := hcached'.effective_isSome.2 ((holds_iff ch hrec.valid).2 hrec.holds)
    have hsame := hatomic _ _ (channelWriteLevel_refused hcached hget hrec.valid hrec.deadline
      hrec.refuses hholds)
    rw [hget] at hsame
    unfold State.setChannel recordedChannel at hsame
    dsimp only at hsame
    rw [Table.get_insert_self] at hsame
    have harray := (congrArg Prod.fst (Option.some.inj hsame)).symm
    refine hrec.new _ harray ?_
    unfold recorded
    rw [storeLevel_levels, Function.update_self]
  · intro hnot e' err herror
    rcases channelWriteLevel_error hcached herror with
      rfl | ⟨ch, hlevel, hget, hrefuses, hdeadline, hholds, rfl⟩
    · rfl
    · have hcached' : Cached (recorded now ch level hlevel value who duration) :=
        recorded_cached hcached hget hlevel
      have hholds' := (holds_iff ch hlevel).1 (hcached'.effective_isSome.1 hholds)
      have hold : ∃ pa, ch.priorityArray = some pa ∧
          pa.levels ⟨level.toNat - 1, level_pred_lt hlevel⟩ =
            levelEntry now value who duration := by
        by_contra hnew
        refine hnot ch hget ⟨hlevel, hrefuses, hdeadline, hholds', fun pa hpa heq => ?_⟩
        exact hnew ⟨pa, hpa, heq⟩
      obtain ⟨pa, hpa, hentry⟩ := hold
      have hrecorded : recorded now ch level hlevel value who duration = pa := by
        refine hcached'.eq (hcached id ch pa hget hpa) ?_
        unfold recorded
        rw [storeLevel_levels, hpa, ← hentry]
        exact Function.update_eq_self _ _
      unfold State.setChannel recordedChannel
      dsimp only
      rw [hrecorded, Table.get_insert_self, hget, ← hpa]

end Failures

def oneChannel (ch : Channel ℚ) : State ℚ :=
  ⟨Table.empty.insert 1 ch, [], Table.empty, [], [], Table.empty⟩

theorem get_oneChannel (ch : Channel ℚ) : (oneChannel ch).channels.get 1 = some ch :=
  Table.get_insert_self _ _ _

theorem oneChannel_cachedArrays {ch : Channel ℚ}
    (h : ∀ pa, ch.priorityArray = some pa → Cached pa) : CachedArrays (oneChannel ch) := by
  intro id ch' pa hget hpa
  unfold oneChannel at hget
  dsimp only at hget
  rw [Table.get_insert] at hget
  split_ifs at hget
  · cases hget
    exact h pa hpa
  · cases hget

theorem oneChannel_sampleInput : CachedArrays (oneChannel sampleInput) :=
  oneChannel_cachedArrays nofun

def writtenInput : Channel ℚ := recordedChannel 0 sampleInput 8 (by decide) (some 20) "user" 0

/-- The same write again fails and changes nothing. -/
theorem channelWriteLevel_atomic_again :
    (∃ e, (oneChannel writtenInput).channelWriteLevel sampleHal 0 1 8 (some 20) "user" 0 =
      some (e, .error (.writeNotSupported 1))) ∧
    Atomic sampleHal 0 (oneChannel writtenInput) 1 8 (some 20) "user" 0 := by
  have hcached : CachedArrays (oneChannel writtenInput) := by
    refine oneChannel_cachedArrays fun pa hpa => ?_
    rw [← Option.some.inj hpa]
    exact recorded_cached oneChannel_sampleInput (get_oneChannel sampleInput) _
  have hdeadline : ¬ deadlinePanics 0 (some (20 : ℚ)) 0 := fun h => nomatch h.2
  refine ⟨⟨_, channelWriteLevel_refused hcached (get_oneChannel writtenInput) (by decide) hdeadline
    rfl rfl⟩, (channelWriteLevel_atomic_iff hcached).2 fun ch hget hrec => ?_⟩
  have hsame : writtenInput = ch := Option.some.inj ((get_oneChannel writtenInput).symm.trans hget)
  subst hsame
  refine hrec.new _ rfl ?_
  unfold recorded
  rw [storeLevel_levels]
  exact Function.update_self _ _ _

/-- A value written to an input stays at its level, although the call fails. -/
theorem sampleInput_not_atomic :
    ¬ Atomic sampleHal 0 (oneChannel sampleInput) 1 8 (some 20) "user" 0 := by
  intro hatomic
  have hdeadline : ¬ deadlinePanics 0 (some (20 : ℚ)) 0 := fun h => nomatch h.2
  have hlevel : 1 ≤ (8 : UInt8).toNat ∧ (8 : UInt8).toNat ≤ maxLevels := by decide
  have herror : (oneChannel sampleInput).channelWriteLevel sampleHal 0 1 8 (some 20) "user" 0 = _ :=
    channelWriteLevel_refused oneChannel_sampleInput (get_oneChannel sampleInput) hlevel
      hdeadline rfl rfl
  have hsame := hatomic _ _ herror
  rw [get_oneChannel] at hsame
  unfold State.setChannel at hsame
  dsimp only at hsame
  rw [Table.get_insert_self] at hsame
  cases congrArg Prod.fst (Option.some.inj hsame)

end Sandstar.Engine
