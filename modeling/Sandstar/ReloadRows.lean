import Sandstar.Loader

set_option autoImplicit false

namespace Sandstar.Loader
open Engine Zinc

variable {F : Type} [FloatOps F]

section Entries

/-- The channel after `update_metadata` and its tags. -/
def RowConfig.update (r : RowConfig F) (ch : Channel F) : Channel F :=
  { ch with
    enabled := r.enabled
    conv := { r.conv with convFunc := keptConvFunc r.channelId r.conv.convFunc ch.conv.convFunc }
    label := r.label
    tags := r.tags }

def RowConfig.granular (r : RowConfig F) : Option (Channel F) → Option (Channel F)
  | some ch =>
    some (if r.isVirtual then if channelConfigChanged ch r then r.replace ch else ch
      else r.update ch)
  | none => if r.isVirtual then some (r.finish r.newChannel) else none

/-- What a row of a fresh load makes of it. -/
def RowConfig.fresh (r : RowConfig F) : Option (Channel F) → Option (Channel F)
  | some ch => some (if r.isVirtual then ch else r.update ch)
  | none => if r.isVirtual then some (r.finish r.newChannel) else none

@[simp] theorem RowConfig.newChannel_id (r : RowConfig F) : r.newChannel.id = r.channelId := rfl

omit [FloatOps F] in
theorem addChannel_absent {channels : Table ChannelId (Channel F)} {ch : Channel F}
    (h : channels.get ch.id = none) : addChannel channels ch = .ok (channels.insert ch.id ch) := by
  simp [addChannel, h]

omit [FloatOps F] in
theorem addChannel_present {channels : Table ChannelId (Channel F)} {ch old : Channel F}
    (h : channels.get ch.id = some old) :
    addChannel channels ch = .error (.duplicateChannel ch.id) := by
  simp [addChannel, h]

omit [FloatOps F] in
theorem updateMetadata_present {channels : Table ChannelId (Channel F)} {r : RowConfig F}
    {ch : Channel F} (h : channels.get r.channelId = some ch) :
    ∃ channels', updateMetadata channels r.channelId r.enabled r.conv r.label = .ok channels' ∧
      ∀ id, (channels'.modify r.channelId fun ch => { ch with tags := r.tags }).get id =
        if id = r.channelId then some (r.update ch) else channels.get id := by
  unfold updateMetadata
  rw [h]
  refine ⟨_, rfl, fun id => ?_⟩
  rw [Table.get_modify, Table.get_insert]
  split_ifs <;> rfl

end Entries

section Granular

theorem granularRow_get (s : GranularLoad F) (r : RowConfig F) (id : ChannelId) :
    (granularRow s r).engine.channels.get id =
      if id = r.channelId then r.granular (s.engine.channels.get id)
      else s.engine.channels.get id := by
  unfold granularRow
  cases hv : r.isVirtual with
  | true =>
    simp only [if_true]
    unfold granularVirtual
    cases hget : s.engine.channels.get r.channelId with
    | some ch =>
      simp only [hget]
      by_cases hc : channelConfigChanged ch r = true
      · rw [if_pos hc]
        by_cases hid : id = r.channelId
        · subst hid
          simp [Table.get_modify, hget, RowConfig.granular, hv, hc]
        · simp [Table.get_modify, hid]
      · rw [if_neg hc]
        by_cases hid : id = r.channelId
        · subst hid
          simp [hget, RowConfig.granular, hv, hc]
        · rw [if_neg hid]
    | none =>
      have hadd := addChannel_absent (r.newChannel_id.symm ▸ hget)
      simp only [hget, hadd]
      by_cases hid : id = r.channelId
      · subst hid
        simp [Table.get_modify, hget, RowConfig.granular, hv]
      · simp [Table.get_modify, Table.get_insert, hid]
  | false =>
    simp only [Bool.false_eq_true, if_false]
    unfold granularPhysical
    cases hget : s.engine.channels.get r.channelId with
    | none =>
      by_cases hid : id = r.channelId
      · subst hid
        simp [hget, RowConfig.granular, hv]
      · rw [if_neg hid]
    | some ch =>
      obtain ⟨channels, hok, hentry⟩ := updateMetadata_present hget
      simp only [hok, hentry]
      by_cases hid : id = r.channelId
      · subst hid
        simp [hget, RowConfig.granular, hv]
      · rw [if_neg hid, if_neg hid]

theorem granularRow_engine (s : GranularLoad F) (r : RowConfig F) :
    (granularRow s r).engine = { s.engine with channels := (granularRow s r).engine.channels } := by
  unfold granularRow
  cases r.isVirtual with
  | true =>
    simp only [if_true]
    unfold granularVirtual
    dsimp only
    cases s.engine.channels.get r.channelId with
    | some ch =>
      dsimp only
      by_cases hc : channelConfigChanged ch r = true
      · rw [if_pos hc]
      · rw [if_neg hc]
    | none => cases addChannel s.engine.channels r.newChannel <;> rfl
  | false =>
    simp only [Bool.false_eq_true, if_false]
    unfold granularPhysical
    cases s.engine.channels.get r.channelId with
    | none => rfl
    | some ch =>
      dsimp only
      cases updateMetadata s.engine.channels r.channelId r.enabled r.conv r.label <;> rfl

theorem granularRow_newVirtualIds (s : GranularLoad F) (r : RowConfig F) (id : ChannelId) :
    id ∈ (granularRow s r).newVirtualIds ↔
      id ∈ s.newVirtualIds ∨ (id = r.channelId ∧ r.isVirtual = true) := by
  unfold granularRow granularVirtual granularPhysical
  cases hv : r.isVirtual with
  | true =>
    simp only [if_true]
    split
    · split_ifs <;> simp [or_comm]
    · split <;> simp [or_comm]
  | false =>
    simp only [Bool.false_eq_true, if_false]
    split
    · simp
    · split <;> simp

theorem granularRow_expectedPolls (s : GranularLoad F) (r : RowConfig F) (id : ChannelId) :
    id ∈ (granularRow s r).expectedPolls ↔ id ∈ s.expectedPolls ∨ (id = r.channelId ∧
      (r.isVirtual = true ∨ (r.polled = true ∧ (s.engine.channels.get id).isSome))) := by
  unfold granularRow
  cases hv : r.isVirtual with
  | true =>
    simp only [if_true]
    unfold granularVirtual
    dsimp only
    split
    · split_ifs <;> simp [or_comm]
    · split <;> simp [or_comm]
  | false =>
    simp only [Bool.false_eq_true, if_false]
    unfold granularPhysical
    cases hget : s.engine.channels.get r.channelId with
    | none =>
      simp only [false_or]
      constructor
      · exact .inl
      · rintro (hmem | ⟨rfl, -, hsome⟩)
        · exact hmem
        · simp [hget] at hsome
    | some ch =>
      obtain ⟨channels, hok, -⟩ := updateMetadata_present hget
      simp only [hok]
      by_cases hp : r.polled = true
      · rw [if_pos hp]
        by_cases hid : id = r.channelId
        · subst hid
          simp [hp, hget]
        · simp [hid]
      · rw [if_neg hp]
        simp [hp]

end Granular

section Loop

structure LiveState (F : Type) where
  value : EngineValue F
  flowDetected : Option Bool
  spikeState : SpikeState F
  smoothState : SmoothState F
  rateLimitState : RateLimitState F
  priorityArray : Option (PriorityArray F)
  lastValidValue : F
  spikeReadingCount : UInt32
  failed : Bool
  retryCounter : UInt32
  pwmDisabled : Bool
  channelIn : Option ChannelId

def liveState (ch : Channel F) : LiveState F :=
  ⟨ch.value, ch.flowDetected, ch.spikeState, ch.smoothState, ch.rateLimitState, ch.priorityArray,
    ch.lastValidValue, ch.spikeReadingCount, ch.failed, ch.retryCounter, ch.pwmDisabled,
    ch.channelIn⟩

/-- A row keeps the live state of a channel, and its type unless it is virtual. -/
theorem RowConfig.granular_keeps (r : RowConfig F) (ch : Channel F) :
    ∃ ch', r.granular (some ch) = some ch' ∧ liveState ch' = liveState ch ∧
      (r.isVirtual = false → ch'.channelType = ch.channelType) := by
  refine ⟨_, rfl, ?_, ?_⟩
  · split_ifs <;> rfl
  · intro hv
    simp [hv, RowConfig.update]

structure Loaded (channels : Table ChannelId (Channel F)) (rs : List (RowConfig F))
    (s : GranularLoad F) : Prop where
  newVirtual : ∀ id, id ∈ s.newVirtualIds ↔ ∃ r ∈ rs, r.channelId = id ∧ r.isVirtual = true
  expected_present : ∀ id ∈ s.expectedPolls, (s.engine.channels.get id).isSome
  expected_named : ∀ id ∈ s.expectedPolls, ∃ r ∈ rs, r.channelId = id ∧
    (r.isVirtual = true ∨ r.polled = true)
  expected_virtual : ∀ id ∈ s.newVirtualIds, id ∈ s.expectedPolls
  expected_polled : ∀ id, (channels.get id).isSome → ∀ r ∈ rs, r.channelId = id →
    r.polled = true → id ∈ s.expectedPolls
  kept : ∀ id ch, channels.get id = some ch → ∃ ch', s.engine.channels.get id = some ch' ∧
    liveState ch' = liveState ch ∧ (id ∉ s.newVirtualIds → ch'.channelType = ch.channelType)
  made : ∀ id, channels.get id = none → (s.engine.channels.get id).isSome → id ∈ s.newVirtualIds

omit [FloatOps F] in
theorem loaded_start (e : State F) : Loaded e.channels [] ⟨e, 0, 0, [], ∅, [], [], []⟩ where
  newVirtual id := by simp
  expected_present id h := nomatch h
  expected_named id h := nomatch h
  expected_virtual id h := nomatch h
  expected_polled id _ r h := nomatch h
  kept id ch h := ⟨ch, h, rfl, fun _ => rfl⟩
  made id h hsome := by simp [h] at hsome

/-- A row leaves every channel in place, and makes its own if it is virtual. -/
theorem granularRow_isSome (s : GranularLoad F) (r : RowConfig F) (id : ChannelId) :
    ((granularRow s r).engine.channels.get id).isSome =
      ((s.engine.channels.get id).isSome || (id = r.channelId && r.isVirtual)) := by
  rw [granularRow_get]
  by_cases hid : id = r.channelId
  · rw [if_pos hid]
    cases s.engine.channels.get id with
    | some ch => simp [RowConfig.granular]
    | none => cases hv : r.isVirtual <;> simp [RowConfig.granular, hv, hid]
  · simp [hid]

theorem loaded_row {channels : Table ChannelId (Channel F)} {rs : List (RowConfig F)}
    {s : GranularLoad F} (h : Loaded channels rs s) (r : RowConfig F) :
    Loaded channels (rs ++ [r]) (granularRow s r) where
  newVirtual id := by
    rw [granularRow_newVirtualIds, h.newVirtual]
    simp only [List.mem_append, List.mem_singleton]
    grind
  expected_present id hid := by
    rw [granularRow_isSome]
    rw [granularRow_expectedPolls] at hid
    rcases hid with hid | ⟨rfl, hv | ⟨-, hsome⟩⟩
    · simp [h.expected_present id hid]
    · simp [hv]
    · simp [hsome]
  expected_named id hid := by
    rw [granularRow_expectedPolls] at hid
    rcases hid with hid | ⟨rfl, hr⟩
    · obtain ⟨r', hr', hcase⟩ := h.expected_named id hid
      exact ⟨r', List.mem_append_left _ hr', hcase⟩
    · exact ⟨r, List.mem_append_right _ (List.mem_singleton.2 rfl), rfl, hr.imp_right And.left⟩
  expected_virtual id hid := by
    rw [granularRow_expectedPolls]
    rw [granularRow_newVirtualIds] at hid
    rcases hid with hid | ⟨rfl, hv⟩
    · exact .inl (h.expected_virtual id hid)
    · exact .inr ⟨rfl, .inl hv⟩
  expected_polled id hsome r' hr' hid hpolled := by
    rw [granularRow_expectedPolls]
    rcases List.mem_append.1 hr' with hr' | hr'
    · exact .inl (h.expected_polled id hsome r' hr' hid hpolled)
    · obtain rfl := List.mem_singleton.1 hr'
      obtain ⟨ch, hch⟩ := Option.isSome_iff_exists.1 hsome
      obtain ⟨ch', hch', -⟩ := h.kept id ch hch
      exact .inr ⟨hid.symm, .inr ⟨hpolled, by simp [hch']⟩⟩
  kept id ch hch := by
    obtain ⟨ch₁, hch₁, hlive₁, htype₁⟩ := h.kept id ch hch
    rw [granularRow_get]
    by_cases hid : id = r.channelId
    · obtain ⟨ch₂, hch₂, hlive₂, htype₂⟩ := r.granular_keeps ch₁
      rw [if_pos hid, hch₁]
      refine ⟨ch₂, hch₂, hlive₂.trans hlive₁, fun hnew => ?_⟩
      rw [granularRow_newVirtualIds, not_or] at hnew
      have hv : r.isVirtual = false := by
        cases hv : r.isVirtual with
        | true => exact absurd ⟨hid, hv⟩ hnew.2
        | false => rfl
      exact (htype₂ hv).trans (htype₁ hnew.1)
    · rw [if_neg hid]
      refine ⟨ch₁, hch₁, hlive₁, fun hnew => htype₁ fun hmem => hnew ?_⟩
      exact (granularRow_newVirtualIds s r id).2 (.inl hmem)
  made id hnone hsome := by
    rw [granularRow_newVirtualIds]
    rw [granularRow_isSome] at hsome
    cases hbefore : (s.engine.channels.get id).isSome with
    | true => exact .inl (h.made id hnone hbefore)
    | false => exact .inr (by simpa [hbefore] using hsome)

theorem loaded_rows {channels : Table ChannelId (Channel F)} {rs : List (RowConfig F)}
    {s : GranularLoad F} (h : Loaded channels rs s) (more : List (RowConfig F)) :
    Loaded channels (rs ++ more) (more.foldl granularRow s) := by
  induction more generalizing rs s with
  | nil => simpa using h
  | cons r more ih =>
    have hnext := ih (loaded_row h r)
    rwa [List.append_assoc] at hnext

theorem granularRows_engine (rs : List (RowConfig F)) (s : GranularLoad F) :
    (rs.foldl granularRow s).engine =
      { s.engine with channels := (rs.foldl granularRow s).engine.channels } := by
  induction rs generalizing s with
  | nil => rfl
  | cons r rs ih =>
    rw [List.foldl_cons, ih, granularRow_engine]

end Loop

section Polls

theorem addPoll_get (polls : Table ChannelId (PollItem F)) (id a : ChannelId) :
    (addPoll polls id).get a = if a = id ∧ polls.get a = none then some pollItem else polls.get a := by
  unfold addPoll
  cases hget : polls.get id with
  | some item =>
    rw [if_pos (by rfl), if_neg]
    rintro ⟨rfl, hnone⟩
    simp [hget] at hnone
  | none =>
    rw [if_neg (by simp), Table.get_insert]
    by_cases ha : a = id
    · simp [ha, hget]
    · simp [ha]

theorem diffPolls_get (expectedPolls : List ChannelId) (polls : Table ChannelId (PollItem F))
    (id : ChannelId) :
    (diffPolls expectedPolls polls).get id =
      if id ∈ expectedPolls then some ((polls.get id).getD pollItem) else none := by
  have hadd : ∀ (ids : List ChannelId) (now : Table ChannelId (PollItem F)),
      (ids.foldl (fun now id => if (polls.get id).isSome then now else addPoll now id) now).get id =
        if id ∈ ids ∧ polls.get id = none ∧ now.get id = none then some pollItem
        else now.get id := by
    intro ids
    induction ids with
    | nil => simp
    | cons a ids ih =>
      intro now
      rw [List.foldl_cons, ih]
      by_cases hid : id = a
      · subst hid
        cases ha : polls.get id with
        | some item => simp
        | none => cases hnow : now.get id <;> simp [addPoll_get, hnow]
      · have hskip : (if (polls.get a).isSome then now else addPoll now a).get id = now.get id := by
          split_ifs
          · rfl
          · simp [addPoll_get, hid]
        simp [hskip, hid]
  unfold diffPolls
  rw [Table.get_retain, hadd]
  cases hget : polls.get id with
  | some item => by_cases hmem : id ∈ expectedPolls <;> simp [hmem]
  | none => by_cases hmem : id ∈ expectedPolls <;> simp [hmem]

theorem fallbackPolls_engine (e : State F) :
    fallbackPolls e = { e with polls := (fallbackPolls e).polls } := by
  unfold fallbackPolls setupPolls
  dsimp only
  split_ifs <;> rfl

theorem fallbackPolls_get (e : State F) (id : ChannelId) :
    (fallbackPolls e).polls.get id = e.polls.get id ∨ (fallbackPolls e).polls.get id =
      ((e.channels.get id).filter fun ch => !ch.direction.isOutput && ch.enabled).map
        fun _ => pollItem := by
  unfold fallbackPolls setupPolls
  dsimp only
  split_ifs
  · exact .inl rfl
  · right
    have hempty : (Table.empty ∪ Table.mapValues
        (e.channels.retain fun _ ch => !ch.direction.isOutput && ch.enabled) fun _ => pollItem :
          Table ChannelId (PollItem F)) = Table.mapValues
        (e.channels.retain fun _ ch => !ch.direction.isOutput && ch.enabled) fun _ => pollItem :=
      Finmap.empty_union
    rw [hempty, Table.get_mapValues, Table.get_retain]

end Polls

section Fresh

theorem loadRow_get (s : State F × ℕ) (r : RowConfig F) (id : ChannelId) :
    (loadRow s r).1.channels.get id =
      if id = r.channelId then r.fresh (s.1.channels.get id) else s.1.channels.get id := by
  obtain ⟨e, count⟩ := s
  unfold loadRow
  cases hv : r.isVirtual with
  | true =>
    simp only [if_true]
    cases hget : e.channels.get r.channelId with
    | some ch =>
      rw [addChannel_present (r.newChannel_id.symm ▸ hget)]
      by_cases hid : id = r.channelId
      · subst hid
        simp [hget, RowConfig.fresh, hv]
      · rw [if_neg hid]
    | none =>
      rw [addChannel_absent (r.newChannel_id.symm ▸ hget)]
      by_cases hid : id = r.channelId
      · subst hid
        simp [Table.get_modify, hget, RowConfig.fresh, hv]
      · simp [Table.get_modify, Table.get_insert, hid]
  | false =>
    simp only [Bool.false_eq_true, if_false]
    cases hget : e.channels.get r.channelId with
    | none =>
      by_cases hid : id = r.channelId
      · subst hid
        simp [hget, RowConfig.fresh, hv]
      · simp [hid]
    | some ch =>
      obtain ⟨channels, hok, hentry⟩ := updateMetadata_present hget
      simp only [Option.isNone_some, Bool.false_eq_true, if_false, hok, hentry]
      by_cases hid : id = r.channelId
      · subst hid
        simp [hget, RowConfig.fresh, hv]
      · rw [if_neg hid, if_neg hid]

theorem loadRow_polls (s : State F × ℕ) (r : RowConfig F) (id : ChannelId) :
    ((loadRow s r).1.polls.get id).isSome = true ↔ (s.1.polls.get id).isSome = true ∨
      (id = r.channelId ∧ if r.isVirtual then s.1.channels.get id = none
        else r.polled = true ∧ (s.1.channels.get id).isSome = true) := by
  obtain ⟨e, count⟩ := s
  have hadd : ∀ polls : Table ChannelId (PollItem F),
      ((addPoll polls r.channelId).get id).isSome = true ↔
        (polls.get id).isSome = true ∨ id = r.channelId := by
    intro polls
    rw [addPoll_get]
    cases polls.get id <;> simp
  unfold loadRow
  cases hv : r.isVirtual with
  | true =>
    simp only [if_true]
    cases hget : e.channels.get r.channelId with
    | some ch =>
      rw [addChannel_present (r.newChannel_id.symm ▸ hget)]
      by_cases hid : id = r.channelId
      · simp [hid, hget]
      · simp [hid]
    | none =>
      rw [addChannel_absent (r.newChannel_id.symm ▸ hget)]
      simp only [hadd]
      by_cases hid : id = r.channelId
      · simp [hid, hget]
      · simp [hid]
  | false =>
    simp only [Bool.false_eq_true, if_false]
    cases hget : e.channels.get r.channelId with
    | none =>
      by_cases hid : id = r.channelId
      · simp [hid, hget]
      · simp [hid]
    | some ch =>
      obtain ⟨channels, hok, -⟩ := updateMetadata_present hget
      simp only [Option.isNone_some, Bool.false_eq_true, if_false, hok]
      cases hp : r.polled with
      | true =>
        simp only [if_true, hadd]
        by_cases hid : id = r.channelId
        · simp [hid, hget]
        · simp [hid]
      | false => simp

end Fresh

section Reloads

variable (fns : NumberFns F) (dir : ConfigDir) (e : State F)

def reloadedTables : TableStore F := (reloadTables fns dir (e, ReloadSummary.start)).1.tables

theorem reloadTables_engine (summary : ReloadSummary) :
    (reloadTables fns dir (e, summary)).1 = { e with tables := reloadedTables fns dir e } := by
  unfold reloadedTables reloadTables
  cases dir.tablesCsv with
  | none => rfl
  | some csv =>
    dsimp only
    rcases loadTables fns dir.dataFile csv (clearTables e.tables) with ⟨tables, message | count⟩ <;> rfl

/-- The grid of a database that can be read. -/
def ConfigDir.grid : Option ZincGrid :=
  match dir.database with
  | some (.ok content) => (ZincGrid.parse content).toOption
  | _ => none

def granularLoop (grid : ZincGrid) : GranularLoad F :=
  (readRows fns e.tables grid).foldl granularRow ⟨e, 0, 0, [], ∅, [], [], []⟩

def removedIds (grid : ZincGrid) : Finset ChannelId :=
  (virtualIds e.channels).filter (· ∉ (granularLoop fns e grid).newVirtualIds)

theorem reloadConfig_eq : ∃ summary, (reloadConfig fns dir e).1 =
    (reloadDatabase fns dir ({ e with tables := reloadedTables fns dir e }, summary)).1 := by
  have hengine := reloadTables_engine fns dir e ReloadSummary.start
  refine ⟨(reloadTables fns dir (e, ReloadSummary.start)).2, ?_⟩
  unfold reloadConfig
  dsimp only
  rw [← hengine]

theorem reloadConfig_grid {grid : ZincGrid} (h : dir.grid = some grid) :
    let now := { e with tables := reloadedTables fns dir e }
    (reloadConfig fns dir e).1 = { now with
      channels := (granularLoop fns now grid).engine.channels.retain fun id _ =>
        id ∉ removedIds fns now grid
      polls := diffPolls (granularLoop fns now grid).expectedPolls e.polls } := by
  obtain ⟨summary, heq⟩ := reloadConfig_eq fns dir e
  dsimp only
  rw [heq]
  unfold ConfigDir.grid at h
  unfold reloadDatabase
  cases hfile : dir.database with
  | none => simp [hfile] at h
  | some file =>
    cases file with
    | error message => simp [hfile] at h
    | ok content =>
      cases hparse : ZincGrid.parse content with
      | error err => simp [hfile, hparse, Except.toOption] at h
      | ok parsed =>
        simp only [hfile, hparse, Except.toOption, Option.some.injEq] at h
        subst h
        simp only [readDatabase, loadDatabaseGranular, hparse, Except.map, Except.mapError]
        rw [granularRows_engine]
        rfl

theorem reloadConfig_tables {grid : ZincGrid} (h : dir.grid = some grid) :
    (reloadConfig fns dir e).1.tables = reloadedTables fns dir e := by
  rw [reloadConfig_grid fns dir e h]

theorem reloadConfig_fallback (h : dir.grid = none) :
    (reloadConfig fns dir e).1 = fallbackPolls { e with tables := reloadedTables fns dir e } := by
  obtain ⟨summary, heq⟩ := reloadConfig_eq fns dir e
  rw [heq]
  unfold ConfigDir.grid at h
  unfold reloadDatabase
  cases hfile : dir.database with
  | none => rfl
  | some file =>
    cases file with
    | error message => rfl
    | ok content =>
      cases hparse : ZincGrid.parse content with
      | ok parsed => simp [hfile, hparse, Except.toOption] at h
      | error err => simp [readDatabase, loadDatabaseGranular, hparse, Except.map, Except.mapError]

end Reloads
end Sandstar.Loader
