import Sandstar.ReloadRows
import Sandstar.Runs

set_option autoImplicit false

/-!
# Reloads of a running engine

A reload keeps the live state of every channel that it keeps, and it keeps every channel
whose rows are those of the reload before. Its polls name channels that exist unless a
virtual channel has lost its `virtualChannel` marker but not its `cur` or `raw`.
-/
namespace Sandstar.Loader
open Engine Zinc Runs

section RowsOf

def channelNumber (grid : ZincGrid) (row : ℕ) : Option ChannelId :=
  let channelId := grid.integer row "channel" (-1)
  if channelId < 0 then none else some (UInt32.ofNat channelId.toNat)

def rowsOf (grid : ZincGrid) (id : ChannelId) : List (String → Option String) :=
  ((List.range grid.rowCount).filter fun row => channelNumber grid row = some id).map grid.cell

def hasMarker (tag : String) (cells : String → Option String) : Bool := cells tag = some "M"

def isVirtualRow (cells : String → Option String) : Bool := hasMarker "virtualChannel" cells

def isPolledRow (cells : String → Option String) : Bool :=
  hasMarker "cur" cells || hasMarker "raw" cells

variable {F : Type} [FloatOps F] (fns : NumberFns F) (tables : TableStore F) (grid : ZincGrid)

theorem readRow_some {row : ℕ} {r : RowConfig F} (h : readRow fns tables grid row = some r) :
    channelNumber grid row = some r.channelId ∧ r.isVirtual = isVirtualRow (grid.cell row) ∧
      r.polled = isPolledRow (grid.cell row) := by
  unfold readRow at h
  unfold channelNumber
  by_cases hneg : grid.integer row "channel" (-1) < 0
  · simp [hneg] at h
  · rw [if_neg hneg] at h ⊢
    cases h
    exact ⟨rfl, rfl, rfl⟩

theorem readRow_none {row : ℕ} (h : readRow fns tables grid row = none) :
    channelNumber grid row = none := by
  unfold readRow at h
  unfold channelNumber
  by_cases hneg : grid.integer row "channel" (-1) < 0
  · exact if_pos hneg
  · rw [if_neg hneg] at h
    cases h

theorem exists_row_iff {p : RowConfig F → Bool} {q : (String → Option String) → Bool}
    (hpq : ∀ row r, readRow fns tables grid row = some r → p r = q (grid.cell row))
    (id : ChannelId) :
    (∃ r ∈ readRows fns tables grid, r.channelId = id ∧ p r = true) ↔
      ∃ cells ∈ rowsOf grid id, q cells = true := by
  constructor
  · rintro ⟨r, hr, rfl, hp⟩
    obtain ⟨row, hrow, hread⟩ := List.mem_filterMap.1 hr
    have hnumber := (readRow_some fns tables grid hread).1
    exact ⟨grid.cell row, List.mem_map.2 ⟨row, List.mem_filter.2 ⟨hrow, by simpa using hnumber⟩, rfl⟩,
      (hpq row r hread).symm.trans hp⟩
  · rintro ⟨cells, hcells, hq⟩
    obtain ⟨row, hrow, rfl⟩ := List.mem_map.1 hcells
    obtain ⟨hrange, hid⟩ := List.mem_filter.1 hrow
    have hid : channelNumber grid row = some id := by simpa using hid
    cases hread : readRow fns tables grid row with
    | none =>
      rw [readRow_none fns tables grid hread] at hid
      cases hid
    | some r =>
      have hnumber := (readRow_some fns tables grid hread).1
      exact ⟨r, List.mem_filterMap.2 ⟨row, hrange, hread⟩, Option.some.inj (hnumber.symm.trans hid),
        (hpq row r hread).trans hq⟩

theorem exists_virtual_iff (id : ChannelId) :
    (∃ r ∈ readRows fns tables grid, r.channelId = id ∧ r.isVirtual = true) ↔
      ∃ cells ∈ rowsOf grid id, isVirtualRow cells = true :=
  exists_row_iff fns tables grid (fun _ _ h => (readRow_some fns tables grid h).2.1) id

theorem exists_polled_iff (id : ChannelId) :
    (∃ r ∈ readRows fns tables grid, r.channelId = id ∧ r.polled = true) ↔
      ∃ cells ∈ rowsOf grid id, isPolledRow cells = true :=
  exists_row_iff fns tables grid (fun _ _ h => (readRow_some fns tables grid h).2.2) id

end RowsOf

section Effects

variable {F : Type} [FloatOps F] (fns : NumberFns F) (dir : ConfigDir) (e : State F)

def HasVirtualRow (grid : ZincGrid) (id : ChannelId) : Prop :=
  ∃ cells ∈ rowsOf grid id, isVirtualRow cells = true

def HasPolledRow (grid : ZincGrid) (id : ChannelId) : Prop :=
  ∃ cells ∈ rowsOf grid id, isPolledRow cells = true

def IsVirtual (e : State F) (id : ChannelId) : Prop :=
  ∃ ch, e.channels.get id = some ch ∧ ch.channelType.isVirtual = true

omit [FloatOps F] in
theorem mem_virtualIds (channels : Table ChannelId (Channel F)) (id : ChannelId) :
    id ∈ virtualIds channels ↔ ∃ ch, channels.get id = some ch ∧ ch.channelType.isVirtual = true := by
  unfold virtualIds
  rw [Table.mem_keys, Table.get_retain]
  simp only [Option.filter_eq_some_iff]

structure Reloaded (grid : ZincGrid) (e after : State F) : Prop where
  gone_iff : ∀ id, (e.channels.get id).isSome →
    (after.channels.get id = none ↔ IsVirtual e id ∧ ¬ HasVirtualRow grid id)
  kept : ∀ id ch ch', e.channels.get id = some ch → after.channels.get id = some ch' →
    liveState ch' = liveState ch ∧ (¬ HasVirtualRow grid id → ch'.channelType = ch.channelType)
  made : ∀ id, e.channels.get id = none → (after.channels.get id).isSome → HasVirtualRow grid id
  polled_virtual : ∀ id, HasVirtualRow grid id →
    (after.channels.get id).isSome ∧ (after.polls.get id).isSome
  polled_iff : ∀ id, (e.channels.get id).isSome →
    ((after.polls.get id).isSome ↔ HasVirtualRow grid id ∨ HasPolledRow grid id)
  unpolled : ∀ id, e.channels.get id = none → (after.polls.get id).isSome → HasVirtualRow grid id
  poll_kept : ∀ id item, e.polls.get id = some item → (after.polls.get id).isSome →
    after.polls.get id = some item

theorem reloaded_reloadConfig {grid : ZincGrid} (h : dir.grid = some grid) :
    Reloaded grid e (reloadConfig fns dir e).1 := by
  rw [reloadConfig_grid fns dir e h]
  generalize hnow : ({ e with tables := reloadedTables fns dir e } : State F) = now
  have hchannels : now.channels = e.channels := by rw [← hnow]
  have hloaded := loaded_rows (loaded_start now) (readRows fns now.tables grid)
  rw [List.nil_append] at hloaded
  change Loaded now.channels _ (granularLoop fns now grid) at hloaded
  have hvirtual := fun id => (hloaded.newVirtual id).trans (exists_virtual_iff fns now.tables grid id)
  have hremoved : ∀ id, id ∈ removedIds fns now grid ↔ IsVirtual e id ∧ ¬ HasVirtualRow grid id := by
    intro id
    unfold removedIds
    rw [Finset.mem_filter, mem_virtualIds, hvirtual, hchannels]
    rfl
  rw [hchannels] at hloaded
  have hget : ∀ id, Table.get ((granularLoop fns now grid).engine.channels.retain fun id _ =>
      id ∉ removedIds fns now grid) id =
        if id ∈ removedIds fns now grid then none
        else (granularLoop fns now grid).engine.channels.get id := by
    intro id
    rw [Table.get_retain]
    by_cases hid : id ∈ removedIds fns now grid
    · simp [hid]
    · cases (granularLoop fns now grid).engine.channels.get id <;> simp [hid]
  have hpoll : ∀ id, (Table.get (diffPolls (granularLoop fns now grid).expectedPolls e.polls)
      id).isSome ↔ id ∈ (granularLoop fns now grid).expectedPolls := by
    intro id
    rw [diffPolls_get]
    by_cases hid : id ∈ (granularLoop fns now grid).expectedPolls <;> simp [hid]
  refine ⟨?_, ?_, ?_, ?_, ?_, ?_, ?_⟩
  · intro id hsome
    obtain ⟨ch, hch⟩ := Option.isSome_iff_exists.1 hsome
    obtain ⟨ch', hch', -⟩ := hloaded.kept id ch hch
    rw [hget, ← hremoved]
    by_cases hid : id ∈ removedIds fns now grid <;> simp [hid, hch']
  · intro id ch ch' hch hafter
    rw [hget] at hafter
    split_ifs at hafter
    obtain ⟨ch₁, hch₁, hlive, htype⟩ := hloaded.kept id ch hch
    obtain rfl := Option.some.inj (hch₁.symm.trans hafter)
    exact ⟨hlive, fun hnone => htype (mt (hvirtual id).1 hnone)⟩
  · intro id hnone hsome
    rw [hget] at hsome
    split_ifs at hsome
    · cases hsome
    · exact (hvirtual id).1 (hloaded.made id hnone hsome)
  · intro id hrow
    have hnew := (hvirtual id).2 hrow
    have hexpected := hloaded.expected_virtual id hnew
    have hkeep : id ∉ removedIds fns now grid := fun hmem => ((hremoved id).1 hmem).2 hrow
    rw [hget, if_neg hkeep]
    exact ⟨hloaded.expected_present id hexpected, (hpoll id).2 hexpected⟩
  · intro id hsome
    refine (hpoll id).trans ⟨fun hmem => ?_, ?_⟩
    · obtain ⟨r, hr, hid, hv | hp⟩ := hloaded.expected_named id hmem
      · exact .inl ((exists_virtual_iff fns now.tables grid id).1 ⟨r, hr, hid, hv⟩)
      · exact .inr ((exists_polled_iff fns now.tables grid id).1 ⟨r, hr, hid, hp⟩)
    · rintro (hrow | hrow)
      · exact hloaded.expected_virtual id ((hvirtual id).2 hrow)
      · obtain ⟨r, hr, hid, hp⟩ := (exists_polled_iff fns now.tables grid id).2 hrow
        exact hloaded.expected_polled id hsome r hr hid hp
  · intro id hnone hsome
    have hpresent := hloaded.expected_present id ((hpoll id).1 hsome)
    exact (hvirtual id).1 (hloaded.made id hnone hpresent)
  · intro id item hitem hsome
    change Table.get (diffPolls _ e.polls) id = some item
    rw [diffPolls_get, if_pos ((hpoll id).1 hsome), hitem]
    rfl

end Effects

section Runs

variable {F : Type} [FloatOps F] (fns : NumberFns F)

structure Running (F : Type) where
  engine : State F
  last : Option ZincGrid

inductive Happening (F : Type)
  | reload (dir : ConfigDir)
  | live (e : State F)

def happen (s : Running F) : Happening F → Running F
  | .reload dir => ⟨(reloadConfig fns dir s.engine).1, dir.grid⟩
  | .live e => ⟨e, s.last⟩

/-- Reads and writes leave the channels, their types and the poll list as they are. -/
def Lives (s : Running F) : Happening F → Prop
  | .reload _ => True
  | .live e => ∀ id,
      (e.channels.get id).map Channel.channelType =
        (s.engine.channels.get id).map Channel.channelType ∧
      (e.polls.get id).isSome = (s.engine.polls.get id).isSome

def PollsNamed (e : State F) : Prop := ∀ id, (e.polls.get id).isSome → (e.channels.get id).isSome

/-- Polls name channels, and channels whose rows are unchanged are undisturbed. -/
def Keeps (s : Running F) (h : Happening F) : Prop :=
  PollsNamed (happen fns s h).engine ∧ match h with
    | .live _ => True
    | .reload dir => ∀ before grid, s.last = some before → dir.grid = some grid → ∀ id ch,
        s.engine.channels.get id = some ch → rowsOf grid id = rowsOf before id →
        ∃ ch', (happen fns s h).engine.channels.get id = some ch' ∧ liveState ch' = liveState ch ∧
          (happen fns s h).engine.polls.get id = s.engine.polls.get id

/-- No virtual channel is left to polled rows that do not make it virtual. -/
def Tame (s : Running F) : Happening F → Prop
  | .live _ => True
  | .reload dir => ∀ grid, dir.grid = some grid → ∀ id, IsVirtual s.engine id →
      HasPolledRow grid id → HasVirtualRow grid id

structure Settled (s : Running F) : Prop where
  named : PollsNamed s.engine
  virtual_row : ∀ before, s.last = some before → ∀ id, IsVirtual s.engine id →
    HasVirtualRow before id
  polled_iff : ∀ before, s.last = some before → ∀ id, (s.engine.channels.get id).isSome →
    ((s.engine.polls.get id).isSome ↔ HasVirtualRow before id ∨ HasPolledRow before id)

omit [FloatOps F] in
theorem pollsNamed_iff {e after : State F} {grid : ZincGrid} (h : Reloaded grid e after) :
    PollsNamed after ↔ ∀ id, IsVirtual e id → HasPolledRow grid id → HasVirtualRow grid id := by
  constructor
  · rintro hnamed id ⟨ch, hch, hv⟩ hpolled
    by_contra hnone
    have hsome : (e.channels.get id).isSome := by simp [hch]
    have hgone := (h.gone_iff id hsome).2 ⟨⟨ch, hch, hv⟩, hnone⟩
    have hpresent := hnamed id ((h.polled_iff id hsome).2 (.inr hpolled))
    simp [hgone] at hpresent
  · intro htame id hpoll
    by_cases hrow : HasVirtualRow grid id
    · exact (h.polled_virtual id hrow).1
    · have hsome : (e.channels.get id).isSome := by
        by_contra hnone
        exact hrow (h.unpolled id (by simpa using hnone) hpoll)
      by_contra hgone
      have hvirtual := ((h.gone_iff id hsome).1 (by simpa using hgone)).1
      have hpolled := ((h.polled_iff id hsome).1 hpoll).resolve_left hrow
      exact hrow (htame id hvirtual hpolled)

theorem settled_reload {s : Running F} {dir : ConfigDir} (hs : Settled s)
    (htame : Tame s (.reload dir)) : Settled (happen fns s (.reload dir)) := by
  cases hgrid : dir.grid with
  | none =>
    refine ⟨?_, fun before h => ?_, fun before h => ?_⟩
    · intro id hpoll
      simp only [happen, reloadConfig_fallback fns dir s.engine hgrid] at hpoll ⊢
      rw [fallbackPolls_engine]
      rcases fallbackPolls_get { s.engine with tables := reloadedTables fns dir s.engine } id with
        hbefore | hinputs
      · rw [hbefore] at hpoll
        exact hs.named id hpoll
      · rw [hinputs] at hpoll
        cases hget : s.engine.channels.get id with
        | none => simp [hget] at hpoll
        | some ch => rfl
    · simp [happen, hgrid] at h
    · simp [happen, hgrid] at h
  | some grid =>
    have hreload := reloaded_reloadConfig fns dir s.engine hgrid
    have hlast : (happen fns s (.reload dir)).last = some grid := hgrid
    have hrow : ∀ id, s.engine.channels.get id = none →
        ((reloadConfig fns dir s.engine).1.channels.get id).isSome → HasVirtualRow grid id :=
      fun id => hreload.made id
    refine ⟨(pollsNamed_iff hreload).2 (htame grid hgrid), fun before h => ?_, fun before h => ?_⟩
    · obtain rfl := Option.some.inj (h.symm.trans hlast)
      rintro id ⟨ch', hch', hv'⟩
      by_contra hnone
      cases hget : s.engine.channels.get id with
      | none => exact hnone (hrow id hget (Option.isSome_of_mem hch'))
      | some ch =>
        have htype := (hreload.kept id ch ch' hget hch').2 hnone
        have hsome : (s.engine.channels.get id).isSome := by simp [hget]
        have hgone := (hreload.gone_iff id hsome).2 ⟨⟨ch, hget, htype ▸ hv'⟩, hnone⟩
        exact absurd (hgone.symm.trans hch') (Option.some_ne_none ch').symm
    · obtain rfl := Option.some.inj (h.symm.trans hlast)
      intro id hsome'
      cases hget : s.engine.channels.get id with
      | none =>
        have hvirtual := hrow id hget hsome'
        exact iff_of_true (hreload.polled_virtual id hvirtual).2 (.inl hvirtual)
      | some ch => exact hreload.polled_iff id (by simp [hget])

omit [FloatOps F] in
theorem settled_live {s : Running F} {e : State F} (hs : Settled s) (hlives : Lives s (.live e)) :
    Settled ⟨e, s.last⟩ := by
  have hsome : ∀ id, (e.channels.get id).isSome = (s.engine.channels.get id).isSome := by
    intro id
    simpa using congrArg Option.isSome (hlives id).1
  refine ⟨fun id hpoll => ?_, fun before hlast id hv => ?_, fun before hlast id hpresent => ?_⟩
  · rw [hsome]
    exact hs.named id ((hlives id).2 ▸ hpoll)
  · obtain ⟨ch, hch, hv⟩ := hv
    have htype := (hlives id).1
    rw [hch] at htype
    obtain ⟨old, hold, heq⟩ := Option.map_eq_some_iff.1 htype.symm
    exact hs.virtual_row before hlast id ⟨old, hold, heq ▸ hv⟩
  · rw [(hlives id).2]
    exact hs.polled_iff before hlast id (hsome id ▸ hpresent)

theorem loadRow_named {s : State F × ℕ} (hs : PollsNamed s.1) (r : RowConfig F) :
    PollsNamed (loadRow s r).1 := by
  intro id hpoll
  rw [loadRow_get]
  rcases (loadRow_polls s r id).1 hpoll with hbefore | ⟨rfl, hcase⟩
  · obtain ⟨ch, hch⟩ := Option.isSome_iff_exists.1 (hs id hbefore)
    split_ifs <;> simp [hch, RowConfig.fresh]
  · cases hget : s.1.channels.get r.channelId with
    | some ch => simp [RowConfig.fresh]
    | none =>
      cases hv : r.isVirtual with
      | true => simp [RowConfig.fresh, hv]
      | false => simp [hget, hv] at hcase

theorem loadRows_named (rs : List (RowConfig F)) {s : State F × ℕ} (hs : PollsNamed s.1) :
    PollsNamed (rs.foldl loadRow s).1 := by
  induction rs generalizing s with
  | nil => exact hs
  | cons r rs ih => exact ih (loadRow_named hs r)

theorem setupPolls_named {e : State F} (he : PollsNamed e) : PollsNamed (setupPolls e).1 := by
  intro id hpoll
  have hpoll : id ∈ e.polls ∨ id ∈ Table.mapValues
      (e.channels.retain fun _ ch => !ch.direction.isOutput && ch.enabled) fun _ => pollItem :=
    Finmap.mem_union.1 (Finmap.lookup_isSome.1 hpoll)
  rcases hpoll with hpoll | hpoll
  · exact he id (Finmap.lookup_isSome.2 hpoll)
  · have hpoll := Finmap.lookup_isSome.2 hpoll
    change (Table.get _ id).isSome = true at hpoll
    rw [Table.get_mapValues, Table.get_retain] at hpoll
    change (e.channels.get id).isSome = true
    cases hget : e.channels.get id with
    | none => simp [hget] at hpoll
    | some ch => rfl

theorem startup_named (points : FileText) (dir : ConfigDir) :
    PollsNamed (startup fns points dir) := by
  have hempty : ∀ (channels : Table ChannelId (Channel F)) (tables : TableStore F),
      PollsNamed { (newEngine : State F) with channels := channels, tables := tables } := by
    intro channels tables id hpoll
    simp [newEngine] at hpoll
  have hload : ∀ (e e' : State F) content n, PollsNamed e →
      loadDatabase fns content e = .ok (e', n) → PollsNamed e' := by
    intro e e' content n he hloaded
    unfold loadDatabase at hloaded
    cases hgrid : ZincGrid.parse content with
    | error err => simp [hgrid, Except.map] at hloaded
    | ok grid =>
      rw [hgrid] at hloaded
      have hrows := loadRows_named (readRows fns e.tables grid) (s := (e, 0)) he
      have hfst : _ = e' := congrArg Prod.fst (Except.ok.inj hloaded)
      rwa [hfst] at hrows
  unfold startup
  dsimp only
  split
  · split
    · refine hload _ _ _ _ ?_ ‹_›
      split <;> split <;> apply hempty
    · apply setupPolls_named
      split <;> split <;> apply hempty
  · apply setupPolls_named
    split <;> split <;> apply hempty

theorem settled_startup (points : FileText) (dir : ConfigDir) :
    Settled ⟨startup fns points dir, none⟩ where
  named := startup_named fns points dir
  virtual_row _ h := nomatch h
  polled_iff _ h := nomatch h

theorem settled_happen {s : Running F} {h : Happening F} (hs : Settled s) (hlives : Lives s h)
    (htame : Tame s h) : Settled (happen fns s h) := by
  cases h with
  | reload dir => exact settled_reload fns hs htame
  | live e => exact settled_live hs hlives

omit [FloatOps F] in
/-- What is unchanged between two reloads is neither removed nor polled anew. -/
theorem reload_keeps {s : Running F} {before grid : ZincGrid} {after : State F} (hs : Settled s)
    (hlast : s.last = some before) (hreload : Reloaded grid s.engine after) {id : ChannelId}
    {ch : Channel F} (hch : s.engine.channels.get id = some ch)
    (hrows : rowsOf grid id = rowsOf before id) :
    ∃ ch', after.channels.get id = some ch' ∧ liveState ch' = liveState ch ∧
      after.polls.get id = s.engine.polls.get id := by
  have hvirtual : HasVirtualRow grid id ↔ HasVirtualRow before id := by
    unfold HasVirtualRow
    rw [hrows]
  have hpolled : HasPolledRow grid id ↔ HasPolledRow before id := by
    unfold HasPolledRow
    rw [hrows]
  have hsome : (s.engine.channels.get id).isSome := by simp [hch]
  have hstays : after.channels.get id ≠ none := by
    intro hgone
    obtain ⟨hv, hnone⟩ := (hreload.gone_iff id hsome).1 hgone
    exact hnone (hvirtual.2 (hs.virtual_row before hlast id hv))
  have hpolls : (after.polls.get id).isSome ↔ (s.engine.polls.get id).isSome := by
    rw [hreload.polled_iff id hsome, hs.polled_iff before hlast id hsome, hvirtual, hpolled]
  obtain ⟨ch', hch'⟩ := Option.ne_none_iff_exists'.1 hstays
  refine ⟨ch', hch', (hreload.kept id ch ch' hch hch').1, ?_⟩
  cases hitem : s.engine.polls.get id with
  | some item => exact hreload.poll_kept id item hitem (hpolls.2 (by simp [hitem]))
  | none => simpa [hitem] using hpolls

theorem keeps_iff_tame {s : Running F} {h : Happening F} (hs : Settled s) (hlives : Lives s h) :
    Keeps fns s h ↔ Tame s h := by
  cases h with
  | live e => exact iff_of_true ⟨(settled_live hs hlives).named, trivial⟩ trivial
  | reload dir =>
    cases hgrid : dir.grid with
    | none =>
      have htame : Tame s (.reload dir) := fun grid h => nomatch hgrid.symm.trans h
      refine iff_of_true ⟨(settled_reload fns hs htame).named, fun before grid _ h => ?_⟩ htame
      exact nomatch hgrid.symm.trans h
    | some grid =>
      have hreload := reloaded_reloadConfig fns dir s.engine hgrid
      constructor
      · rintro ⟨hnamed, -⟩ grid' hgrid'
        obtain rfl := Option.some.inj (hgrid.symm.trans hgrid')
        exact (pollsNamed_iff hreload).1 hnamed
      · intro htame
        refine ⟨(settled_reload fns hs htame).named, fun before grid' hlast hgrid' id ch hch hrows => ?_⟩
        obtain rfl := Option.some.inj (hgrid.symm.trans hgrid')
        exact reload_keeps hs hlast hreload hch hrows

/-- From its start on, an engine keeps its polls and its unchanged channels through every
    reload exactly if every reload is tame. -/
theorem reloads_keep (points : FileText) (dir : ConfigDir) (happenings : List (Happening F))
    (hlives : Along (happen fns) Lives ⟨startup fns points dir, none⟩ happenings) :
    PollsNamed (startup fns points dir) ∧
      (Along (happen fns) (Keeps fns) ⟨startup fns points dir, none⟩ happenings ↔
        Along (happen fns) Tame ⟨startup fns points dir, none⟩ happenings) := by
  have hiff : ∀ (s : Running F) h, Settled s → Lives s h → (Keeps fns s h ↔ Tame s h) :=
    fun _ _ hs hl => keeps_iff_tame fns hs hl
  have hstep : ∀ (s : Running F) h, Settled s → Lives s h → Tame s h → Settled (happen fns s h) :=
    fun _ _ hs hl htame => settled_happen fns hs hl htame
  exact ⟨startup_named fns points dir,
    along_iff_along (happen fns) hiff hstep (settled_startup fns points dir) hlives⟩

/-- Readings of whole numbers, and of ASCII in lower case. -/
def wholeFns : NumberFns ℚ where
  toLowercase s := s.map Char.toLower
  parseF64 s := (parseI64 s).map fun n => n
  toU32 q := UInt32.ofNat q.floor.toNat
  toUsize q := q.floor.toNat

def databaseDir (content : String) : ConfigDir := ⟨none, fun _ => none, some (.ok content.toList)⟩

def virtualText : String := "ver:\"3.0\"\nchannel,virtualChannel,cur\n7,M,M\n"

def strayText : String := "ver:\"3.0\"\nchannel,virtualChannel,cur\n7,,M\n"

theorem virtualText_grid : (databaseDir virtualText).grid =
    some ⟨["channel", "virtualChannel", "cur"], [["7", "M", "M"]]⟩ := by
  decide +kernel

theorem tame_virtualText (s : Running ℚ) : Tame s (.reload (databaseDir virtualText)) := by
  intro grid hgrid id _ hpolled
  obtain rfl := Option.some.inj (virtualText_grid.symm.trans hgrid)
  obtain ⟨cells, hcells, -⟩ := hpolled
  refine ⟨cells, hcells, ?_⟩
  obtain ⟨row, hrow, rfl⟩ := List.mem_map.1 hcells
  have hzero : row = 0 := by simpa [ZincGrid.rowCount] using (List.mem_filter.1 hrow).1
  subst hzero
  decide +kernel

theorem reloads_keep_virtual : Along (happen wholeFns) (Keeps wholeFns)
    ⟨startup wholeFns none (databaseDir virtualText), none⟩
    [.reload (databaseDir virtualText), .reload (databaseDir virtualText)] :=
  (reloads_keep wholeFns none (databaseDir virtualText)
    [.reload (databaseDir virtualText), .reload (databaseDir virtualText)]
    ⟨trivial, trivial, trivial⟩).2.2 ⟨tame_virtualText _, tame_virtualText _, trivial⟩

/-- The channel loses its marker, is removed and stays on the poll list. -/
theorem removed_channel_polled : ¬ ∀ dir dir' : ConfigDir,
    PollsNamed (reloadConfig wholeFns dir' (reloadConfig wholeFns dir newEngine).1).1 := by
  intro h
  have hpoll := h (databaseDir virtualText) (databaseDir strayText) 7
  revert hpoll
  decide +kernel

end Runs
end Sandstar.Loader
