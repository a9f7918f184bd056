import Sandstar.ReloadEquivalence

set_option autoImplicit false

namespace Sandstar.Loader
open Engine Zinc

section Bindings

variable {F : Type} [FloatOps F] (fns : NumberFns F)

omit [FloatOps F] in
theorem findByTag_get {tables : TableStore F} {tag : String} {i : ℕ}
    (h : tables.findByTag tag = some i) : ∃ t, tables.get i = some t ∧ t.tag = tag := by
  obtain ⟨hlt, hfound, -⟩ := List.findIdx?_eq_some_iff_getElem.1 h
  unfold TableStore.get
  rw [List.getElem?_eq_getElem hlt]
  cases hslot : tables[i] with
  | none => simp [hslot] at hfound
  | some t => exact ⟨t, rfl, by simpa [hslot] using hfound⟩

omit [FloatOps F] in
/-- A binding names a marker of the row and the place of a table that carries its tag. -/
theorem tableBinding_get {grid : ZincGrid} {row : ℕ} {tables : TableStore F} {tag : String} {i : ℕ}
    (h : tableBinding grid row tables = some (tag, i)) :
    grid.marker row tag = true ∧ ∃ t, tables.get i = some t ∧ t.tag = tag := by
  unfold tableBinding at h
  obtain ⟨tag', -, hbound⟩ := List.exists_of_findSome?_eq_some h
  split_ifs at hbound with hmarker
  obtain ⟨idx, hidx, heq⟩ := Option.map_eq_some_iff.1 hbound
  cases heq
  exact ⟨hmarker, findByTag_get hidx⟩

theorem RowConfig.granular_tableIndex {r : RowConfig F} {c : Option (Channel F)} {ch : Channel F}
    (h : r.granular c = some ch) : ch.conv.tableIndex = r.conv.tableIndex := by
  cases hv : r.isVirtual with
  | false =>
    rw [RowConfig.granular_physical hv] at h
    obtain ⟨old, -, rfl⟩ := Option.map_eq_some_iff.1 h
    rfl
  | true =>
    cases c with
    | none =>
      simp only [RowConfig.granular, hv, if_true, Option.some.injEq] at h
      subst h
      rfl
    | some old =>
      simp only [RowConfig.granular, hv, if_true, Option.some.injEq] at h
      subst h
      cases hchanged : channelConfigChanged old r with
      | true => rfl
      | false =>
        simp only [channelConfigChanged, Bool.or_eq_false_iff, decide_eq_false_iff_not, ne_eq,
          not_not] at hchanged
        simp only [Bool.false_eq_true, if_false]
        tauto

/-- The last row of a channel counts. -/
theorem reloadedAt_tableIndex {rs : List (RowConfig F)} {c : Option (Channel F)} {ch : Channel F}
    (hne : rs ≠ []) (h : (reloadedAt rs c).1 = some ch) :
    ∃ r ∈ rs, ch.conv.tableIndex = r.conv.tableIndex := by
  obtain ⟨before, r, rfl⟩ := rs.eq_nil_or_concat.resolve_left hne
  refine ⟨r, by simp, ?_⟩
  unfold reloadedAt at h
  dsimp only at h
  split_ifs at h
  unfold granularAt at h
  rw [List.concat_eq_append, List.foldl_append] at h
  exact RowConfig.granular_tableIndex h

theorem readRow_tableIndex {tables : TableStore F} {grid : ZincGrid} {row : ℕ} {r : RowConfig F}
    (h : readRow fns tables grid row = some r) :
    r.conv.tableIndex = (tableBinding grid row tables).map Prod.snd := by
  unfold readRow at h
  by_cases hneg : grid.integer row "channel" (-1) < 0
  · simp [hneg] at h
  · rw [if_neg hneg] at h
    cases h
    rfl

end Bindings

section Failures

variable {F : Type} [FloatOps F] (fns : NumberFns F)

/-- There is a `database.zinc`, and it cannot be read. -/
def ConfigDir.databaseFails (dir : ConfigDir) : Prop := dir.database.isSome ∧ dir.grid = none

def isInput (e : State F) (id : ChannelId) : Prop :=
  ∃ ch, e.channels.get id = some ch ∧ ch.direction.isOutput = false ∧ ch.enabled = true

def inputs (e : State F) : Table ChannelId (Channel F) :=
  e.channels.retain fun _ ch => !ch.direction.isOutput && ch.enabled

omit [FloatOps F] in
theorem inputs_get (e : State F) (id : ChannelId) : ((inputs e).get id).isSome = true ↔ isInput e id := by
  unfold inputs isInput
  rw [Table.get_retain]
  cases e.channels.get id <;> simp

omit [FloatOps F] in
theorem inputs_size (e : State F) : (inputs e).size = 0 ↔ ¬ ∃ id, isInput e id := by
  simp only [← inputs_get, not_exists, Bool.not_eq_true, Option.isSome_eq_false_iff, Option.isNone_iff_eq_none]
  constructor
  · intro h id
    rw [Table.get_eq_none_iff, Finset.card_eq_zero.1 h]
    simp
  · intro h
    refine Finset.card_eq_zero.2 (Finset.eq_empty_of_forall_notMem fun id hid => ?_)
    exact (Table.get_eq_none_iff _ id).1 (h id) hid

theorem setupPolls_get (e : State F) (id : ChannelId) :
    (setupPolls { e with polls := Table.empty }).1.polls.get id =
      ((inputs e).get id).map fun _ => pollItem := by
  have hempty : (Table.empty ∪ (inputs e).mapValues fun _ => pollItem : Table ChannelId (PollItem F)) =
      (inputs e).mapValues fun _ => pollItem := Finmap.empty_union
  change Table.get (Table.empty ∪ (inputs e).mapValues fun _ => pollItem) id = _
  rw [hempty, Table.get_mapValues]

theorem fallbackPolls_inputs {e : State F} (h : ∃ id, isInput e id) (id : ChannelId) :
    ((fallbackPolls e).polls.get id).isSome = true ↔ isInput e id := by
  have hsize : ¬ ((inputs e).size = 0 ∧
      (setupPolls { e with polls := Table.empty }).1.polls.size = 0) := by
    rw [inputs_size]
    exact fun hnone => hnone.1 h
  unfold fallbackPolls
  change ((if (inputs e).size = 0 ∧ (setupPolls { e with polls := Table.empty }).1.polls.size = 0
    then _ else _ : State F).polls.get id).isSome = true ↔ _
  rw [if_neg hsize]
  have hsome := congrArg Option.isSome (setupPolls_get e id)
  rw [Option.isSome_map] at hsome
  exact (Bool.eq_iff_iff.1 hsome).trans (inputs_get e id)

theorem fallbackPolls_none {e : State F} (h : ¬ ∃ id, isInput e id) :
    (fallbackPolls e).polls = e.polls := by
  have hpolls : (setupPolls { e with polls := Table.empty }).1.polls.size = 0 := by
    refine Finset.card_eq_zero.2 (Finset.eq_empty_of_forall_notMem fun id hid => ?_)
    refine (Table.get_eq_none_iff _ id).1 ?_ hid
    rw [setupPolls_get, Option.map_eq_none_iff, Table.get_eq_none_iff,
      Finset.card_eq_zero.1 ((inputs_size e).2 h)]
    simp
  unfold fallbackPolls
  change (if (inputs e).size = 0 ∧ (setupPolls { e with polls := Table.empty }).1.polls.size = 0
    then _ else _ : State F).polls = _
  rw [if_pos ⟨(inputs_size e).2 h, hpolls⟩]

/-- What a reload leaves alone, and what it binds. -/
theorem reload_failures (dir : ConfigDir) (e : State F) :
    (dir.tablesCsv = none → (reloadConfig fns dir e).1.tables = e.tables) ∧
    (dir.databaseFails → (reloadConfig fns dir e).1.channels = e.channels ∧
      ((∃ id, isInput e id) → ∀ id,
        ((reloadConfig fns dir e).1.polls.get id).isSome = true ↔ isInput e id) ∧
      ((¬ ∃ id, isInput e id) → (reloadConfig fns dir e).1.polls = e.polls)) ∧
    ∀ grid, dir.grid = some grid → ∀ id ch i, rowsOf grid id ≠ [] →
      (reloadConfig fns dir e).1.channels.get id = some ch → ch.conv.tableIndex = some i →
      ∃ row tag table, channelNumber grid row = some id ∧ grid.marker row tag = true ∧
        tableBinding grid row (reloadConfig fns dir e).1.tables = some (tag, i) ∧
        (reloadConfig fns dir e).1.tables.get i = some table ∧ table.tag = tag := by
  refine ⟨fun hnone => ?_, fun hfails => ?_, fun grid hgrid id ch i hrows hch hindex => ?_⟩
  · have htables : reloadedTables fns dir e = e.tables := by simp [reloadedTables, reloadTables, hnone]
    cases hgrid : dir.grid with
    | some grid =>
      rw [reloadConfig_tables fns dir e hgrid, htables]
    | none =>
      rw [reloadConfig_fallback fns dir e hgrid, fallbackPolls_engine, htables]
  · have hreload := reloadConfig_fallback fns dir e hfails.2
    refine ⟨?_, fun hsome id => ?_, fun hnone => ?_⟩
    · rw [hreload, fallbackPolls_engine]
    · rw [hreload]
      exact fallbackPolls_inputs (e := { e with tables := reloadedTables fns dir e }) hsome id
    · rw [hreload]
      exact fallbackPolls_none (e := { e with tables := reloadedTables fns dir e }) hnone
  · have hat := congrArg Prod.fst (reloadConfig_at fns dir e hgrid id)
    have hne : rowsAt (readRows fns (reloadedTables fns dir e) grid) id ≠ [] := by
      obtain ⟨cells, hcells⟩ := List.exists_mem_of_ne_nil _ hrows
      obtain ⟨r, hr, hid, -⟩ := (exists_row_iff fns (reloadedTables fns dir e) grid
        (p := fun _ => true) (q := fun _ => true) (fun _ _ _ => rfl) id).2 ⟨cells, hcells, rfl⟩
      exact List.ne_nil_of_mem (mem_rowsAt.2 ⟨hr, hid⟩)
    obtain ⟨r, hr, htable⟩ := reloadedAt_tableIndex hne (hat.symm.trans hch)
    obtain ⟨hread, hid⟩ := mem_rowsAt.1 hr
    obtain ⟨row, -, hrow⟩ := List.mem_filterMap.1 hread
    rw [htable, readRow_tableIndex fns hrow] at hindex
    obtain ⟨⟨tag, j⟩, hbound, rfl⟩ := Option.map_eq_some_iff.1 hindex
    obtain ⟨hmarker, table, hget, htag⟩ := tableBinding_get hbound
    rw [reloadConfig_tables fns dir e hgrid]
    exact ⟨row, tag, table, hid ▸ (readRow_some fns _ grid hrow).1, hmarker, hbound, hget, htag⟩

/-- An input that was not polled is polled after a database that cannot be read. -/
theorem failed_reload_polls : ¬ ∀ (dir : ConfigDir) (e : State ℚ), dir.databaseFails →
    ∀ id, ((reloadConfig wholeFns dir e).1.polls.get id).isSome = (e.polls.get id).isSome := by
  intro h
  have hpoll := h (databaseDir "no grid")
    { newEngine with channels := pointsTable wholeFns (some (.ok pointsText.toList)) }
    ⟨rfl, by decide +kernel⟩ 5
  revert hpoll
  decide +kernel

end Failures
end Sandstar.Loader
