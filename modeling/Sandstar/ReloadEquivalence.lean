import Sandstar.KeyedFold
import Sandstar.ReloadLive

set_option autoImplicit false

namespace Sandstar.Loader
open Engine Zinc

variable {F : Type} [FloatOps F]

section Seen

structure Seen (F : Type) where
  channel : Option (Channel F)
  isVirtual : Bool
  expected : Bool

def seen (s : GranularLoad F) (id : ChannelId) : Seen F :=
  ⟨s.engine.channels.get id, id ∈ s.newVirtualIds, id ∈ s.expectedPolls⟩

def RowConfig.granularSeen (r : RowConfig F) (s : Seen F) : Seen F :=
  ⟨r.granular s.channel, s.isVirtual || r.isVirtual,
    s.expected || r.isVirtual || r.polled && s.channel.isSome⟩

theorem seen_granularRow (s : GranularLoad F) (r : RowConfig F) (id : ChannelId) :
    seen (granularRow s r) id =
      if id = r.channelId then r.granularSeen (seen s id) else seen s id := by
  have hget := granularRow_get s r id
  have hvirtual := granularRow_newVirtualIds s r id
  have hexpected := granularRow_expectedPolls s r id
  unfold seen RowConfig.granularSeen
  by_cases hid : id = r.channelId
  · subst hid
    simp only [if_true, Seen.mk.injEq]
    refine ⟨by rw [hget, if_pos rfl], ?_, ?_⟩
    · simp [hvirtual]
    · simp [hexpected, Bool.or_assoc]
  · simp only [if_neg hid, Seen.mk.injEq]
    refine ⟨by rw [hget, if_neg hid], ?_, ?_⟩
    · simp [hvirtual, hid]
    · simp [hexpected, hid]

def loadSeen (s : State F × ℕ) (id : ChannelId) : Option (Channel F) × Bool :=
  (s.1.channels.get id, (s.1.polls.get id).isSome)

def RowConfig.freshSeen (r : RowConfig F) (s : Option (Channel F) × Bool) :
    Option (Channel F) × Bool :=
  (r.fresh s.1, s.2 || if r.isVirtual then s.1.isNone else r.polled && s.1.isSome)

theorem loadSeen_loadRow (s : State F × ℕ) (r : RowConfig F) (id : ChannelId) :
    loadSeen (loadRow s r) id =
      if id = r.channelId then r.freshSeen (loadSeen s id) else loadSeen s id := by
  have hget := loadRow_get s r id
  have hpolls := loadRow_polls s r id
  unfold loadSeen RowConfig.freshSeen
  by_cases hid : id = r.channelId
  · simp only [if_pos hid, Prod.mk.injEq]
    refine ⟨by rw [hget, if_pos hid], Bool.eq_iff_iff.2 (hpolls.trans ?_)⟩
    cases r.isVirtual <;> simp [hid]
  · simp only [if_neg hid, Prod.mk.injEq]
    refine ⟨by rw [hget, if_neg hid], Bool.eq_iff_iff.2 (hpolls.trans ?_)⟩
    simp [hid]

end Seen

section Results

variable (fns : NumberFns F)

def rowsAt (rs : List (RowConfig F)) (id : ChannelId) : List (RowConfig F) :=
  rs.filter fun r => r.channelId = id

def granularAt (rs : List (RowConfig F)) (channel : Option (Channel F)) : Seen F :=
  rs.foldl (fun s r => r.granularSeen s) ⟨channel, false, false⟩

def reloadedAt (rs : List (RowConfig F)) (channel : Option (Channel F)) :
    Option (Channel F) × Bool :=
  let s := granularAt rs channel
  (if (channel.any fun ch => ch.channelType.isVirtual) && !s.isVirtual then none else s.channel,
    s.expected)

def freshAt (rs : List (RowConfig F)) (channel : Option (Channel F)) : Option (Channel F) × Bool :=
  rs.foldl (fun s r => r.freshSeen s) (channel, false)

theorem reloadConfig_at (dir : ConfigDir) (e : State F) {grid : ZincGrid}
    (h : dir.grid = some grid) (id : ChannelId) :
    loadSeen ((reloadConfig fns dir e).1, 0) id =
      reloadedAt (rowsAt (readRows fns (reloadedTables fns dir e) grid) id)
        (e.channels.get id) := by
  rw [reloadConfig_grid fns dir e h]
  generalize hnow : ({ e with tables := reloadedTables fns dir e } : State F) = now
  have hchannels : now.channels = e.channels := by rw [← hnow]
  have htables : now.tables = reloadedTables fns dir e := by rw [← hnow]
  have hseen : seen (granularLoop fns now grid) id = granularAt
      (rowsAt (readRows fns (reloadedTables fns dir e) grid) id) (e.channels.get id) := by
    unfold granularLoop
    rw [KeyedFold.view_foldl seen_granularRow, htables]
    simp [granularAt, rowsAt, seen, hchannels]
  have hremoved : id ∈ removedIds fns now grid ↔
      (e.channels.get id).any (fun ch => ch.channelType.isVirtual) = true ∧
        id ∉ (granularLoop fns now grid).newVirtualIds := by
    unfold removedIds
    rw [Finset.mem_filter, mem_virtualIds, hchannels]
    simp [Option.any_eq_true]
  unfold loadSeen reloadedAt
  rw [← hseen]
  simp only [Table.get_retain, diffPolls_get, Prod.mk.injEq, seen]
  constructor
  · by_cases hid : id ∈ removedIds fns now grid
    · obtain ⟨hv, hnew⟩ := hremoved.1 hid
      simp [hid, hv, hnew]
    · have hstays : ((e.channels.get id).any fun ch => ch.channelType.isVirtual) = true →
          id ∈ (granularLoop fns now grid).newVirtualIds := by
        intro hv
        by_contra hnew
        exact hid (hremoved.2 ⟨hv, hnew⟩)
      have hkeep : ((granularLoop fns now grid).engine.channels.get id).filter
          (fun _ => decide (id ∉ removedIds fns now grid)) =
            (granularLoop fns now grid).engine.channels.get id := by
        cases (granularLoop fns now grid).engine.channels.get id <;> simp [hid]
      rw [hkeep]
      refine (if_neg ?_).symm
      simpa using hstays
  · by_cases hid : id ∈ (granularLoop fns now grid).expectedPolls <;> simp [hid]

theorem loadRows_at (rs : List (RowConfig F)) (s : State F × ℕ) (id : ChannelId) :
    loadSeen (rs.foldl loadRow s) id =
      (rowsAt rs id).foldl (fun s r => r.freshSeen s) (loadSeen s id) :=
  KeyedFold.view_foldl loadSeen_loadRow rs s id

end Results
end Sandstar.Loader

/-!
# The granular reload and the fresh load

A reload leaves what `points.csv` and the new database would give an empty engine where it
finds every change: a channel of `points.csv` stays what it is and has a row, and a virtual
channel whose kind or conversion changes has changed in what `channel_config_changed` compares.
-/
namespace Sandstar.Loader
open Engine Zinc Runs

section Derived

variable {F : Type} [FloatOps F] (fns : NumberFns F)

structure ChannelConfig (F : Type) where
  channelType : ChannelType
  direction : ChannelDirection
  enabled : Bool
  label : String
  tags : Table String String
  conv : ValueConv F

def config (ch : Channel F) : ChannelConfig F :=
  ⟨ch.channelType, ch.direction, ch.enabled, ch.label, ch.tags, ch.conv⟩

def pointsTable (points : FileText) : Table ChannelId (Channel F) :=
  match points with
  | some (.ok content) => (loadPoints fns content Table.empty).1
  | _ => Table.empty

/-- A channel of an engine beside the channel of `points.csv` with its number: what
    configurations leave of the one if there is one, else a virtual channel. -/
def DerivedFrom (id : ChannelId) : Option (Channel F) → Option (Channel F) → Prop
  | some p, c => ∃ ch, c = some ch ∧ ch.channelType = p.channelType ∧ ch.direction = p.direction ∧
      (ch.conv.convFunc = p.conv.convFunc ∨
        ch.conv.convFunc = keptConvFunc id none p.conv.convFunc)
  | none, c => ∀ ch, c = some ch → ch.channelType.isVirtual = true ∧ ch.direction = .none

def Derived (points : Table ChannelId (Channel F)) (e : State F) : Prop :=
  ∀ id, DerivedFrom id (points.get id) (e.channels.get id)

/-- A row keeps the conversion function of its channel and can make virtual ones only. -/
structure RowConfig.WellFormed (r : RowConfig F) : Prop where
  convFunc : r.conv.convFunc = none
  channelType : r.channelType.isVirtual = true

theorem readRows_wellFormed (tables : TableStore F) (grid : ZincGrid) :
    ∀ r ∈ readRows fns tables grid, r.WellFormed := by
  intro r hr
  obtain ⟨row, -, hread⟩ := List.mem_filterMap.1 hr
  unfold readRow at hread
  by_cases hneg : grid.integer row "channel" (-1) < 0
  · simp [hneg] at hread
  · rw [if_neg hneg] at hread
    cases hread
    refine ⟨rfl, ?_⟩
    dsimp only
    split_ifs <;> rfl

omit [FloatOps F] in
theorem keptConvFunc_kept (id : ChannelId) (own : Option ConversionFn) :
    keptConvFunc id none (keptConvFunc id none own) = keptConvFunc id none own := by
  simp only [keptConvFunc, Option.isNone_none, if_true]
  split_ifs <;> simp_all

omit [FloatOps F] in
/-- Both channels of a pair take the same configuration from a row that is not virtual. -/
theorem config_update {id : ChannelId} {p ch : Channel F} {r : RowConfig F} (hr : r.WellFormed)
    (hid : r.channelId = id) (h : DerivedFrom id (some p) (some ch)) :
    config (r.update ch) = config (r.update p) := by
  obtain ⟨ch', hch, htype, hdir, hconv⟩ := h
  obtain rfl := Option.some.inj hch
  have hkept : keptConvFunc r.channelId r.conv.convFunc ch.conv.convFunc =
      keptConvFunc r.channelId r.conv.convFunc p.conv.convFunc := by
    rw [hr.convFunc, hid]
    rcases hconv with hconv | hconv
    · rw [hconv]
    · rw [hconv, keptConvFunc_kept]
  simp only [config, RowConfig.update, htype, hdir, hkept]

omit [FloatOps F] in
theorem derivedFrom_update {id : ChannelId} {p c : Option (Channel F)} {r : RowConfig F}
    (hr : r.WellFormed) (hid : r.channelId = id) (h : DerivedFrom id p c) :
    DerivedFrom id p (c.map r.update) := by
  cases p with
  | none =>
    intro ch' hch'
    obtain ⟨ch, hch, rfl⟩ := Option.map_eq_some_iff.1 hch'
    exact h ch hch
  | some p =>
    obtain ⟨ch, rfl, htype, hdir, hconv⟩ := h
    refine ⟨r.update ch, rfl, htype, hdir, .inr ?_⟩
    change keptConvFunc r.channelId r.conv.convFunc ch.conv.convFunc = _
    rw [hr.convFunc, hid]
    rcases hconv with hconv | hconv
    · rw [hconv]
    · rw [hconv, keptConvFunc_kept]

theorem RowConfig.granular_physical {r : RowConfig F} (hv : r.isVirtual = false)
    (c : Option (Channel F)) : r.granular c = c.map r.update := by
  cases c <;> simp [RowConfig.granular, hv]

theorem RowConfig.fresh_physical {r : RowConfig F} (hv : r.isVirtual = false)
    (c : Option (Channel F)) : r.fresh c = c.map r.update := by
  cases c <;> simp [RowConfig.fresh, hv]

theorem derivedFrom_granular {id : ChannelId} {p c : Option (Channel F)} {r : RowConfig F}
    (hr : r.WellFormed) (hid : r.channelId = id) (hstays : r.isVirtual = true → p = none)
    (h : DerivedFrom id p c) : DerivedFrom id p (r.granular c) := by
  cases hv : r.isVirtual with
  | false =>
    rw [RowConfig.granular_physical hv]
    exact derivedFrom_update hr hid h
  | true =>
    obtain rfl := hstays hv
    intro ch' hch'
    cases c with
    | none =>
      simp only [RowConfig.granular, hv, if_true, Option.some.injEq] at hch'
      subst hch'
      exact ⟨hr.channelType, rfl⟩
    | some ch =>
      obtain ⟨hvirtual, hdir⟩ := h ch rfl
      simp only [RowConfig.granular, hv, if_true, Option.some.injEq] at hch'
      subst hch'
      split_ifs
      · exact ⟨hr.channelType, hdir⟩
      · exact ⟨hvirtual, hdir⟩

theorem derivedFrom_fresh {id : ChannelId} {p c : Option (Channel F)} {r : RowConfig F}
    (hr : r.WellFormed) (hid : r.channelId = id) (h : DerivedFrom id p c) :
    DerivedFrom id p (r.fresh c) := by
  cases hv : r.isVirtual with
  | false =>
    rw [RowConfig.fresh_physical hv]
    exact derivedFrom_update hr hid h
  | true =>
    cases c with
    | some ch => simpa [RowConfig.fresh, hv] using h
    | none =>
      cases p with
      | some p => exact absurd h (by rintro ⟨ch, hch, -⟩; cases hch)
      | none =>
        intro ch' hch'
        simp only [RowConfig.fresh, hv, if_true, Option.some.injEq] at hch'
        subst hch'
        exact ⟨hr.channelType, rfl⟩

end Derived

section Agreement

variable {F : Type} [FloatOps F]

def AgreeOn (a b : Option (Channel F) × Bool) : Prop := a.1.map config = b.1.map config ∧ a.2 = b.2

/-- A channel of `points.csv` is not virtual and has no virtual row. -/
structure KindKept (p : Option (Channel F)) (rs : List (RowConfig F)) : Prop where
  physical : ∀ q, p = some q → q.channelType.isVirtual = false
  noVirtualRow : ∀ r ∈ rs, r.isVirtual = true → p = none

/-- A channel of `points.csv` without a row is as it was in `points.csv`, another one that
    exists has no row that polls it without making it virtual, and a virtual row of a channel
    whose type or conversion is another one has changed in what is compared. -/
structure Noticed (p c : Option (Channel F)) (rs : List (RowConfig F)) : Prop where
  unmentioned : rs = [] → ∀ q, p = some q → c.map config = some (config q)
  unpolled : ∀ r ∈ rs, r.isVirtual = false → r.polled = true → c.isSome → p.isSome
  detected : ∀ r ∈ rs, r.isVirtual = true → ∀ ch, c = some ch →
    channelConfigChanged ch r = true ∨ (ch.channelType = r.channelType ∧ ch.conv = r.conv)

theorem agreeOn_nil {id : ChannelId} {p c : Option (Channel F)} (h : DerivedFrom id p c) :
    AgreeOn (reloadedAt [] c) (freshAt [] p) ↔ KindKept p [] ∧ Noticed p c [] := by
  have hright : (KindKept p [] ∧ Noticed p c []) ↔ ∀ q, p = some q →
      q.channelType.isVirtual = false ∧ c.map config = some (config q) := by
    constructor
    · rintro ⟨hkind, hnoticed⟩ q hq
      exact ⟨hkind.physical q hq, hnoticed.unmentioned rfl q hq⟩
    · intro hall
      exact ⟨⟨fun q hq => (hall q hq).1, by simp⟩, ⟨fun _ q hq => (hall q hq).2, by simp, by simp⟩⟩
  rw [hright]
  simp only [AgreeOn, reloadedAt, granularAt, freshAt, List.foldl_nil, Bool.not_false, Bool.and_true,
    and_true]
  cases p with
  | none =>
    cases c with
    | none => simp
    | some ch => simp [(h ch rfl).1]
  | some p =>
    obtain ⟨ch, rfl, htype, -⟩ := h
    cases hv : p.channelType.isVirtual <;> simp [htype, hv]

theorem channelConfigChanged_false {ch : Channel F} {r : RowConfig F}
    (h : channelConfigChanged ch r = false) :
    ch.label = r.label ∧ ch.enabled = r.enabled ∧ ch.tags = r.tags := by
  simp only [channelConfigChanged, Bool.or_eq_false_iff, decide_eq_false_iff_not, ne_eq,
    not_not] at h
  tauto

theorem agreeOn_virtual {id : ChannelId} {p c : Option (Channel F)} {r : RowConfig F}
    (hv : r.isVirtual = true) (h : DerivedFrom id p c) :
    AgreeOn (reloadedAt [r] c) (freshAt [r] p) ↔ KindKept p [r] ∧ Noticed p c [r] := by
  have hleft : AgreeOn (reloadedAt [r] c) (freshAt [r] p) ↔
      (r.granular c).map config = (r.fresh p).map config ∧ p = none := by
    simp [AgreeOn, reloadedAt, granularAt, freshAt, RowConfig.granularSeen, RowConfig.freshSeen, hv]
  rw [hleft]
  cases p with
  | some p =>
    refine iff_of_false (fun h => Option.some_ne_none p h.2) (fun h => ?_)
    cases h.1.noVirtualRow r List.mem_cons_self hv
  | none =>
    have hright : (KindKept none [r] ∧ Noticed none c [r]) ↔ ∀ ch, c = some ch →
        channelConfigChanged ch r = true ∨ (ch.channelType = r.channelType ∧ ch.conv = r.conv) := by
      constructor
      · rintro ⟨-, hnoticed⟩
        exact hnoticed.detected r List.mem_cons_self hv
      · intro hall
        exact ⟨⟨by simp, by simp⟩, ⟨by simp, by simp [hv], by simpa [hv] using hall⟩⟩
    rw [hright]
    cases c with
    | none => simp [RowConfig.granular, RowConfig.fresh]
    | some ch =>
      have hdir := (h ch rfl).2
      have hnew : config (r.finish r.newChannel) =
          ⟨r.channelType, .none, r.enabled, r.label, r.tags, r.conv⟩ := by
        cases hen : r.enabled <;> simp [config, RowConfig.finish, RowConfig.newChannel, Channel.new, hen]
      cases hchanged : channelConfigChanged ch r with
      | true =>
        have hreplace : config (r.replace ch) =
            ⟨r.channelType, .none, r.enabled, r.label, r.tags, r.conv⟩ := by
          simp [config, RowConfig.replace, hdir]
        simp [RowConfig.granular, RowConfig.fresh, hv, hchanged, hnew, hreplace]
      | false =>
        obtain ⟨hlabel, henabled, htags⟩ := channelConfigChanged_false hchanged
        have hold : config ch = ⟨ch.channelType, .none, r.enabled, r.label, r.tags, ch.conv⟩ := by
          simp [config, hlabel, henabled, htags, hdir]
        simp [RowConfig.granular, RowConfig.fresh, hv, hchanged, hnew, hold]

theorem agreeOn_physical {id : ChannelId} {p c : Option (Channel F)} {r : RowConfig F}
    (hr : r.WellFormed) (hid : r.channelId = id) (hv : r.isVirtual = false)
    (h : DerivedFrom id p c) :
    AgreeOn (reloadedAt [r] c) (freshAt [r] p) ↔ KindKept p [r] ∧ Noticed p c [r] := by
  have hright : (KindKept p [r] ∧ Noticed p c [r]) ↔
      (∀ q, p = some q → q.channelType.isVirtual = false) ∧
        (r.polled = true → c.isSome → p.isSome) := by
    constructor
    · rintro ⟨hkind, hnoticed⟩
      exact ⟨hkind.physical, hnoticed.unpolled r List.mem_cons_self hv⟩
    · rintro ⟨hphysical, hunpolled⟩
      exact ⟨⟨hphysical, by simp [hv]⟩, ⟨by simp, by simpa [hv] using hunpolled, by simp [hv]⟩⟩
  rw [hright]
  simp only [AgreeOn, reloadedAt, granularAt, freshAt, List.foldl_cons, List.foldl_nil,
    RowConfig.granularSeen, RowConfig.freshSeen, RowConfig.granular_physical hv,
    RowConfig.fresh_physical hv, hv, Bool.or_false, Bool.false_or, Bool.not_false, Bool.and_true]
  cases p with
  | none =>
    cases c with
    | none => simp
    | some ch => cases hp : r.polled <;> simp [(h ch rfl).1]
  | some p =>
    have hpair := h
    obtain ⟨ch, rfl, htype, -⟩ := hpair
    have hsame := config_update hr hid h
    cases hvirtual : p.channelType.isVirtual <;> simp [htype, hvirtual, hsame]

theorem agreeOn_iff {id : ChannelId} {p c : Option (Channel F)} {rs : List (RowConfig F)}
    (hr : ∀ r ∈ rs, r.WellFormed ∧ r.channelId = id) (hone : rs = [] ∨ ∃ r, rs = [r])
    (h : DerivedFrom id p c) :
    AgreeOn (reloadedAt rs c) (freshAt rs p) ↔ KindKept p rs ∧ Noticed p c rs := by
  obtain rfl | ⟨r, rfl⟩ := hone
  · exact agreeOn_nil h
  · obtain ⟨hwell, hid⟩ := hr r List.mem_cons_self
    cases hv : r.isVirtual with
    | true => exact agreeOn_virtual hv h
    | false => exact agreeOn_physical hwell hid hv h

end Agreement

section Runs

variable {F : Type} [FloatOps F] (fns : NumberFns F) (points : FileText)

inductive Configuring
  | load (content : List Char)
  | reload (dir : ConfigDir)

def configure (e : State F) : Configuring → State F
  | .load content => match loadDatabase fns content e with
    | .ok (e, _) => e
    | .error _ => e
  | .reload dir => (reloadConfig fns dir e).1

/-- The engine with `points.csv` and these tables, and no database yet. -/
def bare (tables : TableStore F) : State F :=
  { newEngine with channels := pointsTable fns points, tables := tables }

def channelNumbers (grid : ZincGrid) : List ChannelId :=
  (List.range grid.rowCount).filterMap (channelNumber grid)

structure SameConfig (a b : State F) : Prop where
  channels : ∀ id, (a.channels.get id).map config = (b.channels.get id).map config
  polls : ∀ id, (a.polls.get id).isSome = (b.polls.get id).isSome

/-- A reload of a database with distinct channel numbers leaves what a fresh load leaves. -/
def Rebuilds (e : State F) : Configuring → Prop
  | .load _ => True
  | .reload dir => ∀ content grid fresh count, dir.database = some (.ok content) →
      ZincGrid.parse content = .ok grid → (channelNumbers grid).Nodup →
      loadDatabase fns content (bare fns points (reloadConfig fns dir e).1.tables) =
        .ok (fresh, count) → SameConfig (reloadConfig fns dir e).1 fresh

/-- In a reload every channel of `points.csv` keeps its kind, and where the channel numbers
    are distinct every change is noticed. -/
def ChangesFound (e : State F) : Configuring → Prop
  | .load _ => True
  | .reload dir => ∀ grid, dir.grid = some grid → ∀ id,
      let rs := rowsAt (readRows fns (reloadedTables fns dir e) grid) id
      KindKept ((pointsTable fns points).get id) rs ∧ ((channelNumbers grid).Nodup →
        Noticed ((pointsTable fns points).get id) (e.channels.get id) rs)

theorem channelNumbers_eq (tables : TableStore F) (grid : ZincGrid) :
    (readRows fns tables grid).map RowConfig.channelId = channelNumbers grid := by
  unfold readRows channelNumbers
  rw [List.map_filterMap]
  congr 1
  funext row
  cases hread : readRow fns tables grid row with
  | none => exact (readRow_none fns tables grid hread).symm
  | some r => exact (readRow_some fns tables grid hread).1.symm

omit [FloatOps F] in
theorem mem_rowsAt {rs : List (RowConfig F)} {id : ChannelId} {r : RowConfig F} :
    r ∈ rowsAt rs id ↔ r ∈ rs ∧ r.channelId = id := by
  simp [rowsAt]

theorem rowsAt_wellFormed (tables : TableStore F) (grid : ZincGrid) (id : ChannelId) :
    ∀ r ∈ rowsAt (readRows fns tables grid) id, r.WellFormed ∧ r.channelId = id := by
  intro r hr
  obtain ⟨hread, hid⟩ := mem_rowsAt.1 hr
  exact ⟨readRows_wellFormed fns tables grid r hread, hid⟩

theorem derivedFrom_loaded {id : ChannelId} {p : Option (Channel F)} {rs : List (RowConfig F)}
    (hr : ∀ r ∈ rs, r.WellFormed ∧ r.channelId = id) {s : Option (Channel F) × Bool}
    (h : DerivedFrom id p s.1) : DerivedFrom id p (rs.foldl (fun s r => r.freshSeen s) s).1 := by
  have hkeep : ∀ r ∈ rs, ∀ v : Option (Channel F) × Bool, DerivedFrom id p v.1 →
      DerivedFrom id p (r.freshSeen v).1 :=
    fun r hmem v hv => derivedFrom_fresh (hr r hmem).1 (hr r hmem).2 hv
  exact KeyedFold.foldl_keeps (I := fun v : Option (Channel F) × Bool => DerivedFrom id p v.1) hkeep h

theorem derivedFrom_reloaded {id : ChannelId} {p c : Option (Channel F)} {rs : List (RowConfig F)}
    (hr : ∀ r ∈ rs, r.WellFormed ∧ r.channelId = id) (hkind : KindKept p rs)
    (h : DerivedFrom id p c) : DerivedFrom id p (reloadedAt rs c).1 := by
  have hkeep : ∀ r ∈ rs, ∀ v : Seen F, DerivedFrom id p v.channel →
      DerivedFrom id p (r.granularSeen v).channel :=
    fun r hmem v hv =>
      derivedFrom_granular (hr r hmem).1 (hr r hmem).2 (hkind.noVirtualRow r hmem) hv
  have hloop : DerivedFrom id p (granularAt rs c).channel :=
    KeyedFold.foldl_keeps (I := fun v : Seen F => DerivedFrom id p v.channel) hkeep h
  unfold reloadedAt
  dsimp only
  split_ifs with hgone
  · cases p with
    | none => exact fun ch hch => nomatch hch
    | some p =>
      obtain ⟨ch, rfl, htype, -⟩ := h
      simp [htype, hkind.physical p rfl] at hgone
  · exact hloop

theorem derived_configure {e : State F} {a : Configuring} (h : Derived (pointsTable fns points) e)
    (ha : ChangesFound fns points e a) :
    Derived (pointsTable fns points) (configure fns e a) := by
  intro id
  cases a with
  | load content =>
    cases hparse : ZincGrid.parse content with
    | error err =>
      simp only [configure, loadDatabase, hparse, Except.map]
      exact h id
    | ok grid =>
      simp only [configure, loadDatabase, hparse, Except.map]
      have hat := loadRows_at (readRows fns e.tables grid) (e, 0) id
      have hloaded := derivedFrom_loaded (rowsAt_wellFormed fns e.tables grid id)
        (s := loadSeen (e, 0) id) (h id)
      rw [← hat] at hloaded
      exact hloaded
  | reload dir =>
    cases hgrid : dir.grid with
    | none =>
      have hchannels : (configure fns e (.reload dir)).channels = e.channels := by
        change (reloadConfig fns dir e).1.channels = e.channels
        rw [reloadConfig_fallback fns dir e hgrid, fallbackPolls_engine]
      rw [hchannels]
      exact h id
    | some grid =>
      have hat := congrArg Prod.fst (reloadConfig_at fns dir e hgrid id)
      have hreloaded := derivedFrom_reloaded
        (rowsAt_wellFormed fns (reloadedTables fns dir e) grid id) (ha grid hgrid id).1 (h id)
      rw [← hat] at hreloaded
      exact hreloaded

theorem derived_bare (tables : TableStore F) :
    Derived (pointsTable fns points) (bare fns points tables) := by
  intro id
  change DerivedFrom id _ ((pointsTable fns points).get id)
  cases (pointsTable fns points).get id with
  | none => exact fun ch hch => nomatch hch
  | some p => exact ⟨p, rfl, rfl, rfl, .inl rfl⟩

theorem startup_bare (dir : ConfigDir) : ∃ tables, startup fns points dir =
    match dir.database with
    | some (.ok content) => match loadDatabase fns content (bare fns points tables) with
      | .ok (e, _) => e
      | .error _ => (setupPolls (bare fns points tables)).1
    | _ => (setupPolls (bare fns points tables)).1 := by
  unfold startup bare pointsTable
  rcases points with _ | message | content <;> cases dir.tablesCsv <;> exact ⟨_, rfl⟩

theorem derived_startup (dir : ConfigDir) :
    Derived (pointsTable fns points) (startup fns points dir) := by
  obtain ⟨tables, hstart⟩ := startup_bare fns points dir
  have hbare := derived_bare fns points tables
  rw [hstart]
  split
  · rename_i content _
    have hload := derived_configure fns points (a := .load content) hbare trivial
    unfold configure at hload
    dsimp only at hload
    split
    · rename_i hok
      rwa [hok] at hload
    · exact hbare
  · exact hbare

theorem freshAt_bare (tables tables' : TableStore F) (grid : ZincGrid) (id : ChannelId) :
    loadSeen ((readRows fns tables grid).foldl loadRow (bare fns points tables', 0)) id =
      freshAt (rowsAt (readRows fns tables grid) id) ((pointsTable fns points).get id) := by
  rw [loadRows_at]
  rfl

theorem sameConfig_iff {dir : ConfigDir} {e : State F} {content : List Char} {grid : ZincGrid}
    {fresh : State F} {count : ℕ} (hfile : dir.database = some (.ok content))
    (hparse : ZincGrid.parse content = .ok grid)
    (hfresh : loadDatabase fns content (bare fns points (reloadConfig fns dir e).1.tables) =
      .ok (fresh, count)) :
    SameConfig (reloadConfig fns dir e).1 fresh ↔ ∀ id,
      let rs := rowsAt (readRows fns (reloadedTables fns dir e) grid) id
      AgreeOn (reloadedAt rs (e.channels.get id))
        (freshAt rs ((pointsTable fns points).get id)) := by
  have hgrid : dir.grid = some grid := by simp [ConfigDir.grid, hfile, hparse, Except.toOption]
  rw [reloadConfig_tables fns dir e hgrid] at hfresh
  simp only [loadDatabase, hparse, Except.map, Except.ok.injEq] at hfresh
  have hat : ∀ id, loadSeen (fresh, count) id = freshAt
      (rowsAt (readRows fns (reloadedTables fns dir e) grid) id)
      ((pointsTable fns points).get id) := by
    intro id
    rw [← hfresh]
    exact freshAt_bare fns points _ _ grid id
  have hreload := reloadConfig_at fns dir e hgrid
  constructor
  · rintro ⟨hchannels, hpolls⟩ id
    dsimp only
    rw [← hat, ← hreload]
    exact ⟨hchannels id, hpolls id⟩
  · intro hall
    simp only [← hat, ← hreload] at hall
    exact ⟨fun id => (hall id).1, fun id => (hall id).2⟩

theorem rebuilds_of_changesFound {e : State F} {a : Configuring}
    (h : Derived (pointsTable fns points) e) (ha : ChangesFound fns points e a) :
    Rebuilds fns points e a := by
  cases a with
  | load content => trivial
  | reload dir =>
    intro content grid fresh count hfile hparse hdistinct hfresh
    have hgrid : dir.grid = some grid := by simp [ConfigDir.grid, hfile, hparse, Except.toOption]
    refine (sameConfig_iff fns points hfile hparse hfresh).2 fun id => ?_
    have hone := KeyedFold.filter_of_nodup
      ((channelNumbers_eq fns (reloadedTables fns dir e) grid).symm ▸ hdistinct) id
    obtain ⟨hkind, hnoticed⟩ := ha grid hgrid id
    exact (agreeOn_iff (rowsAt_wellFormed fns _ grid id) hone (h id)).2 ⟨hkind, hnoticed hdistinct⟩

/-- The databases of the reloads have distinct channel numbers. -/
def Distinct : Configuring → Prop
  | .load _ => True
  | .reload dir => ∀ grid, dir.grid = some grid → (channelNumbers grid).Nodup

theorem ConfigDir.grid_eq_some {dir : ConfigDir} {grid : ZincGrid} (h : dir.grid = some grid) :
    ∃ content, dir.database = some (.ok content) ∧ ZincGrid.parse content = .ok grid := by
  unfold ConfigDir.grid at h
  split at h
  · rename_i content hfile
    cases hparse : ZincGrid.parse content with
    | error err => simp [hparse, Except.toOption] at h
    | ok parsed =>
      simp only [hparse, Except.toOption, Option.some.injEq] at h
      exact ⟨content, hfile, h ▸ hparse⟩
  · cases h

theorem changesFound_of_rebuilds {e : State F} {a : Configuring} (hdistinct : Distinct a)
    (h : Derived (pointsTable fns points) e) (ha : Rebuilds fns points e a) :
    ChangesFound fns points e a := by
  cases a with
  | load content => trivial
  | reload dir =>
    intro grid hgrid id
    obtain ⟨content, hfile, hparse⟩ := ConfigDir.grid_eq_some hgrid
    obtain ⟨⟨fresh, count⟩, hfresh⟩ : ∃ result, loadDatabase fns content
        (bare fns points (reloadConfig fns dir e).1.tables) = .ok result := by
      simp [loadDatabase, hparse, Except.map]
    have hnodup := hdistinct grid hgrid
    have hone := KeyedFold.filter_of_nodup
      ((channelNumbers_eq fns (reloadedTables fns dir e) grid).symm ▸ hnodup) id
    have hsame := ha content grid fresh count hfile hparse hnodup hfresh
    have hagree := (sameConfig_iff fns points hfile hparse hfresh).1 hsame id
    obtain ⟨hkind, hnoticed⟩ :=
      (agreeOn_iff (rowsAt_wellFormed fns _ grid id) hone (h id)).1 hagree
    exact ⟨hkind, fun _ => hnoticed⟩

/-- From its start on, an engine is rebuilt by every reload if every reload finds what has
    changed, and only then where the channel numbers are distinct. -/
theorem reloads_rebuild (dir : ConfigDir) (configurings : List Configuring) :
    (Along (configure fns) (ChangesFound fns points) (startup fns points dir) configurings →
      Along (configure fns) (Rebuilds fns points) (startup fns points dir) configurings) ∧
    ((∀ a ∈ configurings, Distinct a) →
      Along (configure fns) (Rebuilds fns points) (startup fns points dir) configurings →
      Along (configure fns) (ChangesFound fns points) (startup fns points dir) configurings) := by
  have hstart := derived_startup fns points dir
  have hkeep : ∀ (e : State F) a, Derived (pointsTable fns points) e →
      ChangesFound fns points e a → Derived (pointsTable fns points) (configure fns e a) :=
    fun _ _ he ha => derived_configure fns points he ha
  constructor
  · intro hfound
    have hiff : ∀ (e : State F) a, Derived (pointsTable fns points) e →
        ChangesFound fns points e a → (Rebuilds fns points e a ↔ ChangesFound fns points e a) :=
      fun _ _ he ha => iff_of_true (rebuilds_of_changesFound fns points he ha) ha
    exact (along_iff_along (configure fns) hiff (fun e a he _ => hkeep e a he) hstart hfound).2 hfound
  · intro hdistinct hrebuilds
    have hiff : ∀ (e : State F) a, Derived (pointsTable fns points) e →
        Distinct a ∧ Rebuilds fns points e a →
        (Rebuilds fns points e a ↔ ChangesFound fns points e a) :=
      fun _ _ he hd => iff_of_true hd.2 (changesFound_of_rebuilds fns points hd.1 he hd.2)
    exact (along_iff_along (configure fns) hiff (fun e a he _ => hkeep e a he) hstart
      (along_and (configure fns) hdistinct hrebuilds)).1 hrebuilds

def pointsText : String := "number,label,x,type,direction,device,address\n5,Fan,x,analog,in,0,1\n"

def fanText : String :=
  "ver:\"3.0\"\nchannel,navName,virtualChannel\n5,Fan,\n7,Limit,M\n"

def renamedText : String :=
  "ver:\"3.0\"\nchannel,navName,virtualChannel\n5,Exhaust,\n7,Ceiling,M\n"

def renamedGrid : ZincGrid :=
  ⟨["channel", "navName", "virtualChannel"], [["5", "Exhaust", ""], ["7", "Ceiling", "M"]]⟩

def fanEngine : State ℚ := startup wholeFns (some (.ok pointsText.toList)) (databaseDir fanText)

def renamedEngine : State ℚ := configure wholeFns fanEngine (.reload (databaseDir renamedText))

/-- What `points.csv` and the database that renames its input say. -/
theorem renamedText_read :
    (pointsTable wholeFns (some (.ok pointsText.toList))).keys = {5} ∧
    ((pointsTable wholeFns (some (.ok pointsText.toList))).get 5).map
      (fun q => q.channelType.isVirtual) = some false ∧
    ZincGrid.parse renamedText.toList = .ok renamedGrid ∧ (channelNumbers renamedGrid).Nodup ∧
    (readRows wholeFns [] renamedGrid).map (fun r => (r.channelId, r.isVirtual, r.label)) =
      [(5, false, "Exhaust"), (7, true, "Ceiling")] := by
  decide +kernel

theorem pointsText_points {id : ChannelId} {q : Channel ℚ}
    (h : (pointsTable wholeFns (some (.ok pointsText.toList))).get id = some q) :
    id = 5 ∧ q.channelType.isVirtual = false := by
  obtain ⟨hkeys, htype, -⟩ := renamedText_read
  have hid : id = 5 := by
    by_contra hne
    have hnone := (Table.get_eq_none_iff (pointsTable wholeFns (some (.ok pointsText.toList))) id).2
      (by rw [hkeys]; simpa using hne)
    rw [hnone] at h
    cases h
  subst hid
  rw [h] at htype
  exact ⟨rfl, Option.some.inj htype⟩

/-- The number, the marker and the label of a row do not depend on the tables. -/
theorem readRows_labels (tables : TableStore ℚ) (grid : ZincGrid) :
    (readRows wholeFns tables grid).map (fun r => (r.channelId, r.isVirtual, r.label)) =
      (readRows wholeFns [] grid).map fun r => (r.channelId, r.isVirtual, r.label) := by
  unfold readRows
  rw [List.map_filterMap, List.map_filterMap]
  congr 1
  funext row
  unfold readRow
  dsimp only
  split_ifs <;> rfl

/-- The reload that renames the input finds another label on the virtual channel. -/
theorem changesFound_renamed {e : State ℚ}
    (hold : ∀ ch, e.channels.get 7 = some ch → ch.label ≠ "Ceiling") :
    ChangesFound wholeFns (some (.ok pointsText.toList)) e (.reload (databaseDir renamedText)) := by
  intro grid hgrid id rs
  obtain ⟨-, hfive, hparse, -, hrows⟩ := renamedText_read
  have hrenamed : (databaseDir renamedText).grid = some renamedGrid := by
    simp [ConfigDir.grid, databaseDir, hparse, Except.toOption]
  obtain rfl := Option.some.inj (hrenamed.symm.trans hgrid)
  rw [← readRows_labels (reloadedTables wholeFns (databaseDir renamedText) e)] at hrows
  have hread : ∀ r ∈ rs, r.channelId = id ∧ (r.isVirtual = false ∧ id = 5 ∨
      r.isVirtual = true ∧ id = 7 ∧ r.label = "Ceiling") := by
    intro r hr
    obtain ⟨hr, hid⟩ := mem_rowsAt.1 hr
    have hmem := List.mem_map_of_mem (f := fun r => (r.channelId, r.isVirtual, r.label)) hr
    rw [hrows] at hmem
    simp only [List.mem_cons, Prod.mk.injEq, List.not_mem_nil, or_false] at hmem
    obtain ⟨hfive, hv, -⟩ | ⟨hseven, hv, hlabel⟩ := hmem
    · exact ⟨hid, .inl ⟨hv, hid ▸ hfive⟩⟩
    · exact ⟨hid, .inr ⟨hv, hid ▸ hseven, hlabel⟩⟩
  refine ⟨⟨fun q hq => (pointsText_points hq).2, ?_⟩, fun _ => ⟨?_, ?_, ?_⟩⟩
  · intro r hr hv
    obtain ⟨-, ⟨hphysical, -⟩ | ⟨-, rfl, -⟩⟩ := hread r hr
    · cases hphysical.symm.trans hv
    · exact Option.eq_none_iff_forall_ne_some.2 fun q hq => absurd (pointsText_points hq).1 (by decide)
  · intro hnone q hq
    obtain ⟨rfl, -⟩ := pointsText_points hq
    obtain ⟨r, hr, heq⟩ := List.mem_map.1 (hrows ▸ List.mem_cons_self :
      ((5 : ChannelId), false, "Exhaust") ∈ _)
    have hrow : r ∈ rs := mem_rowsAt.2 ⟨hr, (Prod.mk.inj heq).1⟩
    rw [hnone] at hrow
    cases hrow
  · intro r hr hv _ _
    obtain ⟨-, ⟨-, rfl⟩ | ⟨hvirtual, -, -⟩⟩ := hread r hr
    · have hsome := congrArg Option.isSome hfive
      rwa [Option.isSome_map] at hsome
    · cases hvirtual.symm.trans hv
  · intro r hr hv ch hch
    obtain ⟨-, ⟨hphysical, -⟩ | ⟨-, rfl, hlabel⟩⟩ := hread r hr
    · cases hphysical.symm.trans hv
    · have hne := hold ch hch
      rw [← hlabel] at hne
      exact .inl (by simp [channelConfigChanged, hne])

/-- The labels before the reload, and those of a fresh load in its place. -/
theorem loaded_labels :
    ((fanEngine.channels.get 5).map Channel.label = some "Fan" ∧
      (fanEngine.channels.get 7).map Channel.label = some "Limit") ∧
    (loadDatabase wholeFns renamedText.toList
      (bare wholeFns (some (.ok pointsText.toList))
        (reloadConfig wholeFns (databaseDir renamedText) fanEngine).1.tables)).toOption.map (fun s =>
          ((s.1.channels.get 5).map Channel.label, (s.1.channels.get 7).map Channel.label)) =
      some (some "Exhaust", some "Ceiling") := by
  decide +kernel

/-- The labels after the reload are those of a fresh load. -/
theorem renamedEngine_labels (h : Rebuilds wholeFns (some (.ok pointsText.toList)) fanEngine
      (.reload (databaseDir renamedText))) :
    (renamedEngine.channels.get 5).map Channel.label = some "Exhaust" ∧
    (renamedEngine.channels.get 7).map Channel.label = some "Ceiling" := by
  obtain ⟨-, -, hparse, hnodup, -⟩ := renamedText_read
  obtain ⟨⟨fresh, count⟩, hfresh⟩ : ∃ result, loadDatabase wholeFns renamedText.toList
      (bare wholeFns (some (.ok pointsText.toList))
        (reloadConfig wholeFns (databaseDir renamedText) fanEngine).1.tables) = .ok result := by
    simp [loadDatabase, hparse, Except.map]
  have hload := loaded_labels.2
  rw [hfresh] at hload
  obtain ⟨hfive, hseven⟩ := Prod.mk.inj (Option.some.inj hload)
  have hsame := h _ _ fresh count rfl hparse hnodup hfresh
  have hlabel : ∀ id, (renamedEngine.channels.get id).map Channel.label =
      (fresh.channels.get id).map Channel.label := fun id => by
    have hconfig := congrArg (Option.map ChannelConfig.label) (hsame.channels id)
    rwa [Option.map_map, Option.map_map] at hconfig
  exact ⟨(hlabel 5).trans hfive, (hlabel 7).trans hseven⟩

/-- The reload finds what has changed, and renames both channels. -/
theorem reloads_rebuild_renamed :
    Along (configure wholeFns) (Rebuilds wholeFns (some (.ok pointsText.toList))) fanEngine
      [.reload (databaseDir renamedText)] ∧
    ((fanEngine.channels.get 5).map Channel.label = some "Fan" ∧
      (fanEngine.channels.get 7).map Channel.label = some "Limit") ∧
    (renamedEngine.channels.get 5).map Channel.label = some "Exhaust" ∧
    (renamedEngine.channels.get 7).map Channel.label = some "Ceiling" := by
  have hold : ∀ ch, fanEngine.channels.get 7 = some ch → ch.label ≠ "Ceiling" := by
    intro ch hch hceiling
    have hlabel := loaded_labels.1.2
    rw [hch] at hlabel
    exact absurd (hceiling.symm.trans (Option.some.inj hlabel)) (by decide)
  have hrebuilds := (reloads_rebuild wholeFns (some (.ok pointsText.toList)) (databaseDir fanText)
    [.reload (databaseDir renamedText)]).1 ⟨changesFound_renamed hold, trivial⟩
  exact ⟨hrebuilds, loaded_labels.1, renamedEngine_labels hrebuilds.1⟩

def virtualFiveText : String := "ver:\"3.0\"\nchannel,virtualChannel\n5,M\n"

/-- A virtual row turns the input into a virtual channel. -/
theorem input_becomes_virtual : ¬ ∀ (points : FileText) (dir dir' : ConfigDir),
    Rebuilds wholeFns points (startup wholeFns points dir) (.reload dir') := by
  intro h
  have hrebuilds := h (some (.ok pointsText.toList)) ⟨none, fun _ => none, none⟩
    (databaseDir virtualFiveText) virtualFiveText.toList ⟨["channel", "virtualChannel"], [["5", "M"]]⟩
  obtain ⟨⟨fresh, count⟩, hfresh⟩ : ∃ result, loadDatabase wholeFns virtualFiveText.toList
      (bare wholeFns (some (.ok pointsText.toList)) []) = .ok result := by
    simp only [loadDatabase, show ZincGrid.parse virtualFiveText.toList =
      .ok ⟨["channel", "virtualChannel"], [["5", "M"]]⟩ by decide +kernel, Except.map]
    exact ⟨_, rfl⟩
  have hanalog : (loadDatabase wholeFns virtualFiveText.toList
      (bare wholeFns (some (.ok pointsText.toList)) [])).toOption.bind (fun s =>
        (s.1.channels.get 5).map Channel.channelType) = some .analog := by
    decide +kernel
  have hvirtual : ((reloadConfig wholeFns (databaseDir virtualFiveText) (startup wholeFns
      (some (.ok pointsText.toList)) ⟨none, fun _ => none, none⟩)).1.channels.get 5).map
        Channel.channelType = some .virtualDigital := by
    decide +kernel
  have hsame := hrebuilds fresh count rfl (by decide +kernel) (by decide +kernel) hfresh
  have htype := congrArg (Option.map ChannelConfig.channelType) (hsame.channels 5)
  rw [Option.map_map, Option.map_map] at htype
  rw [hfresh] at hanalog
  exact absurd (hvirtual.symm.trans (htype.trans hanalog)) (by decide)

end Runs
end Sandstar.Loader
