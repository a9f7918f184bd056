import Sandstar.EngineWatches
import Sandstar.Runs

set_option autoImplicit false

/-!
# The bounds of the watch table

The limit on channels is checked against one request, so a watch that is extended
again and again outgrows it. Everything else that the table promises holds over
every history; the ids that were given out are kept beside the table to say so.
-/
namespace Sandstar.Watches
open Engine Runs WatchTable

variable {F : Type}

structure WatchState.Sound (w : WatchState F) : Prop where
  nodup : w.channels.Nodup
  bound : w.channels.length ≤ maxChannelsPerWatch
  keys : ∀ c, (w.lastValues.get c).isSome → c ∈ w.channels

structure Ledger (F : Type) where
  table : WatchTable F
  issued : List String

structure Ledger.Sound (l : Ledger F) : Prop where
  size : l.table.watches.size ≤ maxWatches
  fresh : l.issued.Nodup
  known : ∀ id w, l.table.watches.get id = some w → id ∈ l.issued
  watches : ∀ id w, l.table.watches.get id = some w → w.Sound

inductive Command (F : Type)
  | watchSub (hal : Hal F) (now : Instant) (e : State F) (watchId displayName : Option String)
      (channels : List ChannelId)
  | watchUnsub (watchId : String) (close : Bool) (channels : List ChannelId)
  | watchPoll (hal : Hal F) (now : Instant) (e : State F) (watchId : String) (refresh : Bool)
  | expireStaleWatches (now : Instant)

namespace Ledger

def record (l : Ledger F) (t : WatchTable F) : Ledger F :=
  ⟨t, if t.watchCounter = l.table.watchCounter then l.issued
    else l.issued ++ [watchName t.watchCounter]⟩

variable [FloatOps F]

def handle (t : WatchTable F) : Command F → Option (WatchTable F)
  | .watchSub hal now e watchId displayName channels =>
    (t.watchSub (engineReader hal now) now e watchId displayName channels).map fun p => p.2.1
  | .watchUnsub watchId close channels => some (t.watchUnsub watchId close channels).1
  | .watchPoll hal now e watchId refresh =>
    (t.watchPoll (engineReader hal now) now e watchId refresh).map fun p => p.2.1
  | .expireStaleWatches now => some (t.expireStaleWatches now)

/-- `none` is the server after a panic of a read. -/
def step (s : Option (Ledger F)) (cmd : Command F) : Option (Ledger F) :=
  s.bind fun l => (handle l.table cmd).map l.record

/-- A subscription that runs to its end keeps the distinct channels of the watch
    it extends within the limit, or makes one of the first `2 ^ 64` watches. -/
def Fits : Option (Ledger F) → Command F → Prop
  | some l, .watchSub hal now e watchId _ channels =>
    let t := l.table.expireStaleWatches now
    let asked := channels.filter ((engineReader hal now).present e)
    channels.length ≤ maxChannelsPerWatch → Returns (engineReader hal now) e asked →
      match watchId.filter (fun id => (t.watches.get id).isSome) with
      | some id => ∀ w, t.watches.get id = some w →
        (w.channels.toFinset ∪ asked.toFinset).card ≤ maxChannelsPerWatch
      | none => t.watches.size < maxWatches → l.issued.length < 2 ^ 64
  | _, _ => True

end Ledger

theorem digitChar_inj {a b : ℕ} (ha : a < 16) (hb : b < 16)
    (h : Nat.digitChar a = Nat.digitChar b) : a = b := by
  have hall : ∀ a < 16, ∀ b < 16, Nat.digitChar a = Nat.digitChar b → a = b := by decide
  exact hall a ha b hb h

theorem toDigits_injective : Function.Injective (Nat.toDigits 16) := by
  intro a
  induction a using Nat.strong_induction_on with
  | _ a ih =>
    intro b h
    by_cases ha : a < 16
    · by_cases hb : b < 16
      · rw [Nat.toDigits_of_lt_base ha, Nat.toDigits_of_lt_base hb, List.singleton_inj] at h
        exact digitChar_inj ha hb h
      · rw [Nat.toDigits_of_lt_base ha, Nat.toDigits_of_base_le (by omega) (by omega)] at h
        have hlen := congrArg List.length h
        have hpos := Nat.length_toDigits_pos (b := 16) (n := b / 16)
        simp only [List.length_cons, List.length_nil, List.length_append] at hlen
        omega
    · by_cases hb : b < 16
      · rw [Nat.toDigits_of_lt_base hb, Nat.toDigits_of_base_le (by omega) (by omega)] at h
        have hlen := congrArg List.length h
        have hpos := Nat.length_toDigits_pos (b := 16) (n := a / 16)
        simp only [List.length_cons, List.length_nil, List.length_append] at hlen
        omega
      · rw [Nat.toDigits_of_base_le (by omega) (by omega : 16 ≤ a),
          Nat.toDigits_of_base_le (by omega) (by omega : 16 ≤ b)] at h
        obtain ⟨hdiv, hmod⟩ := List.append_inj' h rfl
        have hq := ih (a / 16) (by omega) hdiv
        have hr := digitChar_inj (Nat.mod_lt a (by omega)) (Nat.mod_lt b (by omega))
          (List.singleton_inj.1 hmod)
        omega

theorem watchName_injective : Function.Injective watchName := by
  intro a b h
  have hlists := congrArg String.toList h
  simp only [watchName, String.toList_append, String.toList_ofList,
    List.append_cancel_left_eq] at hlists
  exact UInt64.toNat_inj.1 (toDigits_injective hlists)

def names (n : ℕ) : List String := (List.range n).map fun k => watchName (UInt64.ofNat (k + 1))

theorem names_succ (n : ℕ) : names (n + 1) = names n ++ [watchName (UInt64.ofNat (n + 1))] := by
  simp [names, List.range_succ]

theorem names_nodup {n : ℕ} (hn : n ≤ 2 ^ 64) : (names n).Nodup := by
  apply List.Nodup.map_on
  · intro a ha b hb h
    have heq := congrArg UInt64.toNat (watchName_injective h)
    rw [UInt64.toNat_ofNat', UInt64.toNat_ofNat'] at heq
    rw [List.mem_range] at ha hb
    omega
  · exact List.nodup_range

/-- The id after the first `2 ^ 64` is the first one again. -/
theorem watchName_wraps : watchName (UInt64.ofNat (2 ^ 64 + 1)) ∈ names (2 ^ 64) := by
  refine List.mem_map.2 ⟨0, List.mem_range.2 (by norm_num), ?_⟩
  rfl

/-- What the run carries besides: the ids are the first ones, in order. -/
structure Ledger.Inv (l : Ledger F) : Prop extends l.Sound where
  counter : l.table.watchCounter = UInt64.ofNat l.issued.length
  named : l.issued = names l.issued.length
  few : l.issued.length ≤ 2 ^ 64

namespace Ledger

theorem Inv.keep {l : Ledger F} (h : l.Inv) {t : WatchTable F}
    (hcounter : t.watchCounter = l.table.watchCounter) (hsize : t.watches.size ≤ maxWatches)
    (hget : ∀ id w, t.watches.get id = some w → id ∈ l.issued ∧ w.Sound) :
    (l.record t).Inv := by
  unfold record
  rw [if_pos hcounter]
  exact ⟨⟨hsize, h.fresh, fun id w hw => (hget id w hw).1, fun id w hw => (hget id w hw).2⟩,
    hcounter.trans h.counter, h.named, h.few⟩

theorem record_issued {l : Ledger F} {t : WatchTable F}
    (hcounter : t.watchCounter = l.table.watchCounter + 1) :
    (l.record t).issued = l.issued ++ [watchName t.watchCounter] := by
  have hne : t.watchCounter ≠ l.table.watchCounter := by simp [hcounter]
  exact if_neg hne

theorem Inv.next {l : Ledger F} (h : l.Inv) {t : WatchTable F}
    (hcounter : t.watchCounter = l.table.watchCounter + 1) :
    t.watchCounter = UInt64.ofNat (l.issued.length + 1) := by
  rw [hcounter, h.counter, UInt64.ofNat_add]
  rfl

theorem Inv.issue {l : Ledger F} (h : l.Inv) {t : WatchTable F}
    (hcounter : t.watchCounter = l.table.watchCounter + 1) (hfew : l.issued.length < 2 ^ 64)
    (hsize : t.watches.size ≤ maxWatches)
    (hget : ∀ id w, t.watches.get id = some w →
      (id ∈ l.issued ∨ id = watchName t.watchCounter) ∧ w.Sound) : (l.record t).Inv := by
  have hissued := record_issued hcounter
  have hlength : (l.record t).issued.length = l.issued.length + 1 := by simp [hissued]
  have hnamed : (l.record t).issued = names (l.record t).issued.length := by
    rw [hlength, names_succ, ← h.named, hissued, h.next hcounter]
  refine ⟨⟨hsize, ?_, fun id w hw => ?_, fun id w hw => (hget id w hw).2⟩, ?_, hnamed, by omega⟩
  · rw [hnamed]
    exact names_nodup (by omega)
  · rw [hissued]
    exact List.mem_append.2 ((hget id w hw).1.imp_right List.mem_singleton.2)
  · rw [hlength]
    exact h.next hcounter

end Ledger

theorem WatchState.Sound.subscribed {w : WatchState F} (h : w.Sound) {asked : List ChannelId}
    {values : Table ChannelId (F × String)} {now : Instant}
    (hbound : (w.channels.toFinset ∪ asked.toFinset).card ≤ maxChannelsPerWatch)
    (hvalues : ∀ a, (values.get a).isSome → (w.lastValues.get a).isSome ∨ a ∈ asked) :
    WatchState.Sound ⟨w.displayName, asked.foldl pushChannel w.channels, values, now⟩ where
  nodup := nodup_foldl_pushChannel h.nodup asked
  bound := (length_foldl_pushChannel h.nodup asked).trans_le hbound
  keys c hc := (mem_foldl_pushChannel _ _ _).2 ((hvalues c hc).imp_left (h.keys c))

theorem created_sound (id : String) (displayName : Option String) (now : Instant) :
    (created (F := F) id displayName now).Sound where
  nodup := List.nodup_nil
  bound := Nat.zero_le _
  keys c hc := by simp [created] at hc

theorem isSome_foldl_erase {values : Table ChannelId (F × String)} {channels : List ChannelId}
    {c : ChannelId} (h : ((channels.foldl Table.erase values).get c).isSome) :
    (values.get c).isSome ∧ c ∉ channels := by
  induction channels generalizing values with
  | nil => exact ⟨h, by simp⟩
  | cons a rest ih =>
    obtain ⟨hvalue, hrest⟩ := ih h
    rw [Table.get_erase] at hvalue
    split_ifs at hvalue with hca
    · simp at hvalue
    · exact ⟨hvalue, by simp [hca, hrest]⟩

theorem WatchState.Sound.unsubscribed {w : WatchState F} (h : w.Sound)
    (channels : List ChannelId) :
    WatchState.Sound { w with
      channels := w.channels.filter (· ∉ channels)
      lastValues := channels.foldl Table.erase w.lastValues } where
  nodup := h.nodup.filter _
  bound := (List.length_filter_le _ _).trans h.bound
  keys c hc := by
    obtain ⟨hvalue, hc'⟩ := isSome_foldl_erase hc
    simp [h.keys c hvalue, hc']

namespace Ledger

section Step

variable {l l' : Ledger F}

theorem Inv.expired (h : l.Inv) (now : Instant) {id : String} {w : WatchState F}
    (hw : (l.table.expireStaleWatches now).watches.get id = some w) :
    id ∈ l.issued ∧ w.Sound := by
  rw [get_expireStaleWatches] at hw
  have hold := (Option.filter_eq_some_iff.1 hw).1
  exact ⟨h.known id w hold, h.watches id w hold⟩

theorem size_expireStaleWatches_le (h : l.Inv) (now : Instant) :
    (l.table.expireStaleWatches now).watches.size ≤ maxWatches :=
  (Table.size_retain_le _ _).trans h.size

theorem Inv.replace (h : l.Inv) {t : WatchTable F} {id : String} {w w' : WatchState F}
    (hcounter : t.watchCounter = l.table.watchCounter) (hsize : t.watches.size ≤ maxWatches)
    (hget : ∀ id w, t.watches.get id = some w → id ∈ l.issued ∧ w.Sound)
    (hw : t.watches.get id = some w) (hw' : w'.Sound) :
    (l.record ⟨t.watches.insert id w', t.watchCounter⟩).Inv := by
  refine h.keep hcounter ((Table.size_insert_present hw w').trans_le hsize) fun a v hv => ?_
  rw [Table.get_insert] at hv
  split_ifs at hv with ha
  · cases hv
    exact ⟨ha ▸ (hget id w hw).1, hw'⟩
  · exact hget a v hv

theorem card_asked_le {channels : List ChannelId} (p : ChannelId → Bool)
    (hlen : channels.length ≤ maxChannelsPerWatch) :
    (channels.filter p).toFinset.card ≤ maxChannelsPerWatch :=
  ((List.toFinset_card_le _).trans (List.length_filter_le _ _)).trans hlen

theorem Fits.extend [FloatOps F] {hal : Hal F} {now : Instant} {e : State F} {wid : String}
    {displayName : Option String} {channels : List ChannelId} {w : WatchState F}
    (h : Fits (some l) (.watchSub hal now e (some wid) displayName channels))
    (hlen : channels.length ≤ maxChannelsPerWatch)
    (hreturns : Returns (engineReader hal now) e
      (channels.filter ((engineReader hal now).present e)))
    (hw : (l.table.expireStaleWatches now).watches.get wid = some w) :
    (w.channels.toFinset ∪ (channels.filter ((engineReader hal now).present e)).toFinset).card ≤
      maxChannelsPerWatch := by
  have hfits := h hlen hreturns
  rw [Option.filter_some, if_pos (by rw [hw]; rfl)] at hfits
  exact hfits w hw

theorem inv_new : (⟨WatchTable.new, []⟩ : Ledger F).Inv := by
  refine ⟨⟨Nat.zero_le _, List.nodup_nil, fun id w hw => ?_, fun id w hw => ?_⟩, rfl, rfl,
    Nat.zero_le _⟩
  · simp [WatchTable.new] at hw
  · simp [WatchTable.new] at hw

theorem Inv.watchUnsub (h : l.Inv) (id : String) (close : Bool) (channels : List ChannelId) :
    (l.record (l.table.watchUnsub id close channels).1).Inv := by
  have hall := fun a v hv => And.intro (h.known a v hv) (h.watches a v hv)
  unfold WatchTable.watchUnsub
  cases hw : l.table.watches.get id with
  | none => exact h.keep rfl h.size hall
  | some w =>
    dsimp only
    split_ifs
    · refine h.keep rfl ((Table.size_erase_le _ _).trans h.size) fun a v hv => ?_
      rw [Table.get_erase] at hv
      split_ifs at hv
      exact hall a v hv
    · exact h.replace rfl h.size hall hw ((h.watches id w hw).unsubscribed channels)

variable [FloatOps F] {hal : Hal F} {now : Instant} {e : State F}
  {watchId displayName : Option String} {channels : List ChannelId} {t' : WatchTable F}

theorem Inv.watchSub (h : l.Inv)
    (hfits : Fits (some l) (.watchSub hal now e watchId displayName channels))
    (ht : handle l.table (.watchSub hal now e watchId displayName channels) = some t') :
    (l.record t').Inv := by
  obtain ⟨⟨e', t, r⟩, hsub, rfl⟩ := Option.map_eq_some_iff.1 ht
  have hexpired := fun id w (hw : (l.table.expireStaleWatches now).watches.get id = some w) =>
    h.expired now hw
  have hsize := size_expireStaleWatches_le h now
  rcases watchSub_cases hsub with
    ⟨-, rfl, -⟩ | ⟨wid, t₁, w, values, rows, hlen, hwid, hw, -, hreturns, hvalues, rfl, -⟩
  · exact h.keep rfl hsize hexpired
  · have hbound := hfits hlen hreturns
    rcases resolveWatch_cases hwid with ⟨hfilter, rfl⟩ | ⟨hfilter, hroom, rfl, rfl⟩
    · rw [hfilter] at hbound
      exact h.replace rfl hsize hexpired hw ((hexpired wid w hw).2.subscribed (hbound w hw) hvalues)
    · rw [hfilter] at hbound
      rw [Table.get_insert_self, Option.some.injEq] at hw
      subst w
      have hasked := card_asked_le ((engineReader hal now).present e) hlen
      refine h.issue rfl (hbound hroom) ?_ fun a v hv => ?_
      · rw [Table.insert_insert]
        exact (Table.size_insert_le _ _ _).trans hroom
      · rw [Table.insert_insert, Table.get_insert] at hv
        split_ifs at hv with ha
        · cases hv
          exact ⟨Or.inr ha, (created_sound _ displayName now).subscribed
            (by simpa [created] using hasked) hvalues⟩
        · exact ⟨Or.inl (hexpired a v hv).1, (hexpired a v hv).2⟩

theorem Inv.watchPoll (h : l.Inv) {id : String} {refresh : Bool}
    (ht : handle l.table (.watchPoll hal now e id refresh) = some t') : (l.record t').Inv := by
  have hall := fun a v hv => And.intro (h.known a v hv) (h.watches a v hv)
  obtain ⟨⟨e', t, r⟩, hpoll, rfl⟩ := Option.map_eq_some_iff.1 ht
  rcases watchPoll_cases hpoll with ⟨-, -, rfl, -⟩ | ⟨w, values, rows, hw, -, hvalues, rfl, -⟩
  · exact h.keep rfl h.size hall
  · have hsound := h.watches id w hw
    exact h.replace rfl h.size hall hw ⟨hsound.nodup, hsound.bound,
      fun c hc => (hvalues c hc).elim (hsound.keys c) fun hmem => hmem⟩

theorem Inv.handled (h : l.Inv) {cmd : Command F} (hfits : Fits (some l) cmd)
    (ht : handle l.table cmd = some t') : (l.record t').Inv := by
  cases cmd with
  | watchSub hal now e watchId displayName channels => exact h.watchSub hfits ht
  | watchUnsub watchId close channels =>
    cases ht
    exact h.watchUnsub watchId close channels
  | watchPoll hal now e watchId refresh => exact h.watchPoll ht
  | expireStaleWatches now =>
    cases ht
    exact h.keep rfl (size_expireStaleWatches_le h now) fun id w hw => h.expired now hw

/-- A subscription outside the condition overfills its watch or gives out an id a
    second time. -/
theorem Inv.unfit (h : l.Inv)
    (hfits : ¬ Fits (some l) (.watchSub hal now e watchId displayName channels)) :
    ∃ t', handle l.table (.watchSub hal now e watchId displayName channels) = some t' ∧
      ¬ (l.record t').Sound := by
  simp only [Fits, not_forall] at hfits
  obtain ⟨hlen, hreturns, hfits⟩ := hfits
  have hsub : ∀ wid t₁, (l.table.expireStaleWatches now).resolveWatch now watchId displayName =
      .ok (wid, t₁) → ∃ w values, t₁.watches.get wid = some w ∧
        handle l.table (.watchSub hal now e watchId displayName channels) =
          some ⟨t₁.watches.insert wid ⟨w.displayName,
            (channels.filter ((engineReader hal now).present e)).foldl pushChannel w.channels,
            values, now⟩, t₁.watchCounter⟩ := by
    intro wid t₁ hwid
    obtain ⟨e', t', rows, hresult⟩ := watchSub_returns hlen hwid hreturns
    rcases watchSub_cases hresult with ⟨-, -, message, hmessage⟩ |
      ⟨wid', t₁', w, values, rows', -, hwid', hw, -, -, -, rfl, -⟩
    · cases hmessage
    · cases hwid.symm.trans hwid'
      exact ⟨w, values, hw, by rw [Ledger.handle, hresult]; rfl⟩
  cases hfilter : watchId.filter fun id =>
      ((l.table.expireStaleWatches now).watches.get id).isSome with
  | some wid =>
    rw [hfilter] at hfits
    simp only [not_forall, not_le] at hfits
    obtain ⟨w, hw, hcard⟩ := hfits
    obtain ⟨w', values, hw', ht⟩ := hsub wid _ (by rw [resolveWatch, hfilter])
    cases hw.symm.trans hw'
    refine ⟨_, ht, fun hsound => ?_⟩
    have hbound := (hsound.watches wid _ (Table.get_insert_self _ _ _)).bound
    rw [length_foldl_pushChannel (h.expired now hw).2.nodup] at hbound
    exact absurd hbound (Nat.not_le.2 hcard)
  | none =>
    rw [hfilter] at hfits
    simp only [not_forall, not_lt] at hfits
    obtain ⟨hroom, hmany⟩ := hfits
    have hlast : l.issued.length = 2 ^ 64 := Nat.le_antisymm h.few hmany
    obtain ⟨w, values, -, ht⟩ := hsub _ _ (by rw [resolveWatch, hfilter]; exact if_neg (by omega))
    refine ⟨_, ht, fun hsound => ?_⟩
    have hfresh := hsound.fresh
    rw [record_issued rfl, h.next rfl, hlast, h.named, hlast] at hfresh
    exact List.disjoint_of_nodup_append hfresh watchName_wraps (List.mem_singleton.2 rfl)

/-- The table keeps its bounds over a run exactly where no subscription outgrows
    its watch and no id comes round again. -/
theorem table_sound_iff (cmds : List (Command F)) :
    (∀ s ∈ states step (some ⟨WatchTable.new, []⟩) cmds, ∀ l, s = some l → l.Sound) ↔
      Along step Fits (some ⟨WatchTable.new, []⟩) cmds := by
  apply states_iff_along step (I := fun s => ∀ l, s = some l → l.Inv)
  · exact fun s hs l hl => (hs l hl).toSound
  · intro s cmd hs hfits l' hl'
    cases s with
    | none => cases hl'
    | some l =>
      obtain ⟨t', ht, rfl⟩ := Option.map_eq_some_iff.1 hl'
      exact (hs l rfl).handled hfits ht
  · intro s cmd hs hfits hsound
    cases s with
    | none => exact hfits trivial
    | some l =>
      cases cmd with
      | watchSub hal now e watchId displayName channels =>
        obtain ⟨t', ht, hn⟩ := (hs l rfl).unfit hfits
        exact hn (hsound _ (by simp [step, ht]))
      | watchUnsub watchId close channels => exact hfits trivial
      | watchPoll hal now e watchId refresh => exact hfits trivial
      | expireStaleWatches now => exact hfits trivial
  · intro l hl
    cases hl
    exact inv_new

end Step

section Example

def idleChannel : Channel ℚ :=
  { Channel.new 0 .virtualAnalog .none 0 0 false ValueConv.default "idle" with enabled := false }

def idleEngine (ids : List ChannelId) : State ℚ :=
  ⟨ids.foldl (fun t c => t.insert c idleChannel) Table.empty, [], Table.empty, [], [],
    Table.empty⟩

variable {ids cs : List ChannelId} {c : ChannelId}

theorem idleEngine_get (hc : c ∈ ids) : (idleEngine ids).channels.get c = some idleChannel := by
  have hfold : ∀ (cs : List ChannelId) (t : Table ChannelId (Channel ℚ)),
      (cs.foldl (fun t c => t.insert c idleChannel) t).get c =
        if c ∈ cs then some idleChannel else t.get c := by
    intro cs
    induction cs with
    | nil => simp
    | cons a cs ih =>
      intro t
      rw [List.foldl_cons, ih, Table.get_insert]
      by_cases hcs : c ∈ cs
      · simp [hcs]
      · by_cases ha : c = a <;> simp [hcs, ha]
  rw [idleEngine, hfold, if_pos hc]

theorem idleEngine_returns (hcs : ∀ c ∈ cs, c ∈ ids) :
    Returns (engineReader sampleHal 0) (idleEngine ids) cs := by
  induction cs with
  | nil => trivial
  | cons c cs ih =>
    have hread : (engineReader sampleHal 0).read (idleEngine ids) c =
        some (idleEngine ids, .ok ⟨c, "Disabled", 0, 0⟩) := by
      change readChannelValue sampleHal 0 (idleEngine ids) c = _
      unfold readChannelValue State.channelRead
      rw [idleEngine_get (hcs c List.mem_cons_self)]
      rfl
    unfold Returns
    rw [hread]
    exact ih fun a ha => hcs a (List.mem_cons_of_mem _ ha)

theorem idleEngine_asked (hcs : ∀ c ∈ cs, c ∈ ids) :
    cs.filter ((engineReader sampleHal 0).present (idleEngine ids)) = cs := by
  refine List.filter_eq_self.2 fun c hc => ?_
  change ((idleEngine ids).channels.get c).isSome = true
  rw [idleEngine_get (hcs c hc)]
  rfl

/-- A new watch on `first`, and a second request for the watch. -/
def extendingRun (first more : List ChannelId) : List (Command ℚ) :=
  [.watchSub sampleHal 0 (idleEngine (first ++ more)) none none first,
    .watchSub sampleHal 0 (idleEngine (first ++ more)) (some (watchName 1)) none more]

/-- Two requests within the limit whose channels together are not. -/
theorem extendingRun_overfills {first more : List ChannelId}
    (hfirst : first.length ≤ maxChannelsPerWatch) (hmore : more.length ≤ maxChannelsPerWatch)
    (hboth : maxChannelsPerWatch < (first.toFinset ∪ more.toFinset).card) :
    ¬ ∀ s ∈ states step (some ⟨WatchTable.new, []⟩) (extendingRun first more),
      ∀ l, s = some l → l.Sound := by
  intro hsound
  have hfirst' : ∀ c ∈ first, c ∈ first ++ more := fun c hc => List.mem_append_left _ hc
  have hmore' : ∀ c ∈ more, c ∈ first ++ more := fun c hc => List.mem_append_right _ hc
  have hwid : (WatchTable.new (F := ℚ).expireStaleWatches 0).resolveWatch 0 none none =
      .ok (watchName 1, ⟨Table.empty.insert (watchName 1) (created (watchName 1) none 0), 1⟩) := rfl
  have hreturns : Returns (engineReader sampleHal 0) (idleEngine (first ++ more))
      (first.filter ((engineReader sampleHal 0).present (idleEngine (first ++ more)))) := by
    rw [idleEngine_asked hfirst']
    exact idleEngine_returns hfirst'
  obtain ⟨e', t', rows, hresult⟩ := watchSub_returns hfirst hwid hreturns
  have ht : handle WatchTable.new (.watchSub sampleHal 0 (idleEngine (first ++ more)) none none
      first) = some t' := by rw [handle, hresult, Option.map_some]
  have hfits : Fits (some ⟨WatchTable.new, []⟩) (.watchSub sampleHal 0 (idleEngine (first ++ more))
      none none first) := by
    intro _ _ _
    exact Nat.two_pow_pos 64
  have hinv := inv_new.watchSub hfits ht
  have hget : ∃ w, (t'.expireStaleWatches 0).watches.get (watchName 1) = some w ∧
      w.channels = first.foldl pushChannel [] := by
    rcases watchSub_cases hresult with ⟨-, -, message, hmessage⟩ |
      ⟨wid, t₁, w, values, rows', -, hwid', hw, -, -, -, rfl, -⟩
    · cases hmessage
    · cases hwid.symm.trans hwid'
      rw [Table.get_insert_self, Option.some.injEq] at hw
      subst w
      rw [get_expireStaleWatches, Table.get_insert_self, idleEngine_asked hfirst']
      exact ⟨_, Option.filter_eq_some_iff.2 ⟨rfl, by simp [stale]⟩, rfl⟩
  obtain ⟨w, hw, hchannels⟩ := hget
  have hunfit : ¬ Fits (some (record ⟨WatchTable.new, []⟩ t')) (.watchSub sampleHal 0
      (idleEngine (first ++ more)) (some (watchName 1)) none more) := by
    intro hfits
    have hbound := hfits.extend hmore
      (by rw [idleEngine_asked hmore']; exact idleEngine_returns hmore') hw
    have hset : w.channels.toFinset = first.toFinset := by
      ext c
      simp [hchannels, mem_foldl_pushChannel]
    rw [hset, idleEngine_asked hmore'] at hbound
    exact absurd hbound (Nat.not_le.2 hboth)
  obtain ⟨t'', ht'', hn⟩ := hinv.unfit hunfit
  refine hn (hsound (some (record (record ⟨WatchTable.new, []⟩ t') t'')) ?_ _ rfl)
  simp [extendingRun, states, step, ht, ht'']

theorem numbered_card {n : ℕ} (hn : n < 2 ^ 32) :
    (((List.range n).map UInt32.ofNat).toFinset ∪ [UInt32.ofNat n].toFinset).card = n + 1 := by
  have hall : (List.range n).map UInt32.ofNat ++ [UInt32.ofNat n] =
      (List.range (n + 1)).map UInt32.ofNat := by simp [List.range_succ]
  have hnodup : ((List.range (n + 1)).map UInt32.ofNat).Nodup := by
    apply List.Nodup.map_on
    · intro a ha b hb h
      have heq := congrArg UInt32.toNat h
      rw [UInt32.toNat_ofNat', UInt32.toNat_ofNat'] at heq
      rw [List.mem_range] at ha hb
      omega
    · exact List.nodup_range
  rw [← List.toFinset_append, hall, List.toFinset_card_of_nodup hnodup]
  simp

/-- 256 channels, and then one more. -/
theorem fillingRun_overfills :
    ¬ ∀ s ∈ states step (some ⟨WatchTable.new, []⟩)
        (extendingRun ((List.range 256).map UInt32.ofNat) [UInt32.ofNat 256]),
      ∀ l, s = some l → l.Sound := by
  apply extendingRun_overfills
  · simp [maxChannelsPerWatch]
  · simp [maxChannelsPerWatch]
  · rw [numbered_card (by norm_num)]
    simp [maxChannelsPerWatch]

end Example

end Ledger

end Sandstar.Watches
