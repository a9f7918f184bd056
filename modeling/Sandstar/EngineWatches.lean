import Sandstar.PollSchedule

set_option autoImplicit false

/-!
# Watches on the engine (cmd_handler.rs)

A watch keeps the channels it was subscribed to and the values it has last shown.
A read made for a watch runs the read path of the engine, which may change the
engine or panic; `ChannelReader` keeps of it what the watches rely on. The clock is
read once for a command.
-/
namespace Sandstar.Watches
open Engine FloatOps

structure ChannelValue (F : Type) where
  channel : ChannelId
  status : String
  raw : F
  cur : F
deriving DecidableEq

structure WatchState (F : Type) where
  displayName : String
  channels : List ChannelId
  lastValues : Table ChannelId (F × String)
  lastActivity : Instant
deriving DecidableEq

structure WatchTable (F : Type) where
  watches : Table String (WatchState F)
  watchCounter : UInt64

structure WatchResponse (F : Type) where
  watchId : String
  lease : ℕ
  rows : List (ChannelValue F)
deriving DecidableEq

def watchLeaseSecs : ℕ := 3600

def maxWatches : ℕ := 64

def maxChannelsPerWatch : ℕ := 256

/-- The engine as `read_channel_value` sees it; `none` is a panic. A read makes no
    channel appear or disappear. -/
structure ChannelReader (E F : Type) where
  present : E → ChannelId → Bool
  read : E → ChannelId → Option (E × Except String (ChannelValue F))
  present_read : ∀ e c e' r, read e c = some (e', r) → present e' = present e

section Engine

variable {F : Type} [FloatOps F]

def statusText : EngineStatus → String
  | .ok => "Ok"
  | .unknown => "Unknown"
  | .stale => "Stale"
  | .disabled => "Disabled"
  | .fault => "Fault"
  | .down => "Down"

def readChannelValue (hal : Hal F) (now : Instant) (e : State F) (channel : ChannelId) :
    Option (State F × Except String (ChannelValue F)) :=
  match e.channelRead hal now channel with
  | none => none
  | some (e, .ok val) => some (e, .ok ⟨channel, statusText val.status, val.raw, val.cur⟩)
  | some (e, .error err) => some (e, .error (errorText err))

theorem channelRead_keys {hal : Hal F} {now : Instant} {e e' : State F} {id : ChannelId}
    {r : Except EngineError (EngineValue F)} (h : e.channelRead hal now id = some (e', r)) :
    e'.channels.keys = e.channels.keys := by
  cases hget : e.channels.get id with
  | none =>
    unfold State.channelRead at h
    rw [hget] at h
    cases h
    rfl
  | some ch =>
    rw [State.channelRead_present hget] at h
    split at h
    · cases h
    · cases h
      rw [Table.keys_insert]
      exact Finset.insert_eq_of_mem ((Table.mem_keys _ _).2 ⟨ch, hget⟩)

def engineReader (hal : Hal F) (now : Instant) : ChannelReader (State F) F where
  present e c := (e.channels.get c).isSome
  read := readChannelValue hal now
  present_read e c e' r h := by
    have hkeys : e'.channels.keys = e.channels.keys := by
      unfold readChannelValue at h
      split at h
      · cases h
      · rename_i hread
        cases h
        exact channelRead_keys hread
      · rename_i hread
        cases h
        exact channelRead_keys hread
    funext a
    rw [Bool.eq_iff_iff, Option.isSome_iff_exists, Option.isSome_iff_exists,
      ← Table.mem_keys, ← Table.mem_keys, hkeys]

end Engine

namespace WatchTable

variable {E F : Type}

def new : WatchTable F := ⟨Table.empty, 0⟩

def stale (now : Instant) (w : WatchState F) : Bool :=
  watchLeaseSecs < (now - w.lastActivity) / 1000000000

def expireStaleWatches (t : WatchTable F) (now : Instant) : WatchTable F :=
  { t with watches := t.watches.retain fun _ w => !stale now w }

def watchName (counter : UInt64) : String :=
  "w-" ++ String.ofList (Nat.toDigits 16 counter.toNat)

def notFound (watchId : String) : String := "watch " ++ watchId ++ " not found"

def resolveWatch (t : WatchTable F) (now : Instant) (watchId displayName : Option String) :
    Except String (String × WatchTable F) :=
  match watchId.filter fun id => (t.watches.get id).isSome with
  | some id => .ok (id, t)
  | none =>
    if maxWatches ≤ t.watches.size then
      .error ("watch limit reached (max " ++ toString maxWatches ++ ")")
    else
      let counter := t.watchCounter + 1
      let id := watchName counter
      .ok (id, ⟨t.watches.insert id ⟨displayName.getD id, [], Table.empty, now⟩, counter⟩)

def eachChannel (body : E → WatchState F → ChannelId →
      Option (E × WatchState F × List (ChannelValue F))) :
    E → WatchState F → List ChannelId → Option (E × WatchState F × List (ChannelValue F))
  | e, w, [] => some (e, w, [])
  | e, w, c :: cs =>
    match body e w c with
    | none => none
    | some (e, w, row) =>
      (eachChannel body e w cs).map fun (e, w, rows) => (e, w, row ++ rows)

def showChannel (reader : ChannelReader E F) (shows : WatchState F → ChannelId → ChannelValue F → Bool)
    (e : E) (w : WatchState F) (c : ChannelId) :
    Option (E × WatchState F × List (ChannelValue F)) :=
  match reader.read e c with
  | none => none
  | some (e, .error _) => some (e, w, [])
  | some (e, .ok val) =>
    if shows w c val then
      some (e, { w with lastValues := w.lastValues.insert c (val.cur, val.status) }, [val])
    else some (e, w, [])

def pushChannel (channels : List ChannelId) (c : ChannelId) : List ChannelId :=
  if c ∈ channels then channels else channels ++ [c]

def subscribeChannel (reader : ChannelReader E F) (e : E) (w : WatchState F) (c : ChannelId) :
    Option (E × WatchState F × List (ChannelValue F)) :=
  showChannel reader (fun _ _ _ => true) e { w with channels := pushChannel w.channels c } c

def watchSub (reader : ChannelReader E F) (now : Instant) (e : E) (t : WatchTable F)
    (watchId displayName : Option String) (channels : List ChannelId) :
    Option (E × WatchTable F × Except String (WatchResponse F)) :=
  let t := t.expireStaleWatches now
  if maxChannelsPerWatch < channels.length then
    some (e, t, .error ("too many channels (" ++ toString channels.length ++ ", max " ++
      toString maxChannelsPerWatch ++ ")"))
  else
    let channels := channels.filter (reader.present e)
    match t.resolveWatch now watchId displayName with
    | .error message => some (e, t, .error message)
    | .ok (wid, t) =>
      match t.watches.get wid with
      | none => some (e, t, .error (notFound wid))
      | some w =>
        (eachChannel (subscribeChannel reader) e { w with lastActivity := now } channels).map
          fun (e, w, rows) =>
            (e, { t with watches := t.watches.insert wid w }, .ok ⟨wid, 3600, rows⟩)

def watchUnsub (t : WatchTable F) (watchId : String) (close : Bool) (channels : List ChannelId) :
    WatchTable F × Except String Unit :=
  match t.watches.get watchId with
  | none => (t, .error (notFound watchId))
  | some w =>
    if close then ({ t with watches := t.watches.erase watchId }, .ok ())
    else
      ({ t with
          watches := t.watches.insert watchId
            { w with
                channels := w.channels.filter (· ∉ channels)
                lastValues := channels.foldl Table.erase w.lastValues } }, .ok ())

section Poll

variable [FloatOps F]

def epsilon : F := lit (1 / 2 ^ 52)

def changed (refresh : Bool) (w : WatchState F) (c : ChannelId) (val : ChannelValue F) : Bool :=
  refresh ||
    match w.lastValues.get c with
    | none => true
    | some (prevCur, prevStatus) =>
      FloatOps.lt epsilon (FloatOps.abs (val.cur - prevCur)) || val.status != prevStatus

def watchPoll (reader : ChannelReader E F) (now : Instant) (e : E) (t : WatchTable F)
    (watchId : String) (refresh : Bool) :
    Option (E × WatchTable F × Except String (WatchResponse F)) :=
  match t.watches.get watchId with
  | none => some (e, t, .error (notFound watchId))
  | some w =>
    (eachChannel (showChannel reader (changed refresh)) e { w with lastActivity := now }
      w.channels).map
      fun (e, w, rows) =>
        (e, { t with watches := t.watches.insert watchId w }, .ok ⟨watchId, 3600, rows⟩)

end Poll

section Loops

variable {reader : ChannelReader E F}
  {shows : WatchState F → ChannelId → ChannelValue F → Bool}
  {body : E → WatchState F → ChannelId → Option (E × WatchState F × List (ChannelValue F))}
  {e e' : E} {w w' : WatchState F} {c : ChannelId} {cs : List ChannelId}
  {rows : List (ChannelValue F)}

/-- No read of the list panics. -/
def Returns (reader : ChannelReader E F) : E → List ChannelId → Prop
  | _, [] => True
  | e, c :: cs =>
    match reader.read e c with
    | none => False
    | some (e, _) => Returns reader e cs

theorem showChannel_engine (reader : ChannelReader E F)
    (shows : WatchState F → ChannelId → ChannelValue F → Bool) (e : E) (w : WatchState F)
    (c : ChannelId) :
    (showChannel reader shows e w c).map Prod.fst = (reader.read e c).map Prod.fst := by
  unfold showChannel
  rcases reader.read e c with _ | ⟨e, _ | val⟩
  · rfl
  · rfl
  · dsimp only
    split <;> rfl

variable (body) in
/-- A loop whose body reads its channel ends where the reads return. -/
theorem eachChannel_isSome
    (hbody : ∀ e w c, (body e w c).map Prod.fst = (reader.read e c).map Prod.fst) :
    (eachChannel body e w cs).isSome ↔ Returns reader e cs := by
  induction cs generalizing e w with
  | nil => simp [eachChannel, Returns]
  | cons c cs ih =>
    have h := hbody e w c
    unfold eachChannel Returns
    cases hb : body e w c with
    | none =>
      rw [hb] at h
      rw [Option.map_eq_none_iff.1 h.symm]
      simp
    | some p =>
      rw [hb] at h
      obtain ⟨q, hq, hqe⟩ := Option.map_eq_some_iff.1 h.symm
      rw [hq]
      dsimp only
      rw [Option.isSome_map, ih, hqe]

theorem eachChannel_cons {rest : List (ChannelValue F)}
    (h : eachChannel body e w (c :: cs) = some (e', w', rest)) :
    ∃ e₁ w₁ row rows, body e w c = some (e₁, w₁, row) ∧
      eachChannel body e₁ w₁ cs = some (e', w', rows) ∧ rest = row ++ rows := by
  unfold eachChannel at h
  cases hb : body e w c with
  | none =>
    rw [hb] at h
    cases h
  | some p =>
    obtain ⟨e₁, w₁, row⟩ := p
    rw [hb] at h
    obtain ⟨⟨e₂, w₂, rows⟩, hrows, heq⟩ := Option.map_eq_some_iff.1 h
    cases heq
    exact ⟨e₁, w₁, row, rows, rfl, hrows, rfl⟩

theorem showChannel_frame (h : showChannel reader shows e w c = some (e', w', rows)) :
    reader.present e' = reader.present e ∧
      ∃ values, w' = { w with lastValues := values } ∧
        ∀ a, (values.get a).isSome → (w.lastValues.get a).isSome ∨ a = c := by
  unfold showChannel at h
  rcases hread : reader.read e c with _ | ⟨e₁, _ | val⟩
  · rw [hread] at h
    cases h
  · rw [hread] at h
    cases h
    exact ⟨reader.present_read _ _ _ _ hread, w.lastValues, rfl, fun a ha => Or.inl ha⟩
  · rw [hread] at h
    dsimp only at h
    split_ifs at h
    all_goals cases h; refine ⟨reader.present_read _ _ _ _ hread, _, rfl, fun a ha => ?_⟩
    · rw [Table.get_insert] at ha
      split_ifs at ha with hac
      · exact Or.inr hac
      · exact Or.inl ha
    · exact Or.inl ha

/-- A loop changes the channels as its body does, and remembers values of its channels. -/
theorem eachChannel_frame (add : List ChannelId → ChannelId → List ChannelId)
    (hbody : ∀ e w c e' w' rows, body e w c = some (e', w', rows) →
      reader.present e' = reader.present e ∧
        ∃ values, w' = { w with channels := add w.channels c, lastValues := values } ∧
          ∀ a, (values.get a).isSome → (w.lastValues.get a).isSome ∨ a = c)
    (h : eachChannel body e w cs = some (e', w', rows)) :
    reader.present e' = reader.present e ∧
      ∃ values, w' = { w with channels := cs.foldl add w.channels, lastValues := values } ∧
        ∀ a, (values.get a).isSome → (w.lastValues.get a).isSome ∨ a ∈ cs := by
  induction cs generalizing e w rows with
  | nil =>
    cases h
    exact ⟨rfl, _, rfl, fun a ha => Or.inl ha⟩
  | cons c cs ih =>
    obtain ⟨e₁, w₁, row, rest, hfirst, hrest, -⟩ := eachChannel_cons h
    obtain ⟨hpresent, values, rfl, hvalues⟩ := hbody _ _ _ _ _ _ hfirst
    obtain ⟨hpresent', values', rfl, hvalues'⟩ := ih hrest
    refine ⟨hpresent'.trans hpresent, values', rfl, fun a ha => ?_⟩
    rcases hvalues' a ha with hold | hmem
    · rcases hvalues a hold with hfirst | rfl
      · exact Or.inl hfirst
      · exact Or.inr List.mem_cons_self
    · exact Or.inr (List.mem_cons_of_mem _ hmem)

theorem eachChannel_show_frame
    (h : eachChannel (showChannel reader shows) e w cs = some (e', w', rows)) :
    reader.present e' = reader.present e ∧
      ∃ values, w' = { w with lastValues := values } ∧
        ∀ a, (values.get a).isSome → (w.lastValues.get a).isSome ∨ a ∈ cs := by
  have hframe := eachChannel_frame (fun channels _ => channels)
    (fun _ _ _ _ _ _ hbody => showChannel_frame hbody) h
  rwa [List.foldl_fixed] at hframe

theorem eachChannel_subscribe_frame
    (h : eachChannel (subscribeChannel reader) e w cs = some (e', w', rows)) :
    reader.present e' = reader.present e ∧
      ∃ values, w' = { w with channels := cs.foldl pushChannel w.channels, lastValues := values } ∧
        ∀ a, (values.get a).isSome → (w.lastValues.get a).isSome ∨ a ∈ cs :=
  eachChannel_frame pushChannel (fun _ _ _ _ _ _ hbody => showChannel_frame hbody) h

end Loops

theorem nodup_foldl_pushChannel {l : List ChannelId} (hl : l.Nodup) (cs : List ChannelId) :
    (cs.foldl pushChannel l).Nodup := by
  induction cs generalizing l with
  | nil => exact hl
  | cons c cs ih =>
    apply ih
    unfold pushChannel
    split_ifs with hmem
    · exact hl
    · exact List.nodup_append'.2 ⟨hl, List.nodup_singleton c, by simpa using hmem⟩

theorem mem_foldl_pushChannel (l cs : List ChannelId) (a : ChannelId) :
    a ∈ cs.foldl pushChannel l ↔ a ∈ l ∨ a ∈ cs := by
  induction cs generalizing l with
  | nil => simp
  | cons c cs ih =>
    rw [List.foldl_cons, ih, List.mem_cons]
    unfold pushChannel
    split_ifs with hmem
    · constructor
      · rintro (h | h)
        · exact Or.inl h
        · exact Or.inr (Or.inr h)
      · rintro (h | rfl | h)
        · exact Or.inl h
        · exact Or.inl hmem
        · exact Or.inr h
    · simp [or_assoc]

theorem length_foldl_pushChannel {l : List ChannelId} (hl : l.Nodup) (cs : List ChannelId) :
    (cs.foldl pushChannel l).length = (l.toFinset ∪ cs.toFinset).card := by
  rw [← List.toFinset_card_of_nodup (nodup_foldl_pushChannel hl cs)]
  congr 1
  ext a
  simp [mem_foldl_pushChannel]

section Subscriptions

variable {reader : ChannelReader E F} {now : Instant} {e e' : E} {t t' t₁ : WatchTable F}
  {watchId displayName : Option String} {channels : List ChannelId} {wid : String}
  {w : WatchState F} {r : Except String (WatchResponse F)}

def created (id : String) (displayName : Option String) (now : Instant) : WatchState F :=
  ⟨displayName.getD id, [], Table.empty, now⟩

theorem resolveWatch_cases (h : t.resolveWatch now watchId displayName = .ok (wid, t₁)) :
    (watchId.filter (fun id => (t.watches.get id).isSome) = some wid ∧ t₁ = t) ∨
      (watchId.filter (fun id => (t.watches.get id).isSome) = none ∧ t.watches.size < maxWatches ∧
        wid = watchName (t.watchCounter + 1) ∧
        t₁ = ⟨t.watches.insert wid (created wid displayName now), t.watchCounter + 1⟩) := by
  unfold resolveWatch at h
  split at h
  · cases h
    exact Or.inl ⟨‹_›, rfl⟩
  · split_ifs at h with hfull
    cases h
    exact Or.inr ⟨‹_›, by omega, rfl, rfl⟩

theorem resolveWatch_get (h : t.resolveWatch now watchId displayName = .ok (wid, t₁)) :
    ∃ w, t₁.watches.get wid = some w := by
  rcases resolveWatch_cases h with ⟨hfilter, rfl⟩ | ⟨-, -, -, rfl⟩
  · exact Option.isSome_iff_exists.1 (Option.filter_eq_some_iff.1 hfilter).2
  · exact ⟨_, Table.get_insert_self _ _ _⟩

theorem watchSub_resolved (hlen : channels.length ≤ maxChannelsPerWatch)
    (hwid : (t.expireStaleWatches now).resolveWatch now watchId displayName = .ok (wid, t₁))
    (hw : t₁.watches.get wid = some w) :
    t.watchSub reader now e watchId displayName channels =
      (eachChannel (subscribeChannel reader) e { w with lastActivity := now }
        (channels.filter (reader.present e))).map fun (e, w, rows) =>
          (e, { t₁ with watches := t₁.watches.insert wid w }, .ok ⟨wid, 3600, rows⟩) := by
  unfold watchSub
  simp only [if_neg (Nat.not_lt.2 hlen), hwid, hw]

/-- A subscription only drops the lapsed watches, or adds channels to one watch. -/
theorem watchSub_cases
    (h : t.watchSub reader now e watchId displayName channels = some (e', t', r)) :
    (e' = e ∧ t' = t.expireStaleWatches now ∧ ∃ message, r = .error message) ∨
      ∃ wid t₁ w values rows, channels.length ≤ maxChannelsPerWatch ∧
        (t.expireStaleWatches now).resolveWatch now watchId displayName = .ok (wid, t₁) ∧
        t₁.watches.get wid = some w ∧ reader.present e' = reader.present e ∧
        Returns reader e (channels.filter (reader.present e)) ∧
        (∀ a, (values.get a).isSome → (w.lastValues.get a).isSome ∨
          a ∈ channels.filter (reader.present e)) ∧
        t' = ⟨t₁.watches.insert wid ⟨w.displayName,
          (channels.filter (reader.present e)).foldl pushChannel w.channels, values, now⟩,
          t₁.watchCounter⟩ ∧
        r = .ok ⟨wid, 3600, rows⟩ := by
  by_cases hlen : channels.length ≤ maxChannelsPerWatch
  · cases hres : (t.expireStaleWatches now).resolveWatch now watchId displayName with
    | error message =>
      unfold watchSub at h
      simp only [if_neg (Nat.not_lt.2 hlen), hres, Option.some.injEq, Prod.mk.injEq] at h
      obtain ⟨rfl, rfl, rfl⟩ := h
      exact Or.inl ⟨rfl, rfl, message, rfl⟩
    | ok p =>
      obtain ⟨wid, t₁⟩ := p
      obtain ⟨w, hw⟩ := resolveWatch_get hres
      rw [watchSub_resolved hlen hres hw] at h
      obtain ⟨⟨e₁, w', rows⟩, hloop, heq⟩ := Option.map_eq_some_iff.1 h
      cases heq
      obtain ⟨hpresent, values, rfl, hvalues⟩ := eachChannel_subscribe_frame hloop
      have hreturns := (eachChannel_isSome (subscribeChannel reader)
        fun e w c => showChannel_engine reader _ e _ c).1 (Option.isSome_iff_exists.2 ⟨_, hloop⟩)
      exact Or.inr ⟨wid, t₁, w, values, rows, hlen, rfl, hw, hpresent, hreturns, hvalues, rfl,
        rfl⟩
  · unfold watchSub at h
    simp only [if_pos (Nat.not_le.1 hlen), Option.some.injEq, Prod.mk.injEq] at h
    obtain ⟨rfl, rfl, rfl⟩ := h
    exact Or.inl ⟨rfl, rfl, _, rfl⟩

theorem watchSub_returns (hlen : channels.length ≤ maxChannelsPerWatch)
    (hwid : (t.expireStaleWatches now).resolveWatch now watchId displayName = .ok (wid, t₁))
    (hreads : Returns reader e (channels.filter (reader.present e))) :
    ∃ e' t' rows, t.watchSub reader now e watchId displayName channels =
      some (e', t', .ok ⟨wid, 3600, rows⟩) := by
  obtain ⟨w, hw⟩ := resolveWatch_get hwid
  rw [watchSub_resolved hlen hwid hw]
  obtain ⟨p, hp⟩ := Option.isSome_iff_exists.1 ((eachChannel_isSome
    (subscribeChannel reader) (w := { w with lastActivity := now })
    fun e w c => showChannel_engine reader _ e _ c).2 hreads)
  rw [hp]
  exact ⟨_, _, _, rfl⟩

end Subscriptions

theorem watchPoll_cases [FloatOps F] {reader : ChannelReader E F} {now : Instant} {e e' : E}
    {t t' : WatchTable F} {watchId : String} {refresh : Bool}
    {r : Except String (WatchResponse F)}
    (h : t.watchPoll reader now e watchId refresh = some (e', t', r)) :
    (t.watches.get watchId = none ∧ e' = e ∧ t' = t ∧ r = .error (notFound watchId)) ∨
      ∃ w values rows, t.watches.get watchId = some w ∧ reader.present e' = reader.present e ∧
        (∀ a, (values.get a).isSome → (w.lastValues.get a).isSome ∨ a ∈ w.channels) ∧
        t' = ⟨t.watches.insert watchId ⟨w.displayName, w.channels, values, now⟩,
          t.watchCounter⟩ ∧
        r = .ok ⟨watchId, 3600, rows⟩ := by
  unfold watchPoll at h
  cases hw : t.watches.get watchId with
  | none =>
    rw [hw] at h
    cases h
    exact Or.inl ⟨rfl, rfl, rfl, rfl⟩
  | some w =>
    rw [hw] at h
    obtain ⟨⟨e₁, w', rows⟩, hloop, heq⟩ := Option.map_eq_some_iff.1 h
    cases heq
    obtain ⟨hpresent, values, rfl, hvalues⟩ := eachChannel_show_frame hloop
    exact Or.inr ⟨w, values, rows, rfl, hpresent, hvalues, rfl, rfl⟩

theorem watchUnsub_cases (t : WatchTable F) (watchId : String) (close : Bool)
    (channels : List ChannelId) :
    (t.watches.get watchId = none ∧
        t.watchUnsub watchId close channels = (t, .error (notFound watchId))) ∨
      ∃ w, t.watches.get watchId = some w ∧ t.watchUnsub watchId close channels =
        (if close then ⟨t.watches.erase watchId, t.watchCounter⟩
          else ⟨t.watches.insert watchId ⟨w.displayName, w.channels.filter (· ∉ channels),
            channels.foldl Table.erase w.lastValues, w.lastActivity⟩, t.watchCounter⟩, .ok ()) := by
  unfold watchUnsub
  cases t.watches.get watchId with
  | none => exact Or.inl ⟨rfl, rfl⟩
  | some w =>
    refine Or.inr ⟨w, rfl, ?_⟩
    cases close <;> rfl

theorem get_expireStaleWatches (t : WatchTable F) (now : Instant) (id : String) :
    (t.expireStaleWatches now).watches.get id =
      (t.watches.get id).filter fun w => !stale now w :=
  Table.get_retain _ _ _

end WatchTable

end Sandstar.Watches
