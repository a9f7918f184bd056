import Sandstar.EngineObservers
import Sandstar.EngineWatches
import Sandstar.Unwinding

set_option autoImplicit false

/-!
# Requests that observe the engine (cmd_handler.rs)

`ReadChannel`, `WatchSub` and `WatchPoll` read their channels through the same path as
the poll cycle. A run with such requests between the cycles is compared with the run
without them.
-/
namespace Sandstar.Watches
open Engine WatchTable Runs

inductive Observation
  | readChannel (channel : ChannelId)
  | watchSub (watchId displayName : Option String) (channels : List ChannelId)
  | watchPoll (watchId : String) (refresh : Bool)

/-- The hardware as the last cycle found it and the channels polled then, the engine and
    the watches. -/
structure Plant (F : Type) where
  hal : Hal F
  polled : List ChannelId
  engine : State F
  watches : WatchTable F

/-- A cycle with its hardware, or a request with the clock it reads. -/
inductive Event (F : Type)
  | pollUpdate (hal : Hal F) (expireClock readClock : ChannelId → Instant)
      (channelOrder polledIds : List ChannelId)
  | observe (now : Instant) (request : Observation)

def Event.isPoll {F : Type} : Event F → Bool
  | .pollUpdate .. => true
  | .observe .. => false

variable {F : Type}

def Observation.reads (now : Instant) (e : State F) (t : WatchTable F) :
    Observation → List ChannelId
  | .readChannel channel => [channel]
  | .watchSub watchId displayName channels =>
    if maxChannelsPerWatch < channels.length then []
    else match (t.expireStaleWatches now).resolveWatch now watchId displayName with
      | .error _ => []
      | .ok _ => channels.filter fun c => (e.channels.get c).isSome
  | .watchPoll watchId _ =>
    match t.watches.get watchId with
    | none => []
    | some w => w.channels

variable [FloatOps F]

/-- The engine and the watches after a request; `none` is a panic of a read. -/
def Observation.serve (hal : Hal F) (now : Instant) (e : State F) (t : WatchTable F) :
    Observation → Option (State F × WatchTable F)
  | .readChannel channel => (readChannelValue hal now e channel).map fun (e, _) => (e, t)
  | .watchSub watchId displayName channels =>
    (t.watchSub (engineReader hal now) now e watchId displayName channels).map
      fun (e, t, _) => (e, t)
  | .watchPoll watchId refresh =>
    (t.watchPoll (engineReader hal now) now e watchId refresh).map fun (e, t, _) => (e, t)

namespace Plant

def start (hal : Hal F) (engine : State F) (watches : WatchTable F) : Plant F :=
  ⟨hal, [], engine, watches⟩

def next (s : Plant F) : Event F → Option (Plant F)
  | .pollUpdate hal expireClock readClock channelOrder polledIds =>
    (s.engine.pollUpdate hal expireClock readClock channelOrder polledIds).map
      fun (e, _) => ⟨hal, polledIds, e, s.watches⟩
  | .observe now request =>
    (request.serve s.hal now s.engine s.watches).map
      fun (e, t) => ⟨s.hal, s.polled, e, t⟩

/-- `none` is the server after a panic. -/
def step (s : Option (Plant F)) (ev : Event F) : Option (Plant F) := s.bind fun s => s.next ev

/-- The channels that the requests of a run may disturb: those that are read where a read
    leaves a trace, the virtual channels that copy a disturbed channel, and the I2C
    channels on the sensor of one. -/
inductive Disturbed (s : Plant F) (es : List (Event F)) : ChannelId → Prop
  | read (before after : List (Event F)) (now : Instant) (request : Observation) (s' : Plant F)
      (id : ChannelId) : es = before ++ .observe now request :: after →
      run step (some s) before = some s' → id ∈ request.reads now s'.engine s'.watches →
      ¬ s'.engine.Traceless s'.polled id → Disturbed s es id
  | copy (id src : ChannelId) (ch : Channel F) : s.engine.channels.get id = some ch →
      ch.channelType.isVirtual = true → ch.channelIn = some src → Disturbed s es src →
      Disturbed s es id
  | sensor (id other : ChannelId) (ch ch' : Channel F) : s.engine.channels.get id = some ch →
      s.engine.channels.get other = some ch' → ch.channelType = .i2c → ch'.channelType = .i2c →
      ch.device = ch'.device → ch.address = ch'.address → Disturbed s es id →
      Disturbed s es other

end Plant

section Reads

variable {hal : Hal F} {now : Instant} {e e' : State F} {t t' : WatchTable F}
  {request : Observation}

def readAll (hal : Hal F) (now : Instant) (e : State F) (ids : List ChannelId) :
    Option (State F) :=
  ids.foldlM (fun e id => (e.channelRead hal now id).map Prod.fst) e

theorem readAll_cons (hal : Hal F) (now : Instant) (e : State F) (id : ChannelId)
    (ids : List ChannelId) :
    readAll hal now e (id :: ids) =
      ((e.channelRead hal now id).map Prod.fst).bind fun e => readAll hal now e ids :=
  List.foldlM_cons

theorem readChannelValue_engine (hal : Hal F) (now : Instant) (e : State F) (id : ChannelId) :
    (readChannelValue hal now e id).map Prod.fst = (e.channelRead hal now id).map Prod.fst := by
  unfold readChannelValue
  rcases e.channelRead hal now id with _ | ⟨e, _ | val⟩ <;> rfl

theorem eachChannel_engine
    {body : State F → WatchState F → ChannelId →
      Option (State F × WatchState F × List (ChannelValue F))}
    (hbody : ∀ e w c, (body e w c).map Prod.fst = (readChannelValue hal now e c).map Prod.fst)
    (w : WatchState F) (ids : List ChannelId) :
    (eachChannel body e w ids).map Prod.fst = readAll hal now e ids := by
  induction ids generalizing e w with
  | nil => rfl
  | cons id ids ih =>
    have hhead := hbody e w id
    rw [readChannelValue_engine] at hhead
    unfold eachChannel
    rw [readAll_cons, ← hhead]
    cases body e w id with
    | none => rfl
    | some p =>
      have htail := ih (e := p.1) p.2.1
      simp only [Option.map_some, Option.bind_some, ← htail, Option.map_map]
      rfl

theorem Observation.serve_engine (request : Observation) (hal : Hal F) (now : Instant)
    (e : State F) (t : WatchTable F) :
    (request.serve hal now e t).map Prod.fst = readAll hal now e (request.reads now e t) := by
  cases request with
  | readChannel channel =>
    simp only [Observation.serve, Observation.reads, readAll_cons, ← readChannelValue_engine,
      Option.map_map]
    cases readChannelValue hal now e channel <;> rfl
  | watchSub watchId displayName channels =>
    simp only [Observation.serve, Observation.reads, Option.map_map]
    by_cases hlen : channels.length ≤ maxChannelsPerWatch
    · rw [if_neg (Nat.not_lt.2 hlen)]
      cases hres : (t.expireStaleWatches now).resolveWatch now watchId displayName with
      | error message =>
        simp only [WatchTable.watchSub, if_neg (Nat.not_lt.2 hlen), hres]
        rfl
      | ok p =>
        obtain ⟨w, hw⟩ := resolveWatch_get hres
        have hbody : ∀ (e : State F) w c, (subscribeChannel (engineReader hal now) e w c).map
            Prod.fst = (readChannelValue hal now e c).map Prod.fst := fun e w c =>
          showChannel_engine (engineReader hal now) _ e _ c
        have hloop := eachChannel_engine (e := e) hbody { w with lastActivity := now }
        dsimp only
        rw [watchSub_resolved hlen hres hw, ← hloop, Option.map_map]
        rfl
    · rw [if_pos (Nat.not_le.1 hlen)]
      simp only [WatchTable.watchSub, if_pos (Nat.not_le.1 hlen)]
      rfl
  | watchPoll watchId refresh =>
    simp only [Observation.serve, Observation.reads, Option.map_map]
    unfold WatchTable.watchPoll
    cases hw : t.watches.get watchId with
    | none => rfl
    | some w =>
      have hloop := eachChannel_engine (e := e)
        (showChannel_engine (engineReader hal now) (changed refresh)) { w with lastActivity := now }
      dsimp only
      rw [← hloop, Option.map_map]
      rfl

end Reads

section Runs

variable {D : Set ChannelId} {w : Wiring} {hal : Hal F} {now : Instant} {e e' e₂ : State F}
  {polled ids : List ChannelId}

theorem agree_readAll (hclosed : w.Closed D) (h : Agree D w e e₂)
    (hsettled : e.SettledOn hal polled)
    (htraceless : ∀ id ∈ ids, id ∉ D → e.Traceless polled id)
    (hread : readAll hal now e ids = some e') : Agree D w e' e₂ ∧ e'.SettledOn hal polled := by
  induction ids generalizing e with
  | nil =>
    cases hread
    exact ⟨h, hsettled⟩
  | cons id ids ih =>
    rw [readAll_cons] at hread
    obtain ⟨e₁, hhead, htail⟩ := Option.bind_eq_some_iff.1 hread
    by_cases hid : id ∈ D
    · obtain ⟨p, hp, rfl⟩ := Option.map_eq_some_iff.1 hhead
      have hagree := h.read_left hclosed hid hp
      refine ih hagree ((hsettled.read hp).subset (List.subset_cons_self _ _)) ?_ htail
      intro a ha hD
      have hboth := h.traceless hclosed hD (htraceless a (List.mem_cons_of_mem _ ha) hD)
      exact hagree.symm.traceless hclosed hD hboth
    · have hsame := State.channelRead_traceless (htraceless id List.mem_cons_self hid) hsettled now
      rw [hsame] at hhead
      cases hhead
      exact ih h hsettled (fun a ha => htraceless a (List.mem_cons_of_mem _ ha)) htail

namespace Plant

/-- The run with the requests beside the run without them. -/
structure Mirrors (D : Set ChannelId) (w : Wiring) (s s' : Plant F) : Prop where
  hal : s.hal = s'.hal
  polled : s.polled = s'.polled
  settled : s.engine.SettledOn s.hal s.polled
  agree : Agree D w s.engine s'.engine

def Spares (D : Set ChannelId) : Option (Plant F) → Event F → Prop
  | some s, .observe now request =>
    ∀ id ∈ request.reads now s.engine s.watches, id ∉ D → s.engine.Traceless s.polled id
  | _, _ => True

variable {s s' t t' : Plant F} {ev : Event F}

theorem Mirrors.observe (h : Mirrors D w s s') (hclosed : w.Closed D) (hev : ev.isPoll = false)
    (hok : Spares D (some s) ev) (hnext : s.next ev = some t) : Mirrors D w t s' := by
  cases ev with
  | pollUpdate => cases hev
  | observe now request =>
    obtain ⟨p, hserve, rfl⟩ := Option.map_eq_some_iff.1 hnext
    have hread := request.serve_engine s.hal now s.engine s.watches
    rw [hserve] at hread
    obtain ⟨hagree, hsettled⟩ := agree_readAll hclosed h.agree h.settled hok hread.symm
    exact ⟨h.hal, h.polled, hsettled, hagree⟩

theorem Mirrors.poll (h : Mirrors D w s s') (hclosed : w.Closed D) (hev : ev.isPoll = true)
    (hnext : s.next ev = some t) (hnext' : s'.next ev = some t') : Mirrors D w t t' := by
  cases ev with
  | observe => cases hev
  | pollUpdate hal expireClock readClock channelOrder polledIds =>
    obtain ⟨p, hpoll, rfl⟩ := Option.map_eq_some_iff.1 hnext
    obtain ⟨p', hpoll', rfl⟩ := Option.map_eq_some_iff.1 hnext'
    exact ⟨rfl, rfl, State.settledOn_pollUpdate hpoll, h.agree.pollUpdate hclosed hpoll hpoll'⟩

theorem mirrors_run (hclosed : w.Closed D) (h : Mirrors D w s s') {es : List (Event F)}
    (hok : Along step (Spares D) (some s) es) (ht : run step (some s) es = some t)
    (ht' : run step (some s') (es.filter Event.isPoll) = some t') : Mirrors D w t t' := by
  let R : Option (Plant F) → Option (Plant F) → Prop := fun p q =>
    ∀ a b, p = some a → q = some b → Mirrors D w a b
  have hstart : R (some s) (some s') := by
    rintro a b ⟨⟩ ⟨⟩
    exact h
  refine Unwinding.run_filter (R := R) ?_ ?_ hstart hok t t' ht ht'
  · intro p q ev hR hok hev a b ha hb
    obtain ⟨c, rfl, hnext⟩ := Option.bind_eq_some_iff.1 ha
    exact (hR c b rfl hb).observe hclosed hev hok hnext
  · intro p q ev hR hok hev a b ha hb
    obtain ⟨c, rfl, hnext⟩ := Option.bind_eq_some_iff.1 ha
    obtain ⟨d, rfl, hnext'⟩ := Option.bind_eq_some_iff.1 hb
    exact (hR c d rfl rfl).poll hclosed hev hnext hnext'

variable {es : List (Event F)}

theorem disturbed_closed (s : Plant F) (es : List (Event F)) :
    s.engine.wiring.Closed {id | Disturbed s es id} where
  copies id type src device address hid hvirtual hsrc := by
    obtain ⟨ch, hch, heq⟩ := Option.map_eq_some_iff.1 hid
    simp only [Channel.wiring, Prod.mk.injEq] at heq
    obtain ⟨rfl, hin, -⟩ := heq
    exact Disturbed.copy id src ch hch hvirtual hin hsrc
  sensors id other source source' device address hid hother hdisturbed := by
    obtain ⟨ch, hch, heq⟩ := Option.map_eq_some_iff.1 hid
    obtain ⟨ch', hch', heq'⟩ := Option.map_eq_some_iff.1 hother
    simp only [Channel.wiring, Prod.mk.injEq] at heq heq'
    obtain ⟨htype, -, rfl, rfl⟩ := heq
    obtain ⟨htype', -, hdevice, haddress⟩ := heq'
    exact Disturbed.sensor id other ch ch' hch hch' htype htype' hdevice.symm haddress.symm
      hdisturbed

theorem along_spares (s : Plant F) (es : List (Event F)) :
    Along step (Spares {id | Disturbed s es id}) (some s) es := by
  refine along_of_splits step fun before ev after heq => ?_
  cases hrun : run step (some s) before with
  | none => trivial
  | some s' =>
    cases ev with
    | pollUpdate => trivial
    | observe now request =>
      intro id hid hnot
      by_contra htrace
      exact hnot (Disturbed.read before after now request s' id heq hrun hid htrace)

/-- Whatever a run with requests leaves of the control data of a channel that they do not
    disturb is what the cycles alone leave of it. -/
theorem observers_leave (hal : Hal F) (engine : State F) (watches : WatchTable F)
    (es : List (Event F)) (s s' : Plant F)
    (hrun : run step (some (start hal engine watches)) es = some s)
    (hcycles : run step (some (start hal engine watches)) (es.filter Event.isPoll) = some s')
    (id : ChannelId) (hid : ¬ Disturbed (start hal engine watches) es id) :
    s.engine.channels.get id = s'.engine.channels.get id ∧
      s.engine.polls.get id = s'.engine.polls.get id ∧
      ∀ ch, s.engine.channels.get id = some ch → ch.channelType = .i2c →
        s.engine.i2cBackoff.get (ch.device, ch.address) =
          s'.engine.i2cBackoff.get (ch.device, ch.address) := by
  have hstart : Mirrors {id | Disturbed (start hal engine watches) es id} engine.wiring
      (start hal engine watches) (start hal engine watches) :=
    ⟨rfl, rfl, fun a ha => absurd ha List.not_mem_nil,
      rfl, rfl, rfl, fun _ _ => rfl, fun _ _ => rfl, fun _ _ _ _ _ _ => rfl⟩
  have hagree := (mirrors_run (disturbed_closed _ es) hstart (along_spares _ es) hrun hcycles).agree
  refine ⟨hagree.channel id hid, hagree.poll id hid, fun ch hch htype => ?_⟩
  refine hagree.backoff id hid ch.channelIn ch.device ch.address ?_
  rw [hagree.get_wiring hch, Channel.wiring, htype]

end Plant

end Runs

namespace Plant

def smoothedInput : Channel ℚ :=
  { sampleInput with
    conv := { ValueConv.default with filterConfig := some ⟨none, some ⟨5, .mean⟩, none⟩ } }

def inputState (ch : Channel ℚ) : State ℚ where
  channels := Table.empty.insert 1 ch
  tables := []
  polls := Table.empty.insert 1 samplePoll
  watches := []
  notifies := []
  i2cBackoff := Table.empty

def inputCycle (raw : ℚ) : Event ℚ :=
  .pollUpdate { sampleHal with readAnalog := fun _ _ => .ok raw } (fun _ => 0) (fun _ => 0) [1] [1]

def observedEvents : List (Event ℚ) := [inputCycle 7, .observe 0 (.readChannel 1)]

def inputRun (ch : Channel ℚ) (es : List (Event ℚ)) : Option (Plant ℚ) :=
  run step (some (start sampleHal (inputState ch) WatchTable.new)) es

def inputCur (r : Option (Plant ℚ)) : Option ℚ :=
  r.bind fun s => (s.engine.channels.get 1).map fun ch => ch.value.cur

/-- The observed reading is in the mean twice. -/
theorem observer_disturbs :
    ¬ ∀ (hal : Hal ℚ) (engine : State ℚ) (watches : WatchTable ℚ) (es : List (Event ℚ))
      (cycle : Event ℚ) (s s' : Plant ℚ), cycle.isPoll = true →
      run step (some (start hal engine watches)) (es ++ [cycle]) = some s →
      run step (some (start hal engine watches)) ((es ++ [cycle]).filter Event.isPoll) = some s' →
      ∀ id, ((s.engine.channels.get id).map fun ch => (ch.value, ch.failed, ch.retryCounter)) =
        (s'.engine.channels.get id).map fun ch => (ch.value, ch.failed, ch.retryCounter) := by
  intro h
  have hobserved : inputCur (inputRun smoothedInput (observedEvents ++ [inputCycle 1])) = some 5 := by
    decide +kernel
  have hcycles : inputCur (inputRun smoothedInput
      ((observedEvents ++ [inputCycle 1]).filter Event.isPoll)) = some 4 := by
    decide +kernel
  obtain ⟨s, hs, hcur⟩ := Option.bind_eq_some_iff.1 hobserved
  obtain ⟨s', hs', hcur'⟩ := Option.bind_eq_some_iff.1 hcycles
  have hsame := congrArg (Option.map fun p => p.1.cur)
    (h sampleHal (inputState smoothedInput) WatchTable.new observedEvents (inputCycle 1) s s' rfl
      hs hs' 1)
  rw [Option.map_map, Option.map_map] at hsame
  have heq : (some 5 : Option ℚ) = some 4 := hcur.symm.trans (hsame.trans hcur')
  revert heq
  decide

def plain (s : Plant ℚ) (id : ChannelId) : Bool :=
  (s.engine.channels.get id).all fun ch => decide (id ∈ s.polled) && !ch.failed &&
    !ch.channelType.isVirtual && !ch.isSdp810 && ch.conv.filterConfig.isNone &&
    ch.conv.convFunc.isNone

theorem traceless_of_plain {s : Plant ℚ} {id : ChannelId} (h : s.plain id = true) :
    s.engine.Traceless s.polled id := by
  intro ch hch _
  unfold plain at h
  rw [hch, Option.all_some] at h
  simp only [Bool.and_eq_true, Bool.not_eq_true', decide_eq_true_eq,
    Option.isNone_iff_eq_none] at h
  obtain ⟨⟨⟨⟨⟨hpolled, hfailed⟩, hvirtual⟩, hsdp⟩, hfilter⟩, hconv⟩ := h
  refine ⟨hpolled, hfailed, ?_⟩
  rw [hvirtual]
  exact ⟨hsdp, by simp [hfilter], by simp [hfilter], by simp [hfilter], Or.inl hconv⟩

def inputAfter (r : Option (Plant ℚ)) : Option (Option (Channel ℚ)) :=
  r.map fun s => s.engine.channels.get 1

/-- The same request leaves an input without filters as it is. -/
theorem observers_leave_plain :
    inputCur (inputRun sampleInput (observedEvents ++ [inputCycle 1])) = some 1 ∧
      inputAfter (inputRun sampleInput (observedEvents ++ [inputCycle 1])) =
        inputAfter (inputRun sampleInput [inputCycle 7, inputCycle 1]) := by
  have hobserved : inputCur (inputRun sampleInput (observedEvents ++ [inputCycle 1])) = some 1 := by
    decide +kernel
  have hcycles : inputCur (inputRun sampleInput [inputCycle 7, inputCycle 1]) = some 1 := by
    decide +kernel
  have hplain : ((inputRun sampleInput [inputCycle 7]).all fun s => s.plain 1) = true := by
    decide +kernel
  refine ⟨hobserved, ?_⟩
  obtain ⟨s, hs, -⟩ := Option.bind_eq_some_iff.1 hobserved
  obtain ⟨s', hs', -⟩ := Option.bind_eq_some_iff.1 hcycles
  have hnone : ∀ id, ¬ Disturbed (start sampleHal (inputState sampleInput) WatchTable.new)
      (observedEvents ++ [inputCycle 1]) id := by
    intro id hid
    induction hid with
    | read before after now request t id hsplit hrun hread htrace =>
      have hevents : [inputCycle 7, .observe 0 (.readChannel 1), inputCycle 1] =
          before ++ .observe now request :: after := hsplit
      rcases before with _ | ⟨a, _ | ⟨b, _ | ⟨c, rest⟩⟩⟩
      · simp [inputCycle] at hevents
      · simp only [List.cons_append, List.nil_append, List.cons.injEq, Event.observe.injEq] at hevents
        obtain ⟨rfl, ⟨-, rfl⟩, -⟩ := hevents
        have hid : id = 1 := List.mem_singleton.1 hread
        have ht : inputRun sampleInput [inputCycle 7] = some t := hrun
        rw [ht, Option.all_some] at hplain
        exact htrace (hid ▸ traceless_of_plain hplain)
      · simp [inputCycle] at hevents
      · simp at hevents
    | copy id src ch hch hvirtual hin hsrc ih => exact ih
    | sensor id other ch ch' hch hch' htype htype' hdevice haddress hdisturbed ih => exact ih
  have hleave := (observers_leave sampleHal (inputState sampleInput) WatchTable.new
    (observedEvents ++ [inputCycle 1]) s s' hs hs' 1 (hnone 1)).1
  rw [hs, hs']
  exact congrArg some hleave

end Plant

end Sandstar.Watches
