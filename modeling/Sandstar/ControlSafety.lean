import Sandstar.ControlComponents
import Sandstar.ControlDemand

set_option autoImplicit false

namespace Sandstar.Control

open Blocks Engine

variable {F : Type}

section Sequencer

variable [BlockFloats F] {seq : LeadSequencer F}

theorem switch_eq (input : F) {stages : List Bool} {i : ℕ} (h : i < stages.length) :
    seq.switch input stages i = some (stages.set i (seq.stage input i stages[i])) := by
  unfold LeadSequencer.switch LeadSequencer.stage
  split_ifs
  · rfl
  · rfl
  · rw [List.set_getElem_self]

theorem switch_range (input : F) (stages : List Bool) {n : ℕ} (h : n ≤ stages.length) :
    (List.range n).foldlM (seq.switch input) stages =
      some (stages.mapIdx fun i on => if i < n then seq.stage input i on else on) := by
  induction n with
  | zero => exact congrArg some (List.ext_getElem (by simp) (by simp))
  | succ n ih =>
    rw [List.range_succ, List.foldlM_append, ih (by omega)]
    have hlt : n < (stages.mapIdx fun i on =>
        if i < n then seq.stage input i on else on).length := by simpa using h
    simp only [List.foldlM_cons, List.foldlM_nil, Option.bind_eq_bind, Option.bind_some,
      switch_eq input hlt, Option.pure_def, Option.some.injEq]
    apply List.ext_getElem (by simp)
    intro i hi hi'
    simp only [List.getElem_set, List.getElem_mapIdx]
    by_cases heq : n = i
    · subst heq
      simp
    · have hiff : i < n + 1 ↔ i < n := by omega
      simp [heq, hiff]

/-- As many stages as the sequencer counts: the loop indexes nothing beyond them. -/
theorem executeIndexed_eq (h : seq.stages.length = seq.numStages) (input : F) :
    seq.executeIndexed input = some (seq.execute input) := by
  unfold LeadSequencer.executeIndexed LeadSequencer.execute
  split
  · rfl
  · rw [switch_range input seq.stages h.ge, Option.map_some]
    have hall : (seq.stages.mapIdx fun i on =>
        if i < seq.numStages then seq.stage input i on else on) =
          seq.stages.mapIdx fun i on => seq.stage input i on := by
      apply List.ext_getElem (by simp)
      intro i hi hi'
      have hlt : i < seq.numStages := by
        rw [← h]
        simpa using hi
      simp [hlt]
    rw [hall]

theorem execute_length (seq : LeadSequencer F) (input : F) :
    (seq.execute input).stages.length = seq.stages.length ∧
      (seq.execute input).numStages = seq.numStages := by
  unfold LeadSequencer.execute
  split_ifs
  · exact ⟨rfl, rfl⟩
  · exact ⟨List.length_mapIdx, rfl⟩

end Sequencer

section Loops

variable [BlockFloats F]

/-- What keeps a loop from panicking: its range is in order and its sequencer has as many
    stages as it counts. -/
structure LoopSafe (l : ControlLoop F) : Prop where
  range : l.pid.InOrder
  stages : ∀ seq ∈ l.sequencer, seq.stages.length = seq.numStages

theorem LoopSafe.cycle {l : ControlLoop F} (h : LoopSafe l) (r : Reading F) :
    ∃ l' cycle, l.cycleIndexed r = some (l', cycle) ∧ l.cycle r = some (l', cycle) ∧
      LoopSafe l' := by
  unfold ControlLoop.cycleIndexed ControlLoop.cycle
  cases l.inputs r with
  | none => exact ⟨l, none, rfl, rfl, h⟩
  | some p =>
    obtain ⟨pid, out, hpid, hmin, hmax⟩ := execute_some h.range p.1 p.2 r.now
    have hrange : pid.InOrder := by
      unfold PidController.InOrder
      rw [hmin, hmax]
      exact h.range
    unfold ControlLoop.drive
    simp only [hpid, Option.bind_eq_bind, Option.bind_some]
    cases hseq : l.sequencer with
    | none => exact ⟨_, _, rfl, rfl, hrange, by simp⟩
    | some seq =>
      have hlength := h.stages seq hseq
      simp only [executeIndexed_eq hlength, Option.bind_some]
      refine ⟨_, _, rfl, rfl, hrange, ?_⟩
      rintro seq' ⟨⟩
      rw [(execute_length seq out).1, (execute_length seq out).2, hlength]

variable {E : Type} (api : EngineCalls E F)

theorem runLoops_safe (now : Instant) {loops : List (ControlLoop F)}
    (h : ∀ l ∈ loops, LoopSafe l) (e : E) :
    ∃ r, runLoops api now loops e = some r ∧ executeLoops api now loops e = some r ∧
      ∀ l ∈ r.1, LoopSafe l := by
  induction loops generalizing e with
  | nil => exact ⟨([], e), rfl, rfl, nofun⟩
  | cons l rest ih =>
    rw [List.forall_mem_cons] at h
    obtain ⟨l', cycle, hindexed, hcycle, hl'⟩ := h.1.cycle (api.readings l e now).2
    obtain ⟨⟨rest', e'⟩, hrest, hrest', hsafe⟩ := ih h.2
      (((cycle.map Cycle.commands).getD []).foldl api.channelWriteLevel (api.readings l e now).1)
    refine ⟨(l' :: rest', e'), ?_, ?_, List.forall_mem_cons.2 ⟨hl', hsafe⟩⟩
    · simp only [runLoops, hindexed, Option.bind_eq_bind, Option.bind_some, hrest]
    · simp only [executeLoops, hcycle, Option.bind_eq_bind, Option.bind_some, hrest']

end Loops

section Components

variable [BlockFloats F]

/-- A period of zero never comes to the remainder. -/
theorem ramp_isSome (c : Ramp F) (now : Instant) : (c.execute now).isSome = true := by
  unfold Ramp.execute
  split_ifs with henabled hperiod
  · rfl
  · rfl
  · split
    · rfl
    · simp [checkedMod, hperiod]

theorem scheduleTime_isSome (inputs : List F) (clockSecs : UInt64) :
    (scheduleTime inputs clockSecs).isSome = true := by
  unfold scheduleTime
  split_ifs with hlength
  · have h0 : 0 < inputs.length := by omega
    have h1 : 1 < inputs.length := by omega
    simp [h0, h1]
  · rfl

/-- No component panics, whatever its settings, its inputs and its past are. -/
theorem executeComponent_isSome (kind : ComponentKind F) (inputs : List F) (now : Instant)
    (clockSecs : UInt64) : (executeComponent kind inputs now clockSecs).isSome = true := by
  obtain ⟨time, htime⟩ := Option.isSome_iff_exists.1 (scheduleTime_isSome inputs clockSecs)
  cases kind with
  | ramp c =>
    obtain ⟨c', hc⟩ := Option.isSome_iff_exists.1 (ramp_isSome c now)
    simp [executeComponent, hc]
  | dailyScheduleFloat c => simp [executeComponent, htime]
  | dailyScheduleBool c => simp [executeComponent, htime]
  | _ => rfl

variable {E : Type} (api : EngineCalls E F)

theorem executeComponents_isSome (now : Instant) (clockSecs : UInt64)
    (components : List (ComponentInstance F)) (e : E) :
    (executeComponents api now clockSecs components e).isSome = true := by
  induction components generalizing e with
  | nil => rfl
  | cons comp rest ih =>
    unfold executeComponents
    split_ifs with henabled
    · obtain ⟨r, hr⟩ := Option.isSome_iff_exists.1 (ih e)
      simp [hr]
    · obtain ⟨p, hp⟩ := Option.isSome_iff_exists.1 (executeComponent_isSome comp.kind
        (readInputChannels api comp.inputChannels e).2 now clockSecs)
      dsimp only
      rw [hp]
      obtain ⟨r, hr⟩ := Option.isSome_iff_exists.1
        (ih (api.channelWriteLevel (readInputChannels api comp.inputChannels e).1
          ⟨comp.outputChannel, comp.writeLevel, some p.2, "control", FloatOps.lit 0⟩))
      simp [hr]

end Components

section Runs

variable [BlockFloats F]

/-- A call of the runner, with the engine as it stands and the system's clock. -/
structure RunnerCall (E : Type) where
  engine : E
  now : Instant
  clockSecs : UInt64

def ControlRunner.executeAll {E : Type} (api : EngineCalls E F) :
    ControlRunner F → List (RunnerCall E) → Option (ControlRunner F)
  | runner, [] => some runner
  | runner, c :: calls => do
    let (runner, _) ← runner.execute api c.engine c.now c.clockSecs
    runner.executeAll api calls

theorem build_safe {lc : LoopConfig F} (h : FloatOps.le lc.pid.min lc.pid.max = true) :
    LoopSafe lc.build := by
  refine ⟨h, fun seq hseq => ?_⟩
  obtain ⟨sc, -, rfl⟩ := Option.map_eq_some_iff.1 hseq
  exact List.length_replicate

theorem load_loops {cfg : ControlToml F} {runner : ControlRunner F}
    (hload : ControlRunner.load cfg = .ok runner) : loadLoops cfg.loops = .ok runner.loops := by
  unfold ControlRunner.load at hload
  cases hloops : loadLoops cfg.loops with
  | error message =>
    rw [hloops] at hload
    cases hload
  | ok loops =>
    cases hcomponents : loadComponents cfg.component with
    | error message =>
      rw [hloops, hcomponents] at hload
      cases hload
    | ok components =>
      rw [hloops, hcomponents] at hload
      cases hload
      rfl

theorem execute_isSome {E : Type} (api : EngineCalls E F) {runner : ControlRunner F}
    (h : ∀ l ∈ runner.loops, LoopSafe l) (c : RunnerCall E) :
    ∃ r, runner.execute api c.engine c.now c.clockSecs = some r ∧ ∀ l ∈ r.1.loops, LoopSafe l := by
  obtain ⟨⟨loops, e⟩, hloops, -, hsafe⟩ := runLoops_safe api c.now h c.engine
  obtain ⟨⟨components, e'⟩, hcomponents⟩ := Option.isSome_iff_exists.1
    (executeComponents_isSome api c.now c.clockSecs runner.components e)
  refine ⟨(⟨loops, components⟩, e'), ?_, hsafe⟩
  simp only [ControlRunner.execute, hloops, hcomponents, Option.bind_eq_bind, Option.bind_some]

theorem executeAll_isSome {E : Type} (api : EngineCalls E F) {runner : ControlRunner F}
    (h : ∀ l ∈ runner.loops, LoopSafe l) (calls : List (RunnerCall E)) :
    (runner.executeAll api calls).isSome = true := by
  induction calls generalizing runner with
  | nil => rfl
  | cons c calls ih =>
    obtain ⟨r, hr, hsafe⟩ := execute_isSome api h c
    unfold ControlRunner.executeAll
    rw [hr]
    exact ih hsafe

end Runs

section Panics

variable [BlockFloats F]

def steadyEngine : EngineCalls Unit F where
  channelRead e _ := (e, some { EngineValue.default with status := .ok })
  channelWriteLevel e _ := e

def steadyValue : F := (EngineValue.default : EngineValue F).cur

theorem inputs_steady {l : ControlLoop F} (henabled : l.enabled = true) (e : Unit) (now : Instant) :
    l.inputs (steadyEngine.readings l e now).2 = some (steadyValue, steadyValue) ∧
      (steadyEngine.readings l e now).2.now = now := by
  simp [EngineCalls.readings, steadyEngine, ControlLoop.inputs, henabled, steadyValue]

theorem cycleIndexed_pid {l l' : ControlLoop F} {r : Reading F} {cycle : Option (Cycle F)}
    {sp pv : F} (hinputs : l.inputs r = some (sp, pv))
    (h : l.cycleIndexed r = some (l', cycle)) :
    l'.enabled = l.enabled ∧ ∃ out, l.pid.execute sp pv r.now = some (l'.pid, out) := by
  unfold ControlLoop.cycleIndexed at h
  simp only [hinputs, Option.bind_eq_bind, Option.bind_eq_some_iff, Prod.exists] at h
  obtain ⟨pid, out, hpid, h⟩ := h
  cases hseq : l.sequencer with
  | none =>
    simp only [hseq] at h
    cases h
    exact ⟨rfl, out, hpid⟩
  | some seq =>
    simp only [hseq, Option.bind_eq_some_iff] at h
    obtain ⟨seq', -, h⟩ := h
    cases h
    exact ⟨rfl, out, hpid⟩

theorem runLoops_steady (now : Instant) {loops loops' : List (ControlLoop F)} {e e' : Unit}
    (h : runLoops steadyEngine now loops e = some (loops', e')) :
    ∀ l ∈ loops, l.enabled = true → ∃ l' ∈ loops', l'.enabled = true ∧
      ∃ out, l.pid.execute steadyValue steadyValue now = some (l'.pid, out) := by
  induction loops generalizing loops' e with
  | nil => exact nofun
  | cons l rest ih =>
    simp only [runLoops, Option.bind_eq_bind, Option.bind_eq_some_iff, Prod.exists] at h
    obtain ⟨l', cycle, hcycle, rest', e₂, hrest, h⟩ := h
    cases h
    refine List.forall_mem_cons.2 ⟨fun henabled => ?_, fun m hm henabled => ?_⟩
    · obtain ⟨hinputs, hnow⟩ := inputs_steady henabled e now
      obtain ⟨hkeep, out, hpid⟩ := cycleIndexed_pid hinputs hcycle
      rw [hnow] at hpid
      exact ⟨l', List.mem_cons_self, hkeep.trans henabled, out, hpid⟩
    · obtain ⟨m', hm', hstep⟩ := ih hrest m hm henabled
      exact ⟨m', List.mem_cons_of_mem _ hm', hstep⟩

theorem execute_steady {runner runner' : ControlRunner F} {e e' : Unit} {now : Instant}
    {clockSecs : UInt64} (h : runner.execute steadyEngine e now clockSecs = some (runner', e')) :
    ∀ l ∈ runner.loops, l.enabled = true → ∃ l' ∈ runner'.loops, l'.enabled = true ∧
      ∃ out, l.pid.execute steadyValue steadyValue now = some (l'.pid, out) := by
  simp only [ControlRunner.execute, Option.bind_eq_bind, Option.bind_eq_some_iff, Prod.exists] at h
  obtain ⟨loops, e₁, hloops, components, e₂, -, h⟩ := h
  cases h
  exact runLoops_steady now hloops

/-- A new controller with its range upside down panics by its second execution, once the
    interval is over. -/
theorem upside_down_panics
    (hsecs : ∀ n, 0 < n → FloatOps.le (FloatOps.asSecs n : F) (FloatOps.lit 0) = false)
    {pid pid₁ pid₂ : PidController F} {sp pv out₁ out₂ : F} (hrange : ¬ pid.InOrder)
    (henabled : pid.enabled = true) (hfresh : pid.initialized = false)
    (h₁ : pid.execute sp pv 0 = some (pid₁, out₁))
    (h₂ : pid₁.execute sp pv (pid.execIntervalMs.toNat * 1000000 + 1) = some (pid₂, out₂)) :
    False := by
  have hclamp : ∀ x : F, FloatOps.clamp x pid.outMin pid.outMax = none := by
    intro x
    unfold FloatOps.clamp
    exact if_neg hrange
  unfold PidController.execute at h₁
  simp only [henabled, hfresh, Bool.not_true, Bool.not_false, Bool.false_eq_true, if_false,
    if_true] at h₁
  cases hki : FloatOps.eq pid.ki (FloatOps.lit 0) with
  | true => simp [hki, hclamp] at h₁
  | false =>
    simp only [hki, Bool.false_eq_true, if_false] at h₁
    cases h₁
    have hlate : FloatOps.le
        (FloatOps.asSecs (pid.execIntervalMs.toNat * 1000000 + 1) : F) (FloatOps.lit 0) = false :=
      hsecs _ (Nat.succ_pos _)
    simp [PidController.execute, hlate, PidController.compute, PidController.integrate,
      PidController.integrates, hki, hclamp] at h₂

end Panics

/-- An accepted configuration runs without a panic, whatever the engine answers it and
    whenever it is called, exactly when the range of every loop that drives an output is in
    order. -/
theorem accepted_runs_iff [BlockFloats F]
    (hsecs : ∀ n, 0 < n → FloatOps.le (FloatOps.asSecs n : F) (FloatOps.lit 0) = false)
    (cfg : ControlToml F) (runner : ControlRunner F) (hload : ControlRunner.load cfg = .ok runner) :
    (∀ (E : Type) (api : EngineCalls E F) (calls : List (RunnerCall E)),
      (calls.map RunnerCall.now).Pairwise (· ≤ ·) → (runner.executeAll api calls).isSome = true) ↔
      ∀ lc ∈ cfg.loops, lc.outputChannels ≠ [] → FloatOps.le lc.pid.min lc.pid.max = true := by
  have hloops := load_loops hload
  constructor
  · intro hall lc hlc houtputs
    by_contra hrange
    have hmem : lc.build ∈ runner.loops := (loadLoops_mem hloops).2 ⟨lc, hlc, rfl, houtputs⟩
    have hrun := hall Unit steadyEngine
      [⟨(), 0, 0⟩, ⟨(), lc.pid.execIntervalMs.toNat * 1000000 + 1, 0⟩] (by simp)
    obtain ⟨last, hlast⟩ := Option.isSome_iff_exists.1 hrun
    simp only [ControlRunner.executeAll, Option.bind_eq_bind, Option.bind_eq_some_iff,
      Prod.exists] at hlast
    obtain ⟨first, e₁, hfirst, second, e₂, hsecond, -⟩ := hlast
    obtain ⟨l₁, hl₁, henabled₁, out₁, hpid₁⟩ := execute_steady hfirst _ hmem rfl
    obtain ⟨l₂, -, -, out₂, hpid₂⟩ := execute_steady hsecond l₁ hl₁ henabled₁
    have hupside : ¬ lc.build.pid.InOrder := hrange
    exact upside_down_panics hsecs hupside rfl rfl hpid₁ hpid₂
  · intro hranges E api calls _
    refine executeAll_isSome api (fun l hl => ?_) calls
    obtain ⟨lc, hlc, rfl, houtputs⟩ := (loadLoops_mem hloops).1 hl
    exact build_safe (hranges lc hlc houtputs)

/-- The cooling loop with a ramp whose period is zero beside it. -/
def coolingFile : ControlToml ℚ where
  loops := [coolingLoop]
  component := [{
    name := "ramp", componentType := "ramp", inputChannels := [], outputChannel := 60,
    writeLevel := 8, value := none, min := none, max := none, periodMs := some 0, delayMs := none,
    durationMs := none, setpoint := none, deadband := none, heating := none,
    risingThreshold := none, fallingThreshold := none, highValue := none, lowValue := none,
    defaultValue := none, entries := none, boolEntries := none, offset := none,
    decimals := none }]

def coolingRunner : ControlRunner ℚ where
  loops := [coolingLoop.build]
  components := [⟨"ramp", [], 60, 8, .ramp ⟨0, 100, 0, true, none, 0⟩, true⟩]

theorem coolingFile_runs : (coolingRunner.executeAll steadyEngine
    [⟨(), 0, 0⟩, ⟨(), 60000000000, 0⟩, ⟨(), 120000000000, 0⟩]).isSome = true := by
  refine (accepted_runs_iff (fun _ => asSecs_pos.2) coolingFile coolingRunner rfl).2 ?_
    Unit steadyEngine _ (by decide)
  intro lc hlc _
  rw [List.mem_singleton.1 hlc]
  decide

def invertedLoop : LoopConfig ℚ :=
  { coolingLoop with pid := { PidConfig.default with min := 100, max := 0 } }

theorem inverted_panics : ¬ ∀ (cfg : ControlToml ℚ) (runner : ControlRunner ℚ),
    ControlRunner.load cfg = .ok runner → ∀ (E : Type) (api : EngineCalls E ℚ)
      (calls : List (RunnerCall E)), (calls.map RunnerCall.now).Pairwise (· ≤ ·) →
        (runner.executeAll api calls).isSome = true := by
  intro hall
  have hrun := hall ⟨[invertedLoop], []⟩ ⟨[invertedLoop.build], []⟩ rfl Unit steadyEngine
    [⟨(), 0, 0⟩] (List.pairwise_singleton _ _)
  exact absurd hrun (by decide +kernel)

end Sandstar.Control
