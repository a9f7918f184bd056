import Sandstar.ControlLoops
import Sandstar.Runs

set_option autoImplicit false

/-!
# Full and no demand

A loaded sequencer divides the range from 0 to 100 whatever the range of the
controller is, stages at most sixteen outputs, and holds a stage between its two
thresholds. So the ends of the controller's range line up with all stages on and
all stages off only where the thresholds or the stages before the cycle say so.
-/
namespace Sandstar.Control

section Controller

variable {F : Type} [FloatOps F] {low high : F} {pid : PidController F}

theorem clamp_isSome (x : F) :
    (FloatOps.clamp x low high).isSome = FloatOps.le low high := by
  unfold FloatOps.clamp
  split_ifs with hle <;> simp [hle]

/-- The ends of the controller's range are in order. -/
def PidController.InOrder (pid : PidController F) : Prop := FloatOps.le pid.outMin pid.outMax = true

theorem limitRate_isSome (h : pid.InOrder) (x : F) : (pid.limitRate x).isSome = true := by
  unfold PidController.limitRate
  dsimp only
  split_ifs
  · exact (clamp_isSome _).trans h
  · rfl
  · rfl

theorem integrate_isSome (h : pid.InOrder) (error dt : F) :
    (pid.integrate error dt).isSome = true := by
  unfold PidController.integrate
  split_ifs
  · exact (clamp_isSome _).trans h
  · rfl

theorem compute_some (h : pid.InOrder) (sp pv dt : F) (now : Instant) :
    ∃ pid' out, pid.compute sp pv dt now = some (pid', out) ∧
      pid'.outMin = pid.outMin ∧ pid'.outMax = pid.outMax := by
  obtain ⟨integral, hintegral⟩ :=
    Option.isSome_iff_exists.1 (integrate_isSome h (pid.error sp pv) dt)
  obtain ⟨clamped, hclamped⟩ := Option.isSome_iff_exists.1
    ((clamp_isSome (pid.raw (pid.error sp pv) integral dt)).trans h)
  obtain ⟨limited, hlimited⟩ := Option.isSome_iff_exists.1 (limitRate_isSome h clamped)
  simp only [PidController.compute, hintegral, Option.bind_eq_bind, Option.bind_some, hclamped,
    hlimited]
  exact ⟨_, limited, rfl, rfl, rfl⟩

/-- A controller whose range is in order does not panic, and keeps its range. -/
theorem execute_some (h : pid.InOrder) (sp pv : F) (now : Instant) :
    ∃ pid' out, pid.execute sp pv now = some (pid', out) ∧
      pid'.outMin = pid.outMin ∧ pid'.outMax = pid.outMax := by
  unfold PidController.execute
  split
  · exact ⟨pid, _, rfl, rfl, rfl⟩
  split
  · dsimp only
    split
    · obtain ⟨y, hy⟩ := Option.isSome_iff_exists.1 ((clamp_isSome pid.bias).trans h)
      rw [hy]
      exact ⟨_, y, rfl, rfl, rfl⟩
    · exact ⟨_, _, rfl, rfl, rfl⟩
  dsimp only
  split
  · exact ⟨pid, _, rfl, rfl, rfl⟩
  split
  · exact ⟨pid, _, rfl, rfl, rfl⟩
  · exact compute_some h sp pv _ now

theorem clamp_some {low high : ℚ} (h : low ≤ high) (x : ℚ) :
    ∃ y, FloatOps.clamp x low high = some y :=
  Option.isSome_iff_exists.1 ((clamp_isSome x).trans (decide_eq_true h))

theorem asSecs_pos {n : ℕ} :
    FloatOps.le (FloatOps.asSecs n : ℚ) (FloatOps.lit 0) = false ↔ 0 < n := by
  simp only [FloatOps.le, FloatOps.asSecs, FloatOps.lit, decide_eq_false_iff_not, not_le]
  rw [div_pos_iff_of_pos_right (by norm_num), Nat.cast_pos]

end Controller

section Stages

/-- What `load` leaves of a sequencer for `outputs` channels, whatever its stages are. -/
structure Staging (outputs : ℕ) (seq : LeadSequencer ℚ) : Prop where
  inMin : seq.inMin = 0
  inMax : seq.inMax = 100
  numStages : seq.numStages = min outputs maxStages
  length : seq.stages.length = seq.numStages

theorem stage_eq_true (seq : LeadSequencer ℚ) (x : ℚ) (i : ℕ) (on : Bool) :
    seq.stage x i on = true ↔
      seq.thresholdOn i < x ∨ (seq.thresholdOff i ≤ x ∧ on = true) := by
  by_cases hon : seq.thresholdOn i < x
  · simp [LeadSequencer.stage, FloatOps.lt, hon]
  · by_cases hoff : x < seq.thresholdOff i
    · simp [LeadSequencer.stage, FloatOps.lt, hon, hoff]
    · simp [LeadSequencer.stage, FloatOps.lt, hon, hoff, not_lt.1 hoff]

theorem stage_eq_false (seq : LeadSequencer ℚ) (x : ℚ) (i : ℕ) (on : Bool) :
    seq.stage x i on = false ↔
      x ≤ seq.thresholdOn i ∧ (x < seq.thresholdOff i ∨ on = false) := by
  by_cases hon : seq.thresholdOn i < x
  · simp [LeadSequencer.stage, FloatOps.lt, hon]
  · by_cases hoff : x < seq.thresholdOff i
    · simp [LeadSequencer.stage, FloatOps.lt, hon, hoff, not_lt.1 hon]
    · simp [LeadSequencer.stage, FloatOps.lt, hon, hoff, not_lt.1 hon]

variable {outputs : ℕ} {seq : LeadSequencer ℚ}

theorem Staging.thresholdOn (h : Staging outputs seq) (i : ℕ) :
    seq.thresholdOn i = 100 / (seq.numStages : ℚ) * i := by
  unfold LeadSequencer.thresholdOn LeadSequencer.bandWidth
  rw [h.inMin, h.inMax]
  simp [FloatOps.lit]

theorem Staging.thresholdOn_nonneg (h : Staging outputs seq) (i : ℕ) :
    0 ≤ seq.thresholdOn i := by
  rw [h.thresholdOn]
  positivity

theorem Staging.execute (h : Staging outputs seq) (hpos : 0 < outputs) (x : ℚ) :
    seq.execute x = { seq with stages := seq.stages.mapIdx fun i on => seq.stage x i on } := by
  have hrange : FloatOps.le (seq.inMax - seq.inMin) (FloatOps.lit 0) = false := by
    rw [h.inMin, h.inMax]
    exact decide_eq_false (by norm_num [FloatOps.lit])
  have hstages : (seq.numStages == 0) = false := by
    have hn := h.numStages
    unfold maxStages at hn
    simp only [beq_eq_false_iff_ne]
    omega
  unfold LeadSequencer.execute
  rw [hrange, hstages]
  rfl

theorem Staging.keeps (h : Staging outputs seq) (hpos : 0 < outputs) (x : ℚ) :
    Staging outputs (seq.execute x) := by
  rw [h.execute hpos]
  exact ⟨h.inMin, h.inMax, h.numStages, List.length_mapIdx.trans h.length⟩

theorem Staging.getD (h : Staging outputs seq) (hpos : 0 < outputs) (x : ℚ) (i : ℕ) :
    (seq.execute x).stages.getD i false =
      (decide (i < seq.numStages) && seq.stage x i (seq.stages.getD i false)) := by
  rw [h.execute hpos]
  by_cases hi : i < seq.numStages
  · have hi' : i < seq.stages.length := h.length ▸ hi
    simp [List.getD_eq_getElem?_getD, hi, hi']
  · have hi' : seq.stages.length ≤ i := h.length ▸ not_lt.1 hi
    simp [List.getD_eq_getElem?_getD, hi, hi']

end Stages

section Demand

variable (l : ControlLoop ℚ) (seq : LeadSequencer ℚ)

def ControlLoop.commandAll (value : ℚ) : List (Command ℚ) :=
  l.outputChannels.map fun channel => l.command channel value

def FullDemand : Prop :=
  l.outputChannels.length ≤ maxStages ∧ ∀ i < seq.numStages,
    seq.thresholdOn i < l.pid.outMax ∨
      (seq.thresholdOff i ≤ l.pid.outMax ∧ seq.stages.getD i false = true)

/-- The range begins no higher than the first stage, and each stage is off or has its off
    threshold above the bottom of the range. -/
def NoDemand : Prop :=
  l.pid.outMin ≤ 0 ∧ ∀ i < seq.numStages,
    l.pid.outMin < seq.thresholdOff i ∨ seq.stages.getD i false = false

def ControlLoop.staged (x : ℚ) : List (Command ℚ) :=
  l.outputChannels.mapIdx fun i channel =>
    l.command channel (if (seq.execute x).stages.getD i false then 1 else 0)

variable {l seq}

theorem staged_eq_commandAll (x value : ℚ) : l.staged seq x = l.commandAll value ↔
    ∀ i < l.outputChannels.length,
      (if (seq.execute x).stages.getD i false = true then (1 : ℚ) else 0) = value := by
  constructor
  · intro h i hi
    have hget := congrArg (fun cs => cs[i]?) h
    simpa [ControlLoop.staged, ControlLoop.commandAll, ControlLoop.command, hi] using hget
  · intro h
    apply List.ext_getElem
    · simp [ControlLoop.staged, ControlLoop.commandAll]
    · intro i hi hi'
      have hlen : i < l.outputChannels.length := by simpa [ControlLoop.commandAll] using hi'
      have hi := h i hlen
      rw [List.getD_eq_getElem?_getD] at hi
      simp [ControlLoop.staged, ControlLoop.commandAll, hi]

theorem staged_full (h : Staging l.outputChannels.length seq) (hpos : 0 < l.outputChannels.length) :
    l.staged seq l.pid.outMax = l.commandAll 1 ↔ FullDemand l seq := by
  have hn := h.numStages
  have hvalue : ∀ b : Bool, (if b = true then (1 : ℚ) else 0) = 1 ↔ b = true := by decide
  rw [staged_eq_commandAll]
  simp only [hvalue]
  simp only [h.getD hpos, Bool.and_eq_true, decide_eq_true_eq, stage_eq_true]
  unfold FullDemand
  constructor
  · intro hall
    have hlast := (hall (l.outputChannels.length - 1) (by omega)).1
    refine ⟨by omega, fun i hi => (hall i (by omega)).2⟩
  · rintro ⟨hlen, hall⟩ i hi
    have hi' : i < seq.numStages := by omega
    exact ⟨hi', hall i hi'⟩

theorem staged_none (h : Staging l.outputChannels.length seq) (hpos : 0 < l.outputChannels.length) :
    l.staged seq l.pid.outMin = l.commandAll 0 ↔ NoDemand l seq := by
  have hn := h.numStages
  have hvalue : ∀ b : Bool, (if b = true then (1 : ℚ) else 0) = 0 ↔ b = false := by decide
  rw [staged_eq_commandAll]
  simp only [hvalue]
  simp only [h.getD hpos, Bool.and_eq_false_iff, decide_eq_false_iff_not, stage_eq_false]
  have hfirst : seq.thresholdOn 0 = 0 := by
    rw [h.thresholdOn]
    simp
  have hstages : 0 < seq.numStages := by
    unfold maxStages at hn
    omega
  unfold NoDemand
  constructor
  · intro hall
    have hstage : ∀ i < seq.numStages, l.pid.outMin ≤ seq.thresholdOn i ∧
        (l.pid.outMin < seq.thresholdOff i ∨ seq.stages.getD i false = false) := by
      intro i hi
      exact (hall i (by omega)).resolve_left (not_not.2 hi)
    exact ⟨hfirst ▸ (hstage 0 hstages).1, fun i hi => (hstage i hi).2⟩
  · rintro ⟨hmin, hall⟩ i -
    by_cases hi : i < seq.numStages
    · exact .inr ⟨hmin.trans (h.thresholdOn_nonneg i), hall i hi⟩
    · exact .inl hi

end Demand

section Histories

structure Staged (l : ControlLoop ℚ) : Prop where
  outputs : 0 < l.outputChannels.length
  range : l.pid.outMin < l.pid.outMax
  sequencer : ∃ seq, l.sequencer = some seq ∧ Staging l.outputChannels.length seq

theorem loadLoops_eq {F : Type} [FloatOps F] {configs : List (LoopConfig F)}
    {loops : List (ControlLoop F)} (hload : loadLoops configs = .ok loops) :
    loops = (configs.filter fun lc => !lc.outputChannels.isEmpty).map LoopConfig.build := by
  induction configs generalizing loops with
  | nil =>
    cases hload
    rfl
  | cons lc rest ih =>
    unfold loadLoops at hload
    split at hload
    · cases hload
    · cases hrest : loadLoops rest with
      | error message =>
        rw [hrest] at hload
        cases hload
      | ok others =>
        rw [hrest] at hload
        have hothers := ih hrest
        by_cases hempty : lc.outputChannels.isEmpty = true
        · have heq : others = loops := by simpa [hempty, bind, Except.bind] using hload
          simp [hempty, ← heq, hothers]
        · have heq : lc.build :: others = loops := by
            simpa [hempty, bind, Except.bind] using hload
          simp [hempty, ← heq, hothers]

theorem loadLoops_mem {F : Type} [FloatOps F] {configs : List (LoopConfig F)}
    {loops : List (ControlLoop F)} (hload : loadLoops configs = .ok loops) {l : ControlLoop F} :
    l ∈ loops ↔ ∃ lc ∈ configs, l = lc.build ∧ lc.outputChannels ≠ [] := by
  rw [loadLoops_eq hload, List.mem_map]
  constructor
  · rintro ⟨lc, hlc, rfl⟩
    rw [List.mem_filter] at hlc
    exact ⟨lc, hlc.1, rfl, by simpa using hlc.2⟩
  · rintro ⟨lc, hlc, rfl, houtputs⟩
    exact ⟨lc, List.mem_filter.2 ⟨hlc, by simpa using houtputs⟩, rfl⟩

theorem staged_build {lc : LoopConfig ℚ} (houtputs : lc.outputChannels ≠ [])
    (hseq : lc.build.sequencer.isSome = true)
    (hrange : lc.build.pid.outMin < lc.build.pid.outMax) : Staged lc.build := by
  have hpos : 0 < lc.outputChannels.length := List.length_pos_iff.2 houtputs
  refine ⟨hpos, hrange, ?_⟩
  cases hsc : lc.sequencer with
  | none => simp [LoopConfig.build, hsc] at hseq
  | some sc =>
    refine ⟨_, by simp only [LoopConfig.build, hsc, Option.map_some]; rfl, ?_⟩
    refine ⟨rfl, rfl, ?_, List.length_replicate⟩
    change max 1 (min lc.outputChannels.length maxStages) = min lc.outputChannels.length maxStages
    unfold maxStages
    omega

def ControlLoop.pidOutput (l : ControlLoop ℚ) (r : Reading ℚ) : Option ℚ :=
  (l.inputs r).bind fun p => (l.pid.execute p.1 p.2 r.now).map Prod.snd

theorem Staged.cycle {l : ControlLoop ℚ} (h : Staged l) (r : Reading ℚ) :
    ∃ l' out, l.cycle r = some (l', out) ∧ Staged l' ∧ out.map Cycle.pidOut = l.pidOutput r ∧
      ∀ c ∈ out, ∀ seq ∈ l.sequencer, c.commands = l.staged seq c.pidOut := by
  unfold ControlLoop.cycle ControlLoop.pidOutput
  cases l.inputs r with
  | none => exact ⟨l, none, rfl, h, rfl, nofun⟩
  | some p =>
    obtain ⟨sp, pv⟩ := p
    have hin : l.pid.InOrder := decide_eq_true h.range.le
    obtain ⟨pid', x, hx, hmin, hmax⟩ := execute_some hin sp pv r.now
    obtain ⟨seq, hseq, hstaging⟩ := h.sequencer
    have hdrive : l.drive sp pv r.now =
        some ({ l with pid := pid', sequencer := some (seq.execute x) }, ⟨x, l.staged seq x⟩) := by
      simp only [ControlLoop.drive, hx, hseq, Option.bind_eq_bind, Option.bind_some]
      rfl
    simp only [hdrive, Option.map_some, Option.bind_some, hx]
    refine ⟨_, _, rfl, ⟨h.outputs, ?_, _, rfl, hstaging.keeps h.outputs x⟩, rfl, ?_⟩
    · change pid'.outMin < pid'.outMax
      rw [hmin, hmax]
      exact h.range
    · intro c hc seq' hseq'
      cases hc
      rw [hseq] at hseq'
      cases hseq'
      rfl

def advance (s : Option (ControlLoop ℚ)) (r : Reading ℚ) : Option (ControlLoop ℚ) :=
  s.bind fun l => (l.cycle r).map Prod.fst

/-- A cycle commands every output on at the top of the controller's range and every output
    off at its bottom. -/
def Demands (s : Option (ControlLoop ℚ)) (r : Reading ℚ) : Prop :=
  ∃ l l' out, s = some l ∧ l.cycle r = some (l', out) ∧ ∀ c ∈ out,
    (c.pidOut = l.pid.outMax → c.commands = l.commandAll 1) ∧
    (c.pidOut = l.pid.outMin → c.commands = l.commandAll 0)

/-- The thresholds and the stages before the cycle line up with the end of the range that
    the controller has reached. -/
def LinesUp (s : Option (ControlLoop ℚ)) (r : Reading ℚ) : Prop :=
  ∀ l ∈ s, ∀ seq ∈ l.sequencer, ∀ x ∈ l.pidOutput r,
    (x = l.pid.outMax → FullDemand l seq) ∧ (x = l.pid.outMin → NoDemand l seq)

theorem demands_iff {s : Option (ControlLoop ℚ)} (h : ∃ l, s = some l ∧ Staged l)
    (r : Reading ℚ) : Demands s r ↔ LinesUp s r := by
  obtain ⟨l, rfl, hl⟩ := h
  obtain ⟨l', out, hcycle, -, hout, hcommands⟩ := hl.cycle r
  obtain ⟨seq, hseq, hstaging⟩ := hl.sequencer
  have hends : ∀ c ∈ out,
      ((c.pidOut = l.pid.outMax → c.commands = l.commandAll 1) ↔
        (c.pidOut = l.pid.outMax → FullDemand l seq)) ∧
      ((c.pidOut = l.pid.outMin → c.commands = l.commandAll 0) ↔
        (c.pidOut = l.pid.outMin → NoDemand l seq)) := by
    intro c hc
    have hstaged := hcommands c hc seq hseq
    constructor
    · refine imp_congr_right fun hx => ?_
      rw [hstaged, hx]
      exact staged_full hstaging hl.outputs
    · refine imp_congr_right fun hx => ?_
      rw [hstaged, hx]
      exact staged_none hstaging hl.outputs
  constructor
  · rintro ⟨l₁, l₁', out₁, heq, hcycle₁, hall⟩ l₂ hl₂ seq₂ hseq₂ x hx
    cases heq
    cases hl₂
    rw [hcycle] at hcycle₁
    cases hcycle₁
    rw [hseq] at hseq₂
    cases hseq₂
    rw [← hout] at hx
    obtain ⟨c, hc, rfl⟩ := Option.map_eq_some_iff.1 hx
    exact ⟨(hends c hc).1.1 (hall c hc).1, (hends c hc).2.1 (hall c hc).2⟩
  · intro hlines
    refine ⟨l, l', out, rfl, hcycle, fun c hc => ?_⟩
    have hx : c.pidOut ∈ l.pidOutput r := by
      rw [← hout]
      exact Option.map_eq_some_iff.2 ⟨c, hc, rfl⟩
    obtain ⟨hfull, hnone⟩ := hlines l rfl seq hseq c.pidOut hx
    exact ⟨(hends c hc).1.2 hfull, (hends c hc).2.2 hnone⟩

theorem staged_advance {s : Option (ControlLoop ℚ)} (h : ∃ l, s = some l ∧ Staged l)
    (r : Reading ℚ) : ∃ l, advance s r = some l ∧ Staged l := by
  obtain ⟨l, rfl, hl⟩ := h
  obtain ⟨l', out, hcycle, hl', -⟩ := hl.cycle r
  refine ⟨l', ?_, hl'⟩
  simp [advance, hcycle]

/-- In every history of a loaded loop the ends of the range reach every output exactly
    where thresholds and stages line up. -/
theorem demand_reaches_outputs (configs : List (LoopConfig ℚ)) (loops : List (ControlLoop ℚ))
    (l : ControlLoop ℚ) (history : List (Reading ℚ)) (hload : loadLoops configs = .ok loops)
    (hl : l ∈ loops) (hseq : l.sequencer.isSome = true) (hrange : l.pid.outMin < l.pid.outMax) :
    Runs.Along advance Demands (some l) history ↔ Runs.Along advance LinesUp (some l) history := by
  obtain ⟨lc, -, rfl, houtputs⟩ := (loadLoops_mem hload).1 hl
  have hstaged : ∃ l, some lc.build = some l ∧ Staged l :=
    ⟨lc.build, rfl, staged_build houtputs hseq hrange⟩
  exact Runs.along_congr advance (fun s r hs _ => staged_advance hs r)
    (fun s r hs _ => demands_iff hs r) hstaged (Runs.along_true advance _ history)

theorem executeLoops_cycles {E : Type} (api : EngineCalls E ℚ) (now : Instant)
    {loops loops' : List (ControlLoop ℚ)} {e e' : E}
    (h : executeLoops api now loops e = some (loops', e')) :
    List.Forall₂ (fun l l' => ∃ r, advance (some l) r = some l') loops loops' := by
  induction loops generalizing loops' e with
  | nil =>
    cases h
    exact .nil
  | cons l rest ih =>
    simp only [executeLoops, Option.bind_eq_bind, Option.bind_eq_some_iff, Prod.exists] at h
    obtain ⟨l', cycle, hcycle, rest', e₂, hrest, h⟩ := h
    cases h
    refine .cons ⟨(api.readings l e now).2, ?_⟩ (ih hrest)
    simp [advance, hcycle]

end Histories

section Cooling

def coolingLoop : LoopConfig ℚ where
  name := "cooling"
  feedbackChannel := 4
  setpointChannel := 75
  outputChannels := [35, 50, 53, 47]
  writeLevel := 8
  pid := PidConfig.default
  sequencer := some ⟨1 / 2⟩
  enableQuery := none

def coolingAt (seconds : ℕ) (setpoint zone : ℚ) : Reading ℚ where
  feedback := some { Engine.EngineValue.default with status := .ok, cur := zone }
  setpoint := some { Engine.EngineValue.default with status := .ok, cur := setpoint }
  now := seconds * 1000000000

/-- The controller reaches the top of its range, and all four stages are commanded on. -/
theorem cooling_lines_up :
    Runs.Along advance Demands (some coolingLoop.build) [coolingAt 0 70 70, coolingAt 1 170 70] ∧
      (advance (some coolingLoop.build) (coolingAt 0 70 70)).bind
        (fun l => l.pidOutput (coolingAt 1 170 70)) = some coolingLoop.build.pid.outMax := by
  refine ⟨(demand_reaches_outputs [coolingLoop] [coolingLoop.build] coolingLoop.build
    [coolingAt 0 70 70, coolingAt 1 170 70] rfl (List.mem_singleton.2 rfl) rfl (by decide)).2
    ⟨?_, ?_, trivial⟩, by decide +kernel⟩
  all_goals
    unfold LinesUp FullDemand NoDemand
    decide +kernel

def coolingSwing : List (Reading ℚ) :=
  [coolingAt 0 70 70, coolingAt 1 170 70, coolingAt 2 70 170]

/-- The first stage is still commanded on at an output of 0. -/
theorem cooling_stuck :
    ¬ ∀ (configs : List (LoopConfig ℚ)) (loops : List (ControlLoop ℚ)) (l : ControlLoop ℚ)
      (history : List (Reading ℚ)), loadLoops configs = .ok loops → l ∈ loops →
      l.sequencer.isSome = true → l.pid.outMin < l.pid.outMax →
      (∀ seq ∈ l.sequencer, 0 ≤ seq.hysteresis) → Runs.Along advance Demands (some l) history := by
  intro hall
  have hrun := hall [coolingLoop] [coolingLoop.build] coolingLoop.build coolingSwing rfl
    (List.mem_singleton.2 rfl) rfl (by decide) (by rintro seq ⟨⟩; exact (by norm_num : (0 : ℚ) ≤ 1 / 2))
  obtain ⟨-, -, ⟨l, l', out, hl, hcycle, hdemands⟩, -⟩ := hrun
  have hswing : (advance (advance (some coolingLoop.build) (coolingAt 0 70 70))
      (coolingAt 1 170 70)).bind (fun l => (l.cycle (coolingAt 2 70 170)).bind fun p =>
        p.2.map fun c => (c.pidOut, l.pid.outMin, (c.commands.map Command.value),
          (l.commandAll 0).map Command.value)) =
      some (0, 0, [some 1, some 0, some 0, some 0], [some 0, some 0, some 0, some 0]) := by
    decide +kernel
  rw [hl, Option.bind_some, hcycle, Option.bind_some] at hswing
  obtain ⟨c, hc, hvalues⟩ := Option.map_eq_some_iff.1 hswing
  simp only [Prod.mk.injEq] at hvalues
  obtain ⟨hout, hmin, hvalues, hzero⟩ := hvalues
  have hnone := (hdemands c hc).2 (hout.trans hmin.symm)
  rw [hnone, hzero] at hvalues
  exact absurd hvalues (by decide)

end Cooling

end Sandstar.Control

/-!
# The order of the stages

The thresholds of a sequencer rise by one band from each stage to the next, so the
stages that are on are the first ones, whatever the inputs and the settings have been.
-/
namespace Sandstar.Control

section Order

variable {seq : LeadSequencer ℚ}

def LeadSequencer.InOrder (seq : LeadSequencer ℚ) : Prop :=
  ∀ i j, j ≤ i → seq.stages.getD i false = true → seq.stages.getD j false = true

theorem thresholdOn_le (hband : 0 ≤ seq.bandWidth) {i j : ℕ} (hij : j ≤ i) :
    seq.thresholdOn j ≤ seq.thresholdOn i := by
  have hcast : (j : ℚ) ≤ i := Nat.cast_le.2 hij
  have hscaled := mul_le_mul_of_nonneg_left hcast hband
  simp only [LeadSequencer.thresholdOn, FloatOps.lit]
  linarith

theorem stage_le (hband : 0 ≤ seq.bandWidth) {i j : ℕ} (hij : j ≤ i) (x : ℚ)
    {upper lower : Bool} (hbelow : upper = true → lower = true)
    (hon : seq.stage x i upper = true) : seq.stage x j lower = true := by
  have hthreshold := thresholdOn_le hband hij
  rw [stage_eq_true] at hon ⊢
  rcases hon with habove | ⟨hheld, hupper⟩
  · exact Or.inl (hthreshold.trans_lt habove)
  · refine Or.inr ⟨?_, hbelow hupper⟩
    unfold LeadSequencer.thresholdOff at hheld ⊢
    linarith

theorem execute_inOrder (h : seq.InOrder) (x : ℚ) : (seq.execute x).InOrder := by
  unfold LeadSequencer.execute
  split
  · exact h
  · rename_i hrange
    simp only [Bool.or_eq_true, not_or, FloatOps.le, FloatOps.lit, decide_eq_true_eq, not_le]
      at hrange
    have hband : 0 ≤ seq.bandWidth := by
      unfold LeadSequencer.bandWidth
      exact div_nonneg (by simpa using hrange.1.le) (by simp [FloatOps.lit])
    intro i j hij hon
    simp only [List.getD_eq_getElem?_getD, List.getElem?_mapIdx] at hon ⊢
    cases hi : seq.stages[i]? with
    | none => simp [hi] at hon
    | some upper =>
      have hlt : j < seq.stages.length :=
        hij.trans_lt (List.getElem?_eq_some_iff.1 hi).1
      have hbelow : upper = true → seq.stages[j] = true := by
        intro hupper
        have hj := h i j hij (by rw [List.getD_eq_getElem?_getD, hi]; exact hupper)
        rwa [List.getD_eq_getElem _ _ hlt] at hj
      rw [hi] at hon
      rw [List.getElem?_eq_getElem hlt]
      exact stage_le hband hij x hbelow hon

theorem replicate_inOrder {n : ℕ} (hstages : seq.stages = List.replicate n false) :
    seq.InOrder := by
  intro i j _ hon
  rw [hstages, List.getD_eq_getElem?_getD, List.getElem?_replicate] at hon
  split at hon <;> cases hon

/-- The stages that are on are the first `active_count` of them. -/
theorem getD_count (stages : List Bool)
    (h : ∀ i j, j ≤ i → stages.getD i false = true → stages.getD j false = true) (i : ℕ) :
    stages.getD i false = true ↔ i < (stages.filter id).length := by
  induction stages generalizing i with
  | nil => simp
  | cons on stages ih =>
    have htail : ∀ i j, j ≤ i → stages.getD i false = true → stages.getD j false = true := by
      intro i j hij hon
      exact h (i + 1) (j + 1) (Nat.succ_le_succ hij) hon
    cases on with
    | true =>
      cases i with
      | zero => simp
      | succ i => simpa using ih htail i
    | false =>
      -- a stage above would need the first one
      have hoff : ∀ i, stages.getD i false ≠ true := by
        intro i hon
        exact absurd (h (i + 1) 0 (Nat.zero_le _) hon) (by simp)
      have hnone : (stages.filter id).length = 0 := by
        by_contra hpos
        exact hoff 0 ((ih htail 0).2 (Nat.pos_of_ne_zero hpos))
      cases i with
      | zero => simpa using hnone
      | succ i => simpa [hnone] using hoff i

end Order

section Runs

/-- What can happen to a sequencer: a cycle, a new number of stages, new settings. -/
inductive SequencerEvent
  | execute (input : ℚ)
  | setNumStages (numStages : ℕ)
  | configure (inMin inMax hysteresis : ℚ)

def SequencerEvent.apply (seq : LeadSequencer ℚ) : SequencerEvent → LeadSequencer ℚ
  | .execute input => seq.execute input
  | .setNumStages numStages => seq.setNumStages numStages
  | .configure inMin inMax hysteresis =>
    { seq with inMin := inMin, inMax := inMax, hysteresis := hysteresis }

theorem apply_inOrder (seq : LeadSequencer ℚ) (e : SequencerEvent) (h : seq.InOrder) :
    (SequencerEvent.apply seq e).InOrder := by
  cases e with
  | execute input => exact execute_inOrder h input
  | setNumStages numStages => exact replicate_inOrder rfl
  | configure inMin inMax hysteresis => exact h

/-- In every history the stages that are on are a prefix, for every number of stages and
    all settings, those with no range and those with no hysteresis among them. -/
theorem stages_prefix (numStages : ℕ) (events : List SequencerEvent) :
    ∀ seq ∈ Runs.states SequencerEvent.apply (LeadSequencer.new numStages) events,
      (∀ i, seq.stages.getD (i + 1) false = true → seq.stages.getD i false = true) ∧
      ∀ i, seq.stages.getD i false = true ↔ i < seq.activeCount := by
  intro seq hseq
  have hstart : (LeadSequencer.new numStages : LeadSequencer ℚ).InOrder := replicate_inOrder rfl
  have horder : seq.InOrder :=
    Runs.states_always SequencerEvent.apply apply_inOrder hstart events seq hseq
  exact ⟨fun i => horder (i + 1) i i.le_succ, getD_count seq.stages horder⟩

def threeStages : LeadSequencer ℚ :=
  Runs.run SequencerEvent.apply (LeadSequencer.new 3) [.configure 0 30 1, .execute 25]

theorem stages_prefix_threeStages :
    (threeStages.stages.getD 1 false = true → threeStages.stages.getD 0 false = true) ∧
      (threeStages.stages.getD 1 false = true ↔ 1 < threeStages.activeCount) := by
  have hfirst := stages_prefix 3 [.configure 0 30 1, .execute 25] threeStages
    (Runs.run_mem_states _ _ _)
  exact ⟨hfirst.1 0, hfirst.2 1⟩

end Runs

end Sandstar.Control
