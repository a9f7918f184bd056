import Sandstar.ControlDemand

set_option autoImplicit false

/-!
# Runs of a PID controller

Outputs and integral of a controller with fixed parameters. Its first call returns the
bias or, where it integrates, the zero that it was made with; every later one stays where
the clamps put it.
-/
namespace Sandstar.Control

structure Call where
  setpoint : ℚ
  processVariable : ℚ
  now : Instant

/-- What a call returns and leaves; `computed` says that it came to the three terms. -/
structure Returned where
  computed : Bool
  output : ℚ
  integral : ℚ
deriving DecidableEq

def PidController.computes (pid : PidController ℚ) (now : Instant) : Bool :=
  let elapsed := now - pid.lastExec.getD now
  pid.enabled && pid.initialized && decide (pid.execIntervalMs.toNat * 1000000 ≤ elapsed) &&
    decide (0 < elapsed)

def PidController.returns : PidController ℚ → List Call → Option (List Returned)
  | _, [] => some []
  | pid, c :: calls => do
    let (pid', output) ← pid.execute c.setpoint c.processVariable c.now
    let rest ← pid'.returns calls
    some (⟨pid.computes c.now, output, pid'.integral⟩ :: rest)

/-- Every output lies in the range, so does the integral behind a computation, and two
    successive outputs differ by no more than the limit. -/
def Bounded (pc : PidConfig ℚ) (calls : List Call) : Prop :=
  ∃ rs, pc.build.returns calls = some rs ∧
    (∀ r ∈ rs, pc.min ≤ r.output ∧ r.output ≤ pc.max) ∧
    (pc.ki ≠ 0 → ∀ r ∈ rs, r.computed = true → pc.min ≤ r.integral ∧ r.integral ≤ pc.max) ∧
    (0 < pc.maxDelta → rs.IsChain fun a b => |b.output - a.output| ≤ pc.maxDelta)

section Clamps

theorem clamp_eq {low high : ℚ} (h : low ≤ high) (x : ℚ) :
    FloatOps.clamp x low high = some (max low (min x high)) := by
  unfold FloatOps.clamp
  simp only [FloatOps.le, FloatOps.lt, decide_eq_true_eq, if_pos h, Option.some.injEq]
  split_ifs with hlow hhigh
  · rw [min_eq_left (hlow.le.trans h), max_eq_left hlow.le]
  · rw [min_eq_right hhigh.le, max_eq_right h]
  · rw [min_eq_left (not_lt.1 hhigh), max_eq_right (not_lt.1 hlow)]

theorem clamp_mem {low high : ℚ} (h : low ≤ high) {x y : ℚ}
    (hy : FloatOps.clamp x low high = some y) : low ≤ y ∧ y ≤ high := by
  rw [clamp_eq h] at hy
  cases hy
  exact ⟨le_max_left _ _, max_le h (min_le_right _ _)⟩

theorem clamp_self {low high x : ℚ} (hlow : low ≤ x) (hhigh : x ≤ high) :
    FloatOps.clamp x low high = some x := by
  rw [clamp_eq (hlow.trans hhigh), min_eq_left hhigh, max_eq_right hlow]

theorem abs_signum (x : ℚ) : |(signum x : ℚ)| = 1 := by
  unfold signum
  simp only [FloatOps.lt, FloatOps.lit, decide_eq_true_eq]
  split_ifs <;> simp

theorem signum_step_mem {low high a b delta : ℚ} (ha : low ≤ a ∧ a ≤ high)
    (hb : low ≤ b ∧ b ≤ high) (hpos : 0 < delta) (hfar : delta < |b - a|) :
    low ≤ a + signum (b - a) * delta ∧ a + signum (b - a) * delta ≤ high := by
  unfold signum
  simp only [FloatOps.lt, FloatOps.lit, decide_eq_true_eq]
  split_ifs with hneg
  · rw [abs_of_neg hneg] at hfar
    constructor <;> linarith
  · rw [abs_of_nonneg (not_lt.1 hneg)] at hfar
    constructor <;> linarith

end Clamps

section Steps

variable {pc : PidConfig ℚ} {pid : PidController ℚ}

/-- A controller with the parameters of the configuration, whatever it has come to. -/
structure Configured (pc : PidConfig ℚ) (pid : PidController ℚ) : Prop where
  outMin : pid.outMin = pc.min
  outMax : pid.outMax = pc.max
  ki : pid.ki = pc.ki
  maxDelta : pid.maxDelta = pc.maxDelta
  enabled : pid.enabled = true

structure Running (pc : PidConfig ℚ) (pid : PidController ℚ) : Prop extends Configured pc pid where
  initialized : pid.initialized = true
  output : pc.min ≤ pid.output ∧ pid.output ≤ pc.max

/-- The limit moves an output of the range no further than it may go from the last one. -/
theorem limitRate_spec (hlast : pid.outMin ≤ pid.output ∧ pid.output ≤ pid.outMax) {x : ℚ}
    (hx : pid.outMin ≤ x ∧ x ≤ pid.outMax) :
    ∃ y, pid.limitRate x = some y ∧ (pid.outMin ≤ y ∧ y ≤ pid.outMax) ∧
      (0 < pid.maxDelta → |y - pid.output| ≤ pid.maxDelta) := by
  unfold PidController.limitRate
  simp only [FloatOps.lt, FloatOps.lit, FloatOps.abs, decide_eq_true_eq]
  by_cases hpos : 0 < pid.maxDelta
  · rw [if_pos hpos]
    by_cases hfar : pid.maxDelta < |x - pid.output|
    · have hstep := signum_step_mem hlast hx hpos hfar
      rw [if_pos hfar, clamp_self hstep.1 hstep.2]
      refine ⟨_, rfl, hstep, fun _ => ?_⟩
      rw [add_sub_cancel_left, abs_mul, abs_signum, one_mul, abs_of_pos hpos]
    · rw [if_neg hfar]
      exact ⟨x, rfl, hx, fun _ => not_lt.1 hfar⟩
  · rw [if_neg hpos]
    exact ⟨x, rfl, hx, fun h => absurd h hpos⟩

theorem integrate_spec (hrange : pid.outMin ≤ pid.outMax) (error dt : ℚ) :
    ∃ y, pid.integrate error dt = some y ∧
      (pid.ki ≠ 0 → pid.outMin ≤ y ∧ y ≤ pid.outMax) := by
  unfold PidController.integrate PidController.integrates
  by_cases hki : pid.ki = 0
  · exact ⟨pid.integral, by simp [FloatOps.eq, FloatOps.lit, hki], fun h => absurd hki h⟩
  · obtain ⟨y, hy⟩ := clamp_some hrange
      (pid.integral + pid.ki * error * dt / FloatOps.lit 60)
    exact ⟨y, by simpa [FloatOps.eq, FloatOps.lit, hki] using hy, fun _ => clamp_mem hrange hy⟩

theorem Running.compute (h : Running pc pid) (hrange : pc.min ≤ pc.max) (sp pv dt : ℚ)
    (now : Instant) :
    ∃ pid', pid.compute sp pv dt now = some (pid', pid'.output) ∧ Running pc pid' ∧
      (pc.ki ≠ 0 → pc.min ≤ pid'.integral ∧ pid'.integral ≤ pc.max) ∧
      (0 < pc.maxDelta → |pid'.output - pid.output| ≤ pc.maxDelta) := by
  rw [← h.outMin, ← h.outMax] at hrange
  have hlast : pid.outMin ≤ pid.output ∧ pid.output ≤ pid.outMax := by
    rw [h.outMin, h.outMax]
    exact h.output
  obtain ⟨integral, hintegral, hmem⟩ := integrate_spec hrange (pid.error sp pv) dt
  obtain ⟨clamped, hclamped⟩ := clamp_some hrange (pid.raw (pid.error sp pv) integral dt)
  obtain ⟨y, hy, hin, hnear⟩ := limitRate_spec hlast (clamp_mem hrange hclamped)
  rw [h.outMin, h.outMax] at hin hmem
  rw [h.ki] at hmem
  rw [h.maxDelta] at hnear
  refine ⟨{ pid with
    integral := integral, lastError := pid.error sp pv, lastExec := some now, output := y },
    ?_, ⟨⟨h.outMin, h.outMax, h.ki, h.maxDelta, h.enabled⟩, h.initialized, hin⟩, hmem, hnear⟩
  simp only [PidController.compute, hintegral, Option.bind_eq_bind, Option.bind_some, hclamped, hy]

/-- Every call after the first keeps to the range and to the limit. -/
theorem Running.execute (h : Running pc pid) (hrange : pc.min ≤ pc.max) (c : Call) :
    ∃ pid', pid.execute c.setpoint c.processVariable c.now = some (pid', pid'.output) ∧
      Running pc pid' ∧
      (pc.ki ≠ 0 → pid.computes c.now = true →
        pc.min ≤ pid'.integral ∧ pid'.integral ≤ pc.max) ∧
      (0 < pc.maxDelta → |pid'.output - pid.output| ≤ pc.maxDelta) := by
  have hstays : 0 < pc.maxDelta → |pid.output - pid.output| ≤ pc.maxDelta := by
    intro hpos
    rw [sub_self, abs_zero]
    exact hpos.le
  unfold PidController.execute PidController.computes
  simp only [h.enabled, h.initialized, Bool.not_true, Bool.false_eq_true, if_false, Bool.true_and,
    Bool.and_eq_true, decide_eq_true_eq]
  generalize c.now - pid.lastExec.getD c.now = elapsed
  by_cases hearly : elapsed < pid.execIntervalMs.toNat * 1000000
  · rw [if_pos hearly]
    exact ⟨pid, rfl, h, fun _ hdue => absurd hearly (not_lt.2 hdue.1), hstays⟩
  rw [if_neg hearly]
  by_cases hpos : 0 < elapsed
  · rw [if_neg (by simp [asSecs_pos.2 hpos])]
    obtain ⟨pid', hcompute, hrun, hintegral, hnear⟩ := h.compute hrange c.setpoint
      c.processVariable (FloatOps.asSecs elapsed) c.now
    exact ⟨pid', hcompute, hrun, fun hki _ => hintegral hki, hnear⟩
  · have hle : FloatOps.le (FloatOps.asSecs elapsed : ℚ) (FloatOps.lit 0) = true := by
      simpa using mt asSecs_pos.1 hpos
    rw [if_pos hle]
    exact ⟨pid, rfl, h, fun _ hdue => absurd hdue.2 hpos, hstays⟩

/-- The calls after the first, behind whatever the last one returned. -/
theorem Running.returns (h : Running pc pid) (hrange : pc.min ≤ pc.max) (calls : List Call) :
    ∃ rs, pid.returns calls = some rs ∧
      (∀ r ∈ rs, pc.min ≤ r.output ∧ r.output ≤ pc.max) ∧
      (pc.ki ≠ 0 → ∀ r ∈ rs, r.computed = true → pc.min ≤ r.integral ∧ r.integral ≤ pc.max) ∧
      (0 < pc.maxDelta → ∀ last : Returned, last.output = pid.output →
        (last :: rs).IsChain fun a b => |b.output - a.output| ≤ pc.maxDelta) := by
  induction calls generalizing pid with
  | nil => exact ⟨[], rfl, nofun, nofun, fun _ last _ => List.isChain_singleton last⟩
  | cons c calls ih =>
    obtain ⟨pid', hexec, hrun, hintegral, hnear⟩ := h.execute hrange c
    obtain ⟨rs, hrs, houtputs, hintegrals, hchain⟩ := ih hrun
    refine ⟨⟨pid.computes c.now, pid'.output, pid'.integral⟩ :: rs, ?_, ?_, ?_, ?_⟩
    · simp only [PidController.returns, hexec, Option.bind_eq_bind, Option.bind_some, hrs]
    · exact List.forall_mem_cons.2 ⟨hrun.output, houtputs⟩
    · intro hki
      exact List.forall_mem_cons.2 ⟨hintegral hki, hintegrals hki⟩
    · intro hpos last hlast
      refine .cons_cons ?_ (hchain hpos _ rfl)
      rw [hlast]
      exact hnear hpos

/-- The first call makes no computation and returns the bias, or zero. -/
theorem build_execute (hrange : pc.min ≤ pc.max) (c : Call) :
    ∃ pid, pc.build.execute c.setpoint c.processVariable c.now = some (pid, pid.output) ∧
      Configured pc pid ∧ pid.initialized = true ∧
      (pc.ki = 0 → pc.min ≤ pid.output ∧ pid.output ≤ pc.max) ∧
      (pc.ki ≠ 0 → pid.output = 0) := by
  by_cases hki : pc.ki = 0
  · obtain ⟨y, hy⟩ := clamp_some hrange pc.bias
    refine ⟨{ pc.build with
      lastExec := some c.now, lastError := FloatOps.lit 0, initialized := true, output := y }, ?_,
      ⟨rfl, rfl, rfl, rfl, rfl⟩, rfl, fun _ => clamp_mem hrange hy, fun h => absurd hki h⟩
    simp [PidController.execute, PidConfig.build, PidController.new, FloatOps.eq, FloatOps.lit,
      hki, hy]
  · refine ⟨{ pc.build with
      lastExec := some c.now, lastError := FloatOps.lit 0, initialized := true }, ?_,
      ⟨rfl, rfl, rfl, rfl, rfl⟩, rfl, fun h => absurd h hki, fun _ => rfl⟩
    simp [PidController.execute, PidConfig.build, PidController.new, FloatOps.eq, FloatOps.lit,
      hki]

end Steps

/-- In every run of a new controller outputs and integral are bounded exactly where there is
    no call, no integral, or a zero in the range for the first call to return. -/
theorem pid_run_iff (pc : PidConfig ℚ) (calls : List Call) (hrange : pc.min ≤ pc.max) :
    Bounded pc calls ↔ calls = [] ∨ pc.ki = 0 ∨ (pc.min ≤ 0 ∧ 0 ≤ pc.max) := by
  cases calls with
  | nil => exact ⟨fun _ => Or.inl rfl, fun _ => ⟨[], rfl, nofun, nofun, fun _ => List.isChain_nil⟩⟩
  | cons c calls =>
    obtain ⟨pid, hexec, hconfigured, hinit, hbias, hzero⟩ := build_execute hrange c
    constructor
    · rintro ⟨rs, hrs, houtputs, -, -⟩
      by_cases hki : pc.ki = 0
      · exact Or.inr (Or.inl hki)
      · simp only [PidController.returns, hexec, Option.bind_eq_bind, Option.bind_some,
          Option.bind_eq_some_iff] at hrs
        obtain ⟨rest, -, hrs⟩ := hrs
        cases hrs
        have hfirst := houtputs _ List.mem_cons_self
        rw [hzero hki] at hfirst
        exact Or.inr (Or.inr hfirst)
    · intro hcond
      have hin : pc.min ≤ pid.output ∧ pid.output ≤ pc.max := by
        rcases hcond with hnil | hki | hin
        · cases hnil
        · exact hbias hki
        · by_cases hki : pc.ki = 0
          · exact hbias hki
          · rw [hzero hki]
            exact hin
      have hrun : Running pc pid := ⟨hconfigured, hinit, hin⟩
      obtain ⟨rs, hrs, houtputs, hintegrals, hchain⟩ := hrun.returns hrange calls
      refine ⟨⟨false, pid.output, pid.integral⟩ :: rs, ?_, ?_, ?_, ?_⟩
      · simp only [PidController.returns, hexec, Option.bind_eq_bind, Option.bind_some, hrs]
        rfl
      · exact List.forall_mem_cons.2 ⟨hin, houtputs⟩
      · intro hki
        exact List.forall_mem_cons.2 ⟨nofun, hintegrals hki⟩
      · intro hpos
        exact hchain hpos _ rfl

def heater : PidConfig ℚ :=
  { PidConfig.default with ki := 1, min := 20, max := 80, maxDelta := 2 }

def second : ℕ := 1000000000

def heaterCalls : List Call := [⟨70, 60, 0⟩, ⟨70, 60, second⟩]

def valve : PidConfig ℚ := { heater with min := 0 }

theorem valve_bounded : Bounded valve heaterCalls :=
  (pid_run_iff valve heaterCalls (by decide)).2 (.inr (.inr (by decide)))

/-- It returns 0 first and 20 next. -/
theorem heater_not_bounded : ¬ ∀ (pc : PidConfig ℚ) (calls : List Call), pc.min ≤ pc.max →
    (calls.map Call.now).Pairwise (· ≤ ·) → Bounded pc calls := by
  intro hall
  obtain ⟨rs, hrs, houtputs, -, -⟩ := hall heater heaterCalls (by decide) (by decide)
  have hrun : heater.build.returns heaterCalls =
      some [⟨false, 0, 0⟩, ⟨true, 20, 20⟩] := by decide +kernel
  rw [hrun] at hrs
  cases hrs
  have hfirst := houtputs _ List.mem_cons_self
  exact absurd hfirst.1 (by decide)

end Sandstar.Control
