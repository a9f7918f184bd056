import Sandstar.ControlBlocks
import Sandstar.Mealy
import Sandstar.TreeBlocks

set_option autoImplicit false

/-!
# The two block libraries

Every block that both libraries have, with its parameters, as two machines fed with the
same samples, one a second. The stateless blocks and the thermostat agree on every
history. The latch differs on a set together with a reset, the hysteresis at crossed
thresholds and at a falling threshold that is met exactly, and the timers by the second
that the tree counts when its input changes.
-/
namespace Sandstar.Blocks

open TreeBlocks

section Machines

/-- A block with its parameters. -/
inductive Block
  | add2
  | sub2
  | mul2
  | div2
  | neg
  | floatOffset (offset : ℚ)
  | and2
  | or2
  | not
  | srLatch
  | hysteresis (rising falling : ℚ)
  | thermostat (setpoint deadband : ℚ) (heating : Bool)
  | delayOn (delayMs : UInt64)
  | delayOff (delayMs : UInt64)

/-- The inputs of one second; each block reads those it has. -/
structure Sample where
  num1 : ℚ
  num2 : ℚ
  bool1 : Bool
  bool2 : Bool

namespace Block

def typeId : Block → ℕ
  | add2 => 3
  | sub2 => 49
  | mul2 => 37
  | div2 => 18
  | neg => 39
  | floatOffset _ => 23
  | and2 => 5
  | or2 => 42
  | not => 40
  | srLatch => 48
  | hysteresis _ _ => 25
  | thermostat _ _ _ => 54
  | delayOn _ => 20
  | delayOff _ => 19

/-- The slots of a new component, with the parameters set; a delay is in seconds. -/
def slots : Block → List (TreeValue ℚ)
  | add2 | sub2 | mul2 => [.int 0, .float 0, .float 0, .float 0]
  | div2 => [.int 0, .float 0, .float 0, .float 0, .bool false]
  | neg => [.int 0, .float 0, .float 0]
  | floatOffset offset => [.int 0, .float 0, .float 0, .float offset]
  | and2 | or2 | srLatch => [.int 0, .bool false, .bool false, .bool false]
  | not => [.int 0, .bool false, .bool false]
  | hysteresis rising falling => [.int 0, .bool false, .float 0, .float rising, .float falling]
  | thermostat setpoint deadband heating =>
    [.int 0, .float deadband, .bool heating, .float setpoint, .float 0, .bool false, .bool false,
      .bool false]
  | delayOn delayMs | delayOff delayMs =>
    [.int 0, .bool false, .bool false, .float (delayMs.toNat / 1000)]

def feed (b : Block) (x : Sample) (values : List (TreeValue ℚ)) : List (TreeValue ℚ) :=
  match b with
  | add2 | sub2 | mul2 | div2 => (values.set 2 (.float x.num1)).set 3 (.float x.num2)
  | neg | floatOffset _ | hysteresis _ _ => values.set 2 (.float x.num1)
  | and2 | or2 | srLatch => (values.set 2 (.bool x.bool1)).set 3 (.bool x.bool2)
  | not | delayOn _ | delayOff _ => values.set 2 (.bool x.bool1)
  | thermostat _ _ _ => values.set 4 (.float x.num1)

def outSlot : Block → ℕ
  | thermostat _ _ _ => 5
  | _ => 1

def treeStep (b : Block) : Mealy.Machine (BlockState ℚ) Sample (TreeValue ℚ) :=
  fun s x =>
    let s := BlockState.execute ⟨b.feed x s.values, s.state⟩ b.typeId
    (s, s.values.getD b.outSlot .other)

def treeInit (b : Block) : BlockState ℚ := ⟨b.slots, none⟩

inductive EngineState
  | stateless
  | latch (c : SRLatch)
  | hysteresis (c : Hysteresis ℚ)
  | thermostat (c : Thermostat ℚ)
  | delayOn (c : DelayOn)
  | delayOff (c : DelayOff)

/-- A new block of the engine with the parameters; the hysteresis switches between 0 and 1. -/
def engineInit : Block → EngineState
  | srLatch => .latch SRLatch.new
  | hysteresis rising falling => .hysteresis { (Hysteresis.new : Hysteresis ℚ) with
      risingThreshold := rising, fallingThreshold := falling, highValue := 1, lowValue := 0 }
  | thermostat setpoint deadband heating => .thermostat { (Thermostat.new : Thermostat ℚ) with
      setpoint := setpoint, deadband := deadband, heating := heating }
  | delayOn delayMs => .delayOn { DelayOn.new with delayMs := delayMs }
  | delayOff delayMs => .delayOff { DelayOff.new with delayMs := delayMs }
  | _ => .stateless

def pureOutput (b : Block) (x : Sample) : TreeValue ℚ :=
  match b with
  | add2 => .float (Add2.execute ⟨x.num1, x.num2⟩)
  | sub2 => .float (Sub2.execute ⟨x.num1, x.num2⟩)
  | mul2 => .float (Mul2.execute ⟨x.num1, x.num2⟩)
  | div2 => .float (Div2.execute ⟨x.num1, x.num2⟩)
  | neg => .float (Neg.execute ⟨x.num1⟩)
  | floatOffset offset => .float (FloatOffset.execute ⟨x.num1, offset⟩)
  | and2 => .bool (And2.execute ⟨x.bool1, x.bool2⟩)
  | or2 => .bool (Or2.execute ⟨x.bool1, x.bool2⟩)
  | not => .bool (Not.execute ⟨x.bool1⟩)
  | _ => .other

def engineExecute (b : Block) (s : EngineState) (x : Sample) (now : Instant) :
    EngineState × TreeValue ℚ :=
  match s with
  | .stateless => (.stateless, b.pureOutput x)
  | .latch c =>
    let c := SRLatch.execute { c with set := x.bool1, reset := x.bool2 }
    (.latch c, .bool c.output)
  | .hysteresis c =>
    let c := c.execute x.num1
    (.hysteresis c, .bool (decide (c.output = c.highValue)))
  | .thermostat c =>
    let c := c.execute x.num1
    (.thermostat c, .bool c.output)
  | .delayOn c =>
    let c := DelayOn.execute { c with input := x.bool1 } now
    (.delayOn c, .bool c.output)
  | .delayOff c =>
    let c := DelayOff.execute { c with input := x.bool1 } now
    (.delayOff c, .bool c.output)

def second : Instant := 1000000000

/-- The engine executes the block once a second; its state is kept with the clock. -/
def engineStep (b : Block) : Mealy.Machine (EngineState × Instant) Sample (TreeValue ℚ) :=
  fun s x =>
    let (state, out) := b.engineExecute s.1 x s.2
    ((state, s.2 + second), out)

def treeOutputs (b : Block) (history : List Sample) : List (TreeValue ℚ) :=
  Mealy.outputs b.treeStep b.treeInit history

def engineOutputs (b : Block) (start : Instant) (history : List Sample) : List (TreeValue ℚ) :=
  Mealy.outputs b.engineStep (b.engineInit, start) history

end Block

end Machines

section Stateless

open Block

def Block.Shape (values : List (TreeValue ℚ)) : Block → Prop
  | add2 | sub2 | mul2 | and2 | or2 => ∃ m o p q, values = [m, o, p, q]
  | div2 => ∃ m o p q d, values = [m, o, p, q, d]
  | neg | not => ∃ m o p, values = [m, o, p]
  | floatOffset offset => ∃ m o p, values = [m, o, p, .float offset]
  | _ => False

theorem stateless_step {b : Block} {values : List (TreeValue ℚ)} (h : b.Shape values)
    (st : Option ComponentState) (x : Sample) :
    (b.treeStep ⟨values, st⟩ x).2 = b.pureOutput x ∧
      b.Shape (b.treeStep ⟨values, st⟩ x).1.values := by
  cases b with
  | add2 | sub2 | mul2 | and2 | or2 =>
    obtain ⟨m, o, p, q, rfl⟩ := h
    exact ⟨rfl, _, _, _, _, rfl⟩
  | div2 =>
    obtain ⟨m, o, p, q, d, rfl⟩ := h
    exact ⟨rfl, _, _, _, _, _, rfl⟩
  | neg =>
    obtain ⟨m, o, p, rfl⟩ := h
    refine ⟨?_, _, _, _, rfl⟩
    have hneg : -x.num1 = -1 * x.num1 := (neg_one_mul _).symm
    exact congrArg TreeValue.float hneg
  | not =>
    obtain ⟨m, o, p, rfl⟩ := h
    exact ⟨rfl, _, _, _, rfl⟩
  | floatOffset offset =>
    obtain ⟨m, o, p, rfl⟩ := h
    exact ⟨rfl, _, _, _, rfl⟩
  | srLatch | hysteresis | thermostat | delayOn | delayOff => exact absurd h id

theorem slots_shape {b : Block} (h : b.engineInit = .stateless) : b.Shape b.slots := by
  cases b with
  | add2 | sub2 | mul2 | and2 | or2 => exact ⟨_, _, _, _, rfl⟩
  | div2 => exact ⟨_, _, _, _, _, rfl⟩
  | neg | not | floatOffset => exact ⟨_, _, _, rfl⟩
  | srLatch | hysteresis | thermostat | delayOn | delayOff => cases h

theorem stateless_agrees {b : Block} (hinit : b.engineInit = .stateless) (start : Instant)
    (history : List Sample) : b.treeOutputs history = b.engineOutputs start history := by
  unfold treeOutputs engineOutputs
  refine Mealy.outputs_eq _ _ (R := fun s t => b.Shape s.values ∧ t.1 = .stateless) ?_ ?_
    ⟨slots_shape hinit, hinit⟩ _
  · rintro ⟨values, st⟩ ⟨t, now⟩ x ⟨hshape, rfl⟩
    exact (stateless_step hshape st x).1
  · rintro ⟨values, st⟩ ⟨t, now⟩ x ⟨hshape, rfl⟩
    exact ⟨(stateless_step hshape st x).2, rfl⟩

end Stateless

section Latches

open Block

def treeLatch (set reset o : Bool) : Bool := if reset then false else if set then true else o

def engineLatch (set reset o : Bool) : Bool := if set then true else if reset then false else o

theorem latches_agree (set reset o : Bool) : treeLatch set reset o = engineLatch set reset o ↔
    ¬ (set = true ∧ reset = true) := by
  cases set <;> cases reset <;> cases o <;> decide

theorem latch_agrees_iff (start : Instant) (history : List Sample) :
    srLatch.treeOutputs history = srLatch.engineOutputs start history ↔
      ∀ x ∈ history, ¬ (x.bool1 = true ∧ x.bool2 = true) := by
  rw [← Mealy.along_inputs (fun (_ : Unit) _ => ()) _ ()]
  refine Mealy.outputs_eq_iff _ _ (R := fun _ s t => ∃ m o p q a b,
    s.values = [m, .bool o, p, q] ∧ t.1 = .latch ⟨a, b, o⟩) ?_ ?_
    ⟨_, _, _, _, _, _, rfl, rfl⟩ history
  · rintro _ ⟨_, st⟩ ⟨_, now⟩ x ⟨m, o, p, q, a, b, rfl, rfl⟩
    change TreeValue.bool (treeLatch x.bool1 x.bool2 o) =
      .bool (engineLatch x.bool1 x.bool2 o) ↔ _
    rw [TreeValue.bool.injEq, latches_agree]
  · rintro _ ⟨_, st⟩ ⟨_, now⟩ x ⟨m, o, p, q, a, b, rfl, rfl⟩ hok
    refine ⟨m, treeLatch x.bool1 x.bool2 o, _, _, x.bool1, x.bool2, rfl, ?_⟩
    rw [(latches_agree x.bool1 x.bool2 o).2 hok]
    rfl

def treeHysteresis (rising falling : ℚ) (on : Bool) (x : ℚ) : Bool :=
  if on then decide (falling ≤ x) else decide (rising ≤ x)

def engineHysteresis (rising falling : ℚ) (on : Bool) (x : ℚ) : Bool :=
  if rising ≤ x then true else if x ≤ falling then false else on

/-- While on, the input is not between a rising threshold and a higher falling one, nor
    at a falling threshold below the rising one. -/
def Uncrossed (rising falling : ℚ) (on : Bool) (x : ℚ) : Prop :=
  on = true → ¬ (rising ≤ x ∧ x < falling) ∧ ¬ (x = falling ∧ falling < rising)

theorem hystereses_agree (rising falling : ℚ) (on : Bool) (x : ℚ) :
    treeHysteresis rising falling on x = engineHysteresis rising falling on x ↔
      Uncrossed rising falling on x := by
  unfold treeHysteresis engineHysteresis Uncrossed
  cases on with
  | false =>
    by_cases hrising : rising ≤ x <;> simp [hrising]
  | true =>
    rcases lt_trichotomy x falling with hlt | rfl | hgt
    · by_cases hrising : rising ≤ x
      · simp [hrising, hlt, hlt.not_ge]
      · simp [hrising, hlt.le, hlt.not_ge, hlt.ne]
    · by_cases hrising : rising ≤ x
      · simp [hrising, hrising.not_gt]
      · simp [hrising, not_le.1 hrising]
    · by_cases hrising : rising ≤ x
      · simp [hrising, hgt.le, hgt.not_gt, hgt.ne']
      · simp [hrising, hgt.le, hgt.not_ge, hgt.ne']

def asNumber (on : Bool) : ℚ := if on then 1 else 0

theorem hysteresis_execute (rising falling : ℚ) (on : Bool) (x : ℚ) :
    (⟨rising, falling, 1, 0, asNumber on⟩ : Hysteresis ℚ).execute x =
      ⟨rising, falling, 1, 0, asNumber (engineHysteresis rising falling on x)⟩ := by
  unfold Hysteresis.execute engineHysteresis asNumber
  by_cases hrising : rising ≤ x
  · simp [FloatOps.le, hrising]
  · by_cases hfalling : x ≤ falling
    · simp [FloatOps.le, hrising, hfalling]
    · simp [FloatOps.le, hrising, hfalling]

theorem asNumber_eq_one (on : Bool) : decide (asNumber on = 1) = on := by
  cases on <;> simp [asNumber]

theorem hysteresis_agrees_iff (rising falling : ℚ) (start : Instant) (history : List Sample) :
    (hysteresis rising falling).treeOutputs history =
        (hysteresis rising falling).engineOutputs start history ↔
      Runs.Along (fun on (x : Sample) => engineHysteresis rising falling on x.num1)
        (fun on x => Uncrossed rising falling on x.num1) false history := by
  refine Mealy.outputs_eq_iff _ _ (R := fun on s t => ∃ m p,
    s.values = [m, .bool on, p, .float rising, .float falling] ∧
      t.1 = .hysteresis ⟨rising, falling, 1, 0, asNumber on⟩) ?_ ?_
    ⟨_, _, rfl, rfl⟩ history
  · rintro on ⟨_, st⟩ ⟨_, now⟩ x ⟨m, p, rfl, rfl⟩
    rw [← hystereses_agree]
    change TreeValue.bool (treeHysteresis rising falling on x.num1) = .bool (decide
      ((Hysteresis.execute ⟨rising, falling, 1, 0, asNumber on⟩ x.num1).output = 1)) ↔ _
    rw [hysteresis_execute, asNumber_eq_one, TreeValue.bool.injEq]
  · rintro on ⟨_, st⟩ ⟨_, now⟩ x ⟨m, p, rfl, rfl⟩ hok
    refine ⟨m, .float x.num1, ?_, ?_⟩
    · change [m, .bool (treeHysteresis rising falling on x.num1), .float x.num1, .float rising,
        .float falling] = _
      rw [(hystereses_agree rising falling on x.num1).2 hok]
    · change Block.EngineState.hysteresis
        (Hysteresis.execute ⟨rising, falling, 1, 0, asNumber on⟩ x.num1) = _
      rw [hysteresis_execute]

theorem thermostat_agrees (setpoint deadband : ℚ) (heating : Bool) (start : Instant)
    (history : List Sample) : (thermostat setpoint deadband heating).treeOutputs history =
      (thermostat setpoint deadband heating).engineOutputs start history := by
  have hout : ∀ x o, (tstat deadband heating setpoint x o).1 =
      (Thermostat.execute ⟨setpoint, deadband, heating, o⟩ x).output := by
    intro x o
    unfold tstat Thermostat.execute
    simp only [TreeNumber.lit, FloatOps.lit, TreeNumber.lt, FloatOps.lt, Nat.cast_ofNat]
    split_ifs <;> rfl
  refine Mealy.outputs_eq _ _ (R := fun s t => ∃ m cv o r l,
    s.values = [m, .float deadband, .bool heating, .float setpoint, cv, .bool o, r, l] ∧
      t.1 = .thermostat ⟨setpoint, deadband, heating, o⟩) ?_ ?_
    ⟨_, _, _, _, _, rfl, rfl⟩ history
  · rintro ⟨_, st⟩ ⟨_, now⟩ x ⟨m, cv, o, r, l, rfl, rfl⟩
    exact congrArg TreeValue.bool (hout x.num1 o)
  · rintro ⟨_, st⟩ ⟨_, now⟩ x ⟨m, cv, o, r, l, rfl, rfl⟩
    refine ⟨m, .float x.num1, (tstat deadband heating setpoint x.num1 o).1, _, _, rfl, ?_⟩
    rw [hout]
    rfl

end Latches

section Timers

open Block

def seconds (delayMs : UInt64) : ℕ := min (delayMs.toNat / 1000) (2 ^ 31 - 1)

theorem seconds_lt (delayMs : UInt64) : seconds delayMs < 2 ^ 31 := by
  unfold seconds
  omega

theorem toInt32_delay (delayMs : UInt64) :
    TreeNumber.toInt32 ((delayMs.toNat : ℚ) / 1000) = Int32.ofNat (seconds delayMs) := by
  have hnonneg : (0 : ℚ) ≤ (delayMs.toNat : ℚ) / 1000 := by positivity
  have hfloor : ⌊(delayMs.toNat : ℚ) / 1000⌋ = ((delayMs.toNat / 1000 : ℕ) : ℤ) := by
    exact_mod_cast Rat.floor_natCast_div_natCast delayMs.toNat 1000
  have hclamp : max (-2 ^ 31 : ℤ) (min (2 ^ 31 - 1) ((delayMs.toNat / 1000 : ℕ) : ℤ)) =
      (seconds delayMs : ℤ) := by
    unfold seconds
    omega
  simp only [TreeNumber.toInt32, hnonneg, if_true, hfloor, hclamp]
  exact Int32.ofInt_eq_ofNat

theorem toInt_counter {j : ℕ} (h : j < 2 ^ 31) : (Int32.ofNat j).toInt = j :=
  Int32.toInt_ofNat_of_lt h

theorem delay_le_counter (delayMs : UInt64) {j : ℕ} (h : j < 2 ^ 31) :
    Int32.ofNat (seconds delayMs) ≤ Int32.ofNat j ↔ seconds delayMs ≤ j := by
  rw [Int32.le_iff_toInt_le, toInt_counter (seconds_lt delayMs), toInt_counter h, Int.ofNat_le]

theorem counter_lt_delay (delayMs : UInt64) {j : ℕ} (h : j < 2 ^ 31) :
    Int32.ofNat j < Int32.ofNat (seconds delayMs) ↔ j < seconds delayMs := by
  rw [Int32.lt_iff_toInt_lt, toInt_counter (seconds_lt delayMs), toInt_counter h, Int.ofNat_lt]

theorem wrapped_lt_delay (delayMs : UInt64) :
    Int32.ofNat (2 ^ 31) < Int32.ofNat (seconds delayMs) := by
  rw [Int32.lt_iff_toInt_lt, toInt_counter (seconds_lt delayMs)]
  have hmin : (Int32.ofNat (2 ^ 31)).toInt = -2 ^ 31 := by decide
  rw [hmin]
  omega

/-- So many seconds after it was started a timer of the engine is not over yet. -/
theorem elapsed_early {delayMs : UInt64} {start now : Instant} {j : ℕ}
    (hnow : now = start + j * second) (hj : j < seconds delayMs) :
    ¬ elapsedMs start now ≥ delayMs := by
  have hms : (now - start) / 1000000 = j * 1000 := by
    have hseconds : j * 1000000000 / 1000000 = j * 1000 := by omega
    rw [hnow, Nat.add_sub_cancel_left]
    exact hseconds
  have hdelay : j * 1000 < delayMs.toNat := by
    unfold seconds at hj
    omega
  have hbound : delayMs.toNat < 2 ^ 64 := delayMs.toNat_lt
  unfold elapsedMs
  rw [hms, ge_iff_le, UInt64.le_iff_toNat_le, UInt64.toNat_ofNat', Nat.mod_eq_of_lt (by omega)]
  omega

def runLength (input : Bool) (j : ℕ) (x : Sample) : ℕ := if x.bool1 = input then j + 1 else 0

def Started : Option Instant → Instant → ℕ → Prop
  | none, _, j => j = 0
  | some t₀, now, j => 0 < j ∧ now = t₀ + j * second

theorem Started.first (now : Instant) : Started (some now) (now + second) 1 := by
  refine ⟨Nat.one_pos, ?_⟩
  rw [Nat.one_mul]

theorem Started.next {t₀ now : Instant} {j : ℕ} (h : Started (some t₀) now j) :
    Started (some t₀) (now + second) (j + 1) := by
  refine ⟨Nat.succ_pos j, ?_⟩
  rw [h.2, Nat.add_one_mul, Nat.add_assoc]

theorem Started.early {delayMs : UInt64} {t₀ now : Instant} {j : ℕ}
    (h : Started (some t₀) now j) (hj : j < max 1 (seconds delayMs)) :
    ¬ elapsedMs t₀ now ≥ delayMs := by
  have hpos : 0 < j := h.1
  exact elapsed_early h.2 (by omega)

structure Counted (delayMs : UInt64) (j : ℕ) (s : BlockState ℚ) : Prop where
  values : ∃ m o p, s.values = [m, o, p, .float (delayMs.toNat / 1000)]
  counter : (s.state.getD ComponentTree.defaultState).counter = Int32.ofNat j

theorem counted_init (delayMs : UInt64) : Counted delayMs 0 (delayOn delayMs).treeInit :=
  ⟨⟨_, _, _, rfl⟩, rfl⟩

section On

variable {delayMs : UInt64} {j : ℕ}

theorem Counted.delayOn {s : BlockState ℚ} (h : Counted delayMs j s) (x : Sample) :
    Counted delayMs (runLength true j x) ((delayOn delayMs).treeStep s x).1 ∧
      ((delayOn delayMs).treeStep s x).2 =
        .bool (x.bool1 && decide (Int32.ofNat (seconds delayMs) ≤ Int32.ofNat (j + 1))) := by
  obtain ⟨values, st⟩ := s
  obtain ⟨⟨m, o, p, rfl⟩, hcounter⟩ := h
  have hcounter' : (if x.bool1 then (st.getD ComponentTree.defaultState).counter + 1 else 0) =
      Int32.ofNat (runLength true j x) := by
    unfold runLength
    cases x.bool1
    · rfl
    · simp [hcounter]
  refine ⟨⟨⟨_, _, _, rfl⟩, hcounter'⟩, ?_⟩
  change TreeValue.bool (x.bool1 && decide (TreeNumber.toInt32 ((delayMs.toNat : ℚ) / 1000) ≤
    if x.bool1 then (st.getD ComponentTree.defaultState).counter + 1 else 0)) = _
  rw [toInt32_delay, hcounter']
  unfold runLength
  cases x.bool1 <;> rfl

/-- As long as the tree's timer is not over either, the engine's output stays off. -/
theorem DelayOn.early {startTime : Option Instant} {now : Instant}
    (h : Started startTime now j) (hj : j < max 1 (seconds delayMs)) :
    ∃ t₀, DelayOn.execute ⟨delayMs, true, true, startTime, false⟩ now =
        ⟨delayMs, true, true, some t₀, false⟩ ∧ Started (some t₀) (now + second) (j + 1) := by
  cases startTime with
  | none =>
    cases h
    exact ⟨now, rfl, Started.first now⟩
  | some t₀ =>
    refine ⟨t₀, ?_, h.next⟩
    simp [DelayOn.execute, h.early hj]

theorem delayOn_agrees_iff (start : Instant) (history : List Sample) :
    (delayOn delayMs).treeOutputs history = (delayOn delayMs).engineOutputs start history ↔
      Runs.Along (runLength true)
        (fun j x => x.bool1 = true → j + 1 < max 1 (seconds delayMs)) 0 history := by
  refine Mealy.outputs_eq_iff _ _ (R := fun j s t => j < max 1 (seconds delayMs) ∧
    Counted delayMs j s ∧ ∃ startTime input,
      t.1 = .delayOn ⟨delayMs, input, true, startTime, false⟩ ∧ Started startTime t.2 j) ?_ ?_
    ⟨by omega, counted_init delayMs, none, false, rfl, rfl⟩ history
  · rintro j s ⟨_, now⟩ x ⟨hj, hcounted, startTime, input, rfl, hstarted⟩
    have hdelay := seconds_lt delayMs
    rw [(hcounted.delayOn x).2]
    cases hx : x.bool1 with
    | false =>
      have hengine : ((delayOn delayMs).engineStep
          (.delayOn ⟨delayMs, input, true, startTime, false⟩, now) x).2 = .bool false := by
        simp [engineStep, engineExecute, DelayOn.execute, hx]
      simp [hengine]
    | true =>
      obtain ⟨t₀, hearly, -⟩ := DelayOn.early hstarted hj
      have hengine : ((delayOn delayMs).engineStep
          (.delayOn ⟨delayMs, input, true, startTime, false⟩, now) x).2 = .bool false := by
        simp only [engineStep, engineExecute, hx, hearly]
      rw [hengine]
      simp only [Bool.true_and, TreeValue.bool.injEq, decide_eq_false_iff_not,
        delay_le_counter delayMs (show j + 1 < 2 ^ 31 by omega), forall_const]
      omega
  · rintro j s ⟨_, now⟩ x ⟨hj, hcounted, startTime, input, rfl, hstarted⟩ hok
    refine ⟨?_, (hcounted.delayOn x).1, ?_⟩
    · unfold runLength
      split
      · exact hok ‹_›
      · omega
    · cases hx : x.bool1 with
      | false =>
        refine ⟨none, false, ?_, ?_⟩
        · simp [engineStep, engineExecute, DelayOn.execute, hx]
        · simp [Started, runLength, hx]
      | true =>
        obtain ⟨t₀, hearly, hnext⟩ := DelayOn.early hstarted hj
        refine ⟨some t₀, true, ?_, ?_⟩
        · simp only [engineStep, engineExecute, hx, hearly]
        · change Started (some t₀) (now + second) (runLength true j x)
          rw [runLength, hx, if_pos rfl]
          exact hnext

end On

section Off

variable {delayMs : UInt64}

def offRun (a : Bool × ℕ) (x : Sample) : Bool × ℕ :=
  (a.1 || x.bool1, runLength false a.2 x)

def OffAgrees (delayMs : UInt64) (a : Bool × ℕ) (x : Sample) : Prop :=
  x.bool1 = false →
    if a.1 then a.2 + 1 < seconds delayMs else seconds delayMs ≤ a.2 + 1 ∧ a.2 + 1 < 2 ^ 31

theorem Counted.delayOff {j : ℕ} {s : BlockState ℚ} (h : Counted delayMs j s) (x : Sample) :
    Counted delayMs (runLength false j x) ((delayOff delayMs).treeStep s x).1 ∧
      ((delayOff delayMs).treeStep s x).2 =
        .bool (x.bool1 || decide (Int32.ofNat (j + 1) < Int32.ofNat (seconds delayMs))) := by
  obtain ⟨values, st⟩ := s
  obtain ⟨⟨m, o, p, rfl⟩, hcounter⟩ := h
  have hcounter' : (if x.bool1 then 0 else (st.getD ComponentTree.defaultState).counter + 1) =
      Int32.ofNat (runLength false j x) := by
    unfold runLength
    cases x.bool1
    · simp [hcounter]
    · rfl
  refine ⟨⟨⟨_, _, _, rfl⟩, hcounter'⟩, ?_⟩
  change TreeValue.bool (x.bool1 || decide ((if x.bool1 then 0 else
    (st.getD ComponentTree.defaultState).counter + 1) <
      TreeNumber.toInt32 ((delayMs.toNat : ℚ) / 1000))) = _
  rw [toInt32_delay, hcounter']
  unfold runLength
  cases x.bool1 <;> rfl

/-- As long as the tree's timer is not over either, the engine's output stays on. -/
theorem DelayOff.early {j : ℕ} {offTime : Option Instant} {now : Instant}
    (h : Started offTime now j) (hj : j < max 1 (seconds delayMs)) :
    ∃ t₀, DelayOff.execute ⟨delayMs, false, true, offTime, true⟩ now =
        ⟨delayMs, false, true, some t₀, true⟩ ∧ Started (some t₀) (now + second) (j + 1) := by
  cases offTime with
  | none =>
    cases h
    exact ⟨now, rfl, Started.first now⟩
  | some t₀ =>
    refine ⟨t₀, ?_, h.next⟩
    simp [DelayOff.execute, h.early hj]

def OffTimer (delayMs : UInt64) (a : Bool × ℕ) (t : EngineState × Instant) : Prop :=
  ∃ offTime input, t.1 = .delayOff ⟨delayMs, input, true, offTime, a.1⟩ ∧
    (a.1 = true → Started offTime t.2 a.2 ∧ a.2 < max 1 (seconds delayMs))

theorem OffTimer.output {a : Bool × ℕ} {t : EngineState × Instant} (h : OffTimer delayMs a t)
    (x : Sample) : ((delayOff delayMs).engineStep t x).2 = .bool (a.1 || x.bool1) := by
  obtain ⟨on, j⟩ := a
  obtain ⟨t, now⟩ := t
  obtain ⟨offTime, input, rfl, hstarted⟩ := h
  cases hx : x.bool1 with
  | true => simp [engineStep, engineExecute, DelayOff.execute, hx]
  | false =>
    cases on with
    | false => simp [engineStep, engineExecute, DelayOff.execute, hx]
    | true =>
      obtain ⟨t₀, hearly, -⟩ := DelayOff.early (hstarted rfl).1 (hstarted rfl).2
      simp only [engineStep, engineExecute, hx, hearly, Bool.or_false]

theorem OffTimer.next {a : Bool × ℕ} {t : EngineState × Instant} (h : OffTimer delayMs a t)
    {x : Sample} (hok : OffAgrees delayMs a x) :
    OffTimer delayMs (offRun a x) ((delayOff delayMs).engineStep t x).1 := by
  obtain ⟨on, j⟩ := a
  obtain ⟨t, now⟩ := t
  obtain ⟨offTime, input, rfl, hstarted⟩ := h
  cases hx : x.bool1 with
  | true =>
    refine ⟨none, true, ?_, fun _ => ⟨?_, ?_⟩⟩
    · simp [engineStep, engineExecute, DelayOff.execute, offRun, hx]
    · simp [Started, offRun, runLength, hx]
    · simp [offRun, runLength, hx]
  | false =>
    cases on with
    | false =>
      refine ⟨offTime, false, ?_, fun hon => ?_⟩
      · simp [engineStep, engineExecute, DelayOff.execute, offRun, hx]
      · simp [offRun, hx] at hon
    | true =>
      obtain ⟨t₀, hearly, hnext⟩ := DelayOff.early (hstarted rfl).1 (hstarted rfl).2
      have hrun : (offRun (true, j) x).2 = j + 1 := by simp [offRun, runLength, hx]
      refine ⟨some t₀, false, ?_, fun _ => ?_⟩
      · simp only [engineStep, engineExecute, hx, hearly, offRun, Bool.true_or]
      · rw [hrun]
        exact ⟨hnext, (hok hx).trans_le (le_max_right 1 _)⟩

theorem delayOff_agrees_iff (start : Instant) (history : List Sample) :
    (delayOff delayMs).treeOutputs history = (delayOff delayMs).engineOutputs start history ↔
      Runs.Along offRun (OffAgrees delayMs) (false, 0) history := by
  have hdelay := seconds_lt delayMs
  refine Mealy.outputs_eq_iff _ _ (R := fun a s t => a.2 < 2 ^ 31 ∧ Counted delayMs a.2 s ∧
    OffTimer delayMs a t) ?_ ?_ ⟨by norm_num, ⟨⟨_, _, _, rfl⟩, rfl⟩, none, false, rfl,
      fun h => absurd h Bool.false_ne_true⟩ history
  · rintro ⟨on, j⟩ s t x ⟨hj, hcounted, htimer⟩
    rw [(hcounted.delayOff x).2, htimer.output x]
    obtain ⟨offTime, input, -, hstarted⟩ := htimer
    unfold OffAgrees
    cases hx : x.bool1 with
    | true => simp
    | false =>
      simp only [Bool.false_or, Bool.or_false, TreeValue.bool.injEq, forall_const]
      rcases Nat.lt_or_ge (j + 1) (2 ^ 31) with hlt | hge
      · cases on with
        | true =>
          simp only [decide_eq_true_eq, counter_lt_delay delayMs hlt, if_true]
        | false =>
          simp only [decide_eq_false_iff_not, counter_lt_delay delayMs hlt, Bool.false_eq_true,
            if_false]
          omega
      · -- the counter has wrapped, which it never does while the engine's output is on
        have hwrap : j + 1 = 2 ^ 31 := by
          have : j < 2 ^ 31 := hj
          omega
        cases on with
        | true =>
          have := (hstarted rfl).2
          omega
        | false =>
          rw [hwrap]
          simp only [decide_eq_false_iff_not, wrapped_lt_delay delayMs, not_true_eq_false,
            Bool.false_eq_true, if_false, lt_irrefl, and_false]
  · rintro ⟨on, j⟩ s t x ⟨hj, hcounted, htimer⟩ hok
    refine ⟨?_, (hcounted.delayOff x).1, htimer.next hok⟩
    unfold OffAgrees at hok
    cases hx : x.bool1 with
    | true => simp [offRun, runLength, hx]
    | false =>
      have hok := hok hx
      have hrun : (offRun (on, j) x).2 = j + 1 := by simp [offRun, runLength, hx]
      rw [hrun]
      cases on with
      | true =>
        simp only [if_true] at hok
        omega
      | false =>
        simp only [Bool.false_eq_true, if_false] at hok
        exact hok.2

end Off

end Timers

section Blocks

open Block

def Block.AgreesOn (history : List Sample) : Block → Prop
  | srLatch => ∀ x ∈ history, ¬ (x.bool1 = true ∧ x.bool2 = true)
  | hysteresis rising falling =>
    Runs.Along (fun on (x : Sample) => engineHysteresis rising falling on x.num1)
      (fun on x => Uncrossed rising falling on x.num1) false history
  | delayOn delayMs =>
    Runs.Along (runLength true)
      (fun j x => x.bool1 = true → j + 1 < max 1 (seconds delayMs)) 0 history
  | delayOff delayMs => Runs.Along offRun (OffAgrees delayMs) (false, 0) history
  | _ => True

/-- Sampled once a second from their initial states, a block of the tree and its
    counterpart in the engine give the same outputs on exactly these histories. -/
theorem blocks_agree_iff (b : Block) (start : Instant) (history : List Sample) :
    b.treeOutputs history = b.engineOutputs start history ↔ b.AgreesOn history := by
  cases b with
  | add2 | sub2 | mul2 | div2 | neg | floatOffset | and2 | or2 | not =>
    exact iff_of_true (stateless_agrees rfl start history) trivial
  | srLatch => exact latch_agrees_iff start history
  | hysteresis rising falling => exact hysteresis_agrees_iff rising falling start history
  | thermostat setpoint deadband heating =>
    exact iff_of_true (thermostat_agrees setpoint deadband heating start history) trivial
  | delayOn delayMs => exact delayOn_agrees_iff start history
  | delayOff delayMs => exact delayOff_agrees_iff start history

/-- A set together with a reset turns the engine's latch on and leaves the tree's off. -/
theorem latches_differ : ¬ ∀ (b : Block) (start : Instant) (history : List Sample),
    b.treeOutputs history = b.engineOutputs start history := by
  intro hall
  have hlatch := hall srLatch 0 [⟨0, 0, true, true⟩]
  exact absurd hlatch (by decide)

end Blocks

end Sandstar.Blocks
