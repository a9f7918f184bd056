import Sandstar.ControlBlocks

set_option autoImplicit false

namespace Sandstar.Blocks

/-- The input and the time of every execution, in nanoseconds. -/
structure History where
  input : ℕ → Bool
  time : ℕ → ℕ
  ordered : Monotone time

/-- The last time up to `n` that the property held is `k`. -/
def Latest (P : ℕ → Prop) (k n : ℕ) : Prop := k ≤ n ∧ P k ∧ ∀ i, k < i → i ≤ n → ¬ P i

namespace History

variable (h : History) (delayMs : UInt64)

def Over (k n : ℕ) : Prop := delayMs.toNat * 1000000 ≤ h.time n - h.time k

/-- An execution up to `n` has found so many milliseconds since `k`, counted in 64 bits. -/
def Measured (k n : ℕ) : Prop := ∃ m, k ≤ m ∧ m ≤ n ∧ delayMs ≤ elapsedMs (h.time k) (h.time m)

/-- The run of equal inputs that ends at `n` begins at `k`. -/
def Since (b : Bool) (k n : ℕ) : Prop :=
  k ≤ n ∧ (∀ i, k ≤ i → i ≤ n → h.input i = b) ∧ ∀ j, j + 1 = k → h.input j ≠ b

def RisingEdge (k : ℕ) : Prop := h.input k = true ∧ ∀ j, j + 1 = k → h.input j = false

def Noticed (timed : ℕ → ℕ → Prop) : Prop :=
  ∀ k n, timed k n → h.Over delayMs k n → h.Measured delayMs k n

end History

section Elapsed

variable {h : History} {delayMs : UInt64} {k n : ℕ}

theorem elapsedMs_toNat (start now : Instant) :
    (elapsedMs start now).toNat = (now - start) / 1000000 % 2 ^ 64 := UInt64.toNat_ofNat'

theorem History.Measured.over (hm : h.Measured delayMs k n) : h.Over delayMs k n := by
  obtain ⟨m, -, hmn, hle⟩ := hm
  have htime := h.ordered hmn
  rw [UInt64.le_iff_toNat_le, elapsedMs_toNat] at hle
  have hcut := Nat.mod_le ((h.time m - h.time k) / 1000000) (2 ^ 64)
  unfold History.Over
  omega

theorem measured_succ (hk : k ≤ n + 1) :
    h.Measured delayMs k (n + 1) ↔
      h.Measured delayMs k n ∨ delayMs ≤ elapsedMs (h.time k) (h.time (n + 1)) := by
  constructor
  · rintro ⟨m, hkm, hm, hle⟩
    rcases Nat.le_succ_iff.1 hm with hm | rfl
    · exact Or.inl ⟨m, hkm, hm, hle⟩
    · exact Or.inr hle
  · rintro (⟨m, hkm, hm, hle⟩ | hle)
    · exact ⟨m, hkm, hm.trans n.le_succ, hle⟩
    · exact ⟨n + 1, hk, le_rfl, hle⟩

theorem measured_self : h.Measured delayMs n n ↔ delayMs = 0 := by
  have hzero : elapsedMs (h.time n) (h.time n) = 0 := by simp [elapsedMs]
  constructor
  · rintro ⟨m, hnm, hmn, hle⟩
    obtain rfl : m = n := le_antisymm hmn hnm
    rw [hzero] at hle
    exact UInt64.le_zero_iff.1 hle
  · rintro rfl
    exact ⟨n, le_rfl, le_rfl, UInt64.zero_le⟩

/-- Executions that follow each other within 2^64 milliseconds less the delay notice every
    delay that is over. -/
theorem noticed_of_gaps {timed : ℕ → ℕ → Prop} (htimed : ∀ k n, timed k n → k ≤ n)
    (hgaps : ∀ n, h.time (n + 1) - h.time n ≤ (2 ^ 64 - delayMs.toNat) * 1000000) :
    h.Noticed delayMs timed := by
  intro k n hkn
  have hle := htimed k n hkn
  clear hkn
  induction n, hle using Nat.le_induction with
  | base =>
    intro hover
    refine measured_self.2 (UInt64.toNat_inj.1 ?_)
    unfold History.Over at hover
    rw [Nat.sub_self] at hover
    simp only [UInt64.toNat_zero]
    omega
  | succ n hkn ih =>
    intro hover
    rw [measured_succ (hkn.trans n.le_succ)]
    by_cases hbefore : h.Over delayMs k n
    · exact Or.inl (ih hbefore)
    · have hgap := hgaps n
      have hstart := h.ordered hkn
      have hdelay := delayMs.toNat_lt
      unfold History.Over at hover hbefore
      refine Or.inr ?_
      rw [UInt64.le_iff_toNat_le, elapsedMs_toNat, Nat.mod_eq_of_lt (by omega)]
      omega

end Elapsed

section Runs

theorem exists_since (h : History) (n : ℕ) : ∃ k, h.Since (h.input n) k n := by
  induction n with
  | zero =>
    refine ⟨0, le_rfl, ?_, nofun⟩
    intro i _ hi
    rw [Nat.le_zero.1 hi]
  | succ n ih =>
    obtain ⟨k, hk, hsame, hfirst⟩ := ih
    by_cases heq : h.input n = h.input (n + 1)
    · rw [heq] at hsame hfirst
      refine ⟨k, hk.trans n.le_succ, ?_, hfirst⟩
      intro i hki hi
      rcases Nat.le_succ_iff.1 hi with hi | rfl
      · exact hsame i hki hi
      · rfl
    · refine ⟨n + 1, le_rfl, ?_, ?_⟩
      · intro i hi hi'
        rw [le_antisymm hi' hi]
      · rintro j hj
        cases hj
        exact heq

variable {h : History} {b : Bool} {k n : ℕ}

theorem History.Since.input_eq (hs : h.Since b k n) : h.input n = b := hs.2.1 n hs.1 le_rfl

/-- A run of equal inputs begins here, or had reached the execution before. -/
theorem since_cases (hs : h.Since b k n) :
    (k = n ∧ ∀ j, j + 1 = n → h.input j ≠ b) ∨ ∃ j, j + 1 = n ∧ k ≤ j ∧ h.Since b k j := by
  obtain ⟨hk, hsame, hfirst⟩ := hs
  rcases hk.eq_or_lt with rfl | hlt
  · exact Or.inl ⟨rfl, hfirst⟩
  · obtain ⟨j, rfl⟩ := Nat.exists_eq_add_of_lt hlt
    refine Or.inr ⟨k + j, rfl, Nat.le_add_right k j, Nat.le_add_right k j, ?_, hfirst⟩
    exact fun i hki hi => hsame i hki (hi.trans (Nat.le_succ _))

theorem latest_cases {P : ℕ → Prop} (hk : Latest P k n) :
    k = n ∨ ∃ j, j + 1 = n ∧ Latest P k j := by
  obtain ⟨hle, hholds, hlast⟩ := hk
  rcases hle.eq_or_lt with rfl | hlt
  · exact Or.inl rfl
  · obtain ⟨j, rfl⟩ := Nat.exists_eq_add_of_lt hlt
    refine Or.inr ⟨k + j, rfl, Nat.le_add_right k j, hholds, ?_⟩
    exact fun i hki hi => hlast i hki (hi.trans (Nat.le_succ _))

theorem exists_latest (P : ℕ → Prop) (n : ℕ) : (∀ j ≤ n, ¬ P j) ∨ ∃ k, Latest P k n := by
  induction n with
  | zero =>
    by_cases hzero : P 0
    · exact Or.inr ⟨0, le_rfl, hzero, fun i hi hi' => absurd hi (by omega)⟩
    · refine Or.inl fun j hj => ?_
      rwa [Nat.le_zero.1 hj]
  | succ n ih =>
    by_cases hlast : P (n + 1)
    · exact Or.inr ⟨n + 1, le_rfl, hlast, fun i hi hi' => absurd hi (by omega)⟩
    · have hstep : ∀ {i}, i ≤ n + 1 → ¬ (i ≤ n) → ¬ P i := by
        intro i hi hn
        rwa [show i = n + 1 by omega]
      rcases ih with hnone | ⟨k, hk, hholds, hafter⟩
      · exact Or.inl fun j hj => if hn : j ≤ n then hnone j hn else hstep hj hn
      · exact Or.inr ⟨k, hk.trans n.le_succ, hholds,
          fun i hki hi => if hn : i ≤ n then hafter i hki hn else hstep hi hn⟩

theorem latest_unique {P : ℕ → Prop} {l : ℕ} (hk : Latest P k n) (hl : Latest P l n) : k = l := by
  by_contra hne
  rcases Nat.lt_or_gt_of_ne hne with hlt | hlt
  · exact hk.2.2 l hlt hl.1 hl.2.1
  · exact hl.2.2 k hlt hk.1 hk.2.1

/-- A block after so many executions with these inputs. -/
def after {S : Type} (execute : S → Bool → Instant → S) (s : S) (h : History) : ℕ → S
  | 0 => s
  | n + 1 => execute (after execute s h n) (h.input n) (h.time n)

end Runs

section DelayOn

def DelayOn.tick (c : DelayOn) (input : Bool) (now : Instant) : DelayOn :=
  { c with input := input }.execute now

theorem DelayOn.tick_false {c : DelayOn} (henabled : c.enabled = true) (now : Instant) :
    c.tick false now = { c with input := false, startTime := none, output := false } := by
  simp [DelayOn.tick, DelayOn.execute, henabled]

theorem DelayOn.tick_first {c : DelayOn} (henabled : c.enabled = true) (hstart : c.startTime = none)
    (now : Instant) : c.tick true now = { c with input := true, startTime := some now } := by
  simp [DelayOn.tick, DelayOn.execute, henabled, hstart]

theorem DelayOn.tick_timing {c : DelayOn} {start : Instant} (henabled : c.enabled = true)
    (hstart : c.startTime = some start) (now : Instant) :
    c.tick true now =
      { c with
        input := true, output := c.output || decide (c.delayMs ≤ elapsedMs start now) } := by
  unfold DelayOn.tick DelayOn.execute
  simp only [henabled, hstart, Bool.not_true, Bool.false_eq_true, if_false, if_true, ge_iff_le]
  by_cases hover : c.delayMs ≤ elapsedMs start now <;> simp [hover]

variable (delayMs : UInt64) (h : History)

/-- A new block with this delay after so many executions. -/
def delayOnAfter (n : ℕ) : DelayOn := after DelayOn.tick { DelayOn.new with delayMs := delayMs } h n

/-- The input has been true since an execution so long ago. -/
def DelayedOn (n : ℕ) : Prop :=
  ∃ k < n, (∀ i, k ≤ i → i ≤ n → h.input i = true) ∧ h.Over delayMs k n

def DelayOnTimed (k n : ℕ) : Prop := k < n ∧ h.Since true k n

/-- What the start time and the output mean after `n` executions. -/
structure DelayOnAt (n : ℕ) (c : DelayOn) : Prop where
  delay : c.delayMs = delayMs
  enabled : c.enabled = true
  idle : (∀ j, j + 1 = n → h.input j = false) → c.startTime = none ∧ c.output = false
  timing : ∀ k j, j + 1 = n → h.Since true k j →
    c.startTime = some (h.time k) ∧ (c.output = true ↔ k < j ∧ h.Measured delayMs k j)

variable {delayMs h}

theorem delayOn_at (n : ℕ) : DelayOnAt delayMs h n (delayOnAfter delayMs h n) := by
  induction n with
  | zero => exact ⟨rfl, rfl, fun _ => ⟨rfl, rfl⟩, nofun⟩
  | succ n ih =>
    change DelayOnAt delayMs h (n + 1) ((delayOnAfter delayMs h n).tick (h.input n) (h.time n))
    generalize delayOnAfter delayMs h n = c at ih ⊢
    cases hin : h.input n with
    | false =>
      rw [DelayOn.tick_false ih.enabled]
      refine ⟨ih.delay, ih.enabled, fun _ => ⟨rfl, rfl⟩, ?_⟩
      rintro k j hj hs
      cases hj
      rw [hs.input_eq] at hin
      cases hin
    | true =>
      have hbusy : ¬ ∀ j, j + 1 = n + 1 → h.input j = false := by
        intro hidle
        rw [hidle n rfl] at hin
        cases hin
      cases hstart : c.startTime with
      | none =>
        rw [DelayOn.tick_first ih.enabled hstart]
        refine ⟨ih.delay, ih.enabled, fun hidle => absurd hidle hbusy, ?_⟩
        rintro k j hj hs
        cases hj
        rcases since_cases hs with ⟨rfl, hfirst⟩ | ⟨j, rfl, -, hs⟩
        · have hout := (ih.idle fun j hj => by simpa using hfirst j hj).2
          exact ⟨rfl, by simp [hout]⟩
        · rw [(ih.timing k j rfl hs).1] at hstart
          cases hstart
      | some start =>
        rw [DelayOn.tick_timing ih.enabled hstart]
        refine ⟨ih.delay, ih.enabled, fun hidle => absurd hidle hbusy, ?_⟩
        rintro k j hj hs
        cases hj
        rcases since_cases hs with ⟨rfl, hfirst⟩ | ⟨j, rfl, hkj, hs⟩
        · rw [(ih.idle fun j hj => by simpa using hfirst j hj).1] at hstart
          cases hstart
        · obtain ⟨hk, hout⟩ := ih.timing k j rfl hs
          rw [hk] at hstart
          cases hstart
          refine ⟨hk, ?_⟩
          have hsucc : h.Measured delayMs k (j + 1) ↔
              h.Measured delayMs k j ∨ delayMs ≤ elapsedMs (h.time k) (h.time (j + 1)) :=
            measured_succ (hkj.trans j.le_succ)
          -- a delay of zero is noticed by the next execution too
          have hself : k = j → h.Measured delayMs k j → delayMs ≤ elapsedMs (h.time k) (h.time (j + 1)) := by
            rintro rfl hm
            rw [measured_self.1 hm]
            exact UInt64.zero_le
          simp only [Bool.or_eq_true, decide_eq_true_eq, ih.delay, hout, hsucc]
          constructor
          · rintro (⟨-, hm⟩ | hle)
            · exact ⟨Nat.lt_succ_of_le hkj, Or.inl hm⟩
            · exact ⟨Nat.lt_succ_of_le hkj, Or.inr hle⟩
          · rintro ⟨-, hm | hle⟩
            · rcases hkj.eq_or_lt with hself' | hlt
              · exact Or.inr (hself hself' hm)
              · exact Or.inl ⟨hlt, hm⟩
            · exact Or.inr hle

theorem delayedOn_iff {k n : ℕ} (hs : h.Since true k n) :
    DelayedOn delayMs h n ↔ k < n ∧ h.Over delayMs k n := by
  constructor
  · rintro ⟨i, hin, htrue, hover⟩
    have hki : k ≤ i := by
      by_contra hlt
      obtain ⟨j, rfl⟩ := Nat.exists_eq_add_of_lt (not_le.1 hlt)
      have hle : i + j ≤ n := (Nat.le_succ _).trans hs.1
      exact hs.2.2 (i + j) rfl (htrue (i + j) (Nat.le_add_right i j) hle)
    have htime := h.ordered hki
    refine ⟨hki.trans_lt hin, ?_⟩
    unfold History.Over at hover ⊢
    omega
  · rintro ⟨hkn, hover⟩
    exact ⟨k, hkn, hs.2.1, hover⟩

theorem delayOn_matches_iff :
    (∀ n, (delayOnAfter delayMs h (n + 1)).output = true ↔ DelayedOn delayMs h n) ↔
      h.Noticed delayMs (DelayOnTimed h) := by
  constructor
  · rintro hall k n ⟨hkn, hs⟩ hover
    have hout := (hall n).2 ((delayedOn_iff hs).2 ⟨hkn, hover⟩)
    exact (((delayOn_at (n + 1)).timing k n rfl hs).2.1 hout).2
  · intro hnoticed n
    cases hin : h.input n with
    | false =>
      have hat : DelayOnAt delayMs h (n + 1) (delayOnAfter delayMs h (n + 1)) := delayOn_at (n + 1)
      have hout := (hat.idle (by rintro j hj; cases hj; exact hin)).2
      rw [hout]
      refine iff_of_false (by simp) ?_
      rintro ⟨k, hkn, htrue, -⟩
      rw [htrue n hkn.le le_rfl] at hin
      cases hin
    | true =>
      obtain ⟨k, hs⟩ := exists_since h n
      rw [hin] at hs
      rw [((delayOn_at (n + 1)).timing k n rfl hs).2, delayedOn_iff hs]
      exact and_congr_right fun hkn => ⟨History.Measured.over, hnoticed k n ⟨hkn, hs⟩⟩

end DelayOn

section DelayOff

def DelayOff.tick (c : DelayOff) (input : Bool) (now : Instant) : DelayOff :=
  { c with input := input }.execute now

theorem DelayOff.tick_true {c : DelayOff} (henabled : c.enabled = true) (now : Instant) :
    c.tick true now = { c with input := true, output := true, offTime := none } := by
  simp [DelayOff.tick, DelayOff.execute, henabled]

theorem DelayOff.tick_off {c : DelayOff} (henabled : c.enabled = true) (hoff : c.output = false)
    (now : Instant) : c.tick false now = { c with input := false } := by
  simp [DelayOff.tick, DelayOff.execute, henabled, hoff]

theorem DelayOff.tick_first {c : DelayOff} (henabled : c.enabled = true) (hout : c.output = true)
    (hstart : c.offTime = none) (now : Instant) :
    c.tick false now = { c with input := false, offTime := some now } := by
  simp [DelayOff.tick, DelayOff.execute, henabled, hout, hstart]

theorem DelayOff.tick_timing {c : DelayOff} {start : Instant} (henabled : c.enabled = true)
    (hout : c.output = true) (hstart : c.offTime = some start) (now : Instant) :
    c.tick false now =
      if c.delayMs ≤ elapsedMs start now then
        { c with input := false, output := false, offTime := none }
      else { c with input := false } := by
  simp [DelayOff.tick, DelayOff.execute, henabled, hout, hstart]

variable (delayMs : UInt64) (h : History)

def delayOffAfter (n : ℕ) : DelayOff :=
  after DelayOff.tick { DelayOff.new with delayMs := delayMs } h n

def LastTrue (k n : ℕ) : Prop := Latest (fun i => h.input i = true) k n

/-- The first false execution is `k`, and the input has been false up to `n`. -/
def DelayOffTimed (k n : ℕ) : Prop := ∃ l, l + 1 = k ∧ k ≤ n ∧ LastTrue h l n

/-- The input is true, or was true before and has been false for less than the delay. -/
def HeldOn (n : ℕ) : Prop :=
  h.input n = true ∨ ∃ k, DelayOffTimed h k n ∧ ¬ h.Over delayMs k n

structure DelayOffAt (n : ℕ) (c : DelayOff) : Prop where
  delay : c.delayMs = delayMs
  enabled : c.enabled = true
  never : (∀ j, j + 1 = n → ∀ i ≤ j, ¬ h.input i = true) → c.output = false
  on : ∀ j, j + 1 = n → h.input j = true → c.output = true ∧ c.offTime = none
  timing : ∀ k j, j + 1 = n → DelayOffTimed h k j →
    (c.output = true ↔ ¬ h.Measured delayMs k j) ∧ (c.output = true → c.offTime = some (h.time k))

variable {delayMs h}

/-- Behind a false input the first false execution is this one, or the block is timing. -/
theorem DelayOffAt.timed {n k : ℕ} {c : DelayOff} (hc : DelayOffAt delayMs h n c)
    (hk : DelayOffTimed h k n) :
    (k = n ∧ c.output = true ∧ c.offTime = none) ∨
      ∃ j, j + 1 = n ∧ k ≤ j ∧ DelayOffTimed h k j := by
  obtain ⟨l, rfl, hln, hlast⟩ := hk
  rcases latest_cases hlast with rfl | ⟨j, rfl, hbefore⟩
  · exact absurd hln (by omega)
  · rcases hbefore.1.eq_or_lt with rfl | hlt
    · exact Or.inl ⟨rfl, hc.on l rfl hbefore.2.1⟩
    · exact Or.inr ⟨j, rfl, hlt, l, rfl, hlt, hbefore⟩

theorem DelayOffAt.of_false {n : ℕ} {c d : DelayOff} (hc : DelayOffAt delayMs h n c)
    (hin : h.input n = false) (hdelay : d.delayMs = delayMs) (henabled : d.enabled = true)
    (hout : d.output = true → c.output = true)
    (htiming : ∀ k, DelayOffTimed h k n → (d.output = true ↔ ¬ h.Measured delayMs k n) ∧
      (d.output = true → d.offTime = some (h.time k))) :
    DelayOffAt delayMs h (n + 1) d := by
  refine ⟨hdelay, henabled, ?_, ?_, ?_⟩
  · intro hnone
    have hoff := hc.never fun j hj i hi => hnone n rfl i (by omega)
    by_contra hon
    rw [hout (by simpa using hon)] at hoff
    cases hoff
  · rintro j hj htrue
    cases hj
    rw [hin] at htrue
    cases htrue
  · rintro k j hj hk
    cases hj
    exact htiming k hk

theorem delayOff_at (hpos : delayMs ≠ 0) (n : ℕ) :
    DelayOffAt delayMs h n (delayOffAfter delayMs h n) := by
  induction n with
  | zero => exact ⟨rfl, rfl, fun _ => rfl, nofun, nofun⟩
  | succ n ih =>
    change DelayOffAt delayMs h (n + 1) ((delayOffAfter delayMs h n).tick (h.input n) (h.time n))
    generalize delayOffAfter delayMs h n = c at ih ⊢
    cases hin : h.input n with
    | true =>
      rw [DelayOff.tick_true ih.enabled]
      refine ⟨ih.delay, ih.enabled, ?_, fun _ _ _ => ⟨rfl, rfl⟩, ?_⟩
      · intro hnever
        exact absurd hin (hnever n rfl n le_rfl)
      · rintro k j hj ⟨l, rfl, hln, hlast⟩
        cases hj
        exact absurd hin (hlast.2.2 n hln le_rfl)
    | false =>
      cases hout : c.output with
      | false =>
        rw [DelayOff.tick_off ih.enabled hout]
        refine ih.of_false hin ih.delay ih.enabled (fun hon => hon) fun k hk => ?_
        rcases ih.timed hk with ⟨-, hon, -⟩ | ⟨j, rfl, hkj, hbefore⟩
        · rw [hout] at hon
          cases hon
        · have hmeasured : h.Measured delayMs k j := by
            by_contra hnot
            have hon := (ih.timing k j rfl hbefore).1.2 hnot
            rw [hout] at hon
            cases hon
          refine ⟨iff_of_false (by simp [hout]) (not_not.2 ?_), fun hon => by simp [hout] at hon⟩
          exact (measured_succ (hkj.trans j.le_succ)).2 (Or.inl hmeasured)
      | true =>
        cases hoff : c.offTime with
        | none =>
          rw [DelayOff.tick_first ih.enabled hout hoff]
          refine ih.of_false hin ih.delay ih.enabled (fun hon => hon) fun k hk => ?_
          rcases ih.timed hk with ⟨rfl, -, -⟩ | ⟨j, rfl, -, hbefore⟩
          · exact ⟨iff_of_true hout (mt measured_self.1 hpos), fun _ => rfl⟩
          · rw [(ih.timing k j rfl hbefore).2 hout] at hoff
            cases hoff
        | some start =>
          rw [DelayOff.tick_timing ih.enabled hout hoff]
          have hbefore : ∀ k, DelayOffTimed h k n → start = h.time k ∧
              (h.Measured delayMs k n ↔ delayMs ≤ elapsedMs start (h.time n)) := by
            intro k hk
            rcases ih.timed hk with ⟨-, -, hnone⟩ | ⟨j, rfl, hkj, hbefore⟩
            · rw [hoff] at hnone
              cases hnone
            · obtain ⟨hiff, hstart⟩ := ih.timing k j rfl hbefore
              have heq : start = h.time k := by
                rw [hstart hout] at hoff
                exact (Option.some.inj hoff).symm
              rw [measured_succ (hkj.trans j.le_succ), heq, or_iff_right (hiff.1 hout)]
              exact ⟨rfl, Iff.rfl⟩
          rw [ih.delay]
          split_ifs with hover
          · refine ih.of_false hin rfl ih.enabled nofun fun k hk => ?_
            exact ⟨iff_of_false (by simp) (not_not.2 ((hbefore k hk).2.2 hover)), nofun⟩
          · refine ih.of_false hin rfl ih.enabled (fun hon => hon) fun k hk => ?_
            exact ⟨iff_of_true hout (mt (hbefore k hk).2.1 hover),
              fun _ => (hbefore k hk).1 ▸ hoff⟩

theorem delayOff_matches_iff (hpos : delayMs ≠ 0) :
    (∀ n, (delayOffAfter delayMs h (n + 1)).output = true ↔ HeldOn delayMs h n) ↔
      h.Noticed delayMs (DelayOffTimed h) := by
  constructor
  · intro hall k n hk hover
    by_contra hnot
    have hon := ((delayOff_at hpos (n + 1)).timing k n rfl hk).1.2 hnot
    rcases (hall n).1 hon with htrue | ⟨k', hk', hnotOver⟩
    · obtain ⟨l, rfl, hln, hlast⟩ := hk
      exact hlast.2.2 n hln le_rfl htrue
    · obtain ⟨l, rfl, -, hlast⟩ := hk
      obtain ⟨l', rfl, -, hlast'⟩ := hk'
      rw [latest_unique hlast' hlast] at hnotOver
      exact hnotOver hover
  · intro hnoticed n
    have hat : DelayOffAt delayMs h (n + 1) (delayOffAfter delayMs h (n + 1)) :=
      delayOff_at hpos (n + 1)
    cases hin : h.input n with
    | true => exact iff_of_true (hat.on n rfl hin).1 (Or.inl hin)
    | false =>
      have hheld : HeldOn delayMs h n ↔ ∃ k, DelayOffTimed h k n ∧ ¬ h.Over delayMs k n :=
        or_iff_right (by simp [hin])
      rw [hheld]
      rcases exists_latest (fun i => h.input i = true) n with hnever | ⟨l, hlast⟩
      · refine iff_of_false ?_ ?_
        · rw [hat.never fun j hj i hi => hnever i (by omega)]
          simp
        · rintro ⟨k, ⟨l, -, -, hlast⟩, -⟩
          exact hnever l hlast.1 hlast.2.1
      · have hln : l + 1 ≤ n := by
          rcases hlast.1.eq_or_lt with rfl | hlt
          · exact absurd hlast.2.1 (by simp [hin])
          · exact hlt
        have hk : DelayOffTimed h (l + 1) n := ⟨l, rfl, hln, hlast⟩
        rw [(hat.timing (l + 1) n rfl hk).1]
        constructor
        · intro hnot
          exact ⟨l + 1, hk, fun hover => hnot (hnoticed _ _ hk hover)⟩
        · rintro ⟨k, ⟨l', rfl, -, hlast'⟩, hnotOver⟩ hmeasured
          rw [latest_unique hlast' hlast] at hnotOver
          exact hnotOver hmeasured.over

end DelayOff

section OneShot

def OneShot.tick (c : OneShot) (input : Bool) (now : Instant) : OneShot :=
  { c with input := input }.execute now

variable (durationMs : UInt64) (h : History)

def oneShotAfter (n : ℕ) : OneShot :=
  after OneShot.tick { OneShot.new with durationMs := durationMs } h n

/-- The latest rising edge up to `n` is at `k`. -/
def OneShotTimed (k n : ℕ) : Prop := Latest h.RisingEdge k n

/-- The latest rising edge is less than the duration ago. -/
def Pulsing (n : ℕ) : Prop := ∃ k, OneShotTimed h k n ∧ ¬ h.Over durationMs k n

/-- What the trigger time and the output mean after `n` executions. -/
structure OneShotAt (n : ℕ) (c : OneShot) : Prop where
  duration : c.durationMs = durationMs
  fresh : n = 0 → c.prevInput = false
  prevInput : ∀ j, j + 1 = n → c.prevInput = h.input j
  off : c.output = false → c.triggerTime = none
  never : (∀ j, j + 1 = n → ∀ i ≤ j, ¬ h.RisingEdge i) → c.output = false
  timing : ∀ k j, j + 1 = n → OneShotTimed h k j →
    (c.output = true ↔ ¬ h.Measured durationMs k j) ∧
      (c.output = true → c.triggerTime = some (h.time k))

variable {durationMs h}

theorem OneShotAt.rising {n : ℕ} {c : OneShot} (hc : OneShotAt durationMs h n c) :
    (h.input n && !c.prevInput) = true ↔ h.RisingEdge n := by
  unfold History.RisingEdge
  simp only [Bool.and_eq_true, Bool.not_eq_true']
  refine and_congr_right fun _ => ?_
  cases n with
  | zero => exact iff_of_true (hc.fresh rfl) nofun
  | succ n =>
    rw [hc.prevInput n rfl]
    constructor
    · rintro hfalse j hj
      cases hj
      exact hfalse
    · exact fun hall => hall n rfl

theorem OneShot.expire_none {c : OneShot} (hoff : c.triggerTime = none) (now : Instant) :
    c.expire now = c := by
  unfold OneShot.expire
  rw [hoff]

theorem OneShot.expire_some {c : OneShot} {start : Instant} (hon : c.triggerTime = some start)
    (now : Instant) :
    c.expire now =
      if c.durationMs ≤ elapsedMs start now then { c with output := false, triggerTime := none }
      else c := by
  unfold OneShot.expire
  rw [hon]

theorem OneShotAt.step {n : ℕ} {c d : OneShot} (hc : OneShotAt durationMs h n c)
    (hduration : d.durationMs = durationMs) (hprev : d.prevInput = h.input n)
    (hoff : d.output = false → d.triggerTime = none)
    (hout : d.output = true → c.output = true ∨ h.RisingEdge n)
    (htiming : ∀ k, OneShotTimed h k n → (d.output = true ↔ ¬ h.Measured durationMs k n) ∧
      (d.output = true → d.triggerTime = some (h.time k))) :
    OneShotAt durationMs h (n + 1) d := by
  refine ⟨hduration, nofun, ?_, hoff, ?_, ?_⟩
  · rintro j hj
    cases hj
    exact hprev
  · intro hnone
    by_contra hon
    rcases hout (by simpa using hon) with hbefore | hedge
    · have hnever := hc.never fun j hj i hi => hnone n rfl i (by omega)
      rw [hbefore] at hnever
      cases hnever
    · exact hnone n rfl n le_rfl hedge
  · rintro k j hj hk
    cases hj
    exact htiming k hk

theorem oneShot_at (n : ℕ) : OneShotAt durationMs h n (oneShotAfter durationMs h n) := by
  induction n with
  | zero => exact ⟨rfl, fun _ => rfl, nofun, fun _ => rfl, fun _ => rfl, nofun⟩
  | succ n ih =>
    change OneShotAt durationMs h (n + 1) ((oneShotAfter durationMs h n).tick (h.input n) (h.time n))
    generalize oneShotAfter durationMs h n = c at ih ⊢
    unfold OneShot.tick OneShot.execute OneShot.trigger
    by_cases hedge : h.RisingEdge n
    · rw [if_pos (ih.rising.2 hedge), OneShot.expire_some rfl]
      have hlatest : ∀ k, OneShotTimed h k n → k = n := fun k hk =>
        latest_unique hk ⟨le_rfl, hedge, fun i hi hi' => absurd hi (by omega)⟩
      have hmeasured : h.Measured durationMs n n ↔
          c.durationMs ≤ elapsedMs (h.time n) (h.time n) := by
        rw [ih.duration, measured_self]
        simp [elapsedMs]
      dsimp only
      split_ifs with hover
      · refine ih.step ih.duration rfl (fun _ => rfl) nofun fun k hk => ?_
        rw [hlatest k hk]
        exact ⟨iff_of_false (by simp) (not_not.2 (hmeasured.2 hover)), nofun⟩
      · refine ih.step ih.duration rfl nofun (fun _ => Or.inr hedge) fun k hk => ?_
        rw [hlatest k hk]
        exact ⟨iff_of_true rfl (mt hmeasured.1 hover), fun _ => rfl⟩
    · rw [if_neg (mt ih.rising.1 hedge)]
      have hbefore : ∀ k, OneShotTimed h k n → ∃ j, j + 1 = n ∧ OneShotTimed h k j := by
        intro k hk
        rcases latest_cases hk with rfl | hj
        · exact absurd hk.2.1 hedge
        · exact hj
      by_cases hout : c.output = true
      · obtain ⟨j, k, rfl, hk⟩ : ∃ j k, j + 1 = n ∧ OneShotTimed h k j := by
          by_contra hnone
          have hnever := ih.never fun j hj i hi hrising => by
            rcases exists_latest h.RisingEdge j with hall | ⟨k, hk⟩
            · exact hall i hi hrising
            · exact hnone ⟨j, k, hj, hk⟩
          rw [hout] at hnever
          cases hnever
        obtain ⟨hiff, hstart⟩ := ih.timing k j rfl hk
        have hstart' : ({ c with input := h.input (j + 1) } : OneShot).triggerTime =
            some (h.time k) := hstart hout
        have hmeasured : h.Measured durationMs k (j + 1) ↔
            c.durationMs ≤ elapsedMs (h.time k) (h.time (j + 1)) := by
          rw [measured_succ (hk.1.trans j.le_succ), or_iff_right (hiff.1 hout), ih.duration]
        have hlatest : ∀ k', OneShotTimed h k' (j + 1) → k' = k := by
          intro k' hk'
          obtain ⟨j', hj', hk'⟩ := hbefore k' hk'
          cases hj'
          exact latest_unique hk' hk
        rw [OneShot.expire_some hstart']
        dsimp only
        split_ifs with hover
        · refine ih.step ih.duration rfl (fun _ => rfl) nofun fun k' hk' => ?_
          rw [hlatest k' hk']
          exact ⟨iff_of_false (by simp) (not_not.2 (hmeasured.2 hover)), nofun⟩
        · refine ih.step ih.duration rfl (fun hoff => Bool.noConfusion (hout.symm.trans hoff))
            (fun hon => Or.inl hon) fun k' hk' => ?_
          rw [hlatest k' hk']
          exact ⟨iff_of_true hout (mt hmeasured.1 hover), fun _ => hstart hout⟩
      · have hfalse : c.output = false := by simpa using hout
        have hnone : ({ c with input := h.input n } : OneShot).triggerTime = none := ih.off hfalse
        rw [OneShot.expire_none hnone]
        refine ih.step ih.duration rfl (fun _ => hnone) (fun hon => Or.inl hon) fun k hk => ?_
        obtain ⟨j, rfl, hk'⟩ := hbefore k hk
        have hmeasured : h.Measured durationMs k j := by
          by_contra hnot
          exact hout ((ih.timing k j rfl hk').1.2 hnot)
        refine ⟨iff_of_false hout (not_not.2 ?_), fun hon => absurd hon hout⟩
        exact (measured_succ (hk'.1.trans j.le_succ)).2 (Or.inl hmeasured)

theorem oneShot_matches_iff :
    (∀ n, (oneShotAfter durationMs h (n + 1)).output = true ↔ Pulsing durationMs h n) ↔
      h.Noticed durationMs (OneShotTimed h) := by
  constructor
  · intro hall k n hk hover
    by_contra hnot
    have hon := ((oneShot_at (n + 1)).timing k n rfl hk).1.2 hnot
    obtain ⟨k', hk', hnotOver⟩ := (hall n).1 hon
    rw [latest_unique hk' hk] at hnotOver
    exact hnotOver hover
  · intro hnoticed n
    have hat : OneShotAt durationMs h (n + 1) (oneShotAfter durationMs h (n + 1)) :=
      oneShot_at (n + 1)
    rcases exists_latest h.RisingEdge n with hnever | ⟨k, hk⟩
    · refine iff_of_false ?_ ?_
      · rw [hat.never fun j hj i hi => hnever i (by omega)]
        simp
      · rintro ⟨k, hk, -⟩
        exact hnever k hk.1 hk.2.1
    · rw [(hat.timing k n rfl hk).1]
      constructor
      · intro hnot
        exact ⟨k, hk, fun hover => hnot (hnoticed k n hk hover)⟩
      · rintro ⟨k', hk', hnotOver⟩ hmeasured
        rw [latest_unique hk' hk] at hnotOver
        exact hnotOver hmeasured.over

end OneShot

/-- In every history each timer's outputs are what its inputs so far call for exactly where
    every delay that is over has been found to be so. -/
theorem timers_match_iff (h : History) (onMs offMs durationMs : UInt64) (hoff : offMs ≠ 0) :
    ((∀ n, (delayOnAfter onMs h (n + 1)).output = true ↔ DelayedOn onMs h n) ↔
      h.Noticed onMs (DelayOnTimed h)) ∧
    ((∀ n, (delayOffAfter offMs h (n + 1)).output = true ↔ HeldOn offMs h n) ↔
      h.Noticed offMs (DelayOffTimed h)) ∧
    ((∀ n, (oneShotAfter durationMs h (n + 1)).output = true ↔ Pulsing durationMs h n) ↔
      h.Noticed durationMs (OneShotTimed h)) :=
  ⟨delayOn_matches_iff, delayOff_matches_iff hoff, oneShot_matches_iff⟩

def everySecond : History where
  input n := decide (n % 5 < 3)
  time n := n * 1000000000
  ordered := fun _ _ hle => Nat.mul_le_mul_right _ hle

theorem everySecond_noticed {timed : ℕ → ℕ → Prop} (htimed : ∀ k n, timed k n → k ≤ n) :
    everySecond.Noticed 1000 timed := by
  refine noticed_of_gaps htimed fun n => ?_
  have hdelay : (1000 : UInt64).toNat = 1000 := rfl
  have hstep : everySecond.time (n + 1) = everySecond.time n + 1000000000 := Nat.succ_mul _ _
  omega

theorem timers_match_everySecond :
    (∀ n, (delayOnAfter 1000 everySecond (n + 1)).output = true ↔ DelayedOn 1000 everySecond n) ∧
    (∀ n, (delayOffAfter 1000 everySecond (n + 1)).output = true ↔ HeldOn 1000 everySecond n) ∧
    (∀ n, (oneShotAfter 1000 everySecond (n + 1)).output = true ↔ Pulsing 1000 everySecond n) := by
  obtain ⟨hon, hoff, hshot⟩ := timers_match_iff everySecond 1000 1000 1000 (by decide)
  exact ⟨hon.2 (everySecond_noticed fun _ _ hk => hk.1.le),
    hoff.2 (everySecond_noticed fun _ _ hk => hk.choose_spec.2.1),
    hshot.2 (everySecond_noticed fun _ _ hk => hk.1)⟩

def longGap : History where
  input _ := true
  time n := if n = 0 then 0 else 2 ^ 64 * 1000000
  ordered := monotone_nat_of_le_succ fun n => by rw [if_neg n.succ_ne_zero]; split_ifs <;> simp

/-- The count of the milliseconds has come round to 0. -/
theorem longGap_unnoticed : ¬ ∀ (h : History) (delayMs : UInt64) (n : ℕ),
    (delayOnAfter delayMs h (n + 1)).output = true ↔ DelayedOn delayMs h n := by
  intro hall
  have hgap : longGap.Over 1000 0 1 := by
    unfold History.Over longGap
    decide
  have hover : DelayedOn 1000 longGap 1 := ⟨0, by decide, fun _ _ _ => rfl, hgap⟩
  have hout : (delayOnAfter 1000 longGap 2).output = false := by decide +kernel
  rw [(hall longGap 1000 1).2 hover] at hout
  cases hout

end Sandstar.Blocks
