import Sandstar.Mealy

set_option autoImplicit false

/-!
# The rate limiter (rest/mod.rs)

Requests that share a counter and the start of its window, one step for every access to one of
them. The clock is read when a request comes.
-/
namespace Sandstar.RateLimiter

inductive Phase
  | idle
  | timed (now : ℕ)
  | counting
  | opening (now : ℕ)
  | opened
deriving DecidableEq

def Phase.opens : Phase → Bool
  | .opening _ => true
  | .opened => true
  | _ => false

structure World (T : Type) where
  count : ℕ
  windowStart : ℕ
  phase : T → Phase
  answers : List Bool

inductive Action (T : Type)
  | check (t : T) (now : ℕ)
  | proceed (t : T)
deriving DecidableEq

namespace World

variable {T : Type}

/-- `RateLimiter::new`. -/
def new (now : ℕ) : World T := ⟨0, now, fun _ => .idle, []⟩

def admitted (w : World T) : ℕ := w.answers.count true

variable [DecidableEq T] (maxPerSecond : ℕ)

def enter (w : World T) (t : T) (p : Phase) : World T :=
  { w with phase := Function.update w.phase t p }

/-- The next access of a request; adding wraps around. -/
def proceed (w : World T) (t : T) : Option (World T) :=
  match w.phase t with
  | .idle => none
  | .timed now =>
    some (w.enter t (if w.windowStart + 1000 ≤ now then .opening now else .counting))
  | .counting => some
      ({ w with count := (w.count + 1) % 2 ^ 64
                answers := w.answers ++ [decide (w.count < maxPerSecond)] }.enter t .idle)
  | .opening now => some ({ w with windowStart := now }.enter t .opened)
  | .opened => some ({ w with count := 1, answers := w.answers ++ [true] }.enter t .idle)

def step (w : World T) : Action T → Option (World T)
  | .check t now => if w.phase t = .idle then some (w.enter t (.timed now)) else none
  | .proceed t => w.proceed maxPerSecond t

def pending [Fintype T] (w : World T) : Finset T := Finset.univ.filter fun u => (w.phase u).opens

omit [DecidableEq T] in
theorem mem_pending [Fintype T] {w : World T} {u : T} : u ∈ w.pending ↔ (w.phase u).opens := by
  unfold pending
  rw [Finset.mem_filter]
  exact and_iff_right (Finset.mem_univ u)

theorem pending_enter [Fintype T] (w : World T) (t : T) (p : Phase) :
    (w.enter t p).pending = if p.opens then insert t w.pending else w.pending.erase t := by
  ext u
  rw [mem_pending]
  by_cases hu : u = t
  · subst hu
    cases hp : p.opens <;> simp [enter, hp]
  · cases hp : p.opens <;> simp [enter, hu, mem_pending]

end World

section Stretch

open World

variable {T : Type} [DecidableEq T] [Fintype T] {maxPerSecond t base n resets : ℕ}
  {w w' : World T}

/-- All clock readings are of one second that begins at a time. -/
def InSecond (t : ℕ) (actions : List (Action T)) : Prop :=
  ∀ u now, .check u now ∈ actions → t ≤ now ∧ now < t + 1000

structure Within (maxPerSecond t base : ℕ) (w : World T) (n resets : ℕ) : Prop where
  count : w.count ≤ n
  clock : ∀ u now, w.phase u = .timed now ∨ w.phase u = .opening now → t ≤ now ∧ now < t + 1000
  stale : w.windowStart < t → resets = 0 ∧ ∀ u, w.phase u ≠ .opened
  spent : resets + w.pending.card ≤ Fintype.card T
  admitted : w.admitted + (maxPerSecond - w.count) ≤ base + maxPerSecond * (1 + resets)

theorem Within.enter (h : Within maxPerSecond t base w n resets) {u : T} {p : Phase} {start' : ℕ}
    (hclock : ∀ now, p = .timed now ∨ p = .opening now → t ≤ now ∧ now < t + 1000)
    (hstale : start' < t → w.windowStart < t ∧ p ≠ .opened)
    (hspent : resets + (w.enter u p).pending.card ≤ Fintype.card T) :
    Within maxPerSecond t base ({ w with windowStart := start' }.enter u p) (n + 1) resets where
  count := h.count.trans (Nat.le_succ n)
  clock := (Function.forall_update_iff w.phase fun _ q => ∀ now, q = .timed now ∨ q = .opening now →
    t ≤ now ∧ now < t + 1000).2 ⟨hclock, fun v _ => h.clock v⟩
  stale hlt := by
    obtain ⟨hbefore, hopened⟩ := hstale hlt
    obtain ⟨hnone, hphase⟩ := h.stale hbefore
    exact ⟨hnone, (Function.forall_update_iff w.phase fun _ q => q ≠ .opened).2
      ⟨hopened, fun v _ => hphase v⟩⟩
  spent := hspent
  admitted := h.admitted

theorem Within.answer (h : Within maxPerSecond t base w n resets) {u : T} {b : Bool} {c resets' : ℕ}
    (hcount : c ≤ n + 1) (hstale : w.windowStart < t → resets' = 0)
    (hspent : resets' + (w.pending.erase u).card ≤ Fintype.card T)
    (hadmitted : (w.answers ++ [b]).count true + (maxPerSecond - c) ≤
      base + maxPerSecond * (1 + resets')) :
    Within maxPerSecond t base ({ w with count := c, answers := w.answers ++ [b] }.enter u .idle)
      (n + 1) resets' where
  count := hcount
  clock := (Function.forall_update_iff w.phase fun _ q => ∀ now, q = .timed now ∨ q = .opening now →
    t ≤ now ∧ now < t + 1000).2 ⟨by simp, fun v _ => h.clock v⟩
  stale hlt := ⟨hstale hlt, (Function.forall_update_iff w.phase fun _ q => q ≠ .opened).2
    ⟨Phase.noConfusion, fun v _ => (h.stale hlt).2 v⟩⟩
  spent := by
    rw [pending_enter]
    exact hspent
  admitted := hadmitted

theorem Within.step (h : Within maxPerSecond t base w n resets) (hmax : 0 < maxPerSecond)
    (hn : n + 1 < 2 ^ 64) {a : Action T} (ha : InSecond t [a])
    (hstep : w.step maxPerSecond a = some w') :
    ∃ resets', Within maxPerSecond t base w' (n + 1) resets' := by
  have herase : ∀ u, (w.pending.erase u).card ≤ w.pending.card := fun u => Finset.card_erase_le
  have hspent := h.spent
  have hadmitted := h.admitted
  cases a with
  | check u now =>
    have hidle : w.phase u = .idle := by
      by_contra hbusy
      simp [World.step, hbusy] at hstep
    obtain rfl : w.enter u (.timed now) = w' := by simpa [World.step, hidle] using hstep
    refine ⟨resets, h.enter (fun now' hnow => ?_) (fun hlt => ⟨hlt, Phase.noConfusion⟩) ?_⟩
    · obtain rfl : now = now' := by simpa using hnow
      exact ha u now (List.mem_singleton.2 rfl)
    · rw [pending_enter]
      exact (Nat.add_le_add_left (herase u) _).trans hspent
  | proceed u =>
    simp only [World.step, World.proceed] at hstep
    cases hphase : w.phase u with
    | idle => simp [hphase] at hstep
    | timed now =>
      simp only [hphase, Option.some.injEq] at hstep
      subst hstep
      have hnow := h.clock u now (.inl hphase)
      refine ⟨resets, ?_⟩
      split_ifs with hover
      -- only a window of an earlier second is over
      · obtain ⟨hnone, -⟩ := h.stale (by omega)
        refine h.enter (fun now' hnow' => ?_) (fun hlt => ⟨hlt, Phase.noConfusion⟩) ?_
        · obtain rfl : now = now' := by simpa using hnow'
          exact hnow
        · rw [hnone, Nat.zero_add]
          exact Finset.card_le_univ _
      · refine h.enter (by simp) (fun hlt => ⟨hlt, Phase.noConfusion⟩) ?_
        rw [pending_enter]
        exact (Nat.add_le_add_left (herase u) _).trans hspent
    | counting =>
      simp only [hphase, Option.some.injEq] at hstep
      subst hstep
      have hcount := h.count
      have hwrap : (w.count + 1) % 2 ^ 64 = w.count + 1 := Nat.mod_eq_of_lt (by omega)
      refine ⟨resets, h.answer (by omega) (fun hlt => (h.stale hlt).1)
        ((Nat.add_le_add_left (herase u) _).trans hspent) ?_⟩
      rw [hwrap, List.count_append]
      unfold World.admitted at hadmitted
      by_cases hlt : w.count < maxPerSecond
      · simp only [hlt, decide_true, List.count_singleton_self]
        omega
      · simp only [hlt, decide_false]
        simp
        omega
    | opening now =>
      simp only [hphase, Option.some.injEq] at hstep
      subst hstep
      have hnow := h.clock u now (.inr hphase)
      have hmem : u ∈ w.pending := mem_pending.2 (by rw [hphase]; rfl)
      refine ⟨resets, h.enter (by simp) (fun hlt => absurd hnow.1 hlt.not_ge) ?_⟩
      rw [pending_enter]
      change resets + (insert u w.pending).card ≤ _
      rw [Finset.insert_eq_of_mem hmem]
      exact hspent
    | opened =>
      simp only [hphase, Option.some.injEq] at hstep
      subst hstep
      have hmem : u ∈ w.pending := mem_pending.2 (by rw [hphase]; rfl)
      have hcard := Finset.card_erase_add_one hmem
      refine ⟨resets + 1, h.answer (by omega) (fun hlt => absurd hphase ((h.stale hlt).2 u))
        (by omega) ?_⟩
      rw [List.count_append, List.count_singleton_self]
      unfold World.admitted at hadmitted
      have hmul : maxPerSecond * (1 + (resets + 1)) = maxPerSecond * (1 + resets) + maxPerSecond := by
        ring
      omega

/-- In less than a second that begins with no request under way, at most as many requests are let
through as the limit allows for each window: the one that had begun and one for every request
that runs at the same time. -/
theorem second_admits_le (hmax : 0 < maxPerSecond) (hquiet : ∀ u, w.phase u = .idle)
    {actions : List (Action T)} (hcount : w.count + actions.length < 2 ^ 64)
    (hclock : InSecond t actions) :
    (Mealy.runEnabled (World.step maxPerSecond) w actions).admitted ≤
      w.admitted + maxPerSecond * (1 + Fintype.card T) := by
  have hwithin : ∃ resets, Within maxPerSecond t w.admitted
      (Mealy.runEnabled (World.step maxPerSecond) w actions) (w.count + actions.length) resets := by
    induction actions using List.reverseRecOn with
    | nil =>
      change ∃ resets, Within maxPerSecond t w.admitted w w.count resets
      refine ⟨0, le_rfl, fun u now hu => ?_, fun _ => ⟨rfl, fun u => ?_⟩, ?_, by omega⟩
      · simp [hquiet u] at hu
      · simp [hquiet u]
      · rw [Nat.zero_add]
        exact Finset.card_le_univ _
    | append_singleton actions a ih =>
      rw [List.length_append, List.length_singleton, ← Nat.add_assoc] at hcount ⊢
      obtain ⟨resets, h⟩ := ih (Nat.lt_of_succ_lt hcount)
        fun u now hmem => hclock u now (List.mem_append_left _ hmem)
      unfold Mealy.runEnabled at h ⊢
      rw [List.foldl_concat]
      generalize actions.foldl _ w = w' at h ⊢
      cases hstep : w'.step maxPerSecond a with
      | none => exact ⟨resets, { h with count := h.count.trans (Nat.le_succ _) }⟩
      | some w'' =>
        refine h.step hmax hcount (fun u now hmem => ?_) hstep
        exact hclock u now (List.mem_append_right _ hmem)
  obtain ⟨resets, h⟩ := hwithin
  have hresets : resets ≤ Fintype.card T := (Nat.le_add_right _ _).trans h.spent
  calc (Mealy.runEnabled (World.step maxPerSecond) w actions).admitted
      ≤ w.admitted + maxPerSecond * (1 + resets) := (Nat.le_add_right _ _).trans h.admitted
    _ ≤ _ := by gcongr

def racingRun : List (Action Bool) :=
  [.check false 999, .proceed false, .proceed false, .check false 1400, .check true 1400,
    .proceed false, .proceed true, .proceed false, .proceed false, .proceed true, .proceed true]

theorem racing_admits :
    let w := Mealy.runEnabled (World.step 1) (.new 0) racingRun
    w.admitted = 3 ∧ w.admitted ≤ 0 + 1 * (1 + 2) := by
  refine ⟨by decide, ?_⟩
  refine @second_admits_le Bool _ _ 1 500 (.new 0) (by decide) (fun _ => rfl) racingRun
    (by decide) fun u now hmem => ?_
  simp only [racingRun, List.mem_cons, Action.check.injEq, List.not_mem_nil, reduceCtorEq,
    false_or, or_false] at hmem
  omega

end Stretch

end Sandstar.RateLimiter
