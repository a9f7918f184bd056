import Sandstar.FloatOps
import Sandstar.Machine
import Sandstar.Runs

set_option autoImplicit false

namespace Sandstar.Drivers

open Machine

def lastInstant : ℕ := 2 ^ 63 * 10 ^ 9 - 1

/-- `instant + duration`, which panics where the sum is not an instant. -/
def addDuration (t d : ℕ) : Except Fault ℕ :=
  if t + d ≤ lastInstant then .ok (t + d) else .error .overflow

structure DriverPointRef where
  pointId : BitVec 32
  address : String
deriving DecidableEq

structure PollBucket where
  interval : ℕ
  points : List DriverPointRef
  driverId : String
  offset : ℕ
  lastPolled : Option ℕ
deriving DecidableEq

namespace PollBucket

def nextDue (b : PollBucket) (now : ℕ) : Except Fault ℕ :=
  match b.lastPolled with
  | some last => addDuration last b.interval
  | none => addDuration now b.offset

def isDue (b : PollBucket) (now : ℕ) : Except Fault Bool :=
  (b.nextDue now).map fun due => decide (due ≤ now)

end PollBucket

/-- Conversions between integers and `f64`. -/
class FloatCasts (F : Type) extends FloatOps F where
  ofCount : ℕ → F
  /-- `x as u64`. -/
  toU64 : F → ℕ

instance : FloatCasts ℚ where
  ofCount n := n
  toU64 q := min ⌊q⌋.toNat (2 ^ 64 - 1)

structure PollScheduler where
  buckets : List PollBucket
  autoStagger : Bool
deriving DecidableEq

namespace PollScheduler

def new : PollScheduler := ⟨[], true⟩

def calculateStagger (F : Type) [FloatCasts F] (s : PollScheduler) (interval : ℕ) : ℕ :=
  let sameInterval := (s.buckets.filter (·.interval = interval)).length
  if sameInterval = 0 then 0
  else
    let count : F := FloatCasts.ofCount sameInterval
    let one : F := FloatOps.lit 1
    let fraction := count / (count + one)
    let staggerMs := FloatCasts.ofCount (interval / 1000000) * fraction / (count + one)
    FloatCasts.toU64 staggerMs * 1000000

def addBucket (F : Type) [FloatCasts F] (s : PollScheduler) (driverId : String) (interval : ℕ)
    (points : List DriverPointRef) : PollScheduler :=
  let offset := if s.autoStagger then s.calculateStagger F interval else 0
  { s with buckets := s.buckets ++ [⟨interval, points, driverId, offset, none⟩] }

def removeDriver (s : PollScheduler) (driverId : String) : PollScheduler :=
  { s with buckets := s.buckets.filter (·.driverId ≠ driverId) }

/-- The earliest due time of the buckets from index `i` on, the first of equals. -/
def nextDueFrom (now : ℕ) : ℕ → List PollBucket → Except Fault (Option (ℕ × ℕ))
  | _, [] => .ok none
  | i, b :: bs => do
    let due ← b.nextDue now
    match ← nextDueFrom now (i + 1) bs with
    | none => .ok (some (i, due))
    | some (j, later) => .ok (some (if later < due then (j, later) else (i, due)))

def nextDue (s : PollScheduler) (now : ℕ) : Except Fault (Option (ℕ × ℕ)) :=
  nextDueFrom now 0 s.buckets

def dueFrom (now : ℕ) : ℕ → List PollBucket → Except Fault (List ℕ)
  | _, [] => .ok []
  | i, b :: bs => do
    let due ← b.isDue now
    let rest ← dueFrom now (i + 1) bs
    .ok (if due then i :: rest else rest)

def dueBuckets (s : PollScheduler) (now : ℕ) : Except Fault (List ℕ) := dueFrom now 0 s.buckets

def markPolled (s : PollScheduler) (bucketIdx : ℕ) (now : ℕ) : PollScheduler :=
  { s with buckets := s.buckets.modify bucketIdx fun b => { b with lastPolled := some now } }

end PollScheduler

section Queries

variable {now : ℕ}

theorem addDuration_ok {t d : ℕ} {u : ℕ} :
    addDuration t d = .ok u ↔ t + d ≤ lastInstant ∧ u = t + d := by
  unfold addDuration
  split
  · simp [*, eq_comm]
  · simp [*]

theorem isDue_ok {b : PollBucket} {d : Bool} :
    b.isDue now = .ok d ↔ ∃ due, b.nextDue now = .ok due ∧ d = decide (due ≤ now) := by
  unfold PollBucket.isDue
  cases b.nextDue now with
  | error e => simp [Except.map]
  | ok due => simp [Except.map, eq_comm]

/-- `due_buckets` answers when no due time overflows, with the buckets that say
    they are due. -/
theorem dueFrom_ok {bs : List PollBucket} {k : ℕ} :
    (∀ b ∈ bs, ∃ d, b.isDue now = .ok d) ↔ ∃ l, PollScheduler.dueFrom now k bs = .ok l := by
  induction bs generalizing k with
  | nil => simp [PollScheduler.dueFrom]
  | cons b bs ih =>
    rw [List.forall_mem_cons, @ih (k + 1)]
    constructor
    · rintro ⟨⟨d, hd⟩, l, hl⟩
      refine ⟨if d then k :: l else l, ?_⟩
      simp [PollScheduler.dueFrom, hd, hl, bind, Except.bind]
    · rintro ⟨l, hl⟩
      cases hd : b.isDue now with
      | error e => simp [PollScheduler.dueFrom, hd, bind, Except.bind] at hl
      | ok d =>
        refine ⟨⟨d, rfl⟩, ?_⟩
        cases hrest : PollScheduler.dueFrom now (k + 1) bs with
        | error e => simp [PollScheduler.dueFrom, hd, hrest, bind, Except.bind] at hl
        | ok rest => exact ⟨rest, rfl⟩

theorem mem_dueFrom {bs : List PollBucket} {k : ℕ} {l : List ℕ}
    (h : PollScheduler.dueFrom now k bs = .ok l) (j : ℕ) :
    j ∈ l ↔ ∃ i b, j = k + i ∧ bs[i]? = some b ∧ b.isDue now = .ok true := by
  induction bs generalizing k l with
  | nil =>
    simp only [PollScheduler.dueFrom, Except.ok.injEq] at h
    subst h
    simp
  | cons b bs ih =>
    cases hd : b.isDue now with
    | error e => simp [PollScheduler.dueFrom, hd, bind, Except.bind] at h
    | ok d =>
      cases hrest : PollScheduler.dueFrom now (k + 1) bs with
      | error e => simp [PollScheduler.dueFrom, hd, hrest, bind, Except.bind] at h
      | ok rest =>
        simp only [PollScheduler.dueFrom, hd, hrest, bind, Except.bind, Except.ok.injEq] at h
        have hmem : j ∈ l ↔ (j = k ∧ d = true) ∨ j ∈ rest := by
          subst h
          cases d <;> simp
        rw [hmem, ih hrest]
        constructor
        · rintro (⟨rfl, rfl⟩ | ⟨i, c, rfl, hc, hdue⟩)
          · exact ⟨0, b, rfl, rfl, hd⟩
          · exact ⟨i + 1, c, by omega, hc, hdue⟩
        · rintro ⟨i, c, rfl, hc, hdue⟩
          cases i with
          | zero =>
            cases hc
            rw [hd] at hdue
            cases hdue
            exact Or.inl ⟨rfl, rfl⟩
          | succ i => exact Or.inr ⟨i, c, by omega, hc, hdue⟩

/-- `next_due` answers in the same cases, with the due time of one bucket. -/
theorem nextDueFrom_ok {bs : List PollBucket} (h : ∀ b ∈ bs, ∃ d, b.nextDue now = .ok d) (k : ℕ) :
    ∃ o, PollScheduler.nextDueFrom now k bs = .ok o ∧
      ∀ j due, o = some (j, due) → ∃ i b, j = k + i ∧ bs[i]? = some b ∧ b.nextDue now = .ok due := by
  induction bs generalizing k with
  | nil => exact ⟨none, rfl, nofun⟩
  | cons b bs ih =>
    rw [List.forall_mem_cons] at h
    obtain ⟨⟨due, hdue⟩, hrest⟩ := h
    obtain ⟨o, ho, hin⟩ := ih hrest (k + 1)
    cases o with
    | none =>
      refine ⟨some (k, due), ?_, ?_⟩
      · simp [PollScheduler.nextDueFrom, hdue, ho, bind, Except.bind]
      · rintro j d ⟨rfl, rfl⟩
        exact ⟨0, b, rfl, rfl, hdue⟩
    | some e =>
      obtain ⟨j, later⟩ := e
      refine ⟨some (if later < due then (j, later) else (k, due)), ?_, ?_⟩
      · simp [PollScheduler.nextDueFrom, hdue, ho, bind, Except.bind]
      · intro j' d heq
        split at heq
        · cases heq
          obtain ⟨i, c, rfl, hc, hd⟩ := hin _ _ rfl
          exact ⟨i + 1, c, by omega, hc, hd⟩
        · cases heq
          exact ⟨0, b, rfl, rfl, hdue⟩

end Queries

section Schedule

structure Times where
  added : ℕ
  marked : Option ℕ
deriving DecidableEq

/-- The scheduler with what has happened to each of its buckets, in their order. -/
structure World where
  scheduler : PollScheduler
  times : List Times
  clock : ℕ

inductive Act
  | addBucket (driverId : String) (interval : ℕ) (points : List DriverPointRef)
  | removeDriver (driverId : String)
  | markPolled (bucketIdx : ℕ)
  | query

/-- One call, at the time the clock shows. -/
def World.step (F : Type) [FloatCasts F] (w : World) : ℕ × Act → World
  | (t, .addBucket driverId interval points) =>
    ⟨w.scheduler.addBucket F driverId interval points, w.times ++ [⟨t, none⟩], t⟩
  | (t, .removeDriver driverId) =>
    ⟨w.scheduler.removeDriver driverId,
      ((w.scheduler.buckets.zip w.times).filter (·.1.driverId ≠ driverId)).map (·.2), t⟩
  | (t, .markPolled bucketIdx) =>
    ⟨w.scheduler.markPolled bucketIdx t,
      w.times.modify bucketIdx fun r => { r with marked := some t }, t⟩
  | (t, .query) => { w with clock := t }

def World.start (t : ℕ) : World := ⟨.new, [], t⟩

def OnTime (w : World) (e : ℕ × Act) : Prop := w.clock ≤ e.1 ∧ e.1 ≤ lastInstant

def Due (b : PollBucket) (r : Times) (t : ℕ) : Prop :=
  match r.marked with
  | some last => last + b.interval ≤ t
  | none => r.added + b.offset ≤ t

/-- Both queries answer at `t`, and report exactly the buckets that are due. -/
def World.Reports (w : World) (t : ℕ) : Prop :=
  (∃ l, w.scheduler.dueBuckets t = .ok l ∧ ∀ i b r, w.scheduler.buckets[i]? = some b →
    w.times[i]? = some r → (i ∈ l ↔ Due b r t)) ∧
  ∃ o, w.scheduler.nextDue t = .ok o ∧ ∀ i due, o = some (i, due) →
    ∃ b r, w.scheduler.buckets[i]? = some b ∧ w.times[i]? = some r ∧ (due ≤ t ↔ Due b r t)

/-- The buckets a query at `t` gets right: those whose due time is an instant,
    and of those never polled the ones without an offset or not yet to start. -/
def Regular (b : PollBucket) (r : Times) (t : ℕ) : Prop :=
  match r.marked with
  | some last => last + b.interval ≤ lastInstant
  | none => t + b.offset ≤ lastInstant ∧ (b.offset = 0 ∨ t < r.added + b.offset)

def World.Regular (w : World) (t : ℕ) : Prop :=
  ∀ (i : ℕ) (b : PollBucket) (r : Times), w.scheduler.buckets[i]? = some b →
    w.times[i]? = some r → Drivers.Regular b r t

def World.Matched (w : World) : Prop :=
  List.Forall₂ (fun b r => b.lastPolled = r.marked ∧ r.added ≤ w.clock) w.scheduler.buckets w.times

theorem isDue_right_iff {b : PollBucket} {r : Times} {t : ℕ} (hmarked : b.lastPolled = r.marked)
    (hadded : r.added ≤ t) :
    (∃ due, b.nextDue t = .ok due ∧ (due ≤ t ↔ Due b r t)) ↔ Regular b r t := by
  cases hr : r.marked with
  | some last =>
    simp only [PollBucket.nextDue, Due, Regular, hmarked, hr, addDuration_ok]
    constructor
    · rintro ⟨due, ⟨hle, rfl⟩, -⟩
      exact hle
    · intro hle
      exact ⟨_, ⟨hle, rfl⟩, Iff.rfl⟩
  | none =>
    simp only [PollBucket.nextDue, Due, Regular, hmarked, hr, addDuration_ok]
    constructor
    · rintro ⟨due, ⟨hle, rfl⟩, hiff⟩
      refine ⟨hle, ?_⟩
      omega
    · rintro ⟨hle, hcase⟩
      refine ⟨_, ⟨hle, rfl⟩, ?_⟩
      omega

theorem World.Matched.pair {w : World} (h : w.Matched) {i : ℕ} {b : PollBucket}
    (hb : w.scheduler.buckets[i]? = some b) :
    ∃ r, w.times[i]? = some r ∧ b.lastPolled = r.marked ∧ r.added ≤ w.clock := by
  unfold World.Matched at h
  obtain ⟨hlength, hall⟩ := List.forall₂_iff_get.1 h
  obtain ⟨hi, rfl⟩ := List.getElem?_eq_some_iff.1 hb
  have hi' : i < w.times.length := by omega
  exact ⟨w.times[i], List.getElem?_eq_getElem hi', hall i hi hi'⟩

theorem reports_iff_regular {w : World} {t : ℕ} (h : w.Matched) (hclock : w.clock ≤ t) :
    w.Reports t ↔ w.Regular t := by
  constructor
  · rintro ⟨⟨l, hl, hright⟩, -⟩ i b r hb hr
    obtain ⟨r', hr', hmarked, hadded⟩ := h.pair hb
    rw [hr] at hr'
    cases hr'
    obtain ⟨d, hd⟩ := dueFrom_ok.2 ⟨l, hl⟩ b (List.mem_of_getElem? hb)
    obtain ⟨due, hdue, rfl⟩ := isDue_ok.1 hd
    refine (isDue_right_iff hmarked (hadded.trans hclock)).1 ⟨due, hdue, ?_⟩
    rw [← hright i b r hb hr, mem_dueFrom hl]
    constructor
    · intro hle
      exact ⟨i, b, by omega, hb, isDue_ok.2 ⟨due, hdue, by simp [hle]⟩⟩
    · rintro ⟨j, c, hj, hc, htrue⟩
      obtain rfl : j = i := by omega
      rw [hb] at hc
      cases hc
      rw [hd] at htrue
      simpa using htrue
  · intro hregular
    have hnext : ∀ (i : ℕ) (b : PollBucket), w.scheduler.buckets[i]? = some b → ∃ r due,
        w.times[i]? = some r ∧ b.nextDue t = .ok due ∧ (due ≤ t ↔ Due b r t) := by
      intro i b hb
      obtain ⟨r, hr, hmarked, hadded⟩ := h.pair hb
      obtain ⟨due, hdue, hiff⟩ :=
        (isDue_right_iff hmarked (hadded.trans hclock)).2 (hregular i b r hb hr)
      exact ⟨r, due, hr, hdue, hiff⟩
    constructor
    · obtain ⟨l, hl⟩ := (@dueFrom_ok t w.scheduler.buckets 0).1 (by
        intro b hb
        obtain ⟨i, hi⟩ := List.mem_iff_getElem?.1 hb
        obtain ⟨r, due, -, hdue, -⟩ := hnext i b hi
        exact ⟨_, isDue_ok.2 ⟨due, hdue, rfl⟩⟩)
      refine ⟨l, hl, ?_⟩
      intro i b r hb hr
      obtain ⟨r', due, hr', hdue, hiff⟩ := hnext i b hb
      rw [hr] at hr'
      cases hr'
      rw [mem_dueFrom hl, ← hiff]
      constructor
      · rintro ⟨j, c, hj, hc, htrue⟩
        obtain rfl : j = i := by omega
        rw [hb] at hc
        cases hc
        obtain ⟨due', hdue', htrue⟩ := isDue_ok.1 htrue
        rw [hdue] at hdue'
        cases hdue'
        simpa using htrue.symm
      · intro hle
        exact ⟨i, b, by omega, hb, isDue_ok.2 ⟨due, hdue, by simp [hle]⟩⟩
    · obtain ⟨o, ho, hin⟩ := @nextDueFrom_ok t w.scheduler.buckets (by
        intro b hb
        obtain ⟨i, hi⟩ := List.mem_iff_getElem?.1 hb
        obtain ⟨r, due, -, hdue, -⟩ := hnext i b hi
        exact ⟨due, hdue⟩) 0
      refine ⟨o, ho, ?_⟩
      intro j due heq
      obtain ⟨i, b, hj, hb, hdue⟩ := hin j due heq
      obtain rfl : j = i := by omega
      obtain ⟨r, due', hr, hdue', hiff⟩ := hnext j b hb
      rw [hdue] at hdue'
      cases hdue'
      exact ⟨b, r, hb, hr, hiff⟩

theorem forall₂_filter {α β : Type} {R : α → β → Prop} {as : List α} {bs : List β}
    (h : List.Forall₂ R as bs) (p : α → Bool) :
    List.Forall₂ R (as.filter p) (((as.zip bs).filter fun e => p e.1).map (·.2)) := by
  induction h with
  | nil => exact .nil
  | @cons a b as bs hab _ ih =>
    rw [List.zip_cons_cons]
    by_cases hp : p a
    · rw [List.filter_cons_of_pos hp, List.filter_cons_of_pos (by exact hp), List.map_cons]
      exact .cons hab ih
    · rw [List.filter_cons_of_neg hp, List.filter_cons_of_neg (by exact hp)]
      exact ih

theorem forall₂_modify {α β : Type} {R : α → β → Prop} {as : List α} {bs : List β}
    (h : List.Forall₂ R as bs) {f : α → α} {g : β → β} (hfg : ∀ a b, R a b → R (f a) (g b)) (i : ℕ) :
    List.Forall₂ R (as.modify i f) (bs.modify i g) := by
  induction h generalizing i with
  | nil => simp
  | cons hab htail ih =>
    cases i with
    | zero => simpa using ⟨hfg _ _ hab, htail⟩
    | succ i => simpa using ⟨hab, ih i⟩

variable (F : Type) [FloatCasts F]

theorem matched_step {w : World} (h : w.Matched) {e : ℕ × Act} (hclock : w.clock ≤ e.1) :
    (w.step F e).Matched := by
  have hlater : List.Forall₂ (fun b r => b.lastPolled = r.marked ∧ r.added ≤ e.1)
      w.scheduler.buckets w.times :=
    List.Forall₂.imp (fun _ _ hbr => ⟨hbr.1, hbr.2.trans hclock⟩) h
  obtain ⟨t, a⟩ := e
  cases a with
  | addBucket driverId interval points =>
    exact List.rel_append hlater (.cons ⟨rfl, le_rfl⟩ .nil)
  | removeDriver driverId => exact forall₂_filter hlater _
  | markPolled bucketIdx =>
    exact @forall₂_modify _ _ _ _ _ hlater (fun b => { b with lastPolled := some t })
      (fun r => { r with marked := some t }) (fun _ _ hbr => ⟨rfl, hbr.2⟩) bucketIdx
  | query => exact hlater

/-- In every history each query reports exactly the buckets that are due, if and
    only if each query finds them all regular. -/
theorem queries_report_iff (start : ℕ) (events : List (ℕ × Act))
    (hclock : Runs.Along (World.step F) OnTime (.start start) events) :
    Runs.Along (World.step F) (fun w e => e.2 = .query → w.Reports e.1) (.start start) events ↔
      Runs.Along (World.step F) (fun w e => e.2 = .query → w.Regular e.1) (.start start) events := by
  have hstart : (World.start start).Matched := List.Forall₂.nil
  apply Runs.along_congr (World.step F) _ _ hstart hclock
  · intro w e h honTime
    exact matched_step F h honTime.1
  · intro w e h honTime
    exact imp_congr_right fun _ => reports_iff_regular h honTime.1

def polledInTurn : List (ℕ × Act) :=
  [(0, .addBucket "drv-1" 1000000000 []), (0, .addBucket "drv-2" 1000000000 []),
    (100000000, .query), (100000000, .markPolled 0), (250000000, .markPolled 1),
    (1200000000, .query)]

/-- Only the first bucket is due at the end. -/
theorem queries_report_inTurn :
    Runs.Along (World.step ℚ) (fun w e => e.2 = .query → w.Reports e.1) (.start 0) polledInTurn ∧
      (Runs.run (World.step ℚ) (.start 0) polledInTurn).scheduler.dueBuckets 1200000000 =
        .ok [0] := by
  have hbuckets : ((World.start 0).step ℚ (0, .addBucket "drv-1" 1000000000 []) |>.step ℚ
      (0, .addBucket "drv-2" 1000000000 [])).scheduler.buckets =
      [⟨1000000000, [], "drv-1", 0, none⟩, ⟨1000000000, [], "drv-2", 250000000, none⟩] := by
    decide +kernel
  refine ⟨(queries_report_iff ℚ 0 _ ?_).2 ?_, by decide +kernel⟩
  · refine ⟨⟨?_, ?_⟩, ⟨?_, ?_⟩, ⟨?_, ?_⟩, ⟨?_, ?_⟩, ⟨?_, ?_⟩, ⟨?_, ?_⟩, trivial⟩ <;> decide
  · refine ⟨nofun, nofun, fun _ => ?_, nofun, nofun, fun _ => ?_, trivial⟩
    · intro i b r hb hr
      change ((World.start 0).step ℚ _ |>.step ℚ _).scheduler.buckets[i]? = _ at hb
      rw [hbuckets] at hb
      rcases i with _ | _ | i
      · cases hb
        cases hr
        exact ⟨by decide, .inl rfl⟩
      · cases hb
        cases hr
        exact ⟨by decide, .inr (by decide)⟩
      · cases hb
    · intro i b r hb hr
      rcases i with _ | _ | i
      · cases hb
        cases hr
        exact (by decide : 100000000 + 1000000000 ≤ lastInstant)
      · cases hb
        cases hr
        exact (by decide : 250000000 + 1000000000 ≤ lastInstant)
      · cases hb

def staggered : World :=
  Runs.run (World.step ℚ) (.start 0)
    [(0, .addBucket "drv-1" 1000000000 []), (0, .addBucket "drv-2" 1000000000 [])]

/-- The second bucket is not reported after an hour. -/
theorem staggered_bucket_starves :
    staggered.scheduler.buckets.map (·.offset) = [0, 250000000] ∧
      staggered.times = [⟨0, none⟩, ⟨0, none⟩] ∧
      staggered.scheduler.dueBuckets 3600000000000 = .ok [0] ∧
      ¬staggered.Reports 3600000000000 := by
  have hdue : staggered.scheduler.dueBuckets 3600000000000 = .ok [0] := by decide +kernel
  have hoffset : staggered.scheduler.buckets[1]? =
      some ⟨1000000000, [], "drv-2", 250000000, none⟩ := by decide +kernel
  refine ⟨by decide +kernel, rfl, hdue, ?_⟩
  rintro ⟨⟨l, hl, hright⟩, -⟩
  rw [hdue] at hl
  cases hl
  have hsecond := (hright 1 _ ⟨0, none⟩ hoffset rfl).2 (by decide : 0 + 250000000 ≤ 3600000000000)
  simp at hsecond

end Schedule

end Sandstar.Drivers
