import Sandstar.DriverWatches
import Sandstar.Runs

set_option autoImplicit false

/-!
# Change-of-value events (actor.rs, mod.rs)

`sync_all` asks the drivers for the current values of their points and emits an event for
each value that differs from the last one emitted for the point. The memory of what was
emitted belongs to the actor: removing a driver leaves it as it is.
-/
namespace Sandstar.Drivers

inductive DriverStatus
  | pending
  | ok
  | stale
  | fault (message : String)
  | disabled
  | down
  | syncing
deriving DecidableEq

inductive PointStatus
  | inherited
  | own (status : DriverStatus)
  | remoteDisabled
  | remoteDown
  | remoteFault (message : String)
deriving DecidableEq

def PointStatus.fromDriverError : DriverError → PointStatus
  | .remoteStatus message => .remoteFault message
  | .commFault _ | .timeout _ => .remoteDown
  | .configFault message | .hardwareNotFound message | .internal message => .own (.fault message)
  | .notSupported feature => .own (.fault ("not supported: " ++ feature))

structure CovEvent where
  pointId : BitVec 32
  value : UInt64
  status : PointStatus
  timestamp : ℕ
deriving DecidableEq

abbrev ReadResult := Except DriverError UInt64

/-- The fields that `sync_all` works on, beside those that decide where calls go. -/
structure CovInner where
  inner : DriverManagerInner
  pointStatuses : Table (BitVec 32) PointStatus
  lastEmitted : Table (BitVec 32) UInt64

/-- The point map of a cycle is given in the order in which it is walked. What a driver
    answers may differ from one cycle to the next. -/
inductive CovCmd
  | other (c : DriverCmd)
  | setPointStatus (pointId : BitVec 32) (status : PointStatus)
  | syncAll (pointMap : List (String × List DriverPointRef))
      (syncCur : String → List DriverPointRef → List (BitVec 32 × ReadResult)) (now : ℕ)

namespace CovInner

def new : CovInner := ⟨.new, Table.empty, Table.empty⟩

def collect (s : CovInner) (pointMap : List (String × List DriverPointRef))
    (syncCur : String → List DriverPointRef → List (BitVec 32 × ReadResult)) :
    List (String × BitVec 32 × ReadResult) :=
  pointMap.flatMap fun (driverId, points) =>
    if driverId ∈ s.inner.drivers then
      (syncCur driverId points).map fun (pointId, result) => (driverId, pointId, result)
    else []

def updateStatus (s : CovInner) (pid : BitVec 32) (result : ReadResult) : CovInner :=
  let ps := match result with
    | .error e => PointStatus.fromDriverError e
    | .ok _ => .inherited
  if ps = .inherited then { s with pointStatuses := s.pointStatuses.erase pid }
  else { s with pointStatuses := s.pointStatuses.insert pid ps }

def emitChanges (now : ℕ) (s : CovInner) : List (BitVec 32 × UInt64) → CovInner × List CovEvent
  | [] => (s, [])
  | (pid, v) :: rest =>
    if s.lastEmitted.get pid = some v then emitChanges now s rest
    else
      let status := (s.pointStatuses.get pid).getD .inherited
      let (s', events) := emitChanges now { s with lastEmitted := s.lastEmitted.insert pid v } rest
      (s', ⟨pid, v, status, now⟩ :: events)

/-- The successful readings among the answers, each with its driver. -/
def readings (results : List (String × BitVec 32 × ReadResult)) :
    List (String × BitVec 32 × UInt64) :=
  results.filterMap fun (driverId, pid, result) =>
    match result with
    | .ok v => some (driverId, pid, v)
    | .error _ => none

def syncAll (s : CovInner) (pointMap : List (String × List DriverPointRef))
    (syncCur : String → List DriverPointRef → List (BitVec 32 × ReadResult)) (now : ℕ) :
    CovInner × List CovEvent × List (String × BitVec 32 × ReadResult) :=
  let results := s.collect pointMap syncCur
  let updated := results.foldl (fun s (_, pid, result) => s.updateStatus pid result) s
  let (emitted, events) := emitChanges now updated ((readings results).map Prod.snd)
  (emitted, events, results)

/-- One command, with the events it emits and the answers it returns. -/
def handle (F : Type) [FloatCasts F] (s : CovInner) :
    CovCmd → CovInner × List CovEvent × List (String × BitVec 32 × ReadResult)
  | .other c => ({ s with inner := (s.inner.handle F c).1 }, [], [])
  | .setPointStatus pid status =>
    ({ s with pointStatuses := s.pointStatuses.insert pid status }, [], [])
  | .syncAll pointMap syncCur now => s.syncAll pointMap syncCur now

end CovInner

inductive Seen
  | registered (driverId : String)
  | emitted (pid : BitVec 32) (v : UInt64)

def lastEver (pid : BitVec 32) : List Seen → Option UInt64
  | [] => none
  | .registered _ :: log => lastEver pid log
  | .emitted p v :: log => if p = pid then some v else lastEver pid log

def lastSince (driverId : String) (pid : BitVec 32) : List Seen → Option UInt64
  | [] => none
  | .registered d :: log => if d = driverId then none else lastSince driverId pid log
  | .emitted p v :: log => if p = pid then some v else lastSince driverId pid log

def dueEvents (log : List Seen) : List (String × BitVec 32 × UInt64) → List (BitVec 32 × UInt64)
  | [] => []
  | (d, pid, v) :: rest =>
    if lastSince d pid log = some v then dueEvents log rest
    else (pid, v) :: dueEvents (.emitted pid v :: log) rest

def RepeatsOld (log : List Seen) (d : String) (pid : BitVec 32) (v : UInt64) : Prop :=
  lastEver pid log = some v ∧ lastSince d pid log = none

def NoRepeats (log : List Seen) : List (String × BitVec 32 × UInt64) → Prop
  | [] => True
  | (d, pid, v) :: rest =>
    ¬RepeatsOld log d pid v ∧
      NoRepeats (if lastSince d pid log = some v then log else .emitted pid v :: log) rest

section History

variable {log : List Seen} {d : String} {pid : BitVec 32}

theorem lastSince_eq_or (log : List Seen) (d : String) (pid : BitVec 32) :
    lastSince d pid log = none ∨ lastSince d pid log = lastEver pid log := by
  induction log with
  | nil => exact .inl rfl
  | cons entry log ih =>
    cases entry with
    | registered d' =>
      unfold lastSince lastEver
      split_ifs
      · exact .inl rfl
      · exact ih
    | emitted p v =>
      unfold lastSince lastEver
      split_ifs
      · exact .inr rfl
      · exact ih

end History

section Emission

variable {s : CovInner} {log : List Seen}

def Remembers (s : CovInner) (log : List Seen) : Prop :=
  ∀ pid, s.lastEmitted.get pid = lastEver pid log

def eventValue (e : CovEvent) : BitVec 32 × UInt64 := (e.pointId, e.value)

def seenEvents (log : List Seen) : List CovEvent → List Seen
  | [] => log
  | e :: events => seenEvents (.emitted e.pointId e.value :: log) events

theorem remembers_insert (h : Remembers s log) (pid : BitVec 32) (v : UInt64) :
    Remembers { s with lastEmitted := s.lastEmitted.insert pid v } (.emitted pid v :: log) := by
  intro p
  change (s.lastEmitted.insert pid v).get p = if pid = p then some v else lastEver p log
  rw [Table.get_insert, h p]
  simp only [eq_comm]

theorem remembers_emitChanges (h : Remembers s log) (now : ℕ) (rest : List (BitVec 32 × UInt64)) :
    Remembers (CovInner.emitChanges now s rest).1
      (seenEvents log (CovInner.emitChanges now s rest).2) := by
  induction rest generalizing s log with
  | nil => exact h
  | cons reading rest ih =>
    obtain ⟨pid, v⟩ := reading
    unfold CovInner.emitChanges
    split_ifs
    · exact ih h
    · exact ih (remembers_insert h pid v)

/-- The first event of a cycle for a point is not the value remembered for it. -/
theorem emitChanges_ne_remembered (now : ℕ) (rest : List (BitVec 32 × UInt64)) {pid : BitVec 32}
    {v : UInt64} (h : s.lastEmitted.get pid = some v) (values : List (BitVec 32 × UInt64)) :
    (CovInner.emitChanges now s rest).2.map eventValue ≠ (pid, v) :: values := by
  induction rest generalizing s with
  | nil => exact fun heq => nomatch heq
  | cons reading rest ih =>
    obtain ⟨p, w⟩ := reading
    unfold CovInner.emitChanges
    split_ifs with hsame
    · exact ih h
    · intro heq
      obtain ⟨hfirst, -⟩ := List.cons.inj heq
      obtain ⟨rfl, rfl⟩ := Prod.mk.inj hfirst
      exact hsame h

/-- One cycle: what is emitted is what is due exactly if no reading repeats a value from before
    its driver's registration. -/
theorem emitChanges_due_iff (h : Remembers s log) (now : ℕ)
    (rest : List (String × BitVec 32 × UInt64)) :
    (CovInner.emitChanges now s (rest.map Prod.snd)).2.map eventValue = dueEvents log rest ↔
      NoRepeats log rest := by
  induction rest generalizing s log with
  | nil => exact iff_of_true rfl trivial
  | cons reading rest ih =>
    obtain ⟨d, pid, v⟩ := reading
    have hlast := h pid
    have hsince := lastSince_eq_or log d pid
    rw [List.map_cons]
    unfold CovInner.emitChanges dueEvents NoRepeats RepeatsOld
    by_cases hremembered : s.lastEmitted.get pid = some v
    · rw [if_pos hremembered]
      rw [hremembered] at hlast
      obtain hnone | hsame := hsince
      · rw [hnone, if_neg (by simp)]
        refine iff_of_false (emitChanges_ne_remembered now _ hremembered _) ?_
        rintro ⟨hold, -⟩
        exact hold ⟨hlast.symm, rfl⟩
      · rw [hsame, ← hlast, if_pos rfl, if_pos rfl, ih h]
        exact ⟨fun hrest => ⟨fun hold => (nomatch hold.2), hrest⟩, fun hall => hall.2⟩
    · have hnew : lastEver pid log ≠ some v := hlast ▸ hremembered
      have hdue : lastSince d pid log ≠ some v := by
        obtain hnone | hsame := hsince
        · rw [hnone]
          exact fun heq => nomatch heq
        · rw [hsame]
          exact hnew
      rw [if_neg hremembered, if_neg hdue, if_neg hdue]
      change (pid, v) :: (CovInner.emitChanges now _ (rest.map Prod.snd)).2.map eventValue = _ ↔ _
      rw [List.cons_inj_right, ih (remembers_insert h pid v)]
      exact ⟨fun hrest => ⟨fun hold => hnew hold.1, hrest⟩, fun hall => hall.2⟩

end Emission

section Runs

/-- The actor beside what has been seen of it. -/
structure CovWorld where
  actor : CovInner
  log : List Seen

namespace CovWorld

def start : CovWorld := ⟨.new, []⟩

variable (F : Type) [FloatCasts F]

def seenAfter (w : CovWorld) (c : CovCmd) : List Seen :=
  let registered := match c with
    | .other (.register id) =>
      if id ∈ w.actor.inner.drivers then w.log else .registered id :: w.log
    | _ => w.log
  seenEvents registered (w.actor.handle F c).2.1

def step (w : CovWorld) (c : CovCmd) : CovWorld := ⟨(w.actor.handle F c).1, w.seenAfter F c⟩

/-- The events of a command are those due for its readings. -/
def Exact (w : CovWorld) (c : CovCmd) : Prop :=
  (w.actor.handle F c).2.1.map eventValue =
    dueEvents w.log (CovInner.readings (w.actor.handle F c).2.2)

/-- No reading of a command repeats a value from before its driver's registration. -/
def RepeatsNone (w : CovWorld) (c : CovCmd) : Prop :=
  match c with
  | .syncAll pointMap syncCur _ =>
    NoRepeats w.log (CovInner.readings (w.actor.collect pointMap syncCur))
  | _ => True

variable {F} {w : CovWorld}

theorem updateStatus_lastEmitted (s : CovInner) (pid : BitVec 32) (result : ReadResult) :
    (s.updateStatus pid result).lastEmitted = s.lastEmitted := by
  unfold CovInner.updateStatus
  dsimp only
  split_ifs <;> rfl

theorem updated_lastEmitted (results : List (String × BitVec 32 × ReadResult)) (s : CovInner) :
    (results.foldl (fun s (_, pid, result) => s.updateStatus pid result) s).lastEmitted =
      s.lastEmitted := by
  induction results generalizing s with
  | nil => rfl
  | cons entry results ih =>
    rw [List.foldl_cons, ih]
    exact updateStatus_lastEmitted s _ _

theorem remembers_step (h : Remembers w.actor w.log) (c : CovCmd) :
    Remembers (w.step F c).actor (w.step F c).log := by
  cases c with
  | other c =>
    cases c with
    | register id =>
      intro pid
      change w.actor.lastEmitted.get pid = lastEver pid (if _ then _ else _)
      split_ifs
      · exact h pid
      · exact h pid
    | _ => exact h
  | setPointStatus pid status => exact h
  | syncAll pointMap syncCur now =>
    refine remembers_emitChanges (fun pid => ?_) now _
    rw [updated_lastEmitted]
    exact h pid

theorem exact_iff (h : Remembers w.actor w.log) (c : CovCmd) :
    w.Exact F c ↔ w.RepeatsNone c := by
  cases c with
  | other c => exact iff_of_true rfl trivial
  | setPointStatus pid status => exact iff_of_true rfl trivial
  | syncAll pointMap syncCur now =>
    refine emitChanges_due_iff (fun pid => ?_) now _
    rw [updated_lastEmitted]
    exact h pid

end CovWorld

open CovWorld

/-- In every run the events of each cycle are exactly those due exactly if no reading repeats
    a value that was emitted before its driver was registered. -/
theorem cov_exact_iff (F : Type) [FloatCasts F] (cmds : List CovCmd) :
    Runs.Along (step F) (Exact F) start cmds ↔ Runs.Along (step F) RepeatsNone start cmds :=
  Runs.along_congr (step F) (fun _ c h _ => remembers_step h c) (fun _ c h _ => exact_iff h c)
    (fun _ => rfl) (Runs.along_true (step F) start cmds)

/-- A driver that answers 1.0 for the point is removed and registered again; the first value
    read from it is not emitted. -/
theorem reregistered_silent :
    ¬Runs.Along (step ℚ) (Exact ℚ) start
      [.other (.register "ahu"),
        .syncAll [("ahu", [⟨7, "AI:1"⟩])] (fun _ _ => [(7, .ok 0x3FF0000000000000)]) 1,
        .other (.remove "ahu"), .other (.register "ahu"),
        .syncAll [("ahu", [⟨7, "AI:1"⟩])] (fun _ _ => [(7, .ok 0x3FF0000000000000)]) 2] := by
  rintro ⟨-, -, -, -, hlast, -⟩
  have hmissed : ([] : List (BitVec 32 × UInt64)) = [(7, 0x3FF0000000000000)] := hlast
  exact absurd hmissed (by decide)

end Runs

end Sandstar.Drivers
