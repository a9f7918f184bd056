import Sandstar.FloatOps
import Sandstar.Runs

set_option autoImplicit false

/-!
# Write priorities

Seventeen write levels of an output channel, level 1 the strongest, with the
active level cached. Translated from `priority.rs`; the arbitration results
compare the cache with the levels themselves.
-/
namespace Sandstar.Engine
open Runs

def maxLevels : ℕ := 17

def maxWhoLen : ℕ := 16

structure WriteLevel (F : Type) where
  value : Option F
  who : String
  duration : F
  expiresAt : Option Instant

def WriteLevel.default (F : Type) [FloatOps F] : WriteLevel F :=
  ⟨none, "", FloatOps.lit 0, none⟩

structure WriteResult (F : Type) where
  effectiveValue : Option F
  effectiveLevel : UInt8

/-- The levels and the cached index of the active one. -/
structure PriorityArray (F : Type) where
  levels : Fin maxLevels → WriteLevel F
  activeLevel : Fin maxLevels

namespace PriorityArray

variable {F : Type}

section Model

def lastLevel : Fin maxLevels := ⟨maxLevels - 1, by decide⟩

def value (p : PriorityArray F) (i : Fin maxLevels) : Option F := (p.levels i).value

def number (i : Fin maxLevels) : UInt8 := UInt8.ofNat (i.val + 1)

def effective (p : PriorityArray F) : Option F × UInt8 :=
  let val := p.value p.activeLevel
  (val, if val.isSome then number p.activeLevel else 0)

def recalculateActive (p : PriorityArray F) : PriorityArray F :=
  match (List.finRange maxLevels).find? (fun i => (p.value i).isSome) with
  | some i => { p with activeLevel := i }
  | none => { p with activeLevel := lastLevel }

def storeLevel (p : PriorityArray F) (level : UInt8) (idx : Fin maxLevels) (entry : WriteLevel F) :
    PriorityArray F × WriteResult F :=
  let q : PriorityArray F := { p with levels := Function.update p.levels idx entry }
  if entry.value.isSome then
    if idx ≤ q.activeLevel then ({ q with activeLevel := idx }, ⟨entry.value, level⟩)
    else (q, ⟨q.value q.activeLevel, number q.activeLevel⟩)
  else
    let q := if idx = q.activeLevel then q.recalculateActive else q
    let eff := q.value q.activeLevel
    (q, ⟨eff, if eff.isSome then number q.activeLevel else 0⟩)

variable [FloatOps F]

def default : PriorityArray F := ⟨fun _ => WriteLevel.default F, lastLevel⟩

def clear (_ : PriorityArray F) : PriorityArray F := ⟨fun _ => WriteLevel.default F, lastLevel⟩

theorem level_pred_lt {level : UInt8} (h : 1 ≤ level.toNat ∧ level.toNat ≤ maxLevels) :
    level.toNat - 1 < maxLevels := by
  have hle := h.2
  omega

/-- `set_level`; `none` where computing the deadline panics, which is before
    the array is touched. -/
def setLevel (p : PriorityArray F) (now : Instant) (level : UInt8) (value : Option F)
    (who : String) (duration : F) : Option (PriorityArray F × WriteResult F) :=
  if h : 1 ≤ level.toNat ∧ level.toNat ≤ maxLevels then
    let idx : Fin maxLevels := ⟨level.toNat - 1, level_pred_lt h⟩
    let who := String.ofList (who.toList.take maxWhoLen)
    if FloatOps.lt (FloatOps.lit 0) duration && value.isSome then
      match FloatOps.deadline now duration with
      | some deadline => some (p.storeLevel level idx ⟨value, who, duration, some deadline⟩)
      | none => none
    else some (p.storeLevel level idx ⟨value, who, duration, none⟩)
  else
    let eff := p.effective
    some (p, ⟨eff.1, eff.2⟩)

def expired (now : Instant) (l : WriteLevel F) : Bool :=
  match l.expiresAt with
  | some deadline => decide (deadline ≤ now) && l.value.isSome
  | none => false

def expireTimedLevels (p : PriorityArray F) (now : Instant) : PriorityArray F × Bool :=
  let q : PriorityArray F :=
    { p with levels := fun i =>
        if expired now (p.levels i) then ⟨none, "", FloatOps.lit 0, none⟩ else p.levels i }
  let anyExpired := (List.finRange maxLevels).any fun i => expired now (p.levels i)
  (if anyExpired then q.recalculateActive else q, anyExpired)

/-- One call on the array, with the clock reading it takes. -/
inductive Op (F : Type)
  | setLevel (now : Instant) (level : UInt8) (value : Option F) (who : String) (duration : F)
  | expireTimedLevels (now : Instant)
  | clear

/-- A panicking `set_level` leaves the array as it was. -/
def step (p : PriorityArray F) : Op F → PriorityArray F
  | .setLevel now level value who duration =>
    match p.setLevel now level value who duration with
    | some (q, _) => q
    | none => p
  | .expireTimedLevels now => (p.expireTimedLevels now).1
  | .clear => p.clear

end Model

section Arbitration

/-- What `effective` is meant to be, read off the levels alone: the value and
    number of the lowest-numbered level that holds one, or nothing. -/
def Arbitrated (p : PriorityArray F) (r : Option F × UInt8) : Prop :=
  (∃ i v, p.value i = some v ∧ (∀ j < i, p.value j = none) ∧ r = (some v, number i)) ∨
    ((∀ i, p.value i = none) ∧ r = (none, 0))

/-- No level above the cached one holds a value, and only the last level may be
    cached while empty. -/
structure Cached (p : PriorityArray F) : Prop where
  above : ∀ j < p.activeLevel, p.value j = none
  empty : p.value p.activeLevel = none → p.activeLevel = lastLevel

theorem le_lastLevel (i : Fin maxLevels) : i ≤ lastLevel := by
  have := i.isLt
  change i.val ≤ maxLevels - 1
  omega

theorem Cached.all_empty {p : PriorityArray F} (h : Cached p)
    (hv : p.value p.activeLevel = none) (i : Fin maxLevels) : p.value i = none := by
  rcases lt_or_eq_of_le (le_lastLevel i) with hi | hi
  · exact h.above i (by rw [h.empty hv]; exact hi)
  · rw [hi, ← h.empty hv]
    exact hv

theorem Cached.arbitrated {p : PriorityArray F} (h : Cached p) : Arbitrated p p.effective := by
  unfold effective
  cases hv : p.value p.activeLevel with
  | none => exact Or.inr ⟨h.all_empty hv, rfl⟩
  | some v => exact Or.inl ⟨p.activeLevel, v, hv, h.above, rfl⟩

theorem recalculateActive_cached (p : PriorityArray F) : Cached p.recalculateActive := by
  unfold recalculateActive
  cases hf : (List.finRange maxLevels).find? (fun i => (p.value i).isSome) with
  | none =>
    refine ⟨fun j _ => ?_, fun _ => rfl⟩
    have hj := List.find?_eq_none.1 hf j (List.mem_finRange j)
    exact Option.not_isSome_iff_eq_none.1 hj
  | some i =>
    obtain ⟨hi, k, hk, rfl, hlt⟩ := List.find?_eq_some_iff_getElem.1 hf
    have hval : ((List.finRange maxLevels)[k]).val = k := by simp
    refine ⟨fun j hj => ?_, fun hn => ?_⟩
    · have hjk : j.val < k := by
        change j.val < ((List.finRange maxLevels)[k]).val at hj
        rwa [hval] at hj
      have hnone : ¬ (p.value (List.finRange maxLevels)[j.val]).isSome := by
        simpa using hlt j.val hjk
      rw [Option.not_isSome_iff_eq_none, List.getElem_finRange] at hnone
      exact hnone
    · change p.value (List.finRange maxLevels)[k] = none at hn
      rw [hn] at hi
      cases hi

theorem value_update (p : PriorityArray F) (a i : Fin maxLevels) (idx : Fin maxLevels)
    (entry : WriteLevel F) :
    value ⟨Function.update p.levels idx entry, a⟩ i = if i = idx then entry.value else p.value i := by
  unfold value
  by_cases hi : i = idx
  · subst i
    simp
  · simp [hi]

theorem storeLevel_spec {p : PriorityArray F} (h : Cached p) {level : UInt8} {idx : Fin maxLevels}
    (hl : level = number idx) (entry : WriteLevel F) :
    Cached (p.storeLevel level idx entry).1 ∧
      (p.storeLevel level idx entry).2 =
        ⟨(p.storeLevel level idx entry).1.effective.1,
          (p.storeLevel level idx entry).1.effective.2⟩ := by
  unfold storeLevel
  cases hv : entry.value with
  | none =>
    simp only [Option.isSome_none, Bool.false_eq_true, if_false]
    refine ⟨?_, rfl⟩
    by_cases hidx : idx = p.activeLevel
    · rw [if_pos hidx]
      exact recalculateActive_cached _
    · rw [if_neg hidx]
      refine ⟨fun j hj => ?_, fun hn => ?_⟩
      · rw [value_update]
        split_ifs with hji
        · exact hv
        · exact h.above j hj
      · rw [value_update, if_neg (Ne.symm hidx)] at hn
        exact h.empty hn
  | some v =>
    simp only [Option.isSome_some, if_true]
    by_cases hle : idx ≤ p.activeLevel
    · rw [if_pos hle]
      have hidx : value ⟨Function.update p.levels idx entry, idx⟩ idx = some v := by
        rw [value_update, if_pos rfl, hv]
      refine ⟨⟨fun j hj => ?_, fun hn => ?_⟩, ?_⟩
      · rw [value_update, if_neg (ne_of_lt hj)]
        exact h.above j (lt_of_lt_of_le hj hle)
      · rw [hidx] at hn
        cases hn
      · simp only [effective, hidx, hl]
        rfl
    · rw [if_neg hle]
      have hact : p.activeLevel ≠ idx := fun he => hle (le_of_eq he.symm)
      have hsome : p.value p.activeLevel ≠ none := by
        intro hn
        exact hle (h.empty hn ▸ le_lastLevel idx)
      have hq : value ⟨Function.update p.levels idx entry, p.activeLevel⟩ p.activeLevel =
          p.value p.activeLevel := by
        rw [value_update, if_neg hact]
      refine ⟨⟨fun j hj => ?_, fun hn => ?_⟩, ?_⟩
      · have hji : j ≠ idx := fun he => hle (le_of_lt (he ▸ hj))
        rw [value_update, if_neg hji]
        exact h.above j hj
      · rw [hq] at hn
        exact absurd hn hsome
      · simp only [effective, hq, Option.isSome_iff_ne_none.2 hsome, if_true]

variable [FloatOps F]

theorem default_cached : Cached (default : PriorityArray F) := by
  refine ⟨fun j _ => rfl, fun _ => rfl⟩

theorem number_pred {level : UInt8} (hpos : 1 ≤ level.toNat) (hmax : level.toNat ≤ maxLevels) :
    level = number ⟨level.toNat - 1, by omega⟩ := by
  unfold number
  rw [Nat.sub_add_cancel hpos, UInt8.ofNat_toNat]

theorem setLevel_spec {p q : PriorityArray F} (h : Cached p) {now : Instant} {level : UInt8}
    {value : Option F} {who : String} {duration : F} {r : WriteResult F}
    (hs : p.setLevel now level value who duration = some (q, r)) :
    Cached q ∧ r = ⟨q.effective.1, q.effective.2⟩ := by
  unfold setLevel at hs
  split_ifs at hs with hlevel htimed
  · have hnum := number_pred hlevel.1 hlevel.2
    cases hd : FloatOps.deadline now duration with
    | none =>
      rw [hd] at hs
      cases hs
    | some deadline =>
      rw [hd] at hs
      have hstore := storeLevel_spec h hnum
        ⟨value, String.ofList (who.toList.take maxWhoLen), duration, some deadline⟩
      rw [Option.some.inj hs] at hstore
      exact hstore
  · have hnum := number_pred hlevel.1 hlevel.2
    have hstore := storeLevel_spec h hnum
      ⟨value, String.ofList (who.toList.take maxWhoLen), duration, none⟩
    rw [Option.some.inj hs] at hstore
    exact hstore
  · cases hs
    exact ⟨h, rfl⟩

theorem expireTimedLevels_cached {p : PriorityArray F} (h : Cached p) (now : Instant) :
    Cached (p.expireTimedLevels now).1 := by
  unfold expireTimedLevels
  cases hany : (List.finRange maxLevels).any fun i => expired now (p.levels i) with
  | true => exact recalculateActive_cached _
  | false =>
    -- nothing expired, so the levels are what they were
    have hlevels : (fun i => if expired now (p.levels i) then
        (⟨none, "", FloatOps.lit 0, none⟩ : WriteLevel F) else p.levels i) = p.levels := by
      funext i
      rw [if_neg (List.any_eq_false.1 hany i (List.mem_finRange i))]
    simp only [hlevels, Bool.false_eq_true, if_false]
    exact h

theorem step_cached {p : PriorityArray F} (h : Cached p) (op : Op F) : Cached (p.step op) := by
  cases op with
  | setLevel now level value who duration =>
    cases hs : p.setLevel now level value who duration with
    | none =>
      simp only [step, hs]
      exact h
    | some qr =>
      simp only [step, hs]
      exact (setLevel_spec h hs).1
  | expireTimedLevels now => exact expireTimedLevels_cached h now
  | clear => exact default_cached

/-- In every state a history reaches, `effective` arbitrates, and the result of
    any further write is the effective value of the array it leaves. -/
theorem effective_arbitrates (ops : List (Op F)) :
    ∀ p ∈ states step (default : PriorityArray F) ops,
      Arbitrated p p.effective ∧
        ∀ now level value who duration q r,
          p.setLevel now level value who duration = some (q, r) →
            (r.effectiveValue, r.effectiveLevel) = q.effective := by
  intro p hp
  have hcached : Cached p :=
    states_always (I := Cached) step (fun p op h => step_cached h op) default_cached ops p hp
  refine ⟨hcached.arbitrated, ?_⟩
  intro now level value who duration q r hs
  rw [(setLevel_spec hcached hs).2]

/-- Level 8 is written, level 3 over it for one second, and the override lapses. -/
theorem effective_arbitrates_override :
    (run step (default : PriorityArray ℚ)
      [.setLevel 0 8 (some 20) "pid" 0, .setLevel 0 3 (some 50) "user" 1,
        .expireTimedLevels 1000000000]).effective = (some 20, 8) ∧
      Arbitrated (run step (default : PriorityArray ℚ)
        [.setLevel 0 8 (some 20) "pid" 0, .setLevel 0 3 (some 50) "user" 1,
          .expireTimedLevels 1000000000]) (some 20, 8) := by
  have hrun : (run step (default : PriorityArray ℚ)
      [.setLevel 0 8 (some 20) "pid" 0, .setLevel 0 3 (some 50) "user" 1,
        .expireTimedLevels 1000000000]).effective = (some 20, 8) := by decide +kernel
  refine ⟨hrun, ?_⟩
  rw [← hrun]
  exact (effective_arbitrates _ _ (run_mem_states step _ _)).1

end Arbitration
end PriorityArray
end Sandstar.Engine
