import Sandstar.Loader
import Sandstar.Interpolation

set_option autoImplicit false

namespace Sandstar.Engine

open Interpolation

section Search

/-- The search ends inside its interval; what it passed on its way was kept low on the left
    and high on the right. -/
theorem binarySearch_spec {F : Type} [FloatOps F] (keepLow : F → Bool) (values : List F)
    (lo hi : ℕ) (h : lo < hi) :
    lo ≤ binarySearch keepLow values lo hi ∧ binarySearch keepLow values lo hi < hi ∧
    (binarySearch keepLow values lo hi = lo ∨
      keepLow (values.getD (binarySearch keepLow values lo hi) (FloatOps.lit 0)) = true) ∧
    (binarySearch keepLow values lo hi + 1 = hi ∨
      keepLow (values.getD (binarySearch keepLow values lo hi + 1) (FloatOps.lit 0)) = false) := by
  fun_induction binarySearch keepLow values lo hi with
  | case1 lo hi hwide mid hkeep ih =>
    obtain ⟨hlow, hhigh, hleft, hright⟩ := ih (by omega)
    refine ⟨by omega, hhigh, Or.inr ?_, hright⟩
    rcases hleft with heq | hleft
    · rw [heq]
      exact hkeep
    · exact hleft
  | case2 lo hi hwide mid hkeep ih =>
    obtain ⟨hlow, hhigh, hleft, hright⟩ := ih (by omega)
    refine ⟨hlow, by omega, hleft, Or.inr ?_⟩
    rcases hright with heq | hright
    · rw [heq]
      exact Bool.eq_false_iff.2 hkeep
    · exact hright
  | case3 lo hi hnarrow => exact ⟨le_rfl, h, Or.inl rfl, Or.inl (by omega)⟩

end Search

section Directions

def TableDirection.sign : TableDirection → ℚ
  | .increasing => 1
  | .decreasing => -1

def TableDirection.Le : TableDirection → ℚ → ℚ → Prop
  | .increasing, x, y => x ≤ y
  | .decreasing, x, y => y ≤ x

instance (d : TableDirection) (x y : ℚ) : Decidable (d.Le x y) :=
  match d with
  | .increasing => inferInstanceAs (Decidable (x ≤ y))
  | .decreasing => inferInstanceAs (Decidable (y ≤ x))

def TableDirection.Lt : TableDirection → ℚ → ℚ → Prop
  | .increasing, x, y => x < y
  | .decreasing, x, y => y < x

theorem le_iff_sign (d : TableDirection) (x y : ℚ) : d.Le x y ↔ d.sign * x ≤ d.sign * y := by
  cases d <;> simp [TableDirection.Le, TableDirection.sign]

theorem lt_iff_sign (d : TableDirection) (x y : ℚ) : d.Lt x y ↔ d.sign * x < d.sign * y := by
  cases d <;> simp [TableDirection.Lt, TableDirection.sign]

theorem le_of_not_le {d : TableDirection} {x y : ℚ} (h : ¬d.Le x y) : d.Le y x := by
  rw [le_iff_sign] at h ⊢
  exact (not_le.1 h).le

theorem sign_ne_zero (d : TableDirection) : d.sign ≠ 0 := by
  cases d <;> simp [TableDirection.sign]

theorem sign_mul_sign (d : TableDirection) (x : ℚ) : d.sign * (d.sign * x) = x := by
  cases d <;> simp [TableDirection.sign]

variable (item : TableItem ℚ)

def TableItem.entry (i : ℕ) : ℚ := item.values.getD i 0

/-- Every entry comes strictly before the later ones, in the direction of the table. -/
def TableItem.StrictlyMonotone : Prop := item.values.Pairwise item.direction.Lt

def TableItem.search (raw : ℚ) : ℕ :=
  match item.direction with
  | .increasing => binarySearchIncreasing item.values raw
  | .decreasing => binarySearchDecreasing item.values raw

variable {item}

theorem rising_entries (h : item.StrictlyMonotone) :
    Rising (fun i => item.direction.sign * item.entry i) (item.values.length - 1) := by
  intro i j hij hj
  have hlength : j < item.values.length := by omega
  have hpair := List.pairwise_iff_getElem.1 h i j (hij.trans hlength) hlength hij
  rw [lt_iff_sign] at hpair
  simp only [TableItem.entry, List.getD_eq_getElem _ _ hlength,
    List.getD_eq_getElem _ _ (hij.trans hlength)]
  exact hpair

theorem search_eq (item : TableItem ℚ) (raw : ℚ) :
    item.search raw = binarySearch (fun v => decide (item.direction.Le v raw)) item.values 0
      (item.values.length - 1) := by
  unfold TableItem.search
  cases item.direction <;> rfl

theorem search_brackets (hlength : 2 ≤ item.values.length) {raw : ℚ}
    (hfirst : ¬item.direction.Le raw (item.entry 0))
    (hlast : ¬item.direction.Le (item.entry (item.values.length - 1)) raw) :
    item.search raw + 1 < item.values.length ∧
    item.direction.Le (item.entry (item.search raw)) raw ∧
    item.direction.Le raw (item.entry (item.search raw + 1)) := by
  have hspec := binarySearch_spec (fun v => decide (item.direction.Le v raw)) item.values 0
    (item.values.length - 1) (by omega)
  rw [← search_eq] at hspec
  obtain ⟨-, hhigh, hleft, hright⟩ := hspec
  refine ⟨by omega, ?_, ?_⟩
  · rcases hleft with heq | hleft
    · rw [heq]
      exact le_of_not_le hfirst
    · exact of_decide_eq_true hleft
  · rcases hright with heq | hright
    · rw [heq]
      exact le_of_not_le hlast
    · exact le_of_not_le (of_decide_eq_false hright)

end Directions

section Lookup

variable {tables : TableStore ℚ} {index : ℕ} {item : TableItem ℚ}

def TableItem.position (item : TableItem ℚ) (raw : ℚ) : ℚ :=
  Interpolation.position (fun i => item.direction.sign * item.entry i) (item.values.length - 1)
    (fun x => item.search (item.direction.sign * x)) (item.direction.sign * raw)

theorem lerp_up (c step f : ℚ) : lerp c (c + step) f = c + f * step := by
  simp only [lerp, FloatOps.lit]
  ring

theorem lerp_down (c step r : ℚ) {r1 r2 : ℚ} (h : r2 - r1 ≠ 0) :
    lerp (c + step) c ((r - r2) / (r1 - r2)) = c + (r - r1) / (r2 - r1) * step := by
  have h' : r1 - r2 ≠ 0 := by
    rw [← neg_sub]
    exact neg_ne_zero.2 h
  have hfrac : (r - r2) / (r1 - r2) = 1 - (r - r1) / (r2 - r1) := by
    field_simp
    ring
  rw [hfrac]
  simp only [lerp, FloatOps.lit]
  ring

theorem lookup_branches (hitem : tables.get index = some item) (hlength : 2 ≤ item.values.length)
    (hstrict : item.StrictlyMonotone) (raw min max : ℚ) :
    tables.lookup index raw min max =
      some (if item.direction.Le raw (item.entry 0) then min
        else if item.direction.Le (item.entry (item.values.length - 1)) raw then max
        else min + (item.search raw + (raw - item.entry (item.search raw)) /
          (item.entry (item.search raw + 1) - item.entry (item.search raw))) *
            ((max - min) / (item.values.length - 1))) := by
  have hshort : ¬item.values.length < 2 := by omega
  have hinner : ¬item.direction.Le raw (item.entry 0) →
      ¬item.direction.Le (item.entry (item.values.length - 1)) raw →
      item.entry (item.search raw + 1) - item.entry (item.search raw) ≠ 0 := by
    intro hfirst hlast
    obtain ⟨hin, -, -⟩ := search_brackets hlength hfirst hlast
    have hlt := rising_entries hstrict (item.search raw) (item.search raw + 1) (Nat.lt_succ_self _)
      (by omega)
    intro hzero
    simp only [sub_eq_zero.1 hzero, lt_self_iff_false] at hlt
  unfold TableStore.lookup
  have hentry : ∀ i, item.values.getD i 0 = item.entry i := fun _ => rfl
  simp only [hitem, if_neg hshort]
  cases hd : item.direction with
  | increasing =>
    have hsearch : binarySearchIncreasing item.values raw = item.search raw := by
      unfold TableItem.search
      rw [hd]
    have hle : ∀ x y : ℚ, FloatOps.le x y = decide (TableDirection.increasing.Le x y) :=
      fun _ _ => rfl
    simp only [hsearch, hle, FloatOps.lit, hentry, decide_eq_true_eq, ofIndex]
    split_ifs with hfirst hlast
    · rfl
    · rfl
    · rw [lerp_up, add_mul, add_assoc]
  | decreasing =>
    have hsearch : binarySearchDecreasing item.values raw = item.search raw := by
      unfold TableItem.search
      rw [hd]
    have hle : ∀ x y : ℚ, FloatOps.le x y = decide (TableDirection.decreasing.Le y x) :=
      fun _ _ => rfl
    rw [hd] at hinner
    simp only [hsearch, hle, FloatOps.lit, hentry, decide_eq_true_eq, ofIndex]
    split_ifs with hfirst hlast
    · rfl
    · rfl
    · rw [lerp_down _ _ _ (hinner hfirst hlast), add_mul, add_assoc]

theorem lookup_eq (hitem : tables.get index = some item) (hlength : 2 ≤ item.values.length)
    (hstrict : item.StrictlyMonotone) (raw min max : ℚ) :
    tables.lookup index raw min max =
      some (min + item.position raw * ((max - min) / (item.values.length - 1))) := by
  have hcast : ((item.values.length - 1 : ℕ) : ℚ) = item.values.length - 1 := by
    rw [Nat.cast_sub (by omega), Nat.cast_one]
  have hwidth : (item.values.length : ℚ) - 1 ≠ 0 := by
    rw [← hcast]
    exact Nat.cast_ne_zero.2 (by omega)
  rw [lookup_branches hitem hlength hstrict]
  unfold TableItem.position Interpolation.position place
  simp only [← le_iff_sign, sign_mul_sign, ← mul_sub, mul_div_mul_left _ _ (sign_ne_zero _)]
  by_cases hfirst : item.direction.Le raw (item.entry 0)
  · rw [if_pos hfirst, if_pos hfirst, zero_mul, add_zero]
  · rw [if_neg hfirst, if_neg hfirst]
    by_cases hlast : item.direction.Le (item.entry (item.values.length - 1)) raw
    · rw [if_pos hlast, if_pos hlast, hcast, mul_div_cancel₀ _ hwidth, add_sub_cancel]
    · rw [if_neg hlast, if_neg hlast]

/-- The values `f` lie on the line through the entries, from `min` to `max`. -/
structure Interpolates (item : TableItem ℚ) (min max : ℚ) (f : ℚ → ℚ) : Prop where
  /-- The search ends between two entries that have an inner value between them. -/
  brackets : ∀ raw, ¬item.direction.Le raw (item.entry 0) →
    ¬item.direction.Le (item.entry (item.values.length - 1)) raw →
    item.search raw + 1 < item.values.length ∧
    item.direction.Le (item.entry (item.search raw)) raw ∧
    item.direction.Le raw (item.entry (item.search raw + 1))
  before : ∀ raw, item.direction.Le raw (item.entry 0) → f raw = min
  after : ∀ raw, item.direction.Le (item.entry (item.values.length - 1)) raw → f raw = max
  range : ∀ raw, f raw ∈ Set.uIcc min max
  monotone : min ≤ max → ∀ x y, item.direction.Le x y → f x ≤ f y
  antitone : max ≤ min → ∀ x y, item.direction.Le x y → f y ≤ f x
  node : ∀ i, i < item.values.length →
    f (item.entry i) = min + i * ((max - min) / (item.values.length - 1))

section Position

variable (hlength : 2 ≤ item.values.length) (hstrict : item.StrictlyMonotone)

include hlength

theorem search_within (x : ℚ) (hfirst : item.direction.sign * item.entry 0 < x)
    (hlast : x < item.direction.sign * item.entry (item.values.length - 1)) :
    item.search (item.direction.sign * x) < item.values.length - 1 ∧
    Within (fun i => item.direction.sign * item.entry i) (item.search (item.direction.sign * x)) x := by
  have hfirst' : ¬item.direction.Le (item.direction.sign * x) (item.entry 0) := by
    rw [le_iff_sign, sign_mul_sign]
    exact not_le.2 hfirst
  have hlast' : ¬item.direction.Le (item.entry (item.values.length - 1))
      (item.direction.sign * x) := by
    rw [le_iff_sign, sign_mul_sign]
    exact not_le.2 hlast
  obtain ⟨hin, hleft, hright⟩ := search_brackets hlength hfirst' hlast'
  rw [le_iff_sign, sign_mul_sign] at hleft hright
  exact ⟨by omega, hleft, hright⟩

include hstrict

theorem last_not_le_first :
    ¬item.direction.Le (item.entry (item.values.length - 1)) (item.entry 0) := by
  rw [le_iff_sign]
  exact not_le.2 (rising_entries hstrict 0 (item.values.length - 1) (by omega) le_rfl)

theorem position_mem_table (raw : ℚ) :
    0 ≤ item.position raw ∧ item.position raw ≤ (item.values.length - 1 : ℕ) :=
  position_mem (rising_entries hstrict) (by omega) (search_within hlength) _

theorem position_le {x y : ℚ} (hxy : item.direction.Le x y) : item.position x ≤ item.position y :=
  position_mono (rising_entries hstrict) (by omega) (search_within hlength)
    ((le_iff_sign _ x y).1 hxy)

theorem position_entry {i : ℕ} (hi : i < item.values.length) :
    item.position (item.entry i) = i :=
  position_node (rising_entries hstrict) (by omega) (search_within hlength) (by omega)

end Position

/-- A strictly monotone table of two entries or more gives a value for every raw one: inside the
    range, monotone in the direction of the table, exact at its entries, and clamped beyond
    them. -/
theorem lookup_interpolates (hitem : tables.get index = some item)
    (hlength : 2 ≤ item.values.length) (hstrict : item.StrictlyMonotone) (min max : ℚ) :
    ∃ f, (∀ raw, tables.lookup index raw min max = some (f raw)) ∧
      Interpolates item min max f := by
  have hcast : ((item.values.length - 1 : ℕ) : ℚ) = item.values.length - 1 := by
    rw [Nat.cast_sub (by omega), Nat.cast_one]
  have hwidth : (0 : ℚ) < item.values.length - 1 := by
    rw [← hcast]
    exact Nat.cast_pos.2 (by omega)
  refine ⟨fun raw => min + item.position raw * ((max - min) / (item.values.length - 1)),
    fun raw => lookup_eq hitem hlength hstrict raw min max, ?_⟩
  have hbranches : ∀ raw, min + item.position raw * ((max - min) / (item.values.length - 1)) = _ :=
    fun raw => Option.some.inj ((lookup_eq hitem hlength hstrict raw min max).symm.trans
      (lookup_branches hitem hlength hstrict raw min max))
  constructor
  · exact fun raw => search_brackets hlength
  · intro raw hbefore
    exact (hbranches raw).trans (if_pos hbefore)
  · intro raw hafter
    have hbefore : ¬item.direction.Le raw (item.entry 0) := by
      intro hbefore
      rw [le_iff_sign] at hafter hbefore
      exact last_not_le_first hlength hstrict ((le_iff_sign _ _ _).2 (hafter.trans hbefore))
    exact (hbranches raw).trans ((if_neg hbefore).trans (if_pos hafter))
  · intro raw
    obtain ⟨hlow, hhigh⟩ := position_mem_table hlength hstrict raw
    rw [hcast] at hhigh
    have hscaled : item.position raw * ((max - min) / (item.values.length - 1)) =
        item.position raw / (item.values.length - 1) * (max - min) := by ring
    have hlow' := div_nonneg hlow hwidth.le
    have hhigh' := (div_le_one hwidth).2 hhigh
    rw [Set.mem_uIcc]
    rcases le_total min max with hrange | hrange
    · exact Or.inl ⟨by nlinarith, by nlinarith⟩
    · exact Or.inr ⟨by nlinarith, by nlinarith⟩
  · intro hrange x y hxy
    have hle := position_le hlength hstrict hxy
    have hstep : 0 ≤ (max - min) / ((item.values.length : ℚ) - 1) :=
      div_nonneg (sub_nonneg.2 hrange) hwidth.le
    have hscaled := mul_le_mul_of_nonneg_right hle hstep
    linarith
  · intro hrange x y hxy
    have hle := position_le hlength hstrict hxy
    have hstep : (max - min) / ((item.values.length : ℚ) - 1) ≤ 0 :=
      div_nonpos_of_nonpos_of_nonneg (sub_nonpos.2 hrange) hwidth.le
    have hscaled := mul_le_mul_of_nonpos_right hle hstep
    linarith
  · intro i hi
    rw [position_entry hlength hstrict hi]

end Lookup

section Added

theorem added_strictlyMonotone {tables tables' : TableStore ℚ} {tag unitType : String}
    {values : List ℚ} {ranges : TableRanges ℚ}
    (hadd : Loader.addWithValues tables tag unitType values ranges = .ok tables')
    (hlength : 2 ≤ values.length)
    (hvalues : values.Pairwise (· < ·) ∨ values.Pairwise fun x y => y < x) :
    ∃ item : TableItem ℚ, tables' = Loader.fillSlot item tables ∧ item.values = values ∧
      item.StrictlyMonotone := by
  have hfirst : values.head? = some values[0] := by
    rw [List.head?_eq_getElem?, List.getElem?_eq_getElem]
  have hlast : values.getLast? = some values[values.length - 1] := by
    rw [List.getLast?_eq_getElem?, List.getElem?_eq_getElem]
  unfold Loader.addWithValues at hadd
  rw [hfirst, hlast] at hadd
  cases hadd
  refine ⟨_, rfl, rfl, ?_⟩
  unfold TableItem.StrictlyMonotone
  rcases hvalues with hvalues | hvalues
  · have hlt := List.pairwise_iff_getElem.1 hvalues 0 (values.length - 1) (by omega) (by omega)
      (by omega)
    have hup : FloatOps.lt values[0] values[values.length - 1] = true := decide_eq_true hlt
    simp only [hup, if_true]
    exact hvalues
  · have hlt := List.pairwise_iff_getElem.1 hvalues 0 (values.length - 1) (by omega) (by omega)
      (by omega)
    have hdown : FloatOps.lt values[0] values[values.length - 1] = false :=
      decide_eq_false (not_lt.2 hlt.le)
    simp only [hdown, Bool.false_eq_true, if_false]
    exact hvalues

def threeEntries : TableItem ℚ where
  tag := "thermistor10K2"
  unitType := "degC"
  values := [30, 10, 0]
  direction := .decreasing
  ranges := ⟨(0, 0), (0, 0), (0, 0)⟩

/-- A decreasing table on the range from 0 to 100, exact at its middle entry. -/
theorem lookup_interpolates_three :
    ∃ f : ℚ → ℚ, (∀ raw, TableStore.lookup [some threeEntries] 0 raw 0 100 = some (f raw)) ∧
      f 10 = 50 ∧ (∀ x y, y ≤ x → f x ≤ f y) ∧ ∀ raw, f raw ∈ Set.uIcc (0 : ℚ) 100 := by
  have hstrict : threeEntries.StrictlyMonotone := by
    norm_num [TableItem.StrictlyMonotone, threeEntries, TableDirection.Lt]
  obtain ⟨f, hf, h⟩ :=
    @lookup_interpolates [some threeEntries] 0 threeEntries rfl (by decide) hstrict 0 100
  refine ⟨f, hf, ?_, h.monotone (by norm_num), h.range⟩
  have hmiddle := h.node 1 (by decide)
  norm_num [TableItem.entry, threeEntries] at hmiddle
  exact hmiddle

end Added

end Sandstar.Engine
