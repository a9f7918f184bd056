import Mathlib

set_option autoImplicit false

/-!
# The Gregorian calendar

Dates follow one another by the rule for months and leap years, carried back before the
calendar was introduced. The days are numbered from the first of March of the year 0, so that
a leap day is the last of its year: years are counted in eras of 400, months from March.
-/
namespace Sandstar.Calendar

structure Date where
  year : ℕ
  month : ℕ
  day : ℕ
deriving DecidableEq

def IsLeap (year : ℕ) : Prop := year % 4 = 0 ∧ (year % 100 ≠ 0 ∨ year % 400 = 0)

instance (year : ℕ) : Decidable (IsLeap year) :=
  inferInstanceAs (Decidable (year % 4 = 0 ∧ (year % 100 ≠ 0 ∨ year % 400 = 0)))

def monthLength (year month : ℕ) : ℕ :=
  if month = 2 then if IsLeap year then 29 else 28
  else if month = 4 ∨ month = 6 ∨ month = 9 ∨ month = 11 then 30
  else 31

namespace Date

structure Valid (date : Date) : Prop where
  year : 1 ≤ date.year
  month : 1 ≤ date.month ∧ date.month ≤ 12
  day : 1 ≤ date.day ∧ date.day ≤ monthLength date.year date.month

/-- The day after. -/
def next (date : Date) : Date :=
  if date.day < monthLength date.year date.month then ⟨date.year, date.month, date.day + 1⟩
  else if date.month < 12 then ⟨date.year, date.month + 1, 1⟩
  else ⟨date.year + 1, 1, 1⟩

def marchYear (date : Date) : ℕ := if date.month ≤ 2 then date.year - 1 else date.year

def marchMonth (date : Date) : ℕ := if date.month ≤ 2 then date.month + 9 else date.month - 3

end Date

def monthStart (month : ℕ) : ℕ := (153 * month + 2) / 5

def yearStart (year : ℕ) : ℕ := 365 * year + year / 4 - year / 100 + year / 400

def dayOfYear (date : Date) : ℕ := monthStart date.marchMonth + (date.day - 1)

def dayNumber (date : Date) : ℕ := yearStart date.marchYear + dayOfYear date

def yearOfEra (doe : ℕ) : ℕ := (doe - doe / 1460 + doe / 36524 - doe / 146096) / 365

def ofDayOfYear (year doy : ℕ) : Date :=
  let mp := (5 * doy + 2) / 153
  let month := if mp < 10 then mp + 3 else mp - 9
  ⟨if month ≤ 2 then year + 1 else year, month, doy - monthStart mp + 1⟩

def ofDayNumber (z : ℕ) : Date :=
  let era := z / 146097
  let doe := z - era * 146097
  let yoe := yearOfEra doe
  ofDayOfYear (yoe + era * 400) (doe - (365 * yoe + yoe / 4 - yoe / 100))

section Years

variable {c q s doy doe t yoe : ℕ}

theorem digits_of_year (h : yoe < 400) :
    ∃ c q s, c < 4 ∧ q < 25 ∧ s < 4 ∧ yoe = 100 * c + 4 * q + s := by
  refine ⟨yoe / 100, yoe % 100 / 4, yoe % 4, ?_, ?_, ?_, ?_⟩ <;> omega

theorem day_of_digits (hq : q < 25) (hs : s < 4) (hyoe : yoe = 100 * c + 4 * q + s)
    (hdoe : doe = 365 * yoe + yoe / 4 - yoe / 100 + doy) :
    doe = 36524 * c + 1461 * q + 365 * s + doy := by
  have hfour : yoe / 4 = 25 * c + q := by omega
  have hhundred : yoe / 100 = c := by omega
  rw [hdoe, hfour, hhundred, hyoe]
  omega

theorem century_of_day (hc : c < 4) (hq : q < 25) (hs : s < 4) (hdoy : doy ≤ 365)
    (hleap : doy = 365 → s = 3 ∧ (q < 24 ∨ c = 3))
    (hdoe : doe = 36524 * c + (1461 * q + 365 * s + doy)) :
    doe / 36524 = c + doe / 146096 := by
  obtain hshort | hlast : 1461 * q + 365 * s + doy < 36524 ∨ doe = 146096 := by omega
  · have hfirst : doe / 36524 = c := by
      rw [hdoe, Nat.mul_add_div (by decide), Nat.div_eq_of_lt hshort, add_zero]
    have hzero : doe / 146096 = 0 := Nat.div_eq_of_lt (by omega)
    rw [hfirst, hzero, add_zero]
  -- the leap day that ends the era
  · have hthree : c = 3 := by omega
    rw [hlast, hthree]

theorem fourYears_of_day (hdoe : doe = 36524 * c + 1461 * q + 365 * s + doy) :
    doe / 1460 = 25 * c + q + (24 * c + q + 365 * s + doy) / 1460 := by
  omega

theorem surplus_of_day (hc : c < 4) (hq : q < 25) (hs : s < 4) (hdoy : doy ≤ 365)
    (hleap : doy = 365 → s = 3) (ht : t = (24 * c + q + 365 * s + doy) / 1460) :
    t ≤ doy ∧ doy < 365 + t := by
  subst ht
  omega

theorem yearOfEra_of_parts (hle : t ≤ doy) (hlt : doy < 365 + t)
    (hdoe : doe = 36524 * c + 1461 * q + 365 * s + doy) (hquad : doe / 1460 = 25 * c + q + t)
    (hcentury : doe / 36524 = c + doe / 146096) : yearOfEra doe = 100 * c + 4 * q + s := by
  have hsum : doe - (25 * c + q + t) + (c + doe / 146096) - doe / 146096 =
      365 * (100 * c + 4 * q + s) + (doy - t) := by
    omega
  unfold yearOfEra
  rw [hcentury, hquad, hsum, Nat.mul_add_div (by decide), Nat.div_eq_of_lt (by omega), add_zero]

theorem yearOfEra_eq (hyoe : yoe < 400) (hdoy : doy ≤ 365) (hleap : doy = 365 → IsLeap (yoe + 1))
    (hdoe : doe = 365 * yoe + yoe / 4 - yoe / 100 + doy) : yearOfEra doe = yoe := by
  obtain ⟨c, q, s, hc, hq, hs, hdigits⟩ := digits_of_year hyoe
  have hday := day_of_digits hq hs hdigits hdoe
  have hlast : doy = 365 → s = 3 ∧ (q < 24 ∨ c = 3) := by
    intro h
    obtain ⟨hfour, hcentury⟩ := hleap h
    omega
  obtain ⟨hle, hlt⟩ := surplus_of_day hc hq hs hdoy (fun h => (hlast h).1) rfl
  rw [yearOfEra_of_parts hle hlt hday (fourYears_of_day hday)
    (century_of_day hc hq hs hdoy hlast (by omega)), hdigits]

theorem day_lt_era (hyoe : yoe < 400) (hdoy : doy ≤ 365) :
    365 * yoe + yoe / 4 - yoe / 100 + doy < 146097 := by
  omega

end Years

section Dates

variable {date : Date} {mp d : ℕ}

theorem month_of_day (h : d < monthStart (mp + 1) - monthStart mp) :
    (5 * (monthStart mp + d) + 2) / 153 = mp := by
  unfold monthStart at *
  omega

theorem monthLength_pos (year month : ℕ) : 28 ≤ monthLength year month := by
  unfold monthLength
  split_ifs <;> decide

theorem monthLength_le_31 (year month : ℕ) : monthLength year month ≤ 31 := by
  unfold monthLength
  split_ifs <;> decide

theorem monthLength_eq (hmonth : 1 ≤ date.month ∧ date.month ≤ 12) (hfeb : date.month ≠ 2) :
    monthStart date.marchMonth + monthLength date.year date.month =
      monthStart (date.marchMonth + 1) := by
  obtain ⟨year, month, day⟩ := date
  unfold monthLength monthStart Date.marchMonth
  dsimp only at hmonth hfeb ⊢
  obtain ⟨hpos, hle⟩ := hmonth
  interval_cases month <;> simp at hfeb ⊢

theorem monthLength_feb (year : ℕ) : monthLength year 2 = if IsLeap year then 29 else 28 := rfl

theorem monthLength_le (hmonth : 1 ≤ date.month ∧ date.month ≤ 12) :
    monthStart date.marchMonth + monthLength date.year date.month ≤
      monthStart (date.marchMonth + 1) := by
  by_cases hfeb : date.month = 2
  · have hlast : date.marchMonth = 11 := by
      unfold Date.marchMonth
      rw [hfeb]
      rfl
    have hstart : monthStart 11 = 337 ∧ monthStart (11 + 1) = 367 := ⟨rfl, rfl⟩
    have hlength := monthLength_feb date.year
    rw [hlast, hfeb, hlength]
    split_ifs <;> omega
  · exact (monthLength_eq hmonth hfeb).le

theorem marchYear_succ_of_month (hyear : 1 ≤ date.year) (h : date.month ≤ 2) :
    date.marchYear + 1 = date.year := by
  unfold Date.marchYear
  rw [if_pos h]
  omega

theorem dayOfYear_le (h : date.Valid) :
    dayOfYear date ≤ 365 ∧ (dayOfYear date = 365 → IsLeap (date.marchYear + 1)) := by
  have hday := h.day
  unfold dayOfYear
  by_cases hfeb : date.month = 2
  · have hlast : date.marchMonth = 11 := by
      unfold Date.marchMonth
      rw [hfeb]
      rfl
    have hstart : monthStart 11 = 337 := rfl
    rw [hfeb, monthLength_feb] at hday
    rw [hlast, marchYear_succ_of_month h.year hfeb.le]
    split_ifs at hday with hleap
    · exact ⟨by omega, fun _ => hleap⟩
    · exact ⟨by omega, fun h365 => by omega⟩
  · have hlength := monthLength_eq h.month hfeb
    have hbefore : date.marchMonth + 1 ≤ 11 := by
      unfold Date.marchMonth
      have hmonth := h.month
      split_ifs <;> omega
    have hstart : monthStart (date.marchMonth + 1) ≤ 337 := by
      unfold monthStart
      omega
    exact ⟨by omega, fun h365 => by omega⟩

theorem month_of_dayOfYear (h : date.Valid) : (5 * dayOfYear date + 2) / 153 = date.marchMonth := by
  have hday := h.day
  have hle := monthLength_le h.month
  exact month_of_day (by omega)

theorem month_eq (h : date.Valid) :
    (if date.marchMonth < 10 then date.marchMonth + 3 else date.marchMonth - 9) = date.month := by
  have hrange := h.month
  unfold Date.marchMonth
  split_ifs <;> omega

theorem year_eq (h : date.Valid) :
    (if date.month ≤ 2 then date.marchYear + 1 else date.marchYear) = date.year := by
  split_ifs with hlate
  · exact marchYear_succ_of_month h.year hlate
  · exact if_neg hlate

theorem day_eq (h : date.Valid) :
    dayOfYear date - monthStart date.marchMonth + 1 = date.day := by
  have hday := h.day
  unfold dayOfYear
  omega

theorem ofDayOfYear_eq (h : date.Valid) : ofDayOfYear date.marchYear (dayOfYear date) = date := by
  unfold ofDayOfYear
  dsimp only
  rw [month_of_dayOfYear h, month_eq h, year_eq h, day_eq h]

theorem yearStart_era (era yoe : ℕ) (hyoe : yoe < 400) :
    yearStart (yoe + era * 400) = era * 146097 + (365 * yoe + yoe / 4 - yoe / 100) := by
  unfold yearStart
  omega

/-- How the number of a date falls apart. -/
structure Parts (date : Date) (era yoe : ℕ) : Prop where
  yoe_lt : yoe < 400
  year : date.marchYear = yoe + era * 400
  era_eq : dayNumber date / 146097 = era
  day : dayNumber date - era * 146097 = 365 * yoe + yoe / 4 - yoe / 100 + dayOfYear date
  yoe_eq : yearOfEra (365 * yoe + yoe / 4 - yoe / 100 + dayOfYear date) = yoe

theorem exists_parts (h : date.Valid) : ∃ era yoe, Parts date era yoe := by
  obtain ⟨era, yoe, hyoe, hsplit⟩ : ∃ era yoe, yoe < 400 ∧ date.marchYear = yoe + era * 400 :=
    ⟨date.marchYear / 400, date.marchYear % 400, by omega, by omega⟩
  obtain ⟨hdoy, hleap⟩ := dayOfYear_le h
  have hleapEra : dayOfYear date = 365 → IsLeap (yoe + 1) := by
    intro h365
    have hyear := hleap h365
    unfold IsLeap at hyear ⊢
    omega
  have hlt := day_lt_era hyoe hdoy
  have hnumber : dayNumber date =
      era * 146097 + (365 * yoe + yoe / 4 - yoe / 100 + dayOfYear date) := by
    unfold dayNumber
    rw [hsplit, yearStart_era era yoe hyoe]
    omega
  refine ⟨era, yoe, hyoe, hsplit, ?_, by omega, yearOfEra_eq hyoe hdoy hleapEra rfl⟩
  rw [hnumber, mul_comm, Nat.mul_add_div (by decide), Nat.div_eq_of_lt hlt, add_zero]

theorem ofDayNumber_dayNumber (h : date.Valid) : ofDayNumber (dayNumber date) = date := by
  obtain ⟨era, yoe, hparts⟩ := exists_parts h
  unfold ofDayNumber
  dsimp only
  rw [hparts.era_eq, hparts.day, hparts.yoe_eq, Nat.add_sub_cancel_left, ← hparts.year]
  exact ofDayOfYear_eq h

theorem yearStart_succ (year : ℕ) :
    yearStart (year + 1) = yearStart year + if IsLeap (year + 1) then 366 else 365 := by
  have hcentury : (year + 1) % 100 = 0 → (year + 1) % 4 = 0 := by omega
  have hera : (year + 1) % 400 = 0 → (year + 1) % 100 = 0 := by omega
  have hle : year / 100 ≤ year := Nat.div_le_self _ _
  unfold yearStart IsLeap
  simp only [Nat.succ_div, Nat.dvd_iff_mod_eq_zero]
  generalize year / 4 = a, year / 100 = b, year / 400 = c at *
  by_cases hfour : (year + 1) % 4 = 0
  · by_cases hhundred : (year + 1) % 100 = 0
    · by_cases hfourHundred : (year + 1) % 400 = 0
      · simp only [hfour, hhundred, hfourHundred, if_true, ne_eq, not_true, false_or, and_self]
        omega
      · simp only [hfour, hhundred, hfourHundred, if_true, if_false, ne_eq, not_true, or_self,
          and_false]
        omega
    · have hfourHundred : (year + 1) % 400 ≠ 0 := mt hera hhundred
      simp only [hfour, hhundred, hfourHundred, if_true, if_false, ne_eq, not_false_iff, true_or,
        and_self]
      omega
  · have hhundred : (year + 1) % 100 ≠ 0 := mt hcentury hfour
    have hfourHundred : (year + 1) % 400 ≠ 0 := mt hera hhundred
    simp only [hfour, hhundred, hfourHundred, if_false, false_and]
    omega

theorem valid_next (h : date.Valid) : date.next.Valid := by
  have hmonth := h.month
  unfold Date.next
  split_ifs with hday hlast
  · exact ⟨h.year, hmonth, by simp, hday⟩
  · exact ⟨h.year, ⟨by simp, hlast⟩, le_rfl, (by decide : 1 ≤ 28).trans (monthLength_pos _ _)⟩
  · exact ⟨by simp, by simp, le_rfl, (by decide : 1 ≤ 28).trans (monthLength_pos _ _)⟩

/-- The day after the last of a month is the first of the next one. -/
theorem dayNumber_month_end (h : date.Valid) (hend : date.day = monthLength date.year date.month)
    (hlast : date.month < 12) :
    dayNumber ⟨date.year, date.month + 1, 1⟩ = dayNumber date + 1 := by
  have hmonth := h.month
  have hday := h.day
  by_cases hfeb : date.month = 2
  · have hyear := marchYear_succ_of_month h.year hfeb.le
    have hmarch : (⟨date.year, date.month + 1, 1⟩ : Date).marchYear = date.marchYear + 1 := by
      rw [hyear]
      exact if_neg (by change ¬date.month + 1 ≤ 2; omega)
    have hfirst : dayOfYear ⟨date.year, date.month + 1, 1⟩ = 0 := by
      simp [dayOfYear, Date.marchMonth, monthStart, hfeb]
    have hbefore : dayOfYear date = 337 + (date.day - 1) := by
      unfold dayOfYear Date.marchMonth
      rw [hfeb]
      rfl
    have hlength := yearStart_succ date.marchYear
    rw [hfeb, monthLength_feb] at hend
    rw [hyear] at hlength
    unfold dayNumber
    rw [hmarch, hfirst, hbefore, hyear]
    split_ifs at hlength hend <;> omega
  · have hyear : (⟨date.year, date.month + 1, 1⟩ : Date).marchYear = date.marchYear := by
      unfold Date.marchYear
      dsimp only
      split_ifs <;> omega
    have hnext : (⟨date.year, date.month + 1, 1⟩ : Date).marchMonth = date.marchMonth + 1 := by
      unfold Date.marchMonth
      dsimp only
      split_ifs <;> omega
    have hlength := monthLength_eq hmonth hfeb
    unfold dayNumber dayOfYear
    rw [hyear, hnext]
    dsimp only
    omega

theorem dayNumber_year_end (hend : date.day = 31) (hlast : date.month = 12) :
    dayNumber ⟨date.year + 1, 1, 1⟩ = dayNumber date + 1 := by
  obtain ⟨year, month, day⟩ := date
  subst hend hlast
  simp [dayNumber, dayOfYear, Date.marchYear, Date.marchMonth, monthStart]

theorem dayNumber_next (h : date.Valid) : dayNumber date.next = dayNumber date + 1 := by
  have hday := h.day
  have hmonth := h.month
  unfold Date.next
  split_ifs with hbefore hlast
  · have hsame : dayOfYear ⟨date.year, date.month, date.day + 1⟩ = dayOfYear date + 1 := by
      unfold dayOfYear
      change monthStart date.marchMonth + _ = _
      dsimp only
      omega
    unfold dayNumber
    rw [hsame]
    rfl
  · exact dayNumber_month_end h (by omega) hlast
  · have htwelve : date.month = 12 := by omega
    have hlength : monthLength date.year 12 = 31 := rfl
    rw [htwelve, hlength] at hday hbefore
    exact dayNumber_year_end (by omega) htwelve

end Dates

section Counting

variable {start : Date}

theorem iterate_next (h : start.Valid) (days : ℕ) :
    (Date.next^[days] start).Valid ∧
      dayNumber (Date.next^[days] start) = dayNumber start + days := by
  induction days with
  | zero => exact ⟨h, rfl⟩
  | succ days ih =>
    rw [Function.iterate_succ_apply']
    refine ⟨valid_next ih.1, ?_⟩
    rw [dayNumber_next ih.1, ih.2]
    rfl

theorem ofDayNumber_eq (h : start.Valid) (days : ℕ) :
    ofDayNumber (dayNumber start + days) = Date.next^[days] start := by
  obtain ⟨hvalid, hnumber⟩ := iterate_next h days
  rw [← hnumber]
  exact ofDayNumber_dayNumber hvalid

end Counting

end Sandstar.Calendar
