import Sandstar.Calendar
import Sandstar.Checked
import Sandstar.Decimals
import Sandstar.Trio

set_option autoImplicit false

/-!
# Epoch seconds and dates (rest/handlers.rs, rest/ws.rs, alerts.rs)

Three functions turn epoch seconds into a date with the same arithmetic on `u64`, written out
each time, and one turns a date back. An operation that over- or underflows is a fault.
-/
namespace Sandstar.Epochs
open Machine Trio Zinc

def civilFromDays (days : ℕ) : Except Fault (ℕ × ℕ × ℕ) := do
  let z ← Checked.add days 719468
  let era := z / 146097
  let doe ← Checked.sub z (← Checked.mul era 146097)
  let whole ← Checked.sub (← Checked.add (← Checked.sub doe (doe / 1460)) (doe / 36524)) (doe / 146096)
  let yoe := whole / 365
  let y ← Checked.add yoe (← Checked.mul era 400)
  let before ← Checked.sub (← Checked.add (← Checked.mul 365 yoe) (yoe / 4)) (yoe / 100)
  let doy ← Checked.sub doe before
  let mp := (← Checked.add (← Checked.mul 5 doy) 2) / 153
  let start := (← Checked.add (← Checked.mul 153 mp) 2) / 5
  let d ← Checked.add (← Checked.sub doy start) 1
  let m ← if mp < 10 then Checked.add mp 3 else Checked.sub mp 9
  let y ← if m ≤ 2 then Checked.add y 1 else .ok y
  return (y, m, d)

/-- `days_to_ymd` of alerts.rs. -/
def daysToYmd (days : ℕ) : Except Fault (ℕ × ℕ × ℕ) := civilFromDays days

/-- `epoch_to_parts` of rest/ws.rs. -/
def epochToParts (secs : ℕ) : Except Fault (ℕ × ℕ × ℕ × ℕ × ℕ × ℕ) := do
  let s := secs % 60
  let min := secs / 60 % 60
  let h := secs / 3600 % 24
  let (y, m, d) ← civilFromDays (secs / 86400)
  return (y, m, d, h, min, s)

/-- `{:0width}`. -/
def padded (width n : ℕ) : List Char :=
  List.replicate (width - (Nat.toDigits 10 n).length) '0' ++ Nat.toDigits 10 n

def dateText (y m d : ℕ) : List Char := padded 4 y ++ '-' :: (padded 2 m ++ '-' :: padded 2 d)

/-- `epoch_to_string` of rest/handlers.rs. -/
def epochToString (secs : ℕ) : Except Fault (List Char) := do
  let daySecs := secs % 86400
  let h := daySecs / 3600
  let m := daySecs % 3600 / 60
  let s := daySecs % 60
  let (yr, mo, d) ← civilFromDays (secs / 86400)
  return dateText yr mo d ++
    'T' :: (padded 2 h ++ ':' :: (padded 2 m ++ ':' :: (padded 2 s ++ ['Z'])))

def epochOfMarch (yAdj : ℤ) (mAdj d : ℕ) : Except Fault ℕ := do
  let era := (← if 0 ≤ yAdj then .ok yAdj else Checked.signed (yAdj - 399)).tdiv 400
  let yoe := Checked.toUnsigned (← Checked.signed (yAdj - (← Checked.signed (era * 400))))
  let start := (← Checked.add (← Checked.mul 153 mAdj) 2) / 5
  let doy ← Checked.sub (← Checked.add start d) 1
  let before ← Checked.sub (← Checked.add (← Checked.mul yoe 365) (yoe / 4)) (yoe / 100)
  let doe ← Checked.add before doy
  let whole ← Checked.add (← Checked.mul (Checked.toUnsigned era) 146097) doe
  let days ← Checked.sub whole 719468
  Checked.mul days 86400

def epochOfDate (y : ℤ) (m d : ℕ) : Except Fault ℕ :=
  if m ≤ 2 then Checked.signed (y - 1) >>= fun yAdj => epochOfMarch yAdj (m + 9) d
  else epochOfMarch y (m - 3) d

def dateParts (s : List Char) : Option (ℤ × ℕ × ℕ) :=
  match s.splitOn '-' with
  | [year, month, day] =>
    match parseI64 year, parseUnsigned (2 ^ 32) month, parseUnsigned (2 ^ 32) day with
    | some y, some m, some d =>
      if ¬(1 ≤ m ∧ m ≤ 12) ∨ ¬(1 ≤ d ∧ d ≤ 31) then none else some (y, m, d)
    | _, _, _ => none
  | _ => none

def parseDateToEpoch (s : List Char) : Except Fault (Option ℕ) :=
  match dateParts s with
  | some (y, m, d) => (epochOfDate y m d).map some
  | none => .ok none

section Days

open Calendar

variable {date : Date} {days : ℕ}

theorem civilFromDays_eq (h : date.Valid) (hdays : days + 719468 = dayNumber date)
    (hlt : days < 2 ^ 62) : civilFromDays days = .ok (date.year, date.month, date.day) := by
  obtain ⟨era, yoe, hparts⟩ := exists_parts h
  have hyoe := hparts.yoe_lt
  have hera := hparts.era_eq
  have hdoe := hparts.day
  have hle : era * 146097 ≤ dayNumber date := by
    rw [← hera]
    exact Nat.div_mul_le_self _ _
  have hdoy := (dayOfYear_le h).1
  have hmonth := month_of_dayOfYear h
  have hyear := hparts.year
  unfold civilFromDays
  rw [Checked.add_ok (by omega), hdays, Checked.ok_bind]
  dsimp only
  rw [hera, Checked.mul_ok (by omega), Checked.ok_bind, Checked.sub_ok hle, Checked.ok_bind, hdoe]
  have hwhole := hparts.yoe_eq
  unfold yearOfEra at hwhole
  generalize hdoe' : 365 * yoe + yoe / 4 - yoe / 100 + dayOfYear date = doe at *
  have hdoelt : doe < 146098 := by omega
  rw [Checked.sub_ok (Nat.div_le_self _ _), Checked.ok_bind, Checked.add_ok (by omega),
    Checked.ok_bind, Checked.sub_ok (by omega), Checked.ok_bind, hwhole]
  rw [Checked.mul_ok (by omega), Checked.ok_bind, Checked.add_ok (by omega), Checked.ok_bind,
    Checked.mul_ok (by omega), Checked.ok_bind, Checked.add_ok (by omega), Checked.ok_bind,
    Checked.sub_ok (by omega), Checked.ok_bind, Checked.sub_ok (by omega), Checked.ok_bind,
    ← hdoe', Nat.add_sub_cancel_left]
  rw [Checked.mul_ok (by omega), Checked.ok_bind, Checked.add_ok (by omega), Checked.ok_bind, hmonth]
  have hstart : (153 * date.marchMonth + 2) / 5 = monthStart date.marchMonth := rfl
  have hday := day_eq h
  have hbefore : monthStart date.marchMonth ≤ dayOfYear date := Nat.le_add_right _ _
  have hmonthlt : date.marchMonth < 12 := by
    rw [← hmonth]
    omega
  rw [Checked.mul_ok (by omega), Checked.ok_bind, Checked.add_ok (by omega), Checked.ok_bind, hstart,
    Checked.sub_ok hbefore, Checked.ok_bind, Checked.add_ok (by omega), Checked.ok_bind, hday]
  -- the year goes up in January and February, whichever of the two the month comes from
  have hyearOk : (do
        let y ← if date.month ≤ 2 then Checked.add (yoe + era * 400) 1 else .ok (yoe + era * 400)
        return (y, date.month, date.day)) =
      (.ok (date.year, date.month, date.day) : Except Fault (ℕ × ℕ × ℕ)) := by
    rw [← hyear, ← year_eq h]
    split_ifs
    · rw [Checked.add_ok (by omega)]
      rfl
    · rfl
  have hmonthEq := month_eq h
  by_cases hspring : date.marchMonth < 10
  · rw [if_pos hspring] at hmonthEq ⊢
    rw [Checked.add_ok (by omega), Checked.ok_bind, hmonthEq]
    exact hyearOk
  · rw [if_neg hspring] at hmonthEq ⊢
    rw [Checked.sub_ok (by omega), Checked.ok_bind, hmonthEq]
    exact hyearOk

end Days

end Sandstar.Epochs

/-!
# Epoch seconds of dates

Whatever year, month and day a text names, the seconds are those of the day's number, or an
operation faults: the number is too small or too large. The day's number counts on past the
end of a month that is too short.
-/
namespace Sandstar.Epochs
open Machine Calendar Trio Zinc

section Seconds

variable {y yAdj : ℤ} {m mAdj d e : ℕ}

/-- A year before the era 0 has an era that wraps to a large word. -/
theorem epochOfMarch_neg (hneg : yAdj < 0) : epochOfMarch yAdj mAdj d ≠ .ok e := by
  intro h
  unfold epochOfMarch at h
  rw [if_neg (by omega)] at h
  obtain ⟨shifted, hshifted, h⟩ := bind_ok h
  obtain ⟨hrange, rfl⟩ := Checked.signed_eq_ok.1 hshifted
  have hera : (yAdj - 399).tdiv 400 = -((399 - yAdj) / 400) := by
    rw [← Int.tdiv_eq_ediv_of_nonneg (by omega), ← Int.neg_tdiv, neg_sub]
  have hlarge : 2 ^ 63 ≤ Checked.toUnsigned ((yAdj - 399).tdiv 400) := by
    rw [hera]
    unfold Checked.toUnsigned
    omega
  simp only [Checked.bind_eq_ok, Checked.mul_eq_ok, Checked.add_eq_ok, Checked.sub_eq_ok,
    Checked.signed_eq_ok, and_assoc, exists_and_left, exists_eq_left'] at h
  obtain ⟨-, -, -, -, -, -, -, -, -, -, -, -, hsmall, -⟩ := h
  omega

def SecondsOf (number e : ℕ) : Prop :=
  719468 ≤ number ∧ (number - 719468) * 86400 < 2 ^ 64 ∧ (number - 719468) * 86400 = e

theorem SecondsOf.lt {number e : ℕ} (h : SecondsOf number e) : number < 2 ^ 60 := by
  obtain ⟨-, hhigh, -⟩ := h
  omega

theorem epochOfMarch_nat {year number : ℕ} (hyear : year < 2 ^ 63) (hmonth : mAdj < 12)
    (hday : 1 ≤ d ∧ d ≤ 31) (hnumber : number = yearStart year + (monthStart mAdj + (d - 1))) :
    epochOfMarch year mAdj d = .ok e ↔ SecondsOf number e := by
  have hera : (year : ℤ).tdiv 400 = ((year / 400 : ℕ) : ℤ) := by
    rw [Int.tdiv_eq_ediv_of_nonneg (by omega)]
    rfl
  have hyoe : (year : ℤ) - ((year / 400 : ℕ) : ℤ) * 400 = ((year % 400 : ℕ) : ℤ) := by omega
  have hword : ∀ n : ℕ, n < 2 ^ 63 → Checked.toUnsigned n = n := fun n hn =>
    Checked.toUnsigned_of_nonneg (by omega) (by omega)
  have hstart : (153 * mAdj + 2) / 5 = monthStart mAdj := rfl
  have hyearStart := yearStart_era (year / 400) (year % 400) (by omega)
  rw [Nat.mod_add_div' year 400] at hyearStart
  rw [hyearStart] at hnumber
  unfold epochOfMarch
  rw [if_pos (by omega), Checked.ok_bind]
  simp only [Checked.bind_eq_ok, Checked.mul_eq_ok, Checked.add_eq_ok, Checked.sub_eq_ok,
    Checked.signed_eq_ok, and_assoc, exists_and_left, exists_eq_left', hera, hyoe]
  rw [hword _ (by omega), hword _ (by omega), hstart]
  have hstartLe : monthStart mAdj ≤ 337 := by
    rw [← hstart]
    omega
  have hyoeLt : year % 400 < 400 := Nat.mod_lt _ (by decide)
  have heraLe : year / 400 ≤ (2 ^ 63 - 1) / 400 := Nat.div_le_div_right (by omega)
  generalize year / 400 = era, year % 400 = yoe, monthStart mAdj = start at *
  have hwhole : era * 146097 + (yoe * 365 + yoe / 4 - yoe / 100 + (start + d - 1)) = number := by
    omega
  rw [hwhole]
  constructor
  · rintro ⟨-, -, -, -, -, -, -, -, -, -, -, -, -, -, h⟩
    exact h
  -- a number that is not too large has no word before it that is
  · intro h
    have hfits := h.lt
    refine ⟨?_, ?_, ?_, ?_, ?_, ?_, ?_, ?_, ?_, ?_, ?_, ?_, ?_, ?_, h⟩ <;> omega

theorem dayNumber_of_le {year : ℕ} (hwinter : m ≤ 2) :
    dayNumber ⟨year, m, d⟩ = yearStart (year - 1) + (monthStart (m + 9) + (d - 1)) := by
  simp [dayNumber, dayOfYear, Date.marchYear, Date.marchMonth, hwinter]

theorem dayNumber_of_lt {year : ℕ} (hwinter : ¬m ≤ 2) :
    dayNumber ⟨year, m, d⟩ = yearStart year + (monthStart (m - 3) + (d - 1)) := by
  simp [dayNumber, dayOfYear, Date.marchYear, Date.marchMonth, hwinter]

/-- The first months of the year 0 are no exception: they lie before the epoch. -/
theorem not_secondsOf_zero (hmonth : m ≤ 2) (hday : d ≤ 31) : ¬SecondsOf (dayNumber ⟨0, m, d⟩) e := by
  rintro ⟨hlow, -⟩
  have hzero : yearStart (0 - 1) = 0 := rfl
  have hstart : monthStart (m + 9) ≤ 337 := by
    unfold monthStart
    omega
  rw [dayNumber_of_le hmonth, hzero] at hlow
  omega

theorem epochOfDate_eq_ok (hy : -2 ^ 63 ≤ y ∧ y < 2 ^ 63) (hmonth : 1 ≤ m ∧ m ≤ 12)
    (hday : 1 ≤ d ∧ d ≤ 31) :
    epochOfDate y m d = .ok e ↔ 0 ≤ y ∧ SecondsOf (dayNumber ⟨y.toNat, m, d⟩) e := by
  unfold epochOfDate
  by_cases hwinter : m ≤ 2
  · rw [if_pos hwinter]
    obtain hbefore | hyear : y ≤ 0 ∨ 1 ≤ y := by omega
    · constructor
      · intro h
        obtain ⟨yAdj, hyAdj, h⟩ := bind_ok h
        obtain ⟨-, rfl⟩ := Checked.signed_eq_ok.1 hyAdj
        exact absurd h (epochOfMarch_neg (by omega))
      · rintro ⟨hpos, h⟩
        obtain rfl : y = 0 := by omega
        exact absurd h (not_secondsOf_zero hwinter hday.2)
    · have hcast : y - 1 = ((y.toNat - 1 : ℕ) : ℤ) := by omega
      rw [Checked.signed_ok (by omega) (by omega), Checked.ok_bind, hcast,
        epochOfMarch_nat (by omega) (by omega) hday (dayNumber_of_le hwinter)]
      exact (and_iff_right (by omega)).symm
  · rw [if_neg hwinter]
    obtain hneg | hpos : y < 0 ∨ 0 ≤ y := by omega
    · exact iff_of_false (epochOfMarch_neg hneg) fun h => absurd h.1 (by omega)
    · have hcast : y = (y.toNat : ℤ) := by omega
      have hmarch : epochOfMarch y (m - 3) d = .ok e ↔ SecondsOf (dayNumber ⟨y.toNat, m, d⟩) e := by
        rw [hcast, Int.toNat_natCast]
        exact epochOfMarch_nat (by omega) (by omega) hday (dayNumber_of_lt hwinter)
      rw [hmarch]
      exact (and_iff_right hpos).symm

end Seconds

section Texts

variable {width n y m d : ℕ}

theorem isDigit_of_mem_padded {c : Char} (h : c ∈ padded width n) : c.isDigit = true := by
  rcases List.mem_append.1 h with hzero | hdigit
  · rw [List.eq_of_mem_replicate hzero]
    decide
  · exact Decimals.isDigit_of_mem hdigit

theorem not_mem_padded {c : Char} (h : c.isDigit = false) : c ∉ padded width n := by
  intro hmem
  rw [isDigit_of_mem_padded hmem] at h
  cases h

theorem head_padded {c : Char} (h : c.isDigit = false) : (padded width n).head? ≠ some c :=
  fun hhead => not_mem_padded h (List.mem_of_head? hhead)

theorem padded_isEmpty : (padded width n).isEmpty = false := by
  have hne : padded width n ≠ [] := List.append_ne_nil_of_right_ne_nil _ Nat.toDigits_ne_nil
  exact List.isEmpty_eq_false_iff.2 hne

theorem all_padded : (padded width n).all Char.isDigit = true :=
  List.all_eq_true.2 fun _ => isDigit_of_mem_padded

theorem sum_padded : (padded width n).foldl (fun n c => 10 * n + (c.toNat - 48)) 0 = n := by
  have hzeros : ∀ k : ℕ,
      (List.replicate k '0').foldl (fun n c => 10 * n + (c.toNat - 48)) 0 = 0 := by
    intro k
    induction k with
    | zero => rfl
    | succ k ih => exact ih
  unfold padded
  rw [List.foldl_append, hzeros]
  exact Decimals.sum_digits n

theorem parseUnsigned_padded {limit : ℕ} (h : n < limit) :
    parseUnsigned limit (padded width n) = some n := by
  have hplus : (padded width n).head? ≠ some '+' := head_padded (by decide)
  unfold parseUnsigned
  simp only [if_neg hplus, padded_isEmpty, all_padded, sum_padded, Bool.not_true, Bool.or_self,
    Bool.false_eq_true, if_false, h, if_true]

theorem parseI64_padded (h : n < 2 ^ 63) : parseI64 (padded width n) = some (n : ℤ) := by
  have hminus : (padded width n).head? ≠ some '-' := head_padded (by decide)
  have hplus : (padded width n).head? ≠ some '+' := head_padded (by decide)
  unfold parseI64
  simp only [hminus, hplus, or_self, padded_isEmpty, all_padded, sum_padded, Bool.not_true,
    Bool.or_self, Bool.false_eq_true, if_false, h, if_true]

theorem splitOn_dateText : (dateText y m d).splitOn '-' = [padded 4 y, padded 2 m, padded 2 d] := by
  have hdash : ('-').isDigit = false := by decide
  unfold dateText
  rw [List.splitOn_append_cons_self_of_not_mem (not_mem_padded hdash),
    List.splitOn_append_cons_self_of_not_mem (not_mem_padded hdash),
    List.splitOn_eq_singleton (not_mem_padded hdash)]

theorem dateParts_dateText (hy : y < 2 ^ 63) (hmonth : 1 ≤ m ∧ m ≤ 12) (hday : 1 ≤ d ∧ d ≤ 31) :
    dateParts (dateText y m d) = some ((y : ℤ), m, d) := by
  unfold dateParts
  rw [splitOn_dateText]
  dsimp only
  rw [parseI64_padded hy, parseUnsigned_padded (by omega), parseUnsigned_padded (by omega)]
  exact if_neg (by omega)

end Texts

section Days

def dateOfDay (day : ℕ) : Date := Date.next^[day] ⟨1970, 1, 1⟩

variable {day : ℕ}

theorem epoch_valid : (⟨1970, 1, 1⟩ : Date).Valid where
  year := by decide
  month := by decide
  day := by decide

theorem dateOfDay_valid (day : ℕ) : (dateOfDay day).Valid := (iterate_next epoch_valid day).1

theorem dayNumber_dateOfDay (day : ℕ) : dayNumber (dateOfDay day) = 719468 + day :=
  (iterate_next epoch_valid day).2

theorem year_le_dayNumber {date : Date} : date.marchYear ≤ dayNumber date := by
  unfold dayNumber yearStart
  omega

theorem civilFromDays_day (h : day < 2 ^ 62) :
    civilFromDays day = .ok ((dateOfDay day).year, (dateOfDay day).month, (dateOfDay day).day) :=
  civilFromDays_eq (dateOfDay_valid day) (by rw [dayNumber_dateOfDay, add_comm]) h

theorem epochToParts_day {s : ℕ} (h : day < 2 ^ 62) (hs : s < 86400) :
    epochToParts (day * 86400 + s) =
      .ok ((dateOfDay day).year, (dateOfDay day).month, (dateOfDay day).day, s / 3600, s / 60 % 60,
        s % 60) := by
  have hday : (day * 86400 + s) / 86400 = day := by omega
  have hhour : (day * 86400 + s) / 3600 % 24 = s / 3600 := by omega
  have hminute : (day * 86400 + s) / 60 % 60 = s / 60 % 60 := by omega
  have hsecond : (day * 86400 + s) % 60 = s % 60 := by omega
  unfold epochToParts
  rw [hday, hhour, hminute, hsecond, civilFromDays_day h]
  rfl

theorem epochToString_day {s : ℕ} (h : day < 2 ^ 62) (hs : s < 86400) :
    epochToString (day * 86400 + s) =
      .ok (dateText (dateOfDay day).year (dateOfDay day).month (dateOfDay day).day ++
        'T' :: (padded 2 (s / 3600) ++
          ':' :: (padded 2 (s / 60 % 60) ++ ':' :: (padded 2 (s % 60) ++ ['Z'])))) := by
  have hday : (day * 86400 + s) / 86400 = day := by omega
  have hsecs : (day * 86400 + s) % 86400 = s := by omega
  have hminute : s % 3600 / 60 = s / 60 % 60 := by omega
  unfold epochToString
  rw [hday, hsecs, ← hminute, civilFromDays_day h]
  rfl

/-- The text of a date is read back as the seconds of its day number. -/
theorem parseDateToEpoch_valid {date : Date} (hvalid : date.Valid)
    (hnumber : dayNumber date = 719468 + day) (h : day < 2 ^ 40) :
    parseDateToEpoch (dateText date.year date.month date.day) = .ok (some (day * 86400)) := by
  have hday : 1 ≤ date.day ∧ date.day ≤ 31 :=
    ⟨hvalid.day.1, hvalid.day.2.trans (monthLength_le_31 _ _)⟩
  have hyear : date.year < 2 ^ 63 := by
    have hmarch := @year_le_dayNumber date
    unfold Date.marchYear at hmarch
    split_ifs at hmarch <;> omega
  have hseconds : SecondsOf (dayNumber date) (day * 86400) := by
    rw [hnumber]
    exact ⟨by omega, by omega, by omega⟩
  have hepoch : epochOfDate date.year date.month date.day = .ok (day * 86400) := by
    refine (epochOfDate_eq_ok (by omega) hvalid.month hday).2 ⟨by omega, ?_⟩
    rw [Int.toNat_natCast]
    exact hseconds
  unfold parseDateToEpoch
  rw [dateParts_dateText hyear hvalid.month hday]
  dsimp only
  rw [hepoch]
  rfl

/-- The three conversions give the date that the days lead to, and its text leads back. -/
theorem dates_agree (h : day < 2 ^ 40) :
    daysToYmd day =
        .ok ((dateOfDay day).year, (dateOfDay day).month, (dateOfDay day).day) ∧
      (∀ s < 86400,
        epochToParts (day * 86400 + s) =
          .ok ((dateOfDay day).year, (dateOfDay day).month, (dateOfDay day).day, s / 3600,
            s / 60 % 60, s % 60)) ∧
      (∀ s < 86400,
        epochToString (day * 86400 + s) =
          .ok (dateText (dateOfDay day).year (dateOfDay day).month (dateOfDay day).day ++
            'T' :: (padded 2 (s / 3600) ++
              ':' :: (padded 2 (s / 60 % 60) ++ ':' :: (padded 2 (s % 60) ++ ['Z']))))) ∧
      parseDateToEpoch
          (dateText (dateOfDay day).year (dateOfDay day).month (dateOfDay day).day) =
        .ok (some (day * 86400)) :=
  have hlarge : day < 2 ^ 62 := h.trans (by decide)
  ⟨civilFromDays_day hlarge, fun _ => epochToParts_day hlarge, fun _ => epochToString_day hlarge,
    parseDateToEpoch_valid (dateOfDay_valid day) (dayNumber_dateOfDay day) h⟩

theorem leapDay_agrees :
    daysToYmd 19782 = .ok (2024, 2, 29) ∧
      parseDateToEpoch (dateText 2024 2 29) = .ok (some 1709164800) := by
  have hdate : dateOfDay 19782 = ⟨2024, 2, 29⟩ := by
    have hnumber := ofDayNumber_eq epoch_valid 19782
    exact hnumber.symm.trans (by decide)
  have hagree := @dates_agree 19782 (by decide)
  rw [hdate] at hagree
  exact ⟨hagree.1, hagree.2.2.2⟩

end Days

end Sandstar.Epochs
