import Sandstar.HistoryRanges

set_option autoImplicit false

/-!
# The days of history ranges

When the bounds of a range and the seconds of a duration do not overflow, and which of the
stored points a request returns: where points after the days come before the end of what is
read, they are returned with the others or take the place of others.
-/
namespace Sandstar.History
open Machine Trio Zinc RoxWarp Epochs Calendar

section Cut

variable {α : Type} {l : List α} {n : ℕ} {p q : α → Bool}

theorem take_filter_split (l : List α) (n : ℕ) (p : α → Bool) :
    (l.filter p).take n =
      (l.take n).filter p ++ ((l.drop n).filter p).take (n - ((l.take n).filter p).length) := by
  have hsplit : (l.take n).filter p ++ (l.drop n).filter p = l.filter p := by
    rw [← List.filter_append, List.take_append_drop]
  have hle : ((l.take n).filter p).length ≤ n :=
    (List.length_filter_le _ _).trans (List.length_take_le _ _)
  rw [← hsplit, List.take_append, List.take_of_length_le hle]

/-- A cut before a filter is as good as a cut after it where every element before the cut is
kept or none after it is. -/
theorem filter_take_eq_iff :
    (l.take n).filter p = (l.filter p).take n ↔
      (∀ a ∈ l.take n, p a) ∨ ∀ a ∈ l.drop n, ¬p a := by
  rw [take_filter_split]
  constructor
  · intro h
    have hrest := List.self_eq_append_right.1 h
    rcases List.take_eq_nil_iff.1 hrest with hfull | hnone
    · left
      have hlen : (l.take n).length ≤ ((l.take n).filter p).length :=
        (List.length_take_le _ _).trans (Nat.sub_eq_zero_iff_le.1 hfull)
      exact List.length_filter_eq_length_iff.1 (le_antisymm (List.length_filter_le _ _) hlen)
    · exact .inr (List.filter_eq_nil_iff.1 hnone)
  · rintro (hall | hnone)
    · rw [List.filter_eq_self.2 hall]
      obtain hshort | hlong : l.length ≤ n ∨ n ≤ l.length := le_total _ _
      · rw [List.drop_eq_nil_of_le hshort]
        simp
      · rw [List.length_take, min_eq_left hlong, Nat.sub_self, List.take_zero, List.append_nil]
    · rw [List.filter_eq_nil_iff.2 hnone, List.take_nil, List.append_nil]

/-- A wider filter after the cut gives the same if nothing before the cut is in it alone. -/
theorem filter_take_wider_iff (hwider : ∀ a, p a → q a) :
    (l.take n).filter q = (l.filter p).take n ↔
      (∀ a ∈ l.take n, q a → p a) ∧ ((∀ a ∈ l.take n, p a) ∨ ∀ a ∈ l.drop n, ¬p a) := by
  have hsame (h : ∀ a ∈ l.take n, q a → p a) : (l.take n).filter q = (l.take n).filter p :=
    List.filter_congr fun a ha => Bool.eq_iff_iff.2 ⟨h a ha, hwider a⟩
  constructor
  · intro h
    have honly : ∀ a ∈ l.take n, q a → p a := by
      intro a ha hq
      have hmem : a ∈ (l.filter p).take n := h ▸ List.mem_filter.2 ⟨ha, hq⟩
      exact (List.mem_filter.1 (List.mem_of_mem_take hmem)).2
    exact ⟨honly, filter_take_eq_iff.1 ((hsame honly).symm.trans h)⟩
  · rintro ⟨honly, hcut⟩
    exact (hsame honly).trans (filter_take_eq_iff.2 hcut)

end Cut

section Dates

variable {s : List Char} {y : ℤ} {m d e slack : ℕ} {date : Date}

/-- A text that is read as a date has a day since 1970 whose seconds fit into a word. -/
def Fits (slack : ℕ) (s : List Char) : Prop :=
  ∀ y m d, dateParts s = some (y, m, d) →
    0 ≤ y ∧ 719468 ≤ dayNumber ⟨y.toNat, m, d⟩ ∧
      (dayNumber ⟨y.toNat, m, d⟩ - 719468) * 86400 + slack < 2 ^ 64

theorem parseI64_range {z : ℤ} (h : parseI64 s = some z) : -2 ^ 63 ≤ z ∧ z < 2 ^ 63 := by
  unfold parseI64 at h
  dsimp only at h
  generalize List.foldl _ 0 _ = n at h
  split_ifs at h <;> cases h <;> omega

theorem dateParts_range (h : dateParts s = some (y, m, d)) :
    (-2 ^ 63 ≤ y ∧ y < 2 ^ 63) ∧ (1 ≤ m ∧ m ≤ 12) ∧ 1 ≤ d ∧ d ≤ 31 := by
  unfold dateParts at h
  split at h
  · split at h
    · rename_i hyear _ _
      split_ifs at h with hrange
      cases h
      rw [not_or, not_not, not_not] at hrange
      exact ⟨parseI64_range hyear, hrange⟩
    · cases h
  · cases h

theorem parseDateToEpoch_none (h : dateParts s = none) : parseDateToEpoch s = .ok none := by
  unfold parseDateToEpoch
  rw [h]

theorem parseDateToEpoch_parts {r : Option ℕ} (h : dateParts s = some (y, m, d)) :
    parseDateToEpoch s = .ok r ↔
      0 ≤ y ∧ ∃ e, SecondsOf (dayNumber ⟨y.toNat, m, d⟩) e ∧ r = some e := by
  obtain ⟨hyear, hmonth, hday⟩ := dateParts_range h
  unfold parseDateToEpoch
  rw [h]
  constructor
  · intro hok
    obtain ⟨e, he, rfl⟩ := map_ok hok
    obtain ⟨hpos, hseconds⟩ := (epochOfDate_eq_ok hyear hmonth hday).1 he
    exact ⟨hpos, e, hseconds, rfl⟩
  · rintro ⟨hpos, e, hseconds, rfl⟩
    change (epochOfDate y m d).map some = _
    rw [(epochOfDate_eq_ok hyear hmonth hday).2 ⟨hpos, hseconds⟩]
    rfl

/-- A date fits exactly where its seconds, and so many more, are a word. -/
theorem fits_iff : Fits slack s ↔
    ∃ r, parseDateToEpoch s = .ok r ∧ ∀ e, r = some e → e + slack < 2 ^ 64 := by
  cases hparts : dateParts s with
  | none =>
    refine iff_of_true (fun y m d h => ?_) ⟨none, parseDateToEpoch_none hparts, nofun⟩
    rw [hparts] at h
    cases h
  | some parts =>
    obtain ⟨y, m, d⟩ := parts
    constructor
    · intro h
      obtain ⟨hpos, hlow, hhigh⟩ := h y m d hparts
      have hword := (Nat.le_add_right _ slack).trans_lt hhigh
      refine ⟨some _, (parseDateToEpoch_parts hparts).2 ⟨hpos, _, ⟨hlow, hword, rfl⟩, rfl⟩, ?_⟩
      intro e he
      rw [← Option.some.inj he]
      exact hhigh
    · rintro ⟨r, hok, hslack⟩ y' m' d' h'
      rw [hparts] at h'
      cases h'
      obtain ⟨hpos, e, ⟨hlow, -, rfl⟩, rfl⟩ := (parseDateToEpoch_parts hparts).1 hok
      exact ⟨hpos, hlow, hslack _ rfl⟩

theorem parseDateToEpoch_lt (hok : parseDateToEpoch s = .ok (some e)) : e < 2 ^ 64 := by
  cases hparts : dateParts s with
  | none =>
    rw [parseDateToEpoch_none hparts] at hok
    cases hok
  | some parts =>
    obtain ⟨-, e', ⟨-, hlt, rfl⟩, he⟩ := (parseDateToEpoch_parts hparts).1 hok
    rw [Option.some.inj he]
    exact hlt

theorem midnight_of_parse {r : Option ℕ} (h : dateOf s = some date)
    (hok : parseDateToEpoch s = .ok r) : ∃ e, r = some e ∧ (e : ℤ) = midnight date := by
  obtain ⟨⟨y, m, d⟩, hparts, hdate⟩ := Option.bind_eq_some_iff.1 h
  dsimp only at hdate
  split_ifs at hdate with hvalid
  cases hdate
  obtain ⟨hpos, e, ⟨hlow, -, rfl⟩, rfl⟩ := (parseDateToEpoch_parts hparts).1 hok
  refine ⟨_, rfl, ?_⟩
  unfold midnight
  rw [Nat.cast_mul, Nat.cast_sub hlow]
  rfl

end Dates

section Bounds

variable {now since untilUnix : ℕ} {range : Option (List Char)} {text start stop : List Char}
  {days : ℤ × ℤ}

/-- The words a range is read from fit: yesterday has begun after the epoch, and dates fit. -/
def RangeFits (now : ℕ) (range : Option (List Char)) : Prop :=
  (range = some "yesterday".toList → 86400 ≤ now) ∧
    ∀ text start stop, range = some text → splitOnce [','] text = some (start, stop) →
      Fits 0 (trim start) ∧ Fits 86400 (trim stop)

theorem parseHisRange_today :
    parseHisRange now (some "today".toList) = .ok (now / 86400 * 86400, maxWord) := by
  have hmidnight : now - now % 86400 = now / 86400 * 86400 := by omega
  change (do
    let midnight ← Checked.sub now (now % 86400)
    return (midnight, maxWord)) = _
  rw [Checked.sub_ok (Nat.mod_le _ _), hmidnight]
  rfl

theorem parseHisRange_last24h :
    parseHisRange now (some "last24h".toList) = .ok (now - 86400, maxWord) := rfl

theorem parseHisRange_yesterday {bounds : ℕ × ℕ} :
    parseHisRange now (some "yesterday".toList) = .ok bounds ↔
      86400 ≤ now ∧ (now / 86400 * 86400 - 86400, now / 86400 * 86400) = bounds := by
  have hmidnight : now - now % 86400 = now / 86400 * 86400 := by omega
  have hday : 86400 ≤ now / 86400 * 86400 ↔ 86400 ≤ now := by omega
  change (do
    let midnightToday ← Checked.sub now (now % 86400)
    let midnightYesterday ← Checked.sub midnightToday 86400
    return (midnightYesterday, midnightToday)) = _ ↔ _
  rw [Checked.sub_ok (Nat.mod_le _ _), Checked.ok_bind, hmidnight, ← hday]
  constructor
  · intro h
    obtain ⟨yesterday, hyesterday, h⟩ := bind_ok h
    obtain ⟨hle, rfl⟩ := Checked.sub_eq_ok.1 hyesterday
    exact ⟨hle, Except.ok.inj h⟩
  · rintro ⟨hle, rfl⟩
    rw [Checked.sub_ok hle]
    rfl

theorem parseDates_eq_ok {bounds : ℕ × ℕ} (h : splitOnce [','] text = some (start, stop)) :
    parseDates text = .ok bounds ↔
      ∃ first last, parseDateToEpoch (trim start) = .ok first ∧
        parseDateToEpoch (trim stop) = .ok last ∧ (∀ e, last = some e → e + 86400 < 2 ^ 64) ∧
        (first.getD 0, (last.map fun e => e + 86399).getD maxWord) = bounds := by
  unfold parseDates
  rw [h]
  dsimp only
  constructor
  · intro hok
    obtain ⟨first, hfirst, hok⟩ := bind_ok hok
    obtain ⟨last, hlast, hok⟩ := bind_ok hok
    refine ⟨first, last, hfirst, hlast, ?_⟩
    cases last with
    | none => exact ⟨nofun, Except.ok.inj hok⟩
    | some e =>
      obtain ⟨next, hnext, hok⟩ := bind_ok hok
      obtain ⟨hword, rfl⟩ := Checked.add_eq_ok.1 hnext
      rw [Checked.sub_ok (by omega), Nat.add_sub_assoc (by decide)] at hok
      refine ⟨fun e' he => ?_, Except.ok.inj hok⟩
      rw [← Option.some.inj he]
      exact hword
  · rintro ⟨first, last, hfirst, hlast, hword, rfl⟩
    rw [hfirst, hlast]
    cases last with
    | none => rfl
    | some e =>
      rw [Checked.ok_bind, Checked.ok_bind]
      dsimp only
      rw [Checked.add_ok (hword e rfl), Checked.ok_bind, Checked.sub_ok (by omega),
        Nat.add_sub_assoc (by decide)]
      rfl

theorem parseDates_ok_iff (h : splitOnce [','] text = some (start, stop)) :
    (∃ bounds, parseDates text = .ok bounds) ↔ Fits 0 (trim start) ∧ Fits 86400 (trim stop) := by
  simp only [fits_iff, parseDates_eq_ok h]
  constructor
  · rintro ⟨-, first, last, hfirst, hlast, hword, -⟩
    refine ⟨⟨first, hfirst, ?_⟩, last, hlast, hword⟩
    rintro e rfl
    exact parseDateToEpoch_lt hfirst
  · rintro ⟨⟨first, hfirst, -⟩, last, hlast, hword⟩
    exact ⟨_, first, last, hfirst, hlast, hword, rfl⟩

def keywords : List (List Char) := [[], "today".toList, "yesterday".toList, "last24h".toList]

theorem splitOnce_keyword (h : text ∈ keywords) : splitOnce [','] text = none := by
  have hall : ∀ word ∈ keywords, splitOnce [','] word = none := by decide
  exact hall text h

theorem parseHisRange_text (h : text ∉ keywords) :
    parseHisRange now (some text) = parseDates text := by
  unfold keywords at h
  simp only [List.mem_cons, List.not_mem_nil, or_false, not_or] at h
  obtain ⟨hempty, htoday, hyesterday, hlast⟩ := h
  unfold parseHisRange
  dsimp only
  rw [if_neg hempty, if_neg htoday, if_neg hyesterday, if_neg hlast]

theorem requestedDays_text (h : text ∉ keywords) : requestedDays now (some text) = dates text := by
  unfold keywords at h
  simp only [List.mem_cons, List.not_mem_nil, or_false, not_or] at h
  obtain ⟨hempty, htoday, hyesterday, hlast⟩ := h
  unfold requestedDays
  dsimp only
  rw [if_neg hempty, if_neg htoday, if_neg hyesterday, if_neg hlast]

theorem rangeFits_text (h : text ∉ keywords) :
    RangeFits now (some text) ↔
      ∀ start stop, splitOnce [','] text = some (start, stop) →
        Fits 0 (trim start) ∧ Fits 86400 (trim stop) := by
  constructor
  · intro hfits start stop hsplit
    exact hfits.2 text start stop rfl hsplit
  · intro hfits
    refine ⟨fun heq => ?_, ?_⟩
    · cases heq
      exact absurd (by decide) h
    · rintro text' start stop ⟨⟩ hsplit
      exact hfits start stop hsplit

theorem parseHisRange_ok_iff :
    (∃ bounds, parseHisRange now range = .ok bounds) ↔ RangeFits now range := by
  cases range with
  | none => exact iff_of_true ⟨_, rfl⟩ ⟨nofun, nofun⟩
  | some text =>
    by_cases hkey : text ∈ keywords
    · have hnone := splitOnce_keyword hkey
      have hfits : RangeFits now (some text) ↔ (text = "yesterday".toList → 86400 ≤ now) := by
        constructor
        · intro h heq
          exact h.1 (congrArg some heq)
        · intro h
          refine ⟨fun heq => h (Option.some.inj heq), ?_⟩
          rintro text' start stop ⟨⟩ hsplit
          rw [hnone] at hsplit
          cases hsplit
      rw [hfits]
      unfold keywords at hkey
      simp only [List.mem_cons, List.not_mem_nil, or_false] at hkey
      rcases hkey with rfl | rfl | rfl | rfl
      · exact iff_of_true ⟨_, rfl⟩ (fun h => absurd h (by decide))
      · exact iff_of_true ⟨_, parseHisRange_today⟩ (fun h => absurd h (by decide))
      · simp only [parseHisRange_yesterday, exists_and_left, exists_eq', and_true, forall_const]
      · exact iff_of_true ⟨_, parseHisRange_last24h⟩ (fun h => absurd h (by decide))
    · rw [parseHisRange_text hkey, rangeFits_text hkey]
      cases hsplit : splitOnce [','] text with
      | none =>
        refine iff_of_true ⟨(0, maxWord), ?_⟩ nofun
        unfold parseDates
        rw [hsplit]
      | some parts =>
        rw [parseDates_ok_iff hsplit]
        constructor
        · rintro h start stop ⟨⟩
          exact h
        · exact fun h => h _ _ rfl

def PastEnd (range : Option (List Char)) (stop : ℤ) (ts : UInt64) : Prop :=
  (range = some "yesterday".toList ∧ (ts.toNat : ℤ) = stop) ∨
    ((range = some "today".toList ∨ range = some "last24h".toList) ∧ stop ≤ ts.toNat)

theorem word_le_maxWord (ts : UInt64) : ts.toNat ≤ maxWord := by
  have hlt := ts.toNat_lt
  unfold maxWord
  omega

structure BoundsOf (range : Option (List Char)) (days : ℤ × ℤ) (since untilUnix : ℕ) : Prop where
  since_iff : ∀ ts : UInt64, since ≤ ts.toNat ↔ days.1 ≤ (ts.toNat : ℤ)
  until_iff : ∀ ts : UInt64,
    ts.toNat ≤ untilUnix ↔ (ts.toNat : ℤ) < days.2 ∨ PastEnd range days.2 ts

theorem boundsOf_all {range : Option (List Char)} : BoundsOf range (0, 2 ^ 64) 0 maxWord where
  since_iff ts := iff_of_true (Nat.zero_le _) (Int.natCast_nonneg _)
  until_iff ts := by
    have hlt := ts.toNat_lt
    exact iff_of_true (word_le_maxWord ts) (.inl (by dsimp only; omega))

theorem boundsOf_open (hopen : range = some "today".toList ∨ range = some "last24h".toList)
    {first : ℕ} {start stop : ℤ} (hfirst : (first : ℤ) = max 0 start) :
    BoundsOf range (start, stop) first maxWord where
  since_iff ts := by
    dsimp only
    omega
  until_iff ts := by
    refine iff_of_true (word_le_maxWord ts) ?_
    obtain hbefore | hafter := lt_or_ge (ts.toNat : ℤ) stop
    · exact .inl hbefore
    · exact .inr (.inr ⟨hopen, hafter⟩)

theorem boundsOf_yesterday {first stop : ℕ} :
    BoundsOf (some "yesterday".toList) (first, stop) first stop where
  since_iff ts := Nat.cast_le.symm
  until_iff ts := by
    have hopen : ¬PastEnd (some "yesterday".toList) stop ts ∨ (ts.toNat : ℤ) = stop := by
      by_cases heq : (ts.toNat : ℤ) = stop
      · exact .inr heq
      · left
        rintro (⟨-, h⟩ | ⟨h | h, -⟩)
        · exact heq h
        · exact absurd h (by decide)
        · exact absurd h (by decide)
    constructor
    · intro hle
      rcases hle.lt_or_eq with hlt | heq
      · exact .inl (Nat.cast_lt.2 hlt)
      · exact .inr (.inl ⟨rfl, by rw [heq]⟩)
    · rintro (hlt | hpast)
      · exact (Nat.cast_lt.1 hlt).le
      · rcases hopen with hnot | heq
        · exact absurd hpast hnot
        · exact (Nat.cast_injective heq).le

theorem boundsOf_dates (h : text ∉ keywords) (hdays : dates text = some days)
    (hok : parseDates text = .ok (since, untilUnix)) :
    BoundsOf (some text) days since untilUnix := by
  obtain ⟨⟨start, stop⟩, hsplit, hdays⟩ := Option.bind_eq_some_iff.1 hdays
  obtain ⟨first, hfirst, hdays⟩ := Option.bind_eq_some_iff.1 hdays
  obtain ⟨last, hlast, rfl⟩ := Option.map_eq_some_iff.1 hdays
  obtain ⟨e, e', hstart, hstop, -, hbounds⟩ := (parseDates_eq_ok hsplit).1 hok
  obtain ⟨e, rfl, hmidnight⟩ := midnight_of_parse hfirst hstart
  obtain ⟨e', rfl, hmidnight'⟩ := midnight_of_parse hlast hstop
  cases hbounds
  have hpast : ∀ stop ts, ¬PastEnd (some text) stop ts := by
    rintro stop ts (⟨heq, -⟩ | ⟨heq | heq, -⟩) <;> cases heq <;> exact absurd (by decide) h
  constructor
  · intro ts
    dsimp only [Option.getD_some]
    rw [← hmidnight]
    exact Nat.cast_le.symm
  · intro ts
    dsimp only [Option.map_some, Option.getD_some]
    rw [← hmidnight', or_iff_left (hpast _ _)]
    omega

theorem boundsOf_range (hdays : requestedDays now range = some days)
    (hok : parseHisRange now range = .ok (since, untilUnix)) :
    BoundsOf range days since untilUnix := by
  cases range with
  | none =>
    cases hdays
    cases hok
    exact boundsOf_all
  | some text =>
    by_cases hkey : text ∈ keywords
    · unfold keywords at hkey
      simp only [List.mem_cons, List.not_mem_nil, or_false] at hkey
      rcases hkey with rfl | rfl | rfl | rfl
      · cases hdays
        cases hok
        exact boundsOf_all
      · cases hdays
        obtain ⟨rfl, rfl⟩ := Prod.mk.inj (Except.ok.inj (parseHisRange_today.symm.trans hok))
        exact boundsOf_open (.inl rfl) (by omega)
      · cases hdays
        obtain ⟨hle, hbounds⟩ := parseHisRange_yesterday.1 hok
        obtain ⟨rfl, rfl⟩ := Prod.mk.inj hbounds
        have hfirst : ((now / 86400 * 86400 - 86400 : ℕ) : ℤ) = (now / 86400 : ℕ) * 86400 - 86400 := by
          omega
        rw [← hfirst]
        exact boundsOf_yesterday
      · cases hdays
        obtain ⟨rfl, rfl⟩ := Prod.mk.inj (Except.ok.inj (parseHisRange_last24h.symm.trans hok))
        exact boundsOf_open (.inr rfl) (by omega)
    · rw [requestedDays_text hkey] at hdays
      rw [parseHisRange_text hkey] at hok
      exact boundsOf_dates hkey hdays hok

end Bounds

section Durations

variable {s digits : List Char} {unit : ℕ}

def units : List (Char × ℕ) := [('h', 3600), ('d', 86400), ('m', 60)]

def DurationFits (s : List Char) : Prop :=
  ∀ unit ∈ units, ∀ n,
    (stripSuffix unit.1 (trim s)).bind (parseUnsigned (2 ^ 64)) = some n → n * unit.2 < 2 ^ 64

theorem stripSuffix_eq_some {c : Char} :
    stripSuffix c s = some digits ↔ s.getLast? = some c ∧ s.dropLast = digits := by
  unfold stripSuffix
  split_ifs with h <;> simp [h]

theorem stripSuffix_of_ne {c c' : Char} (h : stripSuffix c s = some digits) (hne : c' ≠ c) :
    stripSuffix c' s = none := by
  unfold stripSuffix
  rw [(stripSuffix_eq_some.1 h).1]
  exact if_neg fun heq => hne (Option.some.inj heq).symm

theorem units_ok_iff (hunit : unit < 2 ^ 64) :
    (∃ secs, Checked.mul ((parseUnsigned (2 ^ 64) digits).getD 1) unit = .ok secs) ↔
      ∀ n, parseUnsigned (2 ^ 64) digits = some n → n * unit < 2 ^ 64 := by
  simp only [Checked.mul_eq_ok, exists_and_left, exists_eq', and_true]
  cases parseUnsigned (2 ^ 64) digits with
  | none =>
    rw [Option.getD_none, one_mul]
    exact iff_of_true hunit nofun
  | some n =>
    constructor
    · rintro h n' ⟨⟩
      exact h
    · exact fun h => h n rfl

theorem durationFits_of_suffix {c : Char} (hmem : (c, unit) ∈ units)
    (h : stripSuffix c (trim s) = some digits) :
    DurationFits s ↔ ∀ n, parseUnsigned (2 ^ 64) digits = some n → n * unit < 2 ^ 64 := by
  have hdistinct : ∀ u ∈ units, ∀ u' ∈ units, u.1 = u'.1 → u = u' := by decide
  constructor
  · intro hfits n hn
    refine hfits _ hmem n ?_
    rw [h]
    exact hn
  · intro hfits other hother n hn
    by_cases hsame : other.1 = c
    · obtain rfl := hdistinct other hother (c, unit) hmem hsame
      rw [h] at hn
      exact hfits n hn
    · rw [stripSuffix_of_ne h hsame] at hn
      cases hn

theorem parseDuration_ok_iff : (∃ secs, parseDuration s = .ok secs) ↔ DurationFits s := by
  unfold parseDuration
  dsimp only
  cases hhours : stripSuffix 'h' (trim s) with
  | some digits =>
    rw [@durationFits_of_suffix s digits 3600 'h' (by decide) hhours]
    exact units_ok_iff (by decide)
  | none =>
    cases hdays : stripSuffix 'd' (trim s) with
    | some digits =>
      rw [@durationFits_of_suffix s digits 86400 'd' (by decide) hdays]
      exact units_ok_iff (by decide)
    | none =>
      cases hmins : stripSuffix 'm' (trim s) with
      | some digits =>
        rw [@durationFits_of_suffix s digits 60 'm' (by decide) hmins]
        exact units_ok_iff (by decide)
      | none =>
        refine iff_of_true ⟨_, rfl⟩ ?_
        simp [DurationFits, units, hhours, hdays, hmins]

end Durations

section Points

variable {F : Type} {store : HistoryStore F} {now since untilUnix : ℕ} {id : UInt32}
  {range : Option (List Char)} {days : ℤ × ℤ}

theorem query_eq (store : HistoryStore F) (id : UInt32) (since limit : ℕ) :
    store.query id since limit =
      ((store.stored id).filter fun p => since ≤ p.ts.toNat).take limit := by
  unfold HistoryStore.query HistoryStore.stored
  cases store.histories.get id with
  | none => simp
  | some history => rfl

theorem hisRead_eq (hok : parseHisRange now range = .ok (since, untilUnix)) :
    hisRead store now id range =
      .ok ((((store.stored id).filter fun p => since ≤ p.ts.toNat).take 10000).filter
        fun p => p.ts.toNat ≤ untilUnix) := by
  unfold hisRead
  rw [hok, Checked.ok_bind]
  dsimp only
  rw [query_eq]
  split_ifs with hbounded
  · rfl
  -- the greatest word bounds every point
  · have hall : ∀ p : HistoryPoint F, p.ts.toNat ≤ untilUnix := fun p =>
      (word_le_maxWord p.ts).trans (not_lt.1 hbounded)
    simp only [hall, decide_true, List.filter_true]
    rfl

/-- Among the first points read none is past the end of the days, and they are all of the days
unless no later one is. -/
def DaysFit (range : Option (List Char)) (days : ℤ × ℤ) (points : List (HistoryPoint F)) : Prop :=
  let later := points.filter fun p => days.1 ≤ p.ts.toNat
  (∀ p ∈ later.take 10000, ¬PastEnd range days.2 p.ts) ∧
    ((∀ p ∈ later.take 10000, p.within days) ∨ ∀ p ∈ later.drop 10000, ¬p.within days)

theorem PastEnd.le {stop : ℤ} {ts : UInt64} (h : PastEnd range stop ts) : stop ≤ ts.toNat := by
  rcases h with ⟨-, heq⟩ | ⟨-, hle⟩
  · exact heq.ge
  · exact hle

/-- What a request returns is what was asked for exactly where the days fit the points. -/
theorem hisRead_eq_iff (hdays : requestedDays now range = some days)
    (hok : parseHisRange now range = .ok (since, untilUnix)) :
    hisRead store now id range = .ok (((store.stored id).filter (·.within days)).take 10000) ↔
      DaysFit range days (store.stored id) := by
  have hbounds := boundsOf_range hdays hok
  have hfirst : ((store.stored id).filter fun p => since ≤ p.ts.toNat) =
      (store.stored id).filter fun p => days.1 ≤ p.ts.toNat :=
    List.filter_congr fun p _ => decide_eq_decide.2 (hbounds.since_iff p.ts)
  rw [hisRead_eq hok, hfirst]
  unfold DaysFit
  dsimp only
  generalize hlater : ((store.stored id).filter fun p => days.1 ≤ p.ts.toNat) = later
  have hwithin : (store.stored id).filter (·.within days) = later.filter (·.within days) := by
    rw [← hlater, List.filter_filter]
    refine List.filter_congr fun p _ => ?_
    unfold HistoryPoint.within
    rw [Bool.and_right_comm, Bool.and_self]
  have hwider : ∀ p : HistoryPoint F, p.within days → decide (p.ts.toNat ≤ untilUnix) := by
    intro p hp
    unfold HistoryPoint.within at hp
    simp only [Bool.and_eq_true, decide_eq_true_eq] at hp ⊢
    exact (hbounds.until_iff p.ts).2 (.inl hp.2)
  have honly : ∀ p ∈ later.take 10000,
      (decide (p.ts.toNat ≤ untilUnix) → p.within days) ↔ ¬PastEnd range days.2 p.ts := by
    intro p hp
    have hmem : p ∈ later := List.mem_of_mem_take hp
    rw [← hlater] at hmem
    have hstart := (List.mem_filter.1 hmem).2
    unfold HistoryPoint.within
    rw [hstart, Bool.true_and, decide_eq_true_eq, decide_eq_true_eq, hbounds.until_iff]
    constructor
    · intro h hpast
      exact absurd (h (.inr hpast)) hpast.le.not_gt
    · rintro h (hlt | hpast)
      · exact hlt
      · exact absurd hpast h
  rw [hwithin, Except.ok.injEq, filter_take_wider_iff hwider]
  exact and_congr_left fun _ => forall₂_congr honly

/-- Bounds and durations fault nowhere, and a request returns the points of its days up to the
limit, exactly where the words and the points fit. -/
theorem ranges_exact_iff (store : HistoryStore F) (now : ℕ) (id : UInt32)
    (range : Option (List Char)) (duration : List Char) :
    ((∃ bounds, parseHisRange now range = .ok bounds) ∧
        (∃ secs, parseDuration duration = .ok secs) ∧
        ∀ days, requestedDays now range = some days →
          hisRead store now id range =
            .ok (((store.stored id).filter (·.within days)).take 10000)) ↔
      RangeFits now range ∧ DurationFits duration ∧
        ∀ days, requestedDays now range = some days → DaysFit range days (store.stored id) := by
  rw [← parseHisRange_ok_iff, ← parseDuration_ok_iff]
  refine and_congr_right fun ⟨⟨since, untilUnix⟩, hok⟩ => and_congr_right fun _ => ?_
  exact forall₂_congr fun days hdays => hisRead_eq_iff hdays hok

def midnightStore : HistoryStore ℕ := (HistoryStore.new 1000).record 1113 ⟨172800, 72, 2048, .ok⟩

theorem yesterday_past_midnight :
    parseHisRange 100 (some "yesterday".toList) = .error .overflow ∧
      parseHisRange 172805 (some "1960-01-01,1960-12-31".toList) = .error .overflow ∧
      parseDuration "9999999999999999h".toList = .error .overflow ∧
      requestedDays 172805 (some "yesterday".toList) = some (86400, 172800) ∧
      hisRead midnightStore 172805 1113 (some "yesterday".toList) = .ok [⟨172800, 72, 2048, .ok⟩] ∧
      ((midnightStore.stored 1113).filter (·.within (86400, 172800))).take 10000 = [] := by
  refine ⟨by decide, by decide, by decide, by decide, rfl, rfl⟩

end Points

section Runs

variable {F : Type} {α : Type} {n now : ℕ} {id : UInt32}

def latest (n : ℕ) (l : List α) : List α := l.drop (l.length - n)

theorem latest_length_le (n : ℕ) (l : List α) : (latest n l).length ≤ n := by
  rw [latest, List.length_drop]
  omega

theorem latest_concat (hn : 0 < n) (l : List α) (a : α) :
    latest n (l ++ [a]) =
      (if n ≤ (latest n l).length then (latest n l).tail else latest n l) ++ [a] := by
  unfold latest
  rw [List.length_drop, List.length_append, List.length_singleton]
  by_cases hfull : n ≤ l.length
  · have hlen : l.length - (l.length - n) = n := by omega
    rw [hlen, if_pos le_rfl, List.tail_drop, List.drop_append_of_le_length (by omega)]
    congr 2
    omega
  · have hlen : ¬n ≤ l.length - (l.length - n) := by omega
    rw [if_neg hlen, Nat.sub_eq_zero_of_le (by omega), Nat.sub_eq_zero_of_le (by omega),
      List.drop_zero, List.drop_zero]

/-- A buffer holds one point even where its capacity is zero. -/
theorem push_latest (max : ℕ) (l : List (HistoryPoint F)) (point : HistoryPoint F) :
    ((⟨latest (Max.max 1 max) l, max⟩ : ChannelHistory F).push point).buffer =
      latest (Max.max 1 max) (l ++ [point]) := by
  have hle := latest_length_le (Max.max 1 max) l
  unfold ChannelHistory.push
  dsimp only
  rw [latest_concat (by omega)]
  congr 1
  cases max with
  | zero =>
    rw [if_pos (Nat.zero_le _)]
    split_ifs with hfull
    · rfl
    · rw [List.length_eq_zero_iff.1 (by omega : (latest (Max.max 1 0) l).length = 0)]
      rfl
  | succ max => rw [Nat.max_eq_right (by omega)]

structure Holds (store : HistoryStore F) (max : ℕ) (records : List (UInt32 × HistoryPoint F)) :
    Prop where
  limit : store.maxPerChannel = max
  capacity : ∀ c h, store.histories.get c = some h → h.maxCap = max
  points : ∀ c, store.stored c =
    latest (Max.max 1 max) ((records.filter fun r => r.1 = c).map Prod.snd)

theorem holds_new (max : ℕ) : Holds (.new max : HistoryStore F) max [] where
  limit := rfl
  capacity _ _ h := by cases h
  points _ := by simp [HistoryStore.stored, HistoryStore.new, latest]

theorem Holds.record {store : HistoryStore F} {max : ℕ} {records : List (UInt32 × HistoryPoint F)}
    (h : Holds store max records) (channel : UInt32) (point : HistoryPoint F) :
    Holds (store.record channel point) max (records ++ [(channel, point)]) := by
  have hhistory : (store.histories.get channel).getD (.new store.maxPerChannel) =
      ⟨latest (Max.max 1 max) ((records.filter fun r => r.1 = channel).map Prod.snd), max⟩ := by
    rw [← h.points channel]
    unfold HistoryStore.stored
    cases hget : store.histories.get channel with
    | none => rw [h.limit]; rfl
    | some history => rw [← h.capacity channel history hget]; rfl
  unfold HistoryStore.record
  rw [hhistory]
  refine ⟨h.limit, fun c history hget => ?_, fun c => ?_⟩
  · dsimp only at hget
    rw [Table.get_insert] at hget
    split_ifs at hget
    · rw [← Option.some.inj hget]
      rfl
    · exact h.capacity c history hget
  · unfold HistoryStore.stored
    dsimp only
    rw [Table.get_insert, List.filter_append, List.map_append]
    by_cases hc : c = channel
    · subst hc
      rw [if_pos rfl]
      simpa using push_latest max _ point
    · have hother : [(channel, point)].filter (fun r => r.1 = c) = [] := by
        simpa using fun heq => hc heq.symm
      rw [if_neg hc, hother, List.map_nil, List.append_nil]
      exact h.points c

def captured (cycles : List (PollCycle F)) : List (UInt32 × HistoryPoint F) :=
  cycles.flatMap fun cycle => cycle.polls.map fun poll => (poll.1, poll.2.at cycle.now)

theorem holds_cycles (max : ℕ) (cycles : List (PollCycle F)) :
    Holds (cycles.foldl capture (.new max)) max (captured cycles) := by
  have hcapture : ∀ (polls : List (UInt32 × Sample F)) (now : UInt64) store records,
      Holds store max records →
        Holds (capture store ⟨now, polls⟩) max
          (records ++ polls.map fun poll => (poll.1, poll.2.at now)) := by
    intro polls now
    induction polls with
    | nil =>
      intro store records h
      rw [List.map_nil, List.append_nil]
      exact h
    | cons poll polls ih =>
      intro store records h
      rw [List.map_cons, List.append_cons]
      exact ih _ _ (h.record poll.1 (poll.2.at now))
  have hrun : ∀ store records, Holds store max records →
      Holds (cycles.foldl capture store) max (records ++ captured cycles) := by
    unfold captured
    induction cycles with
    | nil =>
      intro store records h
      rw [List.flatMap_nil, List.append_nil]
      exact h
    | cons cycle cycles ih =>
      intro store records h
      rw [List.flatMap_cons, ← List.append_assoc]
      exact ih _ _ (hcapture cycle.polls cycle.now store records h)
  exact hrun _ _ (holds_new max)

/-- The last points of a channel that the store keeps. -/
def kept (max : ℕ) (cycles : List (PollCycle F)) (id : UInt32) : List (HistoryPoint F) :=
  latest (Max.max 1 max) (((captured cycles).filter fun r => r.1 = id).map Prod.snd)

theorem kept_ts {max : ℕ} {cycles : List (PollCycle F)} {p : HistoryPoint F}
    (hp : p ∈ kept max cycles id) : ∃ cycle ∈ cycles, p.ts = cycle.now := by
  obtain ⟨r, hr, rfl⟩ := List.mem_map.1 (List.mem_of_mem_drop hp)
  obtain ⟨cycle, hcycle, hmem⟩ := List.mem_flatMap.1 (List.mem_filter.1 hr).1
  obtain ⟨poll, -, rfl⟩ := List.mem_map.1 hmem
  exact ⟨cycle, hcycle, rfl⟩

theorem now_lt_end {range : Option (List Char)} {days : ℤ × ℤ}
    (hdays : requestedDays now range = some days)
    (hopen : range = some "today".toList ∨ range = some "last24h".toList) : (now : ℤ) < days.2 := by
  rcases hopen with rfl | rfl
  · have heq := Option.some.inj hdays
    rw [← heq]
    dsimp only
    omega
  · have heq := Option.some.inj hdays
    rw [← heq]
    dsimp only
    omega

theorem yesterday_inOrder {range : Option (List Char)} {days : ℤ × ℤ}
    (hdays : requestedDays now range = some days) (h : range = some "yesterday".toList) :
    days.1 ≤ days.2 := by
  subst h
  rw [← Option.some.inj hdays]
  dsimp only
  omega

/-- No kept point is past the end of an open range. -/
theorem pastEnd_kept {max : ℕ} {cycles : List (PollCycle F)}
    (hclock : ∀ cycle ∈ cycles, cycle.now.toNat ≤ now) {range : Option (List Char)} {days : ℤ × ℤ}
    (hdays : requestedDays now range = some days) {p : HistoryPoint F} (hp : p ∈ kept max cycles id)
    (h : PastEnd range days.2 p.ts) :
    range = some "yesterday".toList ∧ (p.ts.toNat : ℤ) = days.2 := by
  obtain hyesterday | ⟨hopen, hle⟩ := h
  · exact hyesterday
  · obtain ⟨cycle, hcycle, hts⟩ := kept_ts hp
    have hnow := hclock cycle hcycle
    have hlt := now_lt_end hdays hopen
    rw [hts] at hle
    omega

/-- After any run of poll cycles that ended by now, a request returns exactly the points of its
days among those kept, unless it is for yesterday and a point is of this day's first second:
the points of that second are returned as well. -/
theorem hisRead_cycles_iff {max : ℕ} (hmax : max ≤ 10000) {cycles : List (PollCycle F)}
    (hclock : ∀ cycle ∈ cycles, cycle.now.toNat ≤ now) {range : Option (List Char)}
    {bounds : ℕ × ℕ} {days : ℤ × ℤ} (hok : parseHisRange now range = .ok bounds)
    (hdays : requestedDays now range = some days) :
    (hisRead (cycles.foldl capture (.new max)) now id range =
        .ok ((kept max cycles id).filter (·.within days)) ↔
      ¬(range = some "yesterday".toList ∧ ∃ p ∈ kept max cycles id, (p.ts.toNat : ℤ) = days.2)) ∧
      hisRead (cycles.foldl capture (.new max)) now id range =
        .ok ((kept max cycles id).filter fun p =>
          p.within days || decide (range = some "yesterday".toList ∧ (p.ts.toNat : ℤ) = days.2)) := by
  obtain ⟨since, untilUnix⟩ := bounds
  have hstored : (cycles.foldl capture (.new max)).stored id = kept max cycles id :=
    (holds_cycles max cycles).points id
  have hlength : (kept max cycles id).length ≤ 10000 :=
    (latest_length_le _ _).trans (by omega)
  have hshort : ∀ q : HistoryPoint F → Bool, ((kept max cycles id).filter q).length ≤ 10000 :=
    fun q => (List.length_filter_le _ _).trans hlength
  have hiff := @hisRead_eq_iff F (cycles.foldl capture (.new max)) now since untilUnix id range days
    hdays hok
  rw [hstored, List.take_of_length_le (hshort _)] at hiff
  have hpast : ∀ p ∈ kept max cycles id, PastEnd range days.2 p.ts →
      range = some "yesterday".toList ∧ (p.ts.toNat : ℤ) = days.2 :=
    fun p hp => pastEnd_kept hclock hdays hp
  constructor
  · rw [hiff]
    unfold DaysFit
    dsimp only
    rw [List.take_of_length_le (hshort _), List.drop_eq_nil_of_le (hshort _)]
    constructor
    · rintro ⟨hnone, -⟩ ⟨hyesterday, p, hp, heq⟩
      refine hnone p (List.mem_filter.2 ⟨hp, ?_⟩) (.inl ⟨hyesterday, heq⟩)
      exact decide_eq_true (heq ▸ yesterday_inOrder hdays hyesterday)
    · refine fun hnot => ⟨fun p hp hend => ?_, .inr fun p hp => absurd hp List.not_mem_nil⟩
      have hmem := (List.mem_filter.1 hp).1
      obtain ⟨hyesterday, heq⟩ := hpast p hmem hend
      exact hnot ⟨hyesterday, p, hmem, heq⟩
  · have hbounds := boundsOf_range hdays hok
    rw [hisRead_eq hok, hstored, List.take_of_length_le (hshort _), List.filter_filter]
    refine congrArg Except.ok (List.filter_congr fun p hp => ?_)
    rw [Bool.eq_iff_iff]
    simp only [HistoryPoint.within, Bool.and_eq_true, Bool.or_eq_true, decide_eq_true_eq,
      hbounds.since_iff, hbounds.until_iff]
    constructor
    · rintro ⟨hlt | hend, hfirst⟩
      · exact .inl ⟨hfirst, hlt⟩
      · exact .inr (hpast p hp hend)
    · rintro (⟨hfirst, hlt⟩ | ⟨hyesterday, heq⟩)
      · exact ⟨.inl hlt, hfirst⟩
      · exact ⟨.inr (.inl ⟨hyesterday, heq⟩), heq ▸ yesterday_inOrder hdays hyesterday⟩

def midnightCycles : List (PollCycle ℕ) :=
  [⟨172800, [(1113, ⟨72, 2048, .ok⟩)]⟩, ⟨172801, [(1113, ⟨73, 2060, .ok⟩)]⟩]

theorem midnight_cycles_read :
    hisRead (midnightCycles.foldl capture (.new 1000)) 172805 1113 (some "today".toList) =
        .ok ((kept 1000 midnightCycles 1113).filter (·.within (172800, 259200))) ∧
      hisRead (midnightCycles.foldl capture (.new 1000)) 172805 1113 (some "yesterday".toList) =
        .ok [⟨172800, 72, 2048, .ok⟩] := by
  have hclock : ∀ cycle ∈ midnightCycles, cycle.now.toNat ≤ 172805 := by decide
  constructor
  · refine (hisRead_cycles_iff (by decide) hclock parseHisRange_today rfl).1.2 ?_
    exact fun h => absurd h.1 (by decide)
  · exact (hisRead_cycles_iff (by decide) hclock
      (parseHisRange_yesterday.2 ⟨by decide, rfl⟩) rfl).2

end Runs

end Sandstar.History
