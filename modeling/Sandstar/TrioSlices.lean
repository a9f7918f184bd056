import Sandstar.TrioRoundTrip

set_option autoImplicit false

/-!
# The slices of the Trio decoder

The decoder finds byte offsets and cuts its texts there. Here every cut of the source is a
slice of its own: that of a line at its colon, that of a number before its unit, and those of
the tests for dates and times.
-/
namespace Sandstar.Trio
open RoxWarp Zinc

section Slicing

def findByte (p : Char → Bool) : List Char → Option ℕ
  | [] => none
  | c :: s => if p c then some 0 else (findByte p s).map (c.utf8Size + ·)

def sliceFrom (start : ℕ) (s : List Char) : Option (List Char) :=
  (splitAtByte start s).map Prod.snd

def numberChar (c : Char) : Bool :=
  c.isDigit || c = '.' || c = '-' || c = '+' || c = 'e' || c = 'E'

variable (serde : SerdeText)

def sliceNumber (val : List Char) : Option Json :=
  match parseI64 val with
  | some n => some (.scalar (.ofInt64 (Int64.ofInt n)))
  | none =>
    match serde.parseF64 val with
    | some x => some (ofDouble x)
    | none =>
      match findByte (fun c => !numberChar c) val with
      | some numEnd =>
        if 0 < numEnd then do
          let number ← slice 0 numEnd val
          -- a number with its unit, and anything else
          if (serde.parseF64 number).isSome then some (text val) else some (text val)
        else some (text val)
      | none => some (text val)

def sliceTrioValue (val : List Char) : Option Json :=
  if val = "N".toList then some (.scalar .null)
  else if val = "true".toList then some (.scalar (.bool true))
  else if val = "false".toList then some (.scalar (.bool false))
  else if val.head? = some '@' then some (text val)
  else do
    if ← isDate val then some (text val)
    else if ← isTime val then some (text val)
    else sliceNumber serde val

def sliceTagLine (d : Decoding) (line : List Char) : Option Decoding :=
  let trimmed := trim line
  if trimmed = [] then some d.endRecord
  else if "//".toList.isPrefixOf trimmed then some d
  else
    match findByte (· = ':') trimmed with
    | some colon => do
      let left ← slice 0 colon trimmed
      let right ← sliceFrom (colon + 1) trimmed
      let key := String.ofList (trim left)
      let val := trim right
      if val = [] then some { d with multilineKey := some key, multilineBuf := [] }
      else (sliceTrioValue serde val).map (d.insert key)
    | none => some (d.insert (String.ofList trimmed) (.scalar (.bool true)))

def sliceLine (d : Decoding) (line : List Char) : Option Decoding :=
  if d.multilineKey.isSome ∧ "  ".toList.isPrefixOf line then
    some { d with multilineBuf := joinLine d.multilineBuf (trimStart line) }
  else sliceTagLine serde d.endMultiline line

def sliceTrioRecords (content : List Char) : Option (List Record) :=
  ((lines content).foldlM (sliceLine serde) Decoding.start).map fun d =>
    d.endMultiline.endRecord.records

end Slicing

section Boundaries

variable {s left right : List Char} {start stop : ℕ}

def Boundary (n : ℕ) (s : List Char) : Prop := ∃ left right, s = left ++ right ∧ byteLength left = n

theorem byteLength_append (left right : List Char) :
    byteLength (left ++ right) = byteLength left + byteLength right := by
  unfold byteLength
  rw [List.map_append, List.sum_append]

theorem byteLength_cons (c : Char) (s : List Char) :
    byteLength (c :: s) = c.utf8Size + byteLength s := by
  unfold byteLength
  rw [List.map_cons, List.sum_cons]

theorem length_le_byteLength (s : List Char) : s.length ≤ byteLength s := by
  induction s with
  | nil => exact le_rfl
  | cons c s ih =>
    have hpos := c.utf8Size_pos
    rw [byteLength_cons, List.length_cons]
    omega

theorem splitAtByte_append (left right : List Char) :
    splitAtByte (byteLength left) (left ++ right) = some (left, right) := by
  induction left with
  | nil => simp [splitAtByte, byteLength]
  | cons c left ih =>
    have hpos := c.utf8Size_pos
    rw [byteLength_cons, List.cons_append]
    obtain ⟨n, hn⟩ : ∃ n, c.utf8Size + byteLength left = n + 1 := ⟨_, (Nat.succ_pred (by omega)).symm⟩
    rw [hn]
    unfold splitAtByte
    rw [if_pos (by omega), show n + 1 - c.utf8Size = byteLength left by omega, ih]
    rfl

theorem splitAtByte_some {n : ℕ} (h : splitAtByte n s = some (left, right)) :
    s = left ++ right ∧ byteLength left = n := by
  induction s generalizing n left with
  | nil =>
    cases n with
    | zero =>
      cases h
      exact ⟨rfl, rfl⟩
    | succ n => cases h
  | cons c s ih =>
    cases n with
    | zero =>
      cases h
      exact ⟨rfl, rfl⟩
    | succ n =>
      unfold splitAtByte at h
      split_ifs at h with hsize
      obtain ⟨⟨left', right'⟩, hsplit, heq⟩ := Option.map_eq_some_iff.1 h
      cases heq
      obtain ⟨rfl, hlen⟩ := ih hsplit
      refine ⟨rfl, ?_⟩
      rw [byteLength_cons]
      omega

theorem slice_append (before part after : List Char) :
    slice (byteLength before) (byteLength (before ++ part)) (before ++ part ++ after) = some part := by
  unfold slice
  rw [splitAtByte_append, Option.bind_some, splitAtByte_append]
  rfl

theorem slice_some {part : List Char} (h : slice start stop s = some part) :
    ∃ before after, s = before ++ part ++ after ∧ byteLength before = start ∧
      byteLength (before ++ part) = stop := by
  unfold slice at h
  obtain ⟨⟨front, after⟩, hstop, hrest⟩ := Option.bind_eq_some_iff.1 h
  obtain ⟨⟨before, part'⟩, hstart, rfl⟩ := Option.map_eq_some_iff.1 hrest
  obtain ⟨rfl, hfront⟩ := splitAtByte_some hstop
  obtain ⟨rfl, hbefore⟩ := splitAtByte_some hstart
  exact ⟨before, after, rfl, hbefore, hfront⟩

/-- A slice is cut out exactly if it starts and ends on boundaries. -/
theorem slice_isSome_iff (h : start ≤ stop) :
    (slice start stop s).isSome ↔ Boundary start s ∧ Boundary stop s := by
  constructor
  · intro hsome
    obtain ⟨part, hpart⟩ := Option.isSome_iff_exists.1 hsome
    obtain ⟨before, after, rfl, hbefore, hstop⟩ := slice_some hpart
    exact ⟨⟨before, part ++ after, List.append_assoc _ _ _, hbefore⟩, ⟨before ++ part, after, rfl, hstop⟩⟩
  · rintro ⟨⟨before, rest, hbefore, hstart⟩, ⟨front, after, hfront, hstop⟩⟩
    have hsub : before <+: front := by
      have hfirst : before <+: s := ⟨rest, hbefore.symm⟩
      have hsecond : front <+: s := ⟨after, hfront.symm⟩
      rcases List.prefix_or_prefix_of_prefix hfirst hsecond with hle | ⟨extra, rfl⟩
      · exact hle
      · rw [byteLength_append] at hstart
        have hlen := length_le_byteLength extra
        have hextra : extra = [] := List.length_eq_zero_iff.1 (by omega)
        rw [hextra, List.append_nil]
    obtain ⟨part, rfl⟩ := hsub
    rw [hfront, ← hstart, ← hstop, slice_append]
    rfl

theorem findByte_some {p : Char → Bool} {n : ℕ} (h : findByte p s = some n) :
    ∃ before c after, s = before ++ c :: after ∧ byteLength before = n ∧ p c = true ∧
      ∀ x ∈ before, p x = false := by
  induction s generalizing n with
  | nil => cases h
  | cons c s ih =>
    unfold findByte at h
    split_ifs at h with hc
    · cases h
      exact ⟨[], c, s, rfl, rfl, hc, fun x hx => (nomatch hx)⟩
    · obtain ⟨m, hm, rfl⟩ := Option.map_eq_some_iff.1 h
      obtain ⟨before, d, after, rfl, hlen, hd, hbefore⟩ := ih hm
      refine ⟨c :: before, d, after, rfl, ?_, hd, fun x hx => ?_⟩
      · rw [byteLength_cons, hlen]
      · rcases List.mem_cons.1 hx with rfl | hx
        · simpa using hc
        · exact hbefore x hx

theorem findByte_none {p : Char → Bool} (h : findByte p s = none) : ∀ x ∈ s, p x = false := by
  induction s with
  | nil => exact fun x hx => (nomatch hx)
  | cons c s ih =>
    unfold findByte at h
    split_ifs at h with hc
    intro x hx
    rcases List.mem_cons.1 hx with rfl | hx
    · simpa using hc
    · exact ih (Option.map_eq_none_iff.1 h) x hx

end Boundaries

section Plain

variable (serde : SerdeText)

/-- The number in front of a unit is cut at a boundary. -/
theorem sliceNumber_eq (val : List Char) : sliceNumber serde val = some (parseNumber serde val) := by
  unfold sliceNumber parseNumber
  cases parseI64 val with
  | some n => rfl
  | none =>
    cases serde.parseF64 val with
    | some x => rfl
    | none =>
      dsimp only
      cases hfind : findByte (fun c => !numberChar c) val with
      | none => rfl
      | some numEnd =>
        obtain ⟨before, c, after, hval, hlen, -, -⟩ := findByte_some hfind
        have hslice : slice 0 numEnd val = some before := by
          rw [hval, ← hlen]
          exact slice_append [] before (c :: after)
        dsimp only
        rw [hslice]
        split_ifs
        · change (if _ then some (text val) else some (text val)) = _
          split_ifs <;> rfl
        · rfl

theorem sliceTrioValue_eq (val : List Char) : sliceTrioValue serde val = parseTrioValue serde val := by
  unfold sliceTrioValue parseTrioValue
  rw [sliceNumber_eq]

theorem slice_colon {trimmed : List Char} {colon : ℕ}
    (h : findByte (· = ':') trimmed = some colon) :
    ∃ left right, splitOnce [':'] trimmed = some (left, right) ∧
      slice 0 colon trimmed = some left ∧ sliceFrom (colon + 1) trimmed = some right := by
  obtain ⟨left, c, right, rfl, rfl, hc, hleft⟩ := findByte_some h
  obtain rfl : c = ':' := by simpa using hc
  have habsent : ':' ∉ left := fun hmem => by simpa using hleft ':' hmem
  refine ⟨left, right, splitOnce_first habsent right, slice_append [] left (':' :: right), ?_⟩
  have hsplit := splitAtByte_append (left ++ [':']) right
  rw [byteLength_append, List.append_assoc] at hsplit
  unfold sliceFrom
  exact congrArg (Option.map Prod.snd) hsplit

theorem sliceTagLine_eq (d : Decoding) (line : List Char) :
    sliceTagLine serde d line = decodeTagLine serde d line := by
  unfold sliceTagLine decodeTagLine
  dsimp only
  congr 2
  cases hfind : findByte (· = ':') (trim line) with
  | none =>
    have habsent : ':' ∉ trim line := fun hmem => by simpa using findByte_none hfind ':' hmem
    rw [splitOnce_absent habsent]
  | some colon =>
    obtain ⟨left, right, hsplit, hleft, hright⟩ := slice_colon hfind
    rw [hsplit]
    dsimp only
    rw [hleft, hright]
    change (if _ then _ else (sliceTrioValue serde (trim right)).map _) = _
    rw [sliceTrioValue_eq]

theorem sliceTrioRecords_eq (content : List Char) :
    sliceTrioRecords serde content = decodeTrioRecords serde content := by
  have hline : sliceLine serde = decodeLine serde := by
    funext d line
    unfold sliceLine decodeLine
    rw [sliceTagLine_eq]
  unfold sliceTrioRecords decodeTrioRecords
  rw [hline]

end Plain

section Shapes

variable {val : List Char}

def CutsDate (val : List Char) : Prop :=
  byteLength val = 10 ∧ val[4]? = some '-' ∧ val[7]? = some '-' ∧
    (¬Boundary 4 val ∨
      ¬Boundary 7 val ∧ ∃ year, slice 0 4 val = some year ∧ (parseUnsigned (2 ^ 16) year).isSome)

def CutsTime (val : List Char) : Prop :=
  8 ≤ byteLength val ∧ val[2]? = some ':' ∧ val[5]? = some ':' ∧ ¬Boundary 2 val

/-- A value that is tested for a date and a time, and cut where it has no boundary. -/
def CutsCharacter (val : List Char) : Prop :=
  val.head? ≠ some '@' ∧ (CutsDate val ∨ CutsTime val)

theorem boundary_zero (s : List Char) : Boundary 0 s := ⟨[], s, rfl, rfl⟩

theorem slice_eq_none_iff {start stop : ℕ} (h : start ≤ stop) :
    slice start stop val = none ↔ ¬(Boundary start val ∧ Boundary stop val) := by
  rw [← slice_isSome_iff h, Option.not_isSome_iff_eq_none]

theorem chars_of_parse {limit : ℕ} {s : List Char} (h : (parseUnsigned limit s).isSome) :
    ∀ c ∈ s, c.isDigit = true ∨ c = '+' := by
  have hdigits : (if s.head? = some '+' then s.tail else s).all Char.isDigit = true := by
    by_contra hnot
    unfold parseUnsigned at h
    dsimp only at h
    rw [if_pos (by rw [Bool.eq_false_of_not_eq_true hnot]; exact Bool.or_true _)] at h
    cases h
  by_cases hplus : s.head? = some '+'
  · rw [if_pos hplus] at hdigits
    cases s with
    | nil => exact fun c hc => (nomatch hc)
    | cons d s =>
      cases hplus
      intro c hc
      rcases List.mem_cons.1 hc with rfl | hc
      · exact .inr rfl
      · exact .inl (List.all_eq_true.1 hdigits c hc)
  · rw [if_neg hplus] at hdigits
    exact fun c hc => .inl (List.all_eq_true.1 hdigits c hc)

theorem utf8Size_digit {c : Char} (h : c.isDigit = true ∨ c = '+') : c.utf8Size = 1 := by
  obtain hdigit | rfl := h
  · unfold Char.isDigit at hdigit
    simp only [Bool.and_eq_true, decide_eq_true_eq] at hdigit
    exact if_pos (UInt32.le_trans hdigit.2 (by decide))
  · rfl

theorem byteLength_of_parse {limit : ℕ} {s : List Char} (h : (parseUnsigned limit s).isSome) :
    byteLength s = s.length := by
  have hone : s.map Char.utf8Size = s.map fun _ => 1 :=
    List.map_congr_left fun c hc => utf8Size_digit (chars_of_parse h c hc)
  unfold byteLength
  rw [hone]
  simp

theorem front_unique {a b c d : List Char} (h : a ++ b = c ++ d) (hlen : byteLength a = byteLength c) :
    a = c ∧ b = d := by
  have hleft := splitAtByte_append a b
  rw [h, hlen, splitAtByte_append] at hleft
  cases hleft
  exact ⟨rfl, rfl⟩

theorem date_year {year : List Char} (hlen : byteLength val = 10) (hfirst : val[4]? = some '-')
    (hsecond : val[7]? = some '-') (hyear : slice 0 4 val = some year)
    (hparse : (parseUnsigned (2 ^ 16) year).isSome) :
    ∃ rest, val = year ++ '-' :: rest ∧ byteLength (year ++ ['-']) = 5 ∧ year.length = 4 ∧
      byteLength rest = 5 ∧ rest[2]? = some '-' := by
  obtain ⟨before, after, rfl, hbefore, hfour⟩ := slice_some hyear
  have hnil : before = [] := List.length_eq_zero_iff.1 (by
    have := length_le_byteLength before
    omega)
  subst hnil
  rw [List.nil_append] at hlen hfirst hsecond hfour ⊢
  have hlength : year.length = 4 := (byteLength_of_parse hparse).symm.trans hfour
  cases after with
  | nil => simp [hlength] at hfirst
  | cons c rest =>
    rw [List.getElem?_append_right (by omega), hlength] at hfirst hsecond
    cases hfirst
    refine ⟨rest, rfl, ?_, hlength, ?_, hsecond⟩
    · rw [byteLength_append, hfour]
      rfl
    · rw [byteLength_append, hfour, byteLength_cons] at hlen
      have hdash : '-'.utf8Size = 1 := rfl
      omega

/-- The parts of a date whose month is one too: the day ends where the text does. -/
theorem date_month {front rest month : List Char} (hfront : byteLength front = 5)
    (hlen : byteLength rest = 5) (hsecond : rest[2]? = some '-')
    (hmonth : slice 5 7 (front ++ rest) = some month)
    (hparse : (parseUnsigned (2 ^ 8) month).isSome) :
    ∃ day, slice 8 10 (front ++ rest) = some day := by
  obtain ⟨before, after, heq, hbefore, hseven⟩ := slice_some hmonth
  rw [List.append_assoc] at heq
  obtain ⟨rfl, rfl⟩ := front_unique heq (hfront.trans hbefore.symm)
  have hlength : month.length = 2 := by
    rw [byteLength_append] at hseven
    have := byteLength_of_parse hparse
    omega
  cases after with
  | nil => simp [hlength] at hsecond
  | cons c day =>
    rw [List.getElem?_append_right (by omega), hlength] at hsecond
    cases hsecond
    have hslice := slice_append (front ++ (month ++ ['-'])) day []
    have hdash : byteLength ['-'] = 1 := rfl
    have hstart : byteLength (front ++ (month ++ ['-'])) = 8 := by
      rw [byteLength_append] at hseven
      rw [byteLength_append, byteLength_append]
      omega
    have hstop : byteLength (front ++ (month ++ ['-']) ++ day) = 10 := by
      rw [byteLength_append, byteLength_cons] at hlen
      rw [byteLength_append] at hseven
      rw [byteLength_append, byteLength_append, byteLength_append]
      have hsize : '-'.utf8Size = 1 := rfl
      omega
    rw [hstart, hstop, List.append_nil, List.append_assoc, List.append_assoc] at hslice
    exact ⟨day, hslice⟩

theorem isDate_eq_none_iff : isDate val = none ↔ CutsDate val := by
  unfold isDate CutsDate
  by_cases hshape : byteLength val = 10 ∧ val[4]? = some '-' ∧ val[7]? = some '-'
  · rw [if_pos hshape]
    obtain ⟨hlen, hfirst, hsecond⟩ := hshape
    cases hyear : slice 0 4 val with
    | none =>
      refine iff_of_true rfl ⟨hlen, hfirst, hsecond, .inl fun hfour => ?_⟩
      exact (slice_eq_none_iff (by decide)).1 hyear ⟨boundary_zero val, hfour⟩
    | some year =>
      have hfour : Boundary 4 val := ((@slice_isSome_iff val 0 4 (by decide)).1 (by rw [hyear]; rfl)).2
      change (if (parseUnsigned (2 ^ 16) year).isNone then some false else _) = none ↔ _
      cases hparse : parseUnsigned (2 ^ 16) year with
      | none =>
        refine iff_of_false (fun h => nomatch h) ?_
        rintro ⟨-, -, -, hcut | ⟨-, year', heq, hsome⟩⟩
        · exact hcut hfour
        · cases heq
          rw [hparse] at hsome
          cases hsome
      | some y =>
        have hsome : (parseUnsigned (2 ^ 16) year).isSome := by rw [hparse]; rfl
        obtain ⟨rest, hval, hfront, -, hrest, hdash⟩ := date_year hlen hfirst hsecond hyear hsome
        have hfive : Boundary 5 val := ⟨year ++ ['-'], rest, by simp [hval], hfront⟩
        change (slice 5 7 val).bind _ = none ↔ _
        cases hmonth : slice 5 7 val with
        | none =>
          refine iff_of_true rfl ⟨hlen, hfirst, hsecond, .inr ⟨fun hseven => ?_, year, rfl, hsome⟩⟩
          exact (slice_eq_none_iff (by decide)).1 hmonth ⟨hfive, hseven⟩
        | some month =>
          have hseven : Boundary 7 val :=
            ((@slice_isSome_iff val 5 7 (by decide)).1 (by rw [hmonth]; rfl)).2
          refine iff_of_false ?_ ?_
          · change (if (parseUnsigned (2 ^ 8) month).isNone then some false else _) ≠ none
            cases hday : parseUnsigned (2 ^ 8) month with
            | none => exact fun h => nomatch h
            | some m =>
              have hsplit : val = (year ++ ['-']) ++ rest := by simp [hval]
              rw [hsplit] at hmonth ⊢
              obtain ⟨day, hslice⟩ := date_month hfront hrest hdash hmonth (by rw [hday]; rfl)
              rw [hslice]
              exact fun h => nomatch h
          · rintro ⟨-, -, -, hcut | ⟨hcut, -⟩⟩
            · exact hcut hfour
            · exact hcut hseven
  · rw [if_neg hshape]
    exact iff_of_false (fun h => nomatch h) fun h => hshape ⟨h.1, h.2.1, h.2.2.1⟩

theorem isTime_eq_none_iff : isTime val = none ↔ CutsTime val := by
  unfold isTime CutsTime
  split_ifs with hshape
  · rw [Option.map_eq_none_iff, slice_eq_none_iff (by decide)]
    constructor
    · intro hcut
      exact ⟨hshape.1, hshape.2.1, hshape.2.2, fun htwo => hcut ⟨boundary_zero val, htwo⟩⟩
    · rintro ⟨-, -, -, htwo⟩ hboth
      exact htwo hboth.2
  · refine iff_of_false (fun h => nomatch h) fun h => hshape ⟨h.1, h.2.1, h.2.2.1⟩

theorem isTime_of_isDate (h : isDate val = some true) : isTime val = some false := by
  unfold isTime
  refine if_neg fun htime => ?_
  have hshape : byteLength val = 10 ∧ val[4]? = some '-' ∧ val[7]? = some '-' := by
    by_contra hnot
    unfold isDate at h
    rw [if_neg hnot] at h
    cases h
  unfold isDate at h
  rw [if_pos hshape] at h
  obtain ⟨year, hyear, hrest⟩ := Option.bind_eq_some_iff.1 h
  have hsome : (parseUnsigned (2 ^ 16) year).isSome := by
    by_contra hnone
    rw [Option.not_isSome_iff_eq_none] at hnone
    rw [if_pos (by rw [hnone]; rfl)] at hrest
    cases hrest
  obtain ⟨rest, rfl, -, hlength, -, -⟩ := date_year hshape.1 hshape.2.1 hshape.2.2 hyear hsome
  have hcolon : year[2]? = some ':' := by
    rw [← List.getElem?_append_left (by omega)]
    exact htime.2.1
  obtain hdigit | hplus := chars_of_parse hsome ':' (List.mem_of_getElem? hcolon)
  · exact absurd hdigit (by decide)
  · exact absurd hplus (by decide)

variable (serde : SerdeText)

theorem not_cuts_short (h : byteLength val < 8) : ¬CutsCharacter val := by
  rintro ⟨-, hdate | htime⟩
  · have := hdate.1
    omega
  · have := htime.1
    omega

theorem parseTrioValue_eq_none_iff : parseTrioValue serde val = none ↔ CutsCharacter val := by
  unfold parseTrioValue
  split_ifs with hnull htrue hfalse href
  · exact iff_of_false (fun h => nomatch h) (not_cuts_short (by rw [hnull]; decide))
  · exact iff_of_false (fun h => nomatch h) (not_cuts_short (by rw [htrue]; decide))
  · exact iff_of_false (fun h => nomatch h) (not_cuts_short (by rw [hfalse]; decide))
  · exact iff_of_false (fun h => nomatch h) fun h => h.1 href
  · unfold CutsCharacter
    rw [← isDate_eq_none_iff, ← isTime_eq_none_iff]
    cases hdate : isDate val with
    | none => exact iff_of_true rfl ⟨href, .inl rfl⟩
    | some date =>
      cases date with
      | true =>
        rw [isTime_of_isDate hdate]
        refine iff_of_false (fun h => nomatch h) ?_
        rintro ⟨-, h | h⟩ <;> cases h
      | false =>
        cases isTime val with
        | none => exact iff_of_true rfl ⟨href, .inr rfl⟩
        | some time =>
          refine iff_of_false ?_ ?_
          · cases time <;> exact fun h => nomatch h
          · rintro ⟨-, h | h⟩ <;> cases h

end Shapes

section Texts

/-- The value texts of the lines that are no continuation, blank line or comment. A line
    without a value opens a multi-line value. -/
def valueTexts : Bool → List (List Char) → List (List Char)
  | _, [] => []
  | opened, line :: rest =>
    if opened ∧ "  ".toList.isPrefixOf line then valueTexts true rest
    else if trim line = [] ∨ "//".toList.isPrefixOf (trim line) then valueTexts false rest
    else
      match splitOnce [':'] (trim line) with
      | none => valueTexts false rest
      | some (_, right) =>
        if trim right = [] then valueTexts true rest else trim right :: valueTexts false rest

variable {serde : SerdeText}

theorem endMultiline_key (d : Decoding) : d.endMultiline.multilineKey = none := by
  unfold Decoding.endMultiline
  split
  · rfl
  · assumption

theorem endRecord_key (d : Decoding) : d.endRecord.multilineKey = d.multilineKey := by
  unfold Decoding.endRecord
  split_ifs <;> rfl

/-- The lines are decoded exactly if no value text among them cuts a character. -/
theorem decodeLines_iff (rest : List (List Char)) (d : Decoding) :
    (rest.foldlM (decodeLine serde) d).isSome ↔
      ∀ val ∈ valueTexts d.multilineKey.isSome rest, ¬CutsCharacter val := by
  induction rest generalizing d with
  | nil => exact iff_of_true rfl fun val hval => nomatch hval
  | cons line rest ih =>
    have hstep {d' : Decoding} (h : decodeLine serde d line = some d') :
        ((line :: rest).foldlM (decodeLine serde) d) = rest.foldlM (decodeLine serde) d' := by
      rw [List.foldlM_cons, h]
      rfl
    unfold valueTexts
    by_cases hopen : d.multilineKey.isSome ∧ "  ".toList.isPrefixOf line
    · have hnext : decodeLine serde d line =
          some { d with multilineBuf := joinLine d.multilineBuf (trimStart line) } := if_pos hopen
      rw [hstep hnext, if_pos hopen, ih, hopen.1]
    · have hline : decodeLine serde d line = decodeTagLine serde d.endMultiline line := if_neg hopen
      have hkey := endMultiline_key d
      rw [if_neg hopen]
      generalize d.endMultiline = e at hline hkey
      unfold decodeTagLine at hline
      dsimp only at hline
      by_cases hblank : trim line = []
      · rw [if_pos hblank] at hline
        rw [hstep hline, if_pos (.inl hblank), ih, endRecord_key, hkey]
        rfl
      · rw [if_neg hblank] at hline
        by_cases hcomment : "//".toList.isPrefixOf (trim line)
        · rw [if_pos hcomment] at hline
          rw [hstep hline, if_pos (.inr hcomment), ih, hkey]
          rfl
        · rw [if_neg hcomment] at hline
          rw [if_neg (not_or.2 ⟨hblank, hcomment⟩)]
          cases hsplit : splitOnce [':'] (trim line) with
          | none =>
            rw [hsplit] at hline
            rw [hstep hline, ih]
            change (∀ val ∈ valueTexts e.multilineKey.isSome rest, _) ↔ _
            rw [hkey]
            rfl
          | some parts =>
            obtain ⟨left, right⟩ := parts
            rw [hsplit] at hline
            dsimp only at hline ⊢
            by_cases hempty : trim right = []
            · rw [if_pos hempty] at hline
              rw [hstep hline, ih, if_pos hempty]
              rfl
            · rw [if_neg hempty] at hline
              rw [if_neg hempty, List.forall_mem_cons]
              cases hvalue : parseTrioValue serde (trim right) with
              | none =>
                rw [hvalue] at hline
                rw [List.foldlM_cons, hline]
                refine iff_of_false (fun h => nomatch h) fun h => ?_
                exact h.1 ((parseTrioValue_eq_none_iff serde).1 hvalue)
              | some value =>
                rw [hvalue] at hline
                rw [hstep hline, ih]
                change (∀ val ∈ valueTexts e.multilineKey.isSome rest, _) ↔ _
                have hwhole : ¬CutsCharacter (trim right) := fun hcuts => by
                  rw [(parseTrioValue_eq_none_iff serde).2 hcuts] at hvalue
                  cases hvalue
                rw [hkey]
                exact ⟨fun h => ⟨hwhole, h⟩, fun h => h.2⟩

/-- The decoder returns exactly if no value text is a date or a time by its shape with a
    character where the test cuts it. -/
theorem trio_decoded_iff (serde : SerdeText) (content : List Char) :
    (sliceTrioRecords serde content).isSome ↔
      ∀ val ∈ valueTexts false (lines content), ¬CutsCharacter val := by
  rw [sliceTrioRecords_eq]
  unfold decodeTrioRecords
  rw [Option.isSome_map]
  exact decodeLines_iff (lines content) Decoding.start

/-- A value with its dashes where a date has them and an accent before the first, and one with the
    colons of a time. -/
theorem accented_values_panic :
    sliceTrioRecords ⟨fun _ => none, fun _ => [], fun _ => []⟩ "a:123é-01-5".toList = none ∧
      sliceTrioRecords ⟨fun _ => none, fun _ => [], fun _ => []⟩ "a:1é:00:00".toList = none := by
  refine ⟨?_, ?_⟩ <;> decide +kernel

end Texts

end Sandstar.Trio
