import Sandstar.ZincRoundTrip

set_option autoImplicit false

namespace Sandstar.ZincWriter
open RoxWarp Zinc

section Cell

variable {F : Type} {float : FloatText F}

def stringOf (float : FloatText F) : ZincValue F → Option String
  | .null => none
  | .str s => some s
  | value => some (String.ofList (writeZincValue float value))

def CellReads (grid : Zinc.ZincGrid) (row : ℕ) (tag : String) (value : ZincValue F) : Prop :=
  (∀ s, value = .str s → ∀ default, grid.string row tag default = s) ∧
    (grid.marker row tag = true ↔ value = .marker) ∧ (grid.isNull row tag = true ↔ value = .null)

def ReadsAs (float : FloatText F) (read value : ZincValue F) : Prop :=
  (∀ s, value = .str s → stringOf float read = some s) ∧
    (read = .marker ↔ value = .marker) ∧ (read = .null ↔ value = .null)

theorem readsAs_self (value : ZincValue F) : ReadsAs float value value :=
  ⟨fun s h => by rw [h]; rfl, Iff.rfl, Iff.rfl⟩

theorem ofList_eq_iff {l : List Char} {s : String} : String.ofList l = s ↔ l = s.toList := by
  constructor
  · rintro rfl
    exact String.toList_ofList.symm
  · rintro rfl
    exact String.ofList_toList

theorem written_marker {value : ZincValue F} (h : PlainValue float value) :
    String.ofList (writeZincValue float value) = "M" ↔ value = .marker := by
  rw [ofList_eq_iff]
  cases value with
  | marker => simp [writeZincValue]
  | null => simp [writeZincValue]
  | str s => simp [writeZincValue]
  | num n unit => simpa [writeZincValue] using h.not_marker
  | bool b => cases b <;> simp [writeZincValue]
  | dateTime text => simpa [writeZincValue] using h.not_marker

theorem written_null {value : ZincValue F} (h : PlainValue float value) :
    String.ofList (writeZincValue float value) = "N" ↔ value = .null := by
  rw [ofList_eq_iff]
  cases value with
  | marker => simp [writeZincValue]
  | null => simp [writeZincValue]
  | str s => simp [writeZincValue]
  | num n unit => simpa [writeZincValue] using h.not_null
  | bool b => cases b <;> simp [writeZincValue]
  | dateTime text => simpa [writeZincValue] using h.not_null

theorem written_ne_empty {value : ZincValue F} (h : PlainValue float value) :
    String.ofList (writeZincValue float value) ≠ "" := by
  rw [Ne, ofList_eq_iff]
  rcases (solid_value h).starts with ⟨c, cs, hstart, -⟩
  rw [hstart]
  exact List.cons_ne_nil c cs

theorem stripQuotes_string {s : List Char} (h : Clean s) :
    stripQuotes ('"' :: (escape s ++ ['"'])) = s := by
  have hinner : ('"' :: (escape s ++ ['"'])).tail.dropLast = escape s := by simp
  have hback := unescape_escape h []
  rw [List.append_nil, show unescape [] = [] from rfl, List.append_nil] at hback
  have hquoted : ('"' :: (escape s ++ ['"'])).head? = some '"' ∧
      ('"' :: (escape s ++ ['"'])).getLast? = some '"' ∧
      2 ≤ ('"' :: (escape s ++ ['"'])).length := by
    rw [← List.cons_append]
    exact ⟨rfl, List.getLast?_concat, by simp⟩
  unfold stripQuotes
  rw [if_pos hquoted, hinner]
  exact hback

theorem stripQuotes_other {s : List Char} (h : s.head? ≠ some '"') : stripQuotes s = s :=
  if_neg fun hquoted => h hquoted.1

variable {grid : Zinc.ZincGrid} {row : ℕ} {tag : String} {read : ZincValue F}

theorem string_written
    (hcell : grid.cell row tag = some (String.ofList (writeZincValue float read)))
    (h : PlainValue float read) (hclean : CleanValue read) (default : String) :
    grid.string row tag default = (stringOf float read).getD default := by
  have hsome : read ≠ .null → ¬ (String.ofList (writeZincValue float read) = "" ∨
      String.ofList (writeZincValue float read) = "N") := by
    rintro hne (hempty | hnull)
    · exact written_ne_empty h hempty
    · exact hne ((written_null h).1 hnull)
  have hletters : ∀ s : List Char, s.head? ≠ some '"' →
      String.ofList (stripQuotes (String.ofList s).toList) = String.ofList s := by
    intro s hs
    rw [String.toList_ofList, stripQuotes_other hs]
  unfold Zinc.ZincGrid.string
  rw [hcell]
  dsimp only
  cases read with
  | null => rfl
  | marker =>
    rw [if_neg (hsome nofun)]
    exact hletters ['M'] (by decide)
  | bool b =>
    rw [if_neg (hsome nofun)]
    cases b with
    | true => exact hletters ['T'] (by decide)
    | false => exact hletters ['F'] (by decide)
  | str s =>
    rw [if_neg (hsome nofun)]
    change String.ofList (stripQuotes (String.ofList _).toList) = s
    rw [String.toList_ofList]
    exact ofList_eq_iff.2 (stripQuotes_string hclean)
  | num n unit =>
    rw [if_neg (hsome nofun)]
    exact hletters _ fun hhead => (h.chars '"' (List.mem_of_head? hhead)).1.1 rfl
  | dateTime text =>
    rw [if_neg (hsome nofun)]
    exact hletters _ fun hhead => (h.chars '"' (List.mem_of_head? hhead)).1.1 rfl

theorem cellReads_iff
    (hcell : grid.cell row tag = some (String.ofList (writeZincValue float read)))
    (h : PlainValue float read) (hclean : CleanValue read) (value : ZincValue F) :
    CellReads grid row tag value ↔ ReadsAs float read value := by
  have hmarker : grid.marker row tag = true ↔ read = .marker := by
    unfold Zinc.ZincGrid.marker
    rw [hcell, decide_eq_true_eq, Option.some_inj]
    exact written_marker h
  have hnull : grid.isNull row tag = true ↔ read = .null := by
    unfold Zinc.ZincGrid.isNull
    rw [hcell]
    dsimp only
    rw [decide_eq_true_eq, or_iff_right (written_ne_empty h)]
    exact written_null h
  have hstring : ∀ s, (∀ default, grid.string row tag default = s) ↔
      stringOf float read = some s := by
    intro s
    constructor
    · intro hall
      cases hread : stringOf float read with
      | some u =>
        have hu := hall ""
        rw [string_written hcell h hclean, hread] at hu
        exact congrArg some hu
      | none =>
        have hone := hall ""
        have htwo := hall "N"
        rw [string_written hcell h hclean, hread] at hone htwo
        exact absurd (hone.trans htwo.symm) (by decide)
    · intro hread default
      rw [string_written hcell h hclean, hread]
      rfl
  unfold CellReads ReadsAs
  rw [hmarker, hnull]
  exact and_congr_left fun _ => forall₂_congr fun s _ => hstring s

end Cell

section Grid

variable {F : Type} {float : FloatText F} {grid : ZincGrid F}

def LastNamed (names : List String) (k : ℕ) (name : String) : Prop :=
  names[k]? = some name ∧ ∀ l, k < l → names[l]? ≠ some name

theorem exists_last {names : List String} {j : ℕ} {name : String} (h : names[j]? = some name) :
    ∃ k, LastNamed names k name := by
  have hbound : ∀ l, names[l]? = some name → l ≤ names.length := by
    intro l hl
    exact (List.getElem?_eq_some_iff.1 hl).1.le
  let P : ℕ → Prop := fun l => names[l]? = some name
  have hspec : P (Nat.findGreatest P names.length) := Nat.findGreatest_spec (hbound j h) h
  refine ⟨Nat.findGreatest P names.length, hspec, fun l hl hname => ?_⟩
  exact (Nat.findGreatest_is_greatest hl (hbound l hname) : ¬ P l) hname

theorem colIndex_last {names : List String} {rows : List (List String)} {k : ℕ} {name : String}
    (h : LastNamed names k name) : (⟨names, rows⟩ : Zinc.ZincGrid).colIndex name = some k := by
  obtain ⟨hk, hkname⟩ := List.getElem?_eq_some_iff.1 h.1
  have hfind : names.reverse.findIdx? (· == name) = some (names.length - 1 - k) := by
    rw [List.findIdx?_eq_some_iff_getElem]
    refine ⟨by rw [List.length_reverse]; omega, ?_, fun i hi => ?_⟩
    · rw [List.getElem_reverse, beq_iff_eq, ← hkname]
      congr 1
      omega
    · have hlater := h.2 (names.length - 1 - i) (by omega)
      rw [List.getElem_reverse, beq_iff_eq]
      intro heq
      exact hlater (List.getElem?_eq_some_iff.2 ⟨by omega, heq⟩)
  unfold Zinc.ZincGrid.colIndex
  rw [hfind, Option.map_some]
  dsimp only
  congr 1
  omega

theorem cell_parsed {i k : ℕ} {row : List (ZincValue F)} {name : String}
    (hrow : grid.rows[i]? = some row) (hk : LastNamed (columnNames grid) k name) :
    (parsed float grid).cell i name =
      (parseRow (ZincGrid.rowLine float row) grid.columns.length)[k]? := by
  unfold Zinc.ZincGrid.cell parsed
  rw [colIndex_last hk, Option.bind_some]
  dsimp only
  rw [List.getElem?_map, hrow]
  rfl

def CleanStrings (grid : ZincGrid F) : Prop := ∀ row ∈ grid.rows, ∀ value ∈ row, CleanValue value

def ReadsBack (float : FloatText F) (grid : ZincGrid F) : Prop :=
  ∃ back, Zinc.ZincGrid.parse (grid.toZinc float) = .ok back ∧
    back.rowCount = grid.rows.length ∧
    ∀ (i j : ℕ) (row : List (ZincValue F)) value name, grid.rows[i]? = some row →
      row[j]? = some value → (columnNames grid)[j]? = some name → CellReads back i name value

/-- In every row the cell of a repeated name reads as each earlier one. -/
def RepeatedAgree (float : FloatText F) (grid : ZincGrid F) : Prop :=
  ∀ row ∈ grid.rows, ∀ (j k : ℕ) name value last, (columnNames grid)[j]? = some name →
    LastNamed (columnNames grid) k name → row[j]? = some value → row[k]? = some last →
    ReadsAs float last value

theorem readsBack_parsed (htab : Tabular grid) (htexts : PlainTexts float grid) :
    ReadsBack float grid ↔ ∀ (i j : ℕ) (row : List (ZincValue F)) value name,
      grid.rows[i]? = some row → row[j]? = some value → (columnNames grid)[j]? = some name →
      CellReads (parsed float grid) i name value := by
  have hparse := parse_toZinc htab htexts
  constructor
  · rintro ⟨back, hback, -, hcells⟩
    rw [hparse] at hback
    cases hback
    exact hcells
  · intro hcells
    exact ⟨parsed float grid, hparse, List.length_map _, hcells⟩

theorem parseRow_clean (htab : Tabular grid) (htexts : PlainTexts float grid)
    {row : List (ZincValue F)} (hrow : row ∈ grid.rows)
    (hclean : ∀ value ∈ row, CleanValue value) :
    parseRow (ZincGrid.rowLine float row) grid.columns.length = writtenCells float row := by
  have hcells := cellsFrom_rowLine (row_ne_nil htab hrow) (htexts.values row hrow) hclean
  change (let cells := cellsFrom [] (ZincGrid.rowLine float row)
    cells ++ List.replicate (grid.columns.length - cells.length) "") = _
  rw [hcells]
  dsimp only
  have hlength : (writtenCells float row).length = grid.columns.length :=
    (List.length_map _).trans (htab.width row hrow)
  rw [hlength, Nat.sub_self, List.replicate_zero, List.append_nil]

theorem readsBack_clean (htab : Tabular grid) (htexts : PlainTexts float grid)
    (hclean : CleanStrings grid) : ReadsBack float grid ↔ RepeatedAgree float grid := by
  have hcell : ∀ i k row name last, grid.rows[i]? = some row → row[k]? = some last →
      LastNamed (columnNames grid) k name → ∀ value,
      CellReads (parsed float grid) i name value ↔ ReadsAs float last value := by
    intro i k row name last hrow hlast hk
    have hmem := List.mem_of_getElem? hrow
    apply cellReads_iff
    · rw [cell_parsed hrow hk, parseRow_clean htab htexts hmem (hclean row hmem)]
      unfold writtenCells
      rw [List.getElem?_map, hlast]
      rfl
    · exact htexts.values row hmem last (List.mem_of_getElem? hlast)
    · exact hclean row hmem last (List.mem_of_getElem? hlast)
  rw [readsBack_parsed htab htexts]
  constructor
  · intro hback row hmem j k name value last hj hk hvalue hlast
    obtain ⟨i, hi, rfl⟩ := List.getElem_of_mem hmem
    have hrow : grid.rows[i]? = some grid.rows[i] := List.getElem?_eq_getElem hi
    exact (hcell i k _ name last hrow hlast hk value).1 (hback i j _ value name hrow hvalue hj)
  · intro hagree i j row value name hrow hvalue hj
    have hmem := List.mem_of_getElem? hrow
    obtain ⟨k, hk⟩ := exists_last hj
    have hwidth : k < row.length := by
      have hbound := (List.getElem?_eq_some_iff.1 hk.1).1
      rw [htab.width row hmem]
      rwa [columnNames, List.length_map] at hbound
    have hlast : row[k]? = some row[k] := List.getElem?_eq_getElem hwidth
    exact (hcell i k row name _ hrow hlast hk value).2
      (hagree row hmem j k name value _ hj hk hvalue hlast)

theorem first_failing {α : Type} {P : α → Prop} {as : List α} (h : ¬ ∀ a ∈ as, P a) :
    ∃ before a after, as = before ++ a :: after ∧ (∀ b ∈ before, P b) ∧ ¬ P a := by
  induction as with
  | nil => exact absurd (fun a ha => absurd ha List.not_mem_nil) h
  | cons a as ih =>
    by_cases ha : P a
    · have hrest : ¬ ∀ b ∈ as, P b := fun hall => h (List.forall_mem_cons.2 ⟨ha, hall⟩)
      obtain ⟨before, b, after, rfl, hbefore, hb⟩ := ih hrest
      exact ⟨a :: before, b, after, rfl, List.forall_mem_cons.2 ⟨ha, hbefore⟩, hb⟩
    · exact ⟨[], a, as, rfl, fun b hb => absurd hb List.not_mem_nil, ha⟩

theorem length_le_escape (s : List Char) : s.length ≤ (escape s).length := by
  induction s with
  | nil => exact le_refl _
  | cons c s ih =>
    have hc : 0 < (escapeChar c).length := by
      unfold escapeChar
      split <;> exact Nat.succ_pos _
    rw [escape_cons, List.length_append, List.length_cons]
    omega

/-- A cell that starts with an escaped string reads as that string only if it is clean. -/
theorem clean_of_stripQuotes {s more : List Char}
    (h : stripQuotes ('"' :: (escape s ++ '"' :: more)) = s) : Clean s := by
  have hlonger := length_le_escape s
  unfold stripQuotes at h
  split_ifs at h with hquoted
  · rw [List.tail_cons, List.dropLast_append_of_ne_nil (List.cons_ne_nil _ _)] at h
    refine clean_of_unescape ?_ h
    cases more with
    | nil => exact .inl rfl
    | cons c more => exact .inr rfl
  · have hlength := congrArg List.length h
    simp only [List.length_cons, List.length_append] at hlength
    omega

theorem lastNamed_of_nodup {names : List String} (h : names.Nodup) {k : ℕ} {name : String}
    (hk : names[k]? = some name) : LastNamed names k name := by
  refine ⟨hk, fun l hl hname => ?_⟩
  have hsame := (List.getElem?_inj (List.getElem?_eq_some_iff.1 hk).1 h).1 (hk.trans hname.symm)
  omega

theorem clean_of_readsBack (htab : Tabular grid) (htexts : PlainTexts float grid)
    (hnames : (columnNames grid).Nodup) (hback : ReadsBack float grid) : CleanStrings grid := by
  rw [readsBack_parsed htab htexts] at hback
  intro row hmem
  by_contra hdirty
  obtain ⟨before, value, after, hrow, hbefore, hvalue⟩ := first_failing hdirty
  obtain ⟨s, rfl, hs⟩ : ∃ s, value = .str s ∧ ¬ Clean s.toList := by
    cases value with
    | str s => exact ⟨s, rfl, hvalue⟩
    | marker | null | num n unit | bool b | dateTime text => exact absurd trivial hvalue
  obtain ⟨i, hi, hget⟩ := List.getElem_of_mem hmem
  have hat : grid.rows[i]? = some row := List.getElem?_eq_some_iff.2 ⟨hi, hget⟩
  have hcell : row[before.length]? = some (.str s) := by
    rw [hrow]
    simp
  have hbound : before.length < (columnNames grid).length := by
    have hlength := htab.width row hmem
    rw [hrow, List.length_append, List.length_cons] at hlength
    rw [columnNames, List.length_map]
    omega
  have hname := List.getElem?_eq_getElem hbound
  have hplain : ∀ v ∈ before, PlainValue float v := fun v hv =>
    htexts.values row hmem v (by rw [hrow]; exact List.mem_append_left _ hv)
  obtain ⟨more, cells, hcells⟩ := @cellsFrom_rowLine_string F float before after s hplain
    hbefore
  have htext : (parsed float grid).cell i (columnNames grid)[before.length] =
      some (String.ofList ('"' :: (escape s.toList ++ '"' :: more))) := by
    rw [cell_parsed hat (lastNamed_of_nodup hnames hname), hrow]
    change (cellsFrom [] (ZincGrid.rowLine float (before ++ .str s :: after)) ++ _)[_]? = _
    rw [hcells, List.append_assoc]
    have hplace : (writtenCells float before).length = before.length := List.length_map _
    rw [← hplace, List.getElem?_append_right (le_refl _), Nat.sub_self]
    rfl
  have hread := (hback i before.length row (.str s) _ hat hcell hname).1 s rfl ""
  unfold Zinc.ZincGrid.string at hread
  rw [htext] at hread
  dsimp only at hread
  have hfull : ¬ (String.ofList ('"' :: (escape s.toList ++ '"' :: more)) = "" ∨
      String.ofList ('"' :: (escape s.toList ++ '"' :: more)) = "N") := by
    rintro (hempty | hnull)
    · exact absurd (ofList_eq_iff.1 hempty) (List.cons_ne_nil _ _)
    · exact absurd (List.cons.inj (ofList_eq_iff.1 hnull)).1 (by decide)
  rw [if_neg hfull, String.toList_ofList, ofList_eq_iff] at hread
  exact hs (clean_of_stripQuotes hread)

/-- A grid whose columns have different names is read back exactly if no string has a
    backslash, a carriage return or a tab; one whose strings are so, exactly if the cells of
    a repeated name read alike. -/
theorem readsBack_iff (htab : Tabular grid) (htexts : PlainTexts float grid) :
    ((columnNames grid).Nodup → (ReadsBack float grid ↔ CleanStrings grid)) ∧
      (CleanStrings grid → (ReadsBack float grid ↔ RepeatedAgree float grid)) := by
  refine ⟨fun hnames => ⟨clean_of_readsBack htab htexts hnames, fun hclean => ?_⟩,
    readsBack_clean htab htexts⟩
  rw [readsBack_clean htab htexts hclean]
  intro row hmem j k name value last hj hk hvalue hlast
  have hsame : j = k := (List.getElem?_inj (List.getElem?_eq_some_iff.1 hj).1 hnames).1
    (hj.trans hk.1.symm)
  rw [hsame, hlast] at hvalue
  rw [Option.some.inj hvalue]
  exact readsAs_self value

end Grid

def wholeNumbers : FloatText ℕ :=
  ⟨fun _ => false, fun _ => false, fun _ => true, fun n => (toString n).toList⟩

def siteGrid (dis : String) : ZincGrid ℕ :=
  ⟨[], [⟨"site", []⟩, ⟨"dis", []⟩], [[.marker, .str dis]]⟩

theorem tabular_siteGrid (dis : String) : Tabular (siteGrid dis) where
  columns_ne := List.cons_ne_nil _ _
  names := by simp [siteGrid, isWhitespace]
  bare := by simp [siteGrid]
  width := by simp [siteGrid]

theorem plainTexts_siteGrid (dis : String) : PlainTexts wholeNumbers (siteGrid dis) where
  metadata := by simp [siteGrid]
  values := by simp [siteGrid, PlainValue]

theorem names_siteGrid (dis : String) : (columnNames (siteGrid dis)).Nodup := by
  simp [siteGrid, columnNames]

theorem readsBack_quoted : ReadsBack wholeNumbers (siteGrid "Plant \"A\", north") := by
  refine ((readsBack_iff (tabular_siteGrid _) (plainTexts_siteGrid _)).1 (names_siteGrid _)).2 ?_
  intro row hrow value hvalue
  rw [List.mem_singleton.1 hrow] at hvalue
  rcases List.mem_cons.1 hvalue with rfl | hvalue
  · trivial
  · rw [List.mem_singleton.1 hvalue]
    change Clean "Plant \"A\", north".toList
    decide

/-- A backslash comes back doubled. -/
theorem backslash_not_read : ¬ ∀ grid : ZincGrid ℕ, Tabular grid → PlainTexts wholeNumbers grid →
    ReadsBack wholeNumbers grid := by
  intro h
  have hback := h (siteGrid "C:\\new") (tabular_siteGrid _) (plainTexts_siteGrid _)
  have hclean := clean_of_readsBack (tabular_siteGrid _) (plainTexts_siteGrid _) (names_siteGrid _)
    hback
  have hdis : Clean "C:\\new".toList :=
    hclean _ List.mem_cons_self (.str "C:\\new") (List.mem_cons_of_mem _ List.mem_cons_self)
  exact (hdis '\\' (by decide)).1 rfl

end Sandstar.ZincWriter
