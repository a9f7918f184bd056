import Sandstar.ZincWriter

set_option autoImplicit false

namespace Sandstar.ZincWriter
open RoxWarp Zinc

section Cells

variable {F : Type} (float : FloatText F)

/-- A number with its unit, or a date, as the writer expects them: no separator, no quote or
    bracket, no blank at its ends, and not the letter of a marker or of null. -/
structure PlainText (s : List Char) : Prop where
  solid : Solid s
  chars : ∀ c ∈ s, PlainChar c ∧ c ≠ '\n'
  not_marker : s ≠ ['M']
  not_null : s ≠ ['N']

def PlainValue : ZincValue F → Prop
  | .num n unit => PlainText (writeNum float n unit)
  | .dateTime text => PlainText text.toList
  | _ => True

def CleanValue : ZincValue F → Prop
  | .str s => Clean s.toList
  | _ => True

variable {float} {value : ZincValue F}

theorem solid_value (h : PlainValue float value) : Solid (writeZincValue float value) := by
  have hletter : ∀ c : Char, isWhitespace c = false → Solid [c] :=
    fun c hc => ⟨⟨c, [], rfl, hc⟩, ⟨[], c, rfl, hc⟩⟩
  cases value with
  | marker => exact hletter 'M' (by decide)
  | null => exact hletter 'N' (by decide)
  | bool b => cases b with
    | true => exact hletter 'T' (by decide)
    | false => exact hletter 'F' (by decide)
  | num n unit => exact h.solid
  | dateTime text => exact h.solid
  | str s => exact ⟨⟨'"', _, rfl, by decide⟩, ⟨'"' :: escape s.toList, '"', rfl, by decide⟩⟩

theorem escape_no_line (s : List Char) : '\n' ∉ escape s := by
  intro hmem
  obtain ⟨c, -, hc⟩ := List.mem_flatMap.1 hmem
  unfold escapeChar at hc
  split at hc
  · exact absurd hc (by decide)
  · exact absurd hc (by decide)
  · exact absurd hc (by decide)
  · exact absurd hc (by decide)
  · exact absurd hc (by decide)
  · rename_i hline _ _
    exact hline (List.mem_singleton.1 hc).symm

theorem value_no_line (h : PlainValue float value) : '\n' ∉ writeZincValue float value := by
  cases value with
  | marker | null => simp [writeZincValue]
  | bool b => cases b <;> simp [writeZincValue]
  | num n unit => exact fun hmem => (h.chars _ hmem).2 rfl
  | dateTime text => exact fun hmem => (h.chars _ hmem).2 rfl
  | str s =>
    intro hmem
    rcases List.mem_cons.1 hmem with hc | hmem
    · exact absurd hc (by decide)
    rcases List.mem_append.1 hmem with hmem | hmem
    · exact escape_no_line s.toList hmem
    · exact absurd hmem (by decide)

theorem cellsFrom_value (h : PlainValue float value) (hclean : CleanValue value)
    (rest : List Char) : cellsFrom [] (writeZincValue float value ++ rest) =
      cellsFrom (writeZincValue float value) rest := by
  have hletter : ∀ c : Char, PlainChar c → cellsFrom [] ([c] ++ rest) = cellsFrom [c] rest :=
    fun c hc => cellsFrom_plainChar hc [] rest
  cases value with
  | marker => exact hletter 'M' (by unfold PlainChar; decide)
  | null => exact hletter 'N' (by unfold PlainChar; decide)
  | bool b => cases b with
    | true => exact hletter 'T' (by unfold PlainChar; decide)
    | false => exact hletter 'F' (by unfold PlainChar; decide)
  | num n unit => exact cellsFrom_plain (fun c hc => (h.chars c hc).1) [] rest
  | dateTime text => exact cellsFrom_plain (fun c hc => (h.chars c hc).1) [] rest
  | str s =>
    obtain ⟨more, left, hscan, hstop⟩ := scanQuoted_escape s.toList rest
    obtain ⟨rfl, rfl⟩ := hstop hclean
    have htext : writeZincValue float (.str s) ++ left =
        '"' :: (escape s.toList ++ '"' :: left) := by
      simp [writeZincValue, escape]
    rw [htext, cellsFrom_quote, hscan]
    rfl

theorem cellsFrom_string (s : String) (rest : List Char) : ∃ more cells,
    cellsFrom [] (writeZincValue float (.str s) ++ rest) =
      String.ofList ('"' :: (escape s.toList ++ '"' :: more)) :: cells := by
  obtain ⟨more, left, hscan, -⟩ := scanQuoted_escape s.toList rest
  have htext : writeZincValue float (.str s) ++ rest =
      '"' :: (escape s.toList ++ '"' :: rest) := by
    simp [writeZincValue, escape]
  obtain ⟨further, cells, hcells⟩ := scanCells_head (left.length + 1)
    ('"' :: (escape s.toList ++ '"' :: more)) left
  have htrim : trim ('"' :: (escape s.toList ++ '"' :: more) ++ further) =
      '"' :: (escape s.toList ++ '"' :: (more ++ further).rdropWhile isWhitespace) := by
    have hall := rdropWhile_behind (c := '"') (by decide) ('"' :: escape s.toList)
      (more ++ further)
    rw [trim_eq, List.cons_append, List.dropWhile_cons_of_neg (by decide), List.append_assoc]
    exact hall
  refine ⟨(more ++ further).rdropWhile isWhitespace, cells, ?_⟩
  rw [htext, cellsFrom_quote, hscan, ← htrim]
  exact hcells

end Cells

section Rows

variable {F : Type} {float : FloatText F}

def writtenCells (float : FloatText F) (row : List (ZincValue F)) : List String :=
  row.map fun value => String.ofList (writeZincValue float value)

theorem intercalate_middle (before : List (List Char)) (middle : List Char)
    (after : List (List Char)) :
    [','].intercalate (before ++ middle :: after) =
      (before.flatMap fun cell => cell ++ [',']) ++
        (middle ++ after.flatMap fun cell => ',' :: cell) := by
  induction before with
  | nil =>
    induction after generalizing middle with
    | nil => simp
    | cons cell after ih =>
      have hrest := ih cell
      rw [List.nil_append] at hrest ⊢
      rw [List.intercalate_cons_cons, hrest]
      simp
  | cons cell before ih =>
    have hne : before ++ middle :: after ≠ [] := by simp
    rw [List.cons_append, List.intercalate_cons_of_ne_nil hne, ih]
    simp

theorem cellsFrom_written {row : List (ZincValue F)} (h : ∀ value ∈ row, PlainValue float value)
    (hclean : ∀ value ∈ row, CleanValue value) (rest : List Char) :
    cellsFrom [] ((row.map (writeZincValue float)).flatMap (fun cell => cell ++ [',']) ++ rest) =
      writtenCells float row ++ cellsFrom [] rest := by
  induction row with
  | nil => rfl
  | cons value row ih =>
    have hvalue := h value List.mem_cons_self
    have hlater := ih (fun v hv => h v (List.mem_cons_of_mem _ hv))
      fun v hv => hclean v (List.mem_cons_of_mem _ hv)
    have htrim := trim_of_solid (solid_value hvalue)
    rw [List.map_cons, List.flatMap_cons, List.append_assoc, List.append_assoc,
      cellsFrom_value hvalue (hclean value List.mem_cons_self), List.singleton_append,
      cellsFrom_separator, hlater, htrim]
    rfl

theorem cellsFrom_rowLine {row : List (ZincValue F)} (hne : row ≠ [])
    (h : ∀ value ∈ row, PlainValue float value) (hclean : ∀ value ∈ row, CleanValue value) :
    cellsFrom [] (ZincGrid.rowLine float row) = writtenCells float row := by
  obtain ⟨before, last, rfl⟩ : ∃ before last, row = before ++ [last] :=
    ⟨_, _, (List.dropLast_append_getLast hne).symm⟩
  have hlast := h last (by simp)
  have hbefore := cellsFrom_written (fun v hv => h v (List.mem_append_left _ hv))
    (fun v hv => hclean v (List.mem_append_left _ hv)) (writeZincValue float last)
  have hcell := cellsFrom_value hlast (hclean last (by simp)) []
  have htrim := trim_of_solid (solid_value hlast)
  rw [List.append_nil, cellsFrom_nil, htrim] at hcell
  unfold ZincGrid.rowLine
  rw [List.map_append, List.map_singleton, intercalate_middle, List.flatMap_nil, List.append_nil,
    hbefore, hcell]
  simp [writtenCells]

/-- The first string of a row that does not come back stands in its place, and its quotes
    enclose it and perhaps more. -/
theorem cellsFrom_rowLine_string {before after : List (ZincValue F)} {s : String}
    (h : ∀ value ∈ before, PlainValue float value) (hclean : ∀ value ∈ before, CleanValue value) :
    ∃ more cells, cellsFrom [] (ZincGrid.rowLine float (before ++ .str s :: after)) =
      writtenCells float before ++
        String.ofList ('"' :: (escape s.toList ++ '"' :: more)) :: cells := by
  unfold ZincGrid.rowLine
  rw [List.map_append, List.map_cons, intercalate_middle, cellsFrom_written h hclean]
  obtain ⟨more, cells, hcells⟩ := @cellsFrom_string F float s
    ((after.map (writeZincValue float)).flatMap fun cell => ',' :: cell)
  exact ⟨more, cells, congrArg _ hcells⟩

end Rows

section Grids

variable {F : Type} {float : FloatText F} {grid : ZincGrid F}

/-- Column names without blanks and commas, no column metadata, at least one column, and rows
    of matching width. Identifiers are such names. -/
structure Tabular (grid : ZincGrid F) : Prop where
  columns_ne : grid.columns ≠ []
  names : ∀ col ∈ grid.columns, col.name.toList ≠ [] ∧
    ∀ c ∈ col.name.toList, c ≠ ',' ∧ isWhitespace c = false
  bare : ∀ col ∈ grid.columns, col.metadata = []
  width : ∀ row ∈ grid.rows, row.length = grid.columns.length

/-- Numbers and dates are plain, and no line ends within the metadata. -/
structure PlainTexts (float : FloatText F) (grid : ZincGrid F) : Prop where
  metadata : ∀ pair ∈ grid.metadata, '\n' ∉ writeTagPair float pair
  values : ∀ row ∈ grid.rows, ∀ value ∈ row, PlainValue float value

def columnNames (grid : ZincGrid F) : List String := grid.columns.map ZincColumn.name

def parsed (float : FloatText F) (grid : ZincGrid F) : Zinc.ZincGrid :=
  ⟨columnNames grid, grid.rows.map fun row =>
    parseRow (ZincGrid.rowLine float row) grid.columns.length⟩

theorem header_no_line (h : PlainTexts float grid) : '\n' ∉ grid.headerLine float := by
  intro hmem
  rcases List.mem_append.1 hmem with hmem | hmem
  · exact absurd hmem (by decide)
  · obtain ⟨pair, hpair, hin⟩ := List.mem_flatMap.1 hmem
    rcases List.mem_cons.1 hin with hc | hin
    · exact absurd hc (by decide)
    · exact h.metadata pair hpair hin

theorem columnLine_bare (h : Tabular grid) : grid.columnLine float =
    [','].intercalate (grid.columns.map fun col => col.name.toList) := by
  unfold ZincGrid.columnLine
  congr 1
  apply List.map_congr_left
  intro col hcol
  rw [h.bare col hcol]
  exact List.append_nil _

theorem solid_columnLine (h : Tabular grid) : Solid (grid.columnLine float) := by
  rw [columnLine_bare h]
  refine solid_intercalate _ (by simpa using h.columns_ne) ?_
  intro name hname
  obtain ⟨col, hcol, rfl⟩ := List.mem_map.1 hname
  exact solid_of_solidChars (h.names col hcol).1 fun c hc => ((h.names col hcol).2 c hc).2

theorem columnLine_no_line (h : Tabular grid) : '\n' ∉ grid.columnLine float := by
  rw [columnLine_bare h]
  refine not_mem_intercalate (by decide) ?_
  intro name hname hmem
  obtain ⟨col, hcol, rfl⟩ := List.mem_map.1 hname
  exact absurd ((h.names col hcol).2 _ hmem).2 (by decide)

theorem row_ne_nil (h : Tabular grid) {row : List (ZincValue F)} (hrow : row ∈ grid.rows) :
    row ≠ [] := by
  rintro rfl
  exact h.columns_ne (List.length_eq_zero_iff.1 (h.width _ hrow).symm)

theorem solid_rowLine {row : List (ZincValue F)} (hne : row ≠ [])
    (h : ∀ value ∈ row, PlainValue float value) : Solid (ZincGrid.rowLine float row) := by
  refine solid_intercalate _ (by simpa using hne) ?_
  intro cell hcell
  obtain ⟨value, hvalue, rfl⟩ := List.mem_map.1 hcell
  exact solid_value (h value hvalue)

theorem rowLine_no_line {row : List (ZincValue F)} (h : ∀ value ∈ row, PlainValue float value) :
    '\n' ∉ ZincGrid.rowLine float row := by
  refine not_mem_intercalate (by decide) ?_
  intro cell hcell
  obtain ⟨value, hvalue, rfl⟩ := List.mem_map.1 hcell
  exact value_no_line (h value hvalue)

theorem lines_toZinc (htab : Tabular grid) (htexts : PlainTexts float grid) :
    lines (grid.toZinc float) = stripCarriageReturn (grid.headerLine float) ::
      grid.columnLine float :: (grid.rows.map (ZincGrid.rowLine float)) := by
  have hrows := @lines_block (grid.rows.map (ZincGrid.rowLine float)) (by
    intro line hline
    obtain ⟨row, hrow, rfl⟩ := List.mem_map.1 hline
    exact rowLine_no_line (htexts.values row hrow)) []
  have hsolid : (grid.rows.map (ZincGrid.rowLine float)).map stripCarriageReturn =
      grid.rows.map (ZincGrid.rowLine float) := by
    rw [List.map_map]
    apply List.map_congr_left
    intro row hrow
    exact stripCarriageReturn_of_solid
      (solid_rowLine (row_ne_nil htab hrow) (htexts.values row hrow))
  rw [List.flatMap_map, List.append_nil, lines_nil, List.append_nil, hsolid] at hrows
  unfold ZincGrid.toZinc
  rw [lines_line (header_no_line htexts), lines_line (columnLine_no_line htab),
    stripCarriageReturn_of_solid (solid_columnLine htab), hrows]

theorem columns_read (h : Tabular grid) :
    ((grid.columnLine float).splitOn ',').map (fun name => String.ofList (trim name)) =
      columnNames grid := by
  rw [columnLine_bare h, List.splitOn_intercalate]
  · rw [List.map_map]
    apply List.map_congr_left
    intro col hcol
    have htrim := trim_solidChars fun c hc => ((h.names col hcol).2 c hc).2
    change String.ofList (trim col.name.toList) = col.name
    rw [htrim, String.ofList_toList]
  · intro name hname hmem
    obtain ⟨col, hcol, rfl⟩ := List.mem_map.1 hname
    exact ((h.names col hcol).2 _ hmem).1 rfl
  · simpa using h.columns_ne

theorem columnNames_ne (h : Tabular grid) : columnNames grid ≠ [""] := by
  intro heq
  have hmem : "" ∈ columnNames grid := by simp [heq]
  obtain ⟨col, hcol, hname⟩ := List.mem_map.1 hmem
  exact (h.names col hcol).1 (by rw [hname]; rfl)

theorem parse_toZinc (htab : Tabular grid) (htexts : PlainTexts float grid) :
    Zinc.ZincGrid.parse (grid.toZinc float) = .ok (parsed float grid) := by
  have htrim : trim (stripCarriageReturn (grid.headerLine float)) =
      "ver:".toList ++ '"' ::
        ("3.0\"".toList ++ writeTagPairs float grid.metadata).rdropWhile isWhitespace := by
    rw [trim_stripCarriageReturn]
    exact @trim_behind '"' "ver:".toList (by simp [isWhitespace]) (by decide) _
  have hheader : Zinc.ZincGrid.isBlank (stripCarriageReturn (grid.headerLine float)) = false := by
    unfold Zinc.ZincGrid.isBlank
    rw [htrim]
    rfl
  have hcolumn : Zinc.ZincGrid.isBlank (grid.columnLine float) = false := by
    obtain ⟨c, cs, hstart, -⟩ := (@solid_columnLine F float grid htab).starts
    unfold Zinc.ZincGrid.isBlank
    rw [trim_of_solid (solid_columnLine htab), hstart]
    rfl
  have hrows : ((grid.rows.map (ZincGrid.rowLine float)).map trim).filter (· ≠ []) =
      grid.rows.map (ZincGrid.rowLine float) := by
    have hsolid : ∀ line ∈ grid.rows.map (ZincGrid.rowLine float), Solid line := by
      intro line hline
      obtain ⟨row, hrow, rfl⟩ := List.mem_map.1 hline
      exact solid_rowLine (row_ne_nil htab hrow) (htexts.values row hrow)
    have htrimmed : (grid.rows.map (ZincGrid.rowLine float)).map trim =
        grid.rows.map (ZincGrid.rowLine float) := by
      conv_rhs => rw [← List.map_id (grid.rows.map (ZincGrid.rowLine float))]
      exact List.map_congr_left fun line hline => trim_of_solid (hsolid line hline)
    rw [htrimmed, List.filter_eq_self]
    intro line hline
    obtain ⟨c, cs, hstart, -⟩ := (hsolid line hline).starts
    rw [hstart]
    rfl
  unfold Zinc.ZincGrid.parse
  rw [lines_toZinc htab htexts, List.dropWhile_cons_of_neg (by rw [hheader]; decide)]
  dsimp only
  rw [htrim, if_neg (by simp [List.isPrefixOf]),
    List.dropWhile_cons_of_neg (by rw [hcolumn]; decide)]
  dsimp only
  rw [columns_read htab, if_neg (columnNames_ne htab), hrows, List.map_map]
  have hlength : (columnNames grid).length = grid.columns.length := List.length_map _
  rw [hlength]
  rfl

end Grids
end Sandstar.ZincWriter
