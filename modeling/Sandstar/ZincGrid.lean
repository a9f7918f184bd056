import Sandstar.PointFilter

set_option autoImplicit false

namespace Sandstar.Zinc
open RoxWarp

section Text

def stripCarriageReturn (s : List Char) : List Char :=
  if s.getLast? = some '\r' then s.dropLast else s

/-- `str::lines`: what follows the last line feed is a line only where it is not empty. -/
def lines (s : List Char) : List (List Char) :=
  let parts := s.splitOn '\n'
  parts.dropLast.map stripCarriageReturn ++ (parts.getLast?.filter (· ≠ [])).toList

def parseI64 (s : List Char) : Option ℤ :=
  let negative := s.head? = some '-'
  let digits := if s.head? = some '-' ∨ s.head? = some '+' then s.tail else s
  if digits.isEmpty || !digits.all Char.isDigit then none
  else
    let n : ℕ := digits.foldl (fun n c => 10 * n + (c.toNat - 48)) 0
    if negative then if n ≤ 2 ^ 63 then some (-(n : ℤ)) else none
    else if n < 2 ^ 63 then some n else none

def replacePair (first second result : Char) : List Char → List Char
  | a :: b :: cs =>
    if a = first ∧ b = second then result :: replacePair first second result cs
    else a :: replacePair first second result (b :: cs)
  | cs => cs

def stripQuotes (s : List Char) : List Char :=
  if s.head? = some '"' ∧ s.getLast? = some '"' ∧ 2 ≤ s.length then
    replacePair '\\' 'n' '\n' (replacePair '\\' '"' '"' s.tail.dropLast)
  else s

end Text

section Rows

def scanQuoted : List Char → List Char × List Char
  | [] => ([], [])
  | '\\' :: '"' :: cs =>
    let (text, rest) := scanQuoted cs
    ('\\' :: '"' :: text, rest)
  | '"' :: cs => (['"'], cs)
  | c :: cs =>
    let (text, rest) := scanQuoted cs
    (c :: text, rest)

def scanBracketed (opening closing : Char) : ℕ → List Char → List Char × List Char
  | 0, cs => ([], cs)
  | _ + 1, [] => ([], [])
  | depth + 1, c :: cs =>
    let (text, rest) := scanBracketed opening closing
      (if c = opening then depth + 2 else if c = closing then depth else depth + 1) cs
    (c :: text, rest)

def scanRef : Bool → List Char → List Char × List Char
  | _, [] => ([], [])
  | true, c :: cs =>
    let (text, rest) := scanRef (c ≠ '"') cs
    (c :: text, rest)
  | false, c :: cs =>
    if c = ',' then ([], c :: cs)
    else
      let (text, rest) := scanRef (c = '"') cs
      (c :: text, rest)

def scanCells : ℕ → List Char → List Char → List String
  | 0, current, _ | _ + 1, current, [] => [String.ofList (trim current)]
  | turns + 1, current, ch :: cs =>
    if ch = '"' then
      let (text, rest) := scanQuoted cs
      scanCells turns (current ++ ch :: text) rest
    else if ch = '[' then
      let (text, rest) := scanBracketed '[' ']' 1 cs
      scanCells turns (current ++ ch :: text) rest
    else if ch = '{' then
      let (text, rest) := scanBracketed '{' '}' 1 cs
      scanCells turns (current ++ ch :: text) rest
    else if ch = '@' then
      let (text, rest) := scanRef false cs
      scanCells turns (current ++ ch :: text) rest
    else if ch = ',' then String.ofList (trim current) :: scanCells turns [] cs
    else scanCells turns (current ++ [ch]) cs

def parseRow (line : List Char) (expectedCols : ℕ) : List String :=
  let cells := scanCells (line.length + 1) [] line
  cells ++ List.replicate (expectedCols - cells.length) ""

end Rows

inductive ZincError
  | invalidHeader (text : String)
  | noColumns
deriving DecidableEq, Repr

def ZincError.message : ZincError → String
  | .invalidHeader text => "invalid zinc header: " ++ text
  | .noColumns => "no column headers found"

structure ZincGrid where
  columns : List String
  rows : List (List String)
deriving DecidableEq, Repr

namespace ZincGrid

def isBlank (line : List Char) : Bool := trim line = []

def parse (content : List Char) : Except ZincError ZincGrid :=
  match (lines content).dropWhile isBlank with
  | [] => .error (.invalidHeader "empty input")
  | verLine :: rest =>
    if !"ver:".toList.isPrefixOf (trim verLine) then
      .error (.invalidHeader (String.ofList (trim verLine)))
    else match rest.dropWhile isBlank with
      | [] => .error .noColumns
      | colLine :: rest =>
        let columns := (colLine.splitOn ',').map fun name => String.ofList (trim name)
        if columns = [""] then .error .noColumns
        else .ok ⟨columns, ((rest.map trim).filter (· ≠ [])).map (parseRow · columns.length)⟩

def rowCount (grid : ZincGrid) : ℕ := grid.rows.length

def colIndex (grid : ZincGrid) (tag : String) : Option ℕ :=
  (grid.columns.reverse.findIdx? (· == tag)).map fun i => grid.columns.length - 1 - i

def cell (grid : ZincGrid) (row : ℕ) (tag : String) : Option String :=
  (grid.colIndex tag).bind fun col => grid.rows[row]?.bind fun cells => cells[col]?

def marker (grid : ZincGrid) (row : ℕ) (tag : String) : Bool := grid.cell row tag = some "M"

def isNull (grid : ZincGrid) (row : ℕ) (tag : String) : Bool :=
  match grid.cell row tag with
  | none => true
  | some s => s = "" ∨ s = "N"

/-- The accessors of numbers agree on what stands for no number. -/
def parsed {α : Type} (parse : List Char → Option α) (grid : ZincGrid) (row : ℕ) (tag : String)
    (default : α) : α :=
  match grid.cell row tag with
  | none => default
  | some s => if s = "" ∨ s = "N" ∨ s = "M" then default else (parse s.toList).getD default

def number {F : Type} (parseF64 : List Char → Option F) (grid : ZincGrid) (row : ℕ)
    (tag : String) (default : F) : F :=
  grid.parsed parseF64 row tag default

def integer (grid : ZincGrid) (row : ℕ) (tag : String) (default : ℤ) : ℤ :=
  grid.parsed parseI64 row tag default

def string (grid : ZincGrid) (row : ℕ) (tag : String) (default : String) : String :=
  match grid.cell row tag with
  | none => default
  | some s => if s = "" ∨ s = "N" then default else String.ofList (stripQuotes s.toList)

end ZincGrid
end Sandstar.Zinc
