import Sandstar.FilterEval
import Sandstar.RoxWarp

set_option autoImplicit false

/-!
# Filters of distributed queries

`evaluate_point_filter` of `roxwarp/handler.rs`, which splits the text of a
filter at its keywords. The search runs over the characters of the text in lower case,
the split over its bytes: the number of characters before the keyword is
used as a byte offset, and a slice that does not begin and end between characters
panics, which is `none` here. Lower case and the reading of decimals are parameters.
-/
namespace Sandstar.RoxWarp
open Sandstar.Filter

section Text

/-- `str::to_lowercase` and `str::parse::<f64>`, a number by its bit pattern. -/
structure TextFns where
  toLowercase : List Char → List Char
  parseF64 : List Char → Option UInt64

/-- `char::is_whitespace`. -/
def isWhitespace (c : Char) : Bool :=
  let n := c.toNat
  (0x9 ≤ n && n ≤ 0xD) || n == 0x20 || n == 0x85 || n == 0xA0 || n == 0x1680 ||
    (0x2000 ≤ n && n ≤ 0x200A) || n == 0x2028 || n == 0x2029 || n == 0x202F || n == 0x205F ||
    n == 0x3000

def trimMatches (p : Char → Bool) (s : List Char) : List Char :=
  ((s.dropWhile p).reverse.dropWhile p).reverse

def trim (s : List Char) : List Char := trimMatches isWhitespace s

def splitAtByte : ℕ → List Char → Option (List Char × List Char)
  | 0, s => some ([], s)
  | _ + 1, [] => none
  | n + 1, c :: s =>
    if c.utf8Size ≤ n + 1 then
      (splitAtByte (n + 1 - c.utf8Size) s).map fun (left, right) => (c :: left, right)
    else none

def splitOnce (pattern : List Char) : List Char → Option (List Char × List Char)
  | [] => none
  | c :: s =>
    if pattern.isPrefixOf (c :: s) then some ([], (c :: s).drop pattern.length)
    else (splitOnce pattern s).map fun (left, right) => (c :: left, right)

def parseU32 (s : List Char) : Option UInt32 :=
  let digits := if s.head? = some '+' then s.tail else s
  if digits.isEmpty || !digits.all Char.isDigit then none
  else
    let n := digits.foldl (fun n c => 10 * n + (c.toNat - 48)) 0
    if n < 2 ^ 32 then some (UInt32.ofNat n) else none

end Text

section Keywords

/-- The scan of `find_keyword`: the first match outside of double quotes. -/
def scanKeyword (keyword : List Char) : Bool → List Char → Option ℕ
  | _, [] => none
  | inQuotes, c :: cs =>
    if c = '"' then (scanKeyword keyword (!inQuotes) cs).map (· + 1)
    else if !inQuotes && keyword.isPrefixOf (c :: cs) then some 0
    else (scanKeyword keyword inQuotes cs).map (· + 1)

inductive Connective
  | and
  | or
deriving DecidableEq, Repr

def Connective.keyword : Connective → List Char
  | .and => [' ', 'a', 'n', 'd', ' ']
  | .or => [' ', 'o', 'r', ' ']

variable (fns : TextFns)

def findKeyword (s : List Char) (c : Connective) : Option ℕ :=
  scanKeyword c.keyword false (fns.toLowercase s)

def cutKeyword (s : List Char) (pos : ℕ) (c : Connective) : Option (List Char × List Char) :=
  match splitAtByte pos s, splitAtByte (pos + c.keyword.length) s with
  | some (left, _), some (_, right) => some (left, right)
  | _, _ => none

end Keywords

section Comparisons

variable {O : Type} (fns : TextFns)

/-- The comparisons of `channel` and `value` share their form; an unknown tag falls through. -/
def compareOrdered (cmpU32 : UInt32 → UInt32 → Bool) (cmpValue : Float → Float → Bool)
    (point : VersionedPoint UInt64 O) (parts : List Char × List Char) : Option Bool :=
  let tag := fns.toLowercase (trim parts.1)
  let val := trim parts.2
  if tag = "channel".toList ∨ tag = "id".toList then
    some (((parseU32 val).map fun n => cmpU32 point.channel n).getD false)
  else if tag = "value".toList ∨ tag = "cur".toList then
    some (((fns.parseF64 val).map fun n =>
      cmpValue (Float.ofBits point.value) (Float.ofBits n)).getD false)
  else none

def compareEqual (point : VersionedPoint UInt64 O) (parts : List Char × List Char) : Bool :=
  let tag := fns.toLowercase (trim parts.1)
  let val := trim parts.2
  let unquoted := String.ofList (trimMatches (· = '"') val)
  if tag = "channel".toList ∨ tag = "id".toList then
    ((parseU32 val).map fun n => point.channel == n).getD false
  else if tag = "unit".toList then eqIgnoreAsciiCase point.unit unquoted
  else if tag = "status".toList then eqIgnoreAsciiCase point.status unquoted
  else false

def occursIn (f : List Char) (point : VersionedPoint UInt64 O) : Bool :=
  let lower := String.ofList (fns.toLowercase f)
  containsText (String.ofList (fns.toLowercase point.unit.toList)) lower ||
    containsText (String.ofList (fns.toLowercase point.status.toList)) lower

/-- The part of `evaluate_point_filter` behind the connectives, on the trimmed text. -/
def evaluateComparison (f : List Char) (point : VersionedPoint UInt64 O) : Bool :=
  if fns.toLowercase f = "point".toList then true
  else
    match splitOnce ['=', '='] f with
    | some parts => compareEqual fns point parts
    | none =>
      let ge := (splitOnce ['>', '='] f).bind
        (compareOrdered fns (fun a b => decide (a ≥ b)) (fun a b => decide (a ≥ b)) point)
      let le := (splitOnce ['<', '='] f).bind
        (compareOrdered fns (fun a b => decide (a ≤ b)) (fun a b => decide (a ≤ b)) point)
      let gt := if (splitOnce ['>', '='] f).isSome then none else (splitOnce ['>'] f).bind
        (compareOrdered fns (fun a b => decide (a > b)) (fun a b => decide (a > b)) point)
      let lt := if (splitOnce ['<', '='] f).isSome then none else (splitOnce ['<'] f).bind
        (compareOrdered fns (fun a b => decide (a < b)) (fun a b => decide (a < b)) point)
      (ge <|> le <|> gt <|> lt).getD (occursIn fns f point)

/-- `evaluate_point_filter`. The fuel is the number of characters plus one: either side of a
    keyword has fewer. -/
def evaluateWith (point : VersionedPoint UInt64 O) : ℕ → List Char → Option Bool
  | 0, _ => none
  | fuel + 1, filter =>
    let f := trim filter
    match findKeyword fns f .and with
    | some pos =>
      match cutKeyword f pos .and with
      | none => none
      | some (left, right) =>
        match evaluateWith point fuel left with
        | some true => evaluateWith point fuel right
        | other => other
    | none =>
      match findKeyword fns f .or with
      | some pos =>
        match cutKeyword f pos .or with
        | none => none
        | some (left, right) =>
          match evaluateWith point fuel left with
          | some false => evaluateWith point fuel right
          | other => other
      | none => some (evaluateComparison fns f point)

def evaluatePointFilter (filter : List Char) (point : VersionedPoint UInt64 O) : Option Bool :=
  evaluateWith fns point (filter.length + 1) filter

end Comparisons

end Sandstar.RoxWarp
