import Sandstar.Json
import Sandstar.Table
import Sandstar.ZincGrid

set_option autoImplicit false

/-!
# Trio records (rest/trio.rs)

The encoder writes a tag to a line, in the order of the names, and a string of several
lines under its name with two blanks before each. The decoder goes line by line. A slice
that cuts a character panics, which is `none` here. Reading a double, and the texts that
serde_json gives doubles, arrays and objects, are parameters.
-/
namespace Sandstar.Trio
open RoxWarp Zinc

abbrev Record := Table String Json

/-- `str::parse::<f64>`, where NaN and the infinities are no number, and the `Display` of
    serde_json. -/
structure SerdeText where
  parseF64 : List Char → Option (Option ℚ)
  showF64 : ℚ → List Char
  showJson : Json → List Char

section Encoding

variable (serde : SerdeText)

def encodeString (key text : List Char) : List Char :=
  if '\n' ∈ text then
    key ++ ":\n".toList ++ (lines text).flatMap fun line => "  ".toList ++ line ++ ['\n']
  else key ++ ':' :: (text ++ ['\n'])

def encodeTag (key : List Char) (value : Json) : List Char :=
  match value with
  | .scalar .null => key ++ ":N\n".toList
  | .scalar (.bool true) => key ++ ['\n']
  | .scalar (.bool false) => []
  | .scalar (.posInt n) => key ++ ':' :: ((toString n.toNat).toList ++ ['\n'])
  | .scalar (.negInt n) => key ++ ':' :: ((toString n.toInt).toList ++ ['\n'])
  | .scalar (.float x) => key ++ ':' :: (serde.showF64 x ++ ['\n'])
  | .scalar (.str s) => encodeString key s.toList
  | .arr _ | .obj _ => key ++ ':' :: (serde.showJson value ++ ['\n'])

def encodeTrio (tags : Record) : List Char :=
  (tags.keys.sort (· ≤ ·)).flatMap fun key =>
    match tags.get key with
    | some value => encodeTag serde key.toList value
    | none => []

def encodeTrioRecords (records : List Record) : List Char :=
  ['\n'].intercalate (records.map (encodeTrio serde))

end Encoding

section Values

/-- `str::parse` of an unsigned integer below the limit. -/
def parseUnsigned (limit : ℕ) (s : List Char) : Option ℕ :=
  let digits := if s.head? = some '+' then s.tail else s
  if digits.isEmpty || !digits.all Char.isDigit then none
  else
    let n := digits.foldl (fun n c => 10 * n + (c.toNat - 48)) 0
    if n < limit then some n else none

def byteLength (s : List Char) : ℕ := (s.map Char.utf8Size).sum

def slice (start stop : ℕ) (s : List Char) : Option (List Char) :=
  (splitAtByte stop s).bind fun parts => (splitAtByte start parts.1).map Prod.snd

def isDate (val : List Char) : Option Bool :=
  if byteLength val = 10 ∧ val[4]? = some '-' ∧ val[7]? = some '-' then do
    let year ← slice 0 4 val
    if (parseUnsigned (2 ^ 16) year).isNone then some false
    else do
      let month ← slice 5 7 val
      if (parseUnsigned (2 ^ 8) month).isNone then some false
      else (slice 8 10 val).map fun day => (parseUnsigned (2 ^ 8) day).isSome
  else some false

def isTime (val : List Char) : Option Bool :=
  if 8 ≤ byteLength val ∧ val[2]? = some ':' ∧ val[5]? = some ':' then
    (slice 0 2 val).map fun hour => (parseUnsigned (2 ^ 8) hour).isSome
  else some false

def text (s : List Char) : Json := .scalar (.str (String.ofList s))

def ofDouble : Option ℚ → Json
  | some x => .scalar (.float x)
  | none => .scalar .null

def parseNumber (serde : SerdeText) (val : List Char) : Json :=
  match parseI64 val with
  | some n => .scalar (.ofInt64 (Int64.ofInt n))
  | none =>
    match serde.parseF64 val with
    | some x => ofDouble x
    | none => text val

def parseTrioValue (serde : SerdeText) (val : List Char) : Option Json :=
  if val = "N".toList then some (.scalar .null)
  else if val = "true".toList then some (.scalar (.bool true))
  else if val = "false".toList then some (.scalar (.bool false))
  else if val.head? = some '@' then some (text val)
  else do
    if ← isDate val then some (text val)
    else if ← isTime val then some (text val)
    else some (parseNumber serde val)

end Values

section Decoding

variable (serde : SerdeText)

/-- The variables of the loop of `decode_trio_records`. -/
structure Decoding where
  records : List Record
  current : Record
  multilineKey : Option String
  multilineBuf : List Char

namespace Decoding

def start : Decoding := ⟨[], Table.empty, none, []⟩

def insert (d : Decoding) (key : String) (value : Json) : Decoding :=
  { d with current := d.current.insert key value }

def endMultiline (d : Decoding) : Decoding :=
  match d.multilineKey with
  | some key =>
    { d with current := d.current.insert key (text d.multilineBuf), multilineKey := none,
             multilineBuf := [] }
  | none => d

def endRecord (d : Decoding) : Decoding :=
  if d.current.size = 0 then d
  else { d with records := d.records ++ [d.current], current := Table.empty }

end Decoding

def joinLine (buf line : List Char) : List Char := if buf = [] then line else buf ++ '\n' :: line

def trimStart (s : List Char) : List Char := s.dropWhile isWhitespace

def decodeTagLine (d : Decoding) (line : List Char) : Option Decoding :=
  let trimmed := trim line
  if trimmed = [] then some d.endRecord
  else if "//".toList.isPrefixOf trimmed then some d
  else
    match splitOnce [':'] trimmed with
    | some (left, right) =>
      let key := String.ofList (trim left)
      let val := trim right
      if val = [] then some { d with multilineKey := some key, multilineBuf := [] }
      else (parseTrioValue serde val).map (d.insert key)
    | none => some (d.insert (String.ofList trimmed) (.scalar (.bool true)))

def decodeLine (d : Decoding) (line : List Char) : Option Decoding :=
  if d.multilineKey.isSome ∧ "  ".toList.isPrefixOf line then
    some { d with multilineBuf := joinLine d.multilineBuf (trimStart line) }
  else decodeTagLine serde d.endMultiline line

def decodeTrioRecords (content : List Char) : Option (List Record) :=
  ((lines content).foldlM (decodeLine serde) Decoding.start).map fun d =>
    d.endMultiline.endRecord.records

end Decoding

end Sandstar.Trio
