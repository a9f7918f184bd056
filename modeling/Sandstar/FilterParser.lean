import Mathlib

set_option autoImplicit false

/-!
# The filter parser

The recursive-descent parser of `rest/filter.rs` over its tokens. A token list
stands for the tokens from the current position on. The nesting depth is
counted down: `levels` is what is left of `MAX_PARSE_DEPTH` plus one, and no level
left is the error of a filter that is too deeply nested.
-/
namespace Sandstar.Filter

section Syntax

inductive CmpOp
  | eq
  | ne
  | lt
  | le
  | gt
  | ge
deriving DecidableEq, Repr

inductive Value
  | num (bits : UInt64)
  | str (s : String)
  | bool (b : Bool)
deriving DecidableEq, Repr

structure Path where
  head : String
  tail : List String
deriving DecidableEq, Repr

def Path.isSingle (path : Path) : Bool := path.tail.isEmpty

inductive Expr
  | has (tag : String)
  | missing (tag : String)
  | not (inner : Expr)
  | cmp (path : Path) (op : CmpOp) (value : Value)
  | and (left right : Expr)
  | or (left right : Expr)
deriving DecidableEq, Repr

inductive Token
  | name (n : String)
  | num (bits : UInt64)
  | str (s : String)
  | and
  | or
  | not
  | eq
  | ne
  | lt
  | le
  | gt
  | ge
  | lParen
  | rParen
  | true
  | false
  | arrow
deriving DecidableEq, Repr

end Syntax

section Errors

inductive ParseError
  | emptyFilter
  | unexpectedToken (position : ℕ)
  | tooDeep
  | unexpectedEnd
  | missingParen
  | expectedName (got : Token)
  | expectedNameAfterArrow
  | requiresOperator
  | expectedValueAfterOperator
  | expectedValue (got : Token)
deriving DecidableEq, Repr

def maxParseDepth : ℕ := 32

end Errors

section Parser

abbrev Parsed (α : Type) := Except ParseError (α × List Token)

def parseSegments : List Token → Parsed (List String)
  | .arrow :: .name n :: ts =>
    match parseSegments ts with
    | .ok (segments, rest) => .ok (n :: segments, rest)
    | .error e => .error e
  | .arrow :: _ => .error .expectedNameAfterArrow
  | ts => .ok ([], ts)

def Token.asOp : Token → Option CmpOp
  | .eq => some .eq
  | .ne => some .ne
  | .lt => some .lt
  | .le => some .le
  | .gt => some .gt
  | .ge => some .ge
  | _ => none

def Token.asValue : Token → Option Value
  | .num bits => some (.num bits)
  | .str s => some (.str s)
  | .true => some (.bool Bool.true)
  | .false => some (.bool Bool.false)
  | _ => none

def bareName (path : Path) (rest : List Token) : Parsed Expr :=
  if path.isSingle then .ok (.has path.head, rest) else .error .requiresOperator

def parseOpValue (path : Path) : List Token → Parsed Expr
  | [] => bareName path []
  | t :: ts =>
    match t.asOp with
    | none => bareName path (t :: ts)
    | some op =>
      match ts with
      | [] => .error .expectedValueAfterOperator
      | v :: rest =>
        match v.asValue with
        | some value => .ok (.cmp path op value, rest)
        | none => .error (.expectedValue v)

def parseCmp : List Token → Parsed Expr
  | [] => .error .unexpectedEnd
  | .name first :: ts =>
    match parseSegments ts with
    | .ok (segments, rest) => parseOpValue ⟨first, segments⟩ rest
    | .error e => .error e
  | t :: _ => .error (.expectedName t)

/-- The loop of `parse_or` and `parse_and`: as long as the connective follows, one more
    operand is read and joined on. The fuel is the number of tokens left. -/
def parseJoined (sep : Token) (join : Expr → Expr → Expr) (operand : List Token → Parsed Expr) :
    ℕ → Expr → List Token → Parsed Expr
  | 0, left, ts => .ok (left, ts)
  | _ + 1, left, [] => .ok (left, [])
  | fuel + 1, left, t :: ts =>
    if t = sep then
      match operand ts with
      | .ok (right, rest) => parseJoined sep join operand fuel (join left right) rest
      | .error e => .error e
    else .ok (left, t :: ts)

def parseChain (sep : Token) (join : Expr → Expr → Expr) (operand : List Token → Parsed Expr)
    (ts : List Token) : Parsed Expr :=
  match operand ts with
  | .ok (left, rest) => parseJoined sep join operand rest.length left rest
  | .error e => .error e

def parseAnd (term : List Token → Parsed Expr) : List Token → Parsed Expr :=
  parseChain .and .and term

def parseOr (levels : ℕ) (term : List Token → Parsed Expr) (ts : List Token) : Parsed Expr :=
  if levels = 0 then .error .tooDeep else parseChain .or .or (parseAnd term) ts

/-- The negation of a parsed term; a marker check turns into its opposite. -/
def negate : Expr → Expr
  | .has name => .missing name
  | other => .not other

def parseTerm : ℕ → List Token → Parsed Expr
  | 0, _ => .error .tooDeep
  | _ + 1, [] => .error .unexpectedEnd
  | levels + 1, .not :: ts =>
    match parseTerm levels ts with
    | .ok (inner, rest) => .ok (negate inner, rest)
    | .error e => .error e
  | levels + 1, .lParen :: ts =>
    match parseOr levels (parseTerm levels) ts with
    | .ok (inner, .rParen :: rest) => .ok (inner, rest)
    | .ok _ => .error .missingParen
    | .error e => .error e
  | _ + 1, ts => parseCmp ts

/-- `parse` after the tokenizer. -/
def parseTokens (tokens : List Token) : Except ParseError Expr :=
  if tokens.isEmpty then .error .emptyFilter
  else
    match parseOr (maxParseDepth + 1) (parseTerm (maxParseDepth + 1)) tokens with
    | .ok (result, []) => .ok result
    | .ok (_, t :: rest) => .error (.unexpectedToken (tokens.length - (t :: rest).length))
    | .error e => .error e

end Parser

end Sandstar.Filter
