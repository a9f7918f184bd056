import Sandstar.FilterGrammar
import Sandstar.PointFilter

set_option autoImplicit false

/-!
# Filters as text

The tokenizer of `rest/filter.rs` before its parser. The trees that some text parses to are those
of which each token can be written and whose shortest writing nests no deeper than the
parser goes; from that writing the parser reads each of them back.
-/
namespace Sandstar.Filter
open RoxWarp

section Tokenizer

/-- `char::is_alphabetic`, `char::is_numeric` and `str::parse::<f64>`, a number by its bits. -/
structure CharFns where
  isAlphabetic : Char → Bool
  isNumeric : Char → Bool
  parseF64 : List Char → Option UInt64
  ascii : ∀ c, c.toNat < 128 → isAlphabetic c = c.isAlpha ∧ isNumeric c = c.isDigit
  notBlank : ∀ c, isAlphabetic c → isWhitespace c = false

inductive LexError
  | invalidNumber (text : List Char)
  | unexpectedCharacter (c : Char)
deriving DecidableEq, Repr

variable (fns : CharFns)

def readSymbol : List Char → Option (Token × List Char)
  | '(' :: cs => some (.lParen, cs)
  | ')' :: cs => some (.rParen, cs)
  | '=' :: '=' :: cs => some (.eq, cs)
  | '!' :: '=' :: cs => some (.ne, cs)
  | '<' :: '=' :: cs => some (.le, cs)
  | '<' :: cs => some (.lt, cs)
  | '>' :: '=' :: cs => some (.ge, cs)
  | '>' :: cs => some (.gt, cs)
  | '-' :: '>' :: cs => some (.arrow, cs)
  | _ => none

def readQuoted : List Char → List Char × List Char
  | [] => ([], [])
  | '"' :: cs => ([], cs)
  | '\\' :: c :: cs => (c :: (readQuoted cs).1, (readQuoted cs).2)
  | c :: cs => (c :: (readQuoted cs).1, (readQuoted cs).2)

def startsNumber (c : Char) (cs : List Char) : Bool :=
  c.isDigit || (c == '-' && cs.head?.any Char.isDigit)

def inNumber (c : Char) : Bool := c.isDigit || c == '.'

def startsWord (c : Char) : Bool := fns.isAlphabetic c || c == '_'

def inWord (c : Char) : Bool := fns.isAlphabetic c || fns.isNumeric c || c == '_'

def wordToken (word : String) : Token :=
  if word = "and" then .and
  else if word = "or" then .or
  else if word = "not" then .not
  else if word = "true" then .true
  else if word = "false" then .false
  else .name word

def readToken (c : Char) (cs : List Char) : Except LexError (Option Token × List Char) :=
  if isWhitespace c then .ok (none, cs)
  else
    match readSymbol (c :: cs) with
    | some (token, rest) => .ok (some token, rest)
    | none =>
      if c = '"' then .ok (some (.str (String.ofList (readQuoted cs).1)), (readQuoted cs).2)
      else if startsNumber c cs then
        match fns.parseF64 (c :: cs.takeWhile inNumber) with
        | some bits => .ok (some (.num bits), cs.dropWhile inNumber)
        | none => .error (.invalidNumber (c :: cs.takeWhile inNumber))
      else if startsWord fns c then
        .ok (some (wordToken (String.ofList (c :: cs.takeWhile (inWord fns)))),
          cs.dropWhile (inWord fns))
      else .error (.unexpectedCharacter c)

def tokenizeLoop : ℕ → List Char → Except LexError (List Token)
  | _, [] => .ok []
  | 0, _ :: _ => .ok []
  | fuel + 1, c :: cs =>
    match readToken fns c cs with
    | .error e => .error e
    | .ok (token, rest) => (tokenizeLoop fuel rest).map (token.toList ++ ·)

def tokenize (input : List Char) : Except LexError (List Token) :=
  tokenizeLoop fns input.length input

inductive FilterError
  | text (e : LexError)
  | tokens (e : ParseError)
deriving DecidableEq, Repr

def parse (input : List Char) : Except FilterError Expr :=
  match tokenize fns input with
  | .error e => .error (.text e)
  | .ok tokens => (parseTokens tokens).mapError .tokens

theorem parse_eq_ok {fns : CharFns} {input : List Char} {e : Expr} :
    parse fns input = .ok e ↔ ∃ tokens, tokenize fns input = .ok tokens ∧
      Derives .expr maxParseDepth tokens e := by
  unfold parse
  cases htokens : tokenize fns input with
  | error err => simp
  | ok tokens =>
    simp only [Except.ok.injEq, exists_eq_left', ← parseTokens_eq_ok]
    cases parseTokens tokens <;> simp [Except.mapError]

end Tokenizer

section Writing

def symbols : List (List Char × Token) :=
  [(['('], .lParen), ([')'], .rParen), (['=', '='], .eq), (['!', '='], .ne), (['<'], .lt),
    (['<', '='], .le), (['>'], .gt), (['>', '='], .ge), (['-', '>'], .arrow)]

def quote (s : List Char) : List Char :=
  '"' :: (s.flatMap (fun c => if c = '"' ∨ c = '\\' then ['\\', c] else [c]) ++ ['"'])

inductive Spells (fns : CharFns) : List Char → Token → Prop
  | symbol {text t} : (text, t) ∈ symbols → Spells fns text t
  | quoted (s : List Char) : Spells fns (quote s) (.str (String.ofList s))
  | number {c cs bits} : startsNumber c cs → (∀ x ∈ cs, inNumber x) →
      fns.parseF64 (c :: cs) = some bits → Spells fns (c :: cs) (.num bits)
  | word {c cs} : startsWord fns c → (∀ x ∈ cs, inWord fns x) →
      Spells fns (c :: cs) (wordToken (String.ofList (c :: cs)))

def spaced (texts : List (List Char)) : List Char := texts.flatMap (' ' :: ·)

variable {fns : CharFns} {c : Char} {cs rest text : List Char} {t : Token}

def Ends (rest : List Char) : Prop := ∀ c ∈ rest.head?, c = ' '

theorem ends_spaced (texts : List (List Char)) : Ends (spaced texts) := by
  cases texts with
  | nil => simp [Ends, spaced]
  | cons text texts => simp [Ends, spaced]

theorem takeWhile_ends {p : Char → Bool} (hall : ∀ x ∈ cs, p x) (hblank : p ' ' = false)
    (hends : Ends rest) :
    (cs ++ rest).takeWhile p = cs ∧ (cs ++ rest).dropWhile p = rest := by
  rw [List.takeWhile_append_of_pos hall, List.dropWhile_append_of_pos hall]
  cases rest with
  | nil => simp
  | cons d rest =>
    rw [hends d rfl, List.takeWhile_cons_of_neg (by simp [hblank]),
      List.dropWhile_cons_of_neg (by simp [hblank]), List.append_nil]
    exact ⟨rfl, rfl⟩

theorem startsWord_ne (h : startsWord fns c) {d : Char} (hascii : d.toNat < 128)
    (hd : (d.isAlpha || d == '_') = false) : c ≠ d := by
  rintro rfl
  unfold startsWord at h
  rw [(fns.ascii c hascii).1, hd] at h
  cases h

theorem blank_not_inWord (fns : CharFns) : inWord fns ' ' = false := by
  obtain ⟨hletter, hdigit⟩ := fns.ascii ' ' (by decide)
  unfold inWord
  rw [hletter, hdigit]
  rfl

theorem startsWord_not_blank (h : startsWord fns c) : isWhitespace c = false := by
  unfold startsWord at h
  rcases Bool.or_eq_true_iff.1 h with hletter | hline
  · exact fns.notBlank c hletter
  · rw [eq_of_beq hline]
    decide

theorem not_letter (hlow : 48 ≤ c.toNat) (hhigh : c.toNat ≤ 57) :
    (c.isAlpha || c == '_') = false := by
  have hline : c ≠ '_' := by
    rintro rfl
    exact absurd hhigh (by decide)
  simp [Char.isAlpha, Char.isUpper, Char.isLower, hline, UInt32.le_iff_toNat_le]
  omega

theorem startsWord_not_number (h : startsWord fns c) : startsNumber c cs = false := by
  have hminus : c ≠ '-' := startsWord_ne h (by decide) (by decide)
  have hdigit : c.isDigit = false := by
    by_contra hdigit
    rw [Bool.not_eq_false] at hdigit
    obtain ⟨hlow, hhigh⟩ := Char.isDigit_iff_toNat.1 hdigit
    change 48 ≤ c.toNat at hlow
    change c.toNat ≤ 57 at hhigh
    exact startsWord_ne h (by omega) (not_letter hlow hhigh) rfl
  simp [startsNumber, hdigit, hminus]

theorem startsNumber_nil (h : startsNumber c []) (cs : List Char) : startsNumber c cs := by
  have hdigit : c.isDigit = true := by simpa [startsNumber] using h
  rw [startsNumber, hdigit]
  rfl

theorem startsNumber_takeWhile (h : startsNumber c cs) :
    startsNumber c (cs.takeWhile inNumber) := by
  cases cs with
  | nil => exact h
  | cons d cs =>
    unfold startsNumber inNumber at *
    cases hdigit : d.isDigit with
    | true => simpa [hdigit] using h
    | false => simp_all

theorem startsNumber_first (h : startsNumber c cs) : isWhitespace c = false ∧ c ≠ '"' := by
  have hcode : c.toNat = 45 ∨ 48 ≤ c.toNat ∧ c.toNat ≤ 57 := by
    rcases Bool.or_eq_true_iff.1 h with hdigit | hminus
    · exact .inr (Char.isDigit_iff_toNat.1 hdigit)
    · rw [eq_of_beq (Bool.and_eq_true_iff.1 hminus).1]
      exact .inl rfl
  constructor
  · simp [isWhitespace]
    omega
  · rintro rfl
    exact absurd hcode (by decide)

theorem readSymbol_none (h : c ∉ ['(', ')', '=', '!', '<', '>', '-']) :
    readSymbol (c :: cs) = none := by
  unfold readSymbol
  split
  case h_10 => rfl
  all_goals
    rename_i heq
    rw [(List.cons.inj heq).1] at h
    exact absurd h (by decide)

theorem readSymbol_number (h : startsNumber c cs) : readSymbol (c :: cs) = none := by
  rcases Bool.or_eq_true_iff.1 h with hdigit | hminus
  · refine readSymbol_none fun hmem => ?_
    have hnone : ∀ d ∈ ['(', ')', '=', '!', '<', '>', '-'], d.isDigit = false := by
      simp [Char.isDigit]
    rw [hnone c hmem] at hdigit
    cases hdigit
  · obtain ⟨hc, hdigit⟩ := Bool.and_eq_true_iff.1 hminus
    rw [eq_of_beq hc]
    cases cs with
    | nil => cases hdigit
    | cons d cs =>
      unfold readSymbol
      split
      case h_9 heq =>
        rw [(List.cons.inj (List.cons.inj heq).2).1] at hdigit
        cases hdigit
      case h_10 => rfl
      all_goals
        rename_i heq
        exact absurd (List.cons.inj heq).1 (by decide)

theorem readSymbol_symbols (h : (text, t) ∈ symbols) (hends : Ends rest) :
    readSymbol (text ++ rest) = some (t, rest) := by
  have hrest : rest = [] ∨ ∃ later, rest = ' ' :: later := by
    cases rest with
    | nil => exact .inl rfl
    | cons d later => exact .inr ⟨later, by rw [hends d rfl]⟩
  simp only [symbols, List.mem_cons, List.not_mem_nil, or_false, Prod.mk.injEq] at h
  obtain rfl | ⟨later, rfl⟩ := hrest
  all_goals
    rcases h with ⟨rfl, rfl⟩ | ⟨rfl, rfl⟩ | ⟨rfl, rfl⟩ | ⟨rfl, rfl⟩ | ⟨rfl, rfl⟩ | ⟨rfl, rfl⟩ |
      ⟨rfl, rfl⟩ | ⟨rfl, rfl⟩ | ⟨rfl, rfl⟩ <;> rfl

theorem readSymbol_mem {s : List Char} (h : readSymbol s = some (t, rest)) :
    ∃ text, (text, t) ∈ symbols := by
  unfold readSymbol at h
  split at h
  case h_10 => cases h
  all_goals
    cases h
    simp [symbols]

theorem readQuoted_quote (s rest : List Char) :
    readQuoted (s.flatMap (fun c => if c = '"' ∨ c = '\\' then ['\\', c] else [c]) ++
      '"' :: rest) = (s, rest) := by
  induction s with
  | nil => rfl
  | cons c s ih =>
    rw [List.flatMap_cons, List.append_assoc]
    split_ifs with hescaped
    · rw [List.cons_append, List.cons_append, List.nil_append, readQuoted, ih]
    · rw [not_or] at hescaped
      rw [List.cons_append, List.nil_append, readQuoted, ih]
      · exact hescaped.1
      · exact fun d ds hc => absurd hc hescaped.2

theorem readToken_spells (h : Spells fns text t) (hends : Ends rest) :
    ∃ c cs, text = c :: cs ∧ readToken fns c (cs ++ rest) = .ok (some t, rest) := by
  unfold readToken
  cases h with
  | symbol h =>
    have hfirst : ∀ entry ∈ symbols, ∃ c cs, entry.1 = c :: cs ∧ isWhitespace c = false := by
      simp [symbols, isWhitespace]
    obtain ⟨c, cs, rfl, hblank⟩ := hfirst _ h
    have hsymbol := readSymbol_symbols h hends
    rw [List.cons_append] at hsymbol
    refine ⟨c, cs, rfl, ?_⟩
    rw [hblank, hsymbol]
    rfl
  | quoted s =>
    refine ⟨_, _, rfl, ?_⟩
    rw [List.append_assoc, List.singleton_append, readQuoted_quote]
    rfl
  | @number c cs bits hstart hall hbits =>
    obtain ⟨htake, hdrop⟩ := takeWhile_ends hall (by decide) hends
    have hstart' : startsNumber c (cs ++ rest) := by
      cases cs with
      | nil => exact startsNumber_nil hstart rest
      | cons d cs => exact hstart
    obtain ⟨hblank, hquote⟩ := startsNumber_first hstart
    refine ⟨c, cs, rfl, ?_⟩
    rw [hblank, readSymbol_number hstart', htake, hdrop, hstart', hbits]
    exact if_neg hquote
  | @word c cs hstart hall =>
    obtain ⟨htake, hdrop⟩ := takeWhile_ends hall (blank_not_inWord fns) hends
    have hsymbol : c ∉ ['(', ')', '=', '!', '<', '>', '-'] := by
      simp only [List.mem_cons, List.not_mem_nil, or_false, not_or]
      refine ⟨?_, ?_, ?_, ?_, ?_, ?_, ?_⟩ <;> exact startsWord_ne hstart (by decide) (by decide)
    refine ⟨c, cs, rfl, ?_⟩
    rw [startsWord_not_blank hstart, readSymbol_none hsymbol, startsWord_not_number hstart, htake,
      hdrop, hstart]
    exact if_neg (startsWord_ne hstart (by decide) (by decide))

theorem readToken_written (h : readToken fns c cs = .ok (some t, rest)) :
    ∃ text, Spells fns text t := by
  unfold readToken at h
  cases hsymbol : readSymbol (c :: cs) with
  | some read =>
    obtain ⟨text, htext⟩ := readSymbol_mem hsymbol
    rw [hsymbol] at h
    dsimp only at h
    split_ifs at h
    · cases h
    · cases h
      exact ⟨text, .symbol htext⟩
  | none =>
    rw [hsymbol] at h
    dsimp only at h
    split_ifs at h with hblank hquote hnumber hword
    · cases h
    · cases h
      exact ⟨_, .quoted _⟩
    · cases hbits : fns.parseF64 (c :: cs.takeWhile inNumber) with
      | none =>
        rw [hbits] at h
        cases h
      | some bits =>
        rw [hbits] at h
        cases h
        refine ⟨_, .number ?_ (fun x hx => List.mem_takeWhile_imp hx) hbits⟩
        exact startsNumber_takeWhile hnumber
    · cases h
      exact ⟨_, .word hword fun x hx => List.mem_takeWhile_imp hx⟩

theorem readSymbol_length {s : List Char} (h : readSymbol s = some (t, rest)) :
    rest.length < s.length := by
  unfold readSymbol at h
  split at h <;> cases h <;> simp

theorem readQuoted_length (cs : List Char) : (readQuoted cs).2.length ≤ cs.length := by
  fun_induction readQuoted cs <;> simp_all <;> omega

theorem readToken_length {token : Option Token} (h : readToken fns c cs = .ok (token, rest)) :
    rest.length ≤ cs.length := by
  unfold readToken at h
  cases hsymbol : readSymbol (c :: cs) with
  | some read =>
    have hshort := readSymbol_length hsymbol
    rw [hsymbol] at h
    dsimp only at h
    split_ifs at h <;> cases h
    · exact le_rfl
    · exact Nat.le_of_lt_succ hshort
  | none =>
    rw [hsymbol] at h
    dsimp only at h
    split_ifs at h
    · cases h
      exact le_rfl
    · cases h
      exact readQuoted_length cs
    · split at h <;> cases h
      exact List.length_dropWhile_le _ _
    · cases h
      exact List.length_dropWhile_le _ _

theorem tokenizeLoop_fuel {fuel fuel' : ℕ} {input : List Char} (h : input.length ≤ fuel)
    (h' : input.length ≤ fuel') : tokenizeLoop fns fuel input = tokenizeLoop fns fuel' input := by
  induction fuel generalizing fuel' input with
  | zero =>
    obtain rfl := List.length_eq_zero_iff.1 (Nat.le_zero.1 h)
    cases fuel' <;> rfl
  | succ fuel ih =>
    cases input with
    | nil => cases fuel' <;> rfl
    | cons c cs =>
      obtain ⟨fuel', rfl⟩ := Nat.exists_eq_succ_of_ne_zero ((Nat.succ_pos _).trans_le h').ne'
      unfold tokenizeLoop
      rcases hread : readToken fns c cs with e | ⟨token, rest⟩
      · rfl
      · have hle := readToken_length hread
        simp only [List.length_cons] at h h'
        exact congrArg (Except.map _) (ih (by omega) (by omega))

theorem tokenizeLoop_cons {fuel : ℕ} {token : Option Token} {later : List Token}
    (hread : readToken fns c cs = .ok (token, rest))
    (hlater : tokenizeLoop fns fuel rest = .ok later) :
    tokenizeLoop fns (fuel + 1) (c :: cs) = .ok (token.toList ++ later) := by
  unfold tokenizeLoop
  simp only [hread]
  rw [hlater]
  rfl

/-- The tokens of a text are those of its first turn and those of the rest. -/
theorem tokenize_cons {token : Option Token} {later : List Token}
    (hread : readToken fns c cs = .ok (token, rest)) (hlater : tokenize fns rest = .ok later) :
    tokenize fns (c :: cs) = .ok (token.toList ++ later) := by
  refine tokenizeLoop_cons hread ?_
  rw [tokenizeLoop_fuel (readToken_length hread) le_rfl]
  exact hlater

theorem tokenize_blanks {b : List Char} (hb : b.all isWhitespace = true) {later : List Token}
    (hlater : tokenize fns rest = .ok later) : tokenize fns (b ++ rest) = .ok later := by
  induction b with
  | nil => exact hlater
  | cons c b ih =>
    rw [List.all_cons, Bool.and_eq_true] at hb
    have hskip : readToken fns c (b ++ rest) = .ok (none, b ++ rest) := by
      unfold readToken
      exact if_pos hb.1
    exact tokenize_cons hskip (ih hb.2)

theorem tokenizeLoop_written {fuel : ℕ} {input : List Char} {tokens : List Token}
    (h : tokenizeLoop fns fuel input = .ok tokens) : ∀ t ∈ tokens, ∃ text, Spells fns text t := by
  induction fuel generalizing input tokens with
  | zero =>
    cases input <;>
      · cases h
        simp
  | succ fuel ih =>
    cases input with
    | nil =>
      cases h
      simp
    | cons c cs =>
      unfold tokenizeLoop at h
      rcases hread : readToken fns c cs with e | ⟨token, rest⟩
      · simp [hread] at h
      · simp only [hread] at h
        rcases hlater : tokenizeLoop fns fuel rest with e | later
        · rw [hlater] at h
          cases h
        rw [hlater] at h
        cases h
        intro t ht
        rcases List.mem_append.1 ht with hmem | hmem
        · obtain rfl := Option.mem_toList.1 hmem
          exact readToken_written hread
        · exact ih hlater t hmem

theorem tokenizeLoop_spaced {texts : List (List Char)} {tokens : List Token}
    (h : List.Forall₂ (Spells fns) texts tokens) {fuel : ℕ} (hfuel : (spaced texts).length ≤ fuel) :
    tokenizeLoop fns fuel (spaced texts) = .ok tokens := by
  induction h generalizing fuel with
  | nil => cases fuel <;> rfl
  | @cons text t texts tokens ht _ ih =>
    obtain ⟨c, cs, rfl, hread⟩ := readToken_spells ht (ends_spaced texts)
    have hspaced : spaced ((c :: cs) :: texts) = ' ' :: c :: (cs ++ spaced texts) := by
      simp [spaced]
    rw [hspaced] at hfuel ⊢
    simp only [List.length_cons, List.length_append] at hfuel
    obtain ⟨fuel, rfl⟩ : ∃ n, fuel = n + 2 := ⟨fuel - 2, by omega⟩
    have hblank : readToken fns ' ' (c :: (cs ++ spaced texts)) =
        .ok (none, c :: (cs ++ spaced texts)) := by
      unfold readToken
      exact if_pos (by decide)
    have hrest := ih (by omega : (spaced texts).length ≤ fuel)
    exact tokenizeLoop_cons hblank (tokenizeLoop_cons hread hrest)

theorem tokenize_spaced {texts : List (List Char)} {tokens : List Token}
    (h : List.Forall₂ (Spells fns) texts tokens) : tokenize fns (spaced texts) = .ok tokens :=
  tokenizeLoop_spaced h le_rfl

end Writing

section Trees

def Expr.level : Expr → Nonterminal
  | .and _ _ => .andExpr
  | .or _ _ => .expr
  | _ => .term

def Nonterminal.covers : Nonterminal → Nonterminal → Bool
  | .expr, _ => true
  | .andExpr, .expr => false
  | .andExpr, _ => true
  | .term, .term => true
  | .term, _ => false

def parens (nt : Nonterminal) (e : Expr) (ts : List Token) : List Token :=
  if nt.covers e.level then ts else .lParen :: (ts ++ [.rParen])

def deeper (nt : Nonterminal) (e : Expr) (n : ℕ) : ℕ := if nt.covers e.level then n else n + 1

def Expr.tokens : Expr → List Token
  | .has tag => [.name tag]
  | .missing tag => [.not, .name tag]
  | .not inner => .not :: parens .term inner inner.tokens
  | .cmp path op value => path.tokens ++ [op.token, value.token]
  | .and left right => parens .andExpr left left.tokens ++ .and :: parens .term right right.tokens
  | .or left right => left.tokens ++ .or :: parens .andExpr right right.tokens

/-- How deep the `not` and the parentheses of these tokens nest. -/
def Expr.nesting : Expr → ℕ
  | .has _ => 0
  | .missing _ => 1
  | .not inner => deeper .term inner inner.nesting + 1
  | .cmp _ _ _ => 0
  | .and left right => max (deeper .andExpr left left.nesting) (deeper .term right right.nesting)
  | .or left right => max left.nesting (deeper .andExpr right right.nesting)

/-- No marker check is negated: its negation is a tree of its own. -/
def Expr.normal : Expr → Bool
  | .not (.has _) => false
  | .not inner => inner.normal
  | .and left right => left.normal && right.normal
  | .or left right => left.normal && right.normal
  | _ => true

variable {nt : Nonterminal} {n m : ℕ} {ts : List Token} {e : Expr}

theorem deeper_le_andExpr (e : Expr) (n : ℕ) : deeper .expr e n ≤ deeper .andExpr e n := by
  cases e <;> simp [deeper, Expr.level, Nonterminal.covers]

theorem deeper_le_term (e : Expr) (n : ℕ) : deeper .andExpr e n ≤ deeper .term e n := by
  cases e <;> simp [deeper, Expr.level, Nonterminal.covers]

theorem deeper_term_le (e : Expr) (n : ℕ) : deeper .term e n ≤ deeper .expr e n + 1 := by
  cases e <;> simp [deeper, Expr.level, Nonterminal.covers]

def withParens (ts : List Token) : List Token := .lParen :: .rParen :: ts

theorem withParens_subset {us : List Token} (h : ts ⊆ us) : withParens ts ⊆ withParens us :=
  List.cons_subset_cons _ (List.cons_subset_cons _ h)

theorem parens_subset {us : List Token} (h : ts ⊆ withParens us) :
    parens nt e ts ⊆ withParens us := by
  unfold parens
  split_ifs
  · exact h
  · exact List.cons_subset.2 ⟨by simp [withParens], List.append_subset.2 ⟨h, by simp [withParens]⟩⟩

theorem join_subset {sep : Token} {us vs ts' : List Token} (h : us ⊆ withParens ts)
    (h' : vs ⊆ withParens ts') : us ++ sep :: vs ⊆ withParens (ts ++ sep :: ts') := by
  refine List.append_subset.2 ⟨List.Subset.trans h ?_, List.cons_subset.2 ⟨?_, ?_⟩⟩
  · exact withParens_subset (List.subset_append_left _ _)
  · simp [withParens]
  · refine List.Subset.trans h' (withParens_subset ?_)
    exact List.Subset.trans (List.subset_cons_self _ _) (List.subset_append_right _ _)

/-- No writing of a tree nests less than the shortest, or has other tokens but parentheses. -/
theorem Derives.shortest (h : Derives nt n ts e) :
    e.normal ∧ deeper nt e e.nesting ≤ n ∧ e.tokens ⊆ withParens ts := by
  induction h with
  | orOne _ ih => exact ⟨ih.1, (deeper_le_andExpr _ _).trans ih.2.1, ih.2.2⟩
  | andOne _ ih => exact ⟨ih.1, (deeper_le_term _ _).trans ih.2.1, ih.2.2⟩
  | @orMore n ts ts' e e' _ _ ih ih' =>
    refine ⟨Bool.and_eq_true_iff.2 ⟨ih.1, ih'.1⟩, max_le ih.2.1 ih'.2.1, ?_⟩
    exact join_subset ih.2.2 (parens_subset ih'.2.2)
  | @andMore n ts ts' e e' _ _ ih ih' =>
    refine ⟨Bool.and_eq_true_iff.2 ⟨ih.1, ih'.1⟩, max_le ih.2.1 ih'.2.1, ?_⟩
    exact join_subset (parens_subset ih.2.2) (parens_subset ih'.2.2)
  | @not n ts e _ ih =>
    obtain ⟨hnormal, hdeep, hsub⟩ := ih
    have hlater : withParens ts ⊆ withParens (.not :: ts) :=
      withParens_subset (List.subset_cons_self _ _)
    have hnot : .not ∈ withParens (.not :: ts) := by simp [withParens]
    cases e with
    | has tag =>
      refine ⟨rfl, Nat.le_add_left 1 n, List.cons_subset.2 ⟨hnot, ?_⟩⟩
      exact List.Subset.trans hsub hlater
    | _ =>
      refine ⟨hnormal, Nat.succ_le_succ hdeep, List.cons_subset.2 ⟨hnot, ?_⟩⟩
      exact List.Subset.trans (parens_subset hsub) hlater
  | @paren n ts e _ ih =>
    refine ⟨ih.1, (deeper_term_le _ _).trans (Nat.succ_le_succ ih.2.1), List.Subset.trans ih.2.2 ?_⟩
    exact withParens_subset
      (List.Subset.trans (List.subset_append_left _ _) (List.subset_cons_self _ _))
  | has tag => exact ⟨rfl, Nat.zero_le _, fun t ht => by simp_all [withParens, Expr.tokens]⟩
  | cmp path op value => exact ⟨rfl, Nat.zero_le _, fun t ht => .tail _ (.tail _ ht)⟩

theorem Derives.covered (hcovers : nt.covers e.level) (h : Derives e.level n ts e) :
    Derives nt n ts e := by
  cases nt <;> cases hlevel : e.level <;> rw [hlevel] at h hcovers <;> first
    | exact h
    | exact .orOne h
    | exact .andOne h
    | exact .orOne (.andOne h)
    | cases hcovers

theorem derives_parens (hown : ∀ n, e.nesting ≤ n → Derives e.level n e.tokens e)
    (h : deeper nt e e.nesting ≤ n) : Derives nt n (parens nt e e.tokens) e := by
  unfold deeper at h
  unfold parens
  split_ifs at h ⊢ with hcovers
  · exact (hown n h).covered hcovers
  · obtain ⟨n, rfl⟩ : ∃ m, n = m + 1 := ⟨n - 1, by omega⟩
    have hparen : Derives .term (n + 1) (.lParen :: (e.tokens ++ [.rParen])) e :=
      .paren ((hown n (by omega)).covered rfl)
    cases nt with
    | expr => exact .orOne (.andOne hparen)
    | andExpr => exact .andOne hparen
    | term => exact hparen

theorem derives_tokens (hnormal : e.normal) :
    ∀ n, e.nesting ≤ n → Derives e.level n e.tokens e := by
  induction e with
  | has tag => exact fun n _ => .has tag
  | missing tag =>
    intro n hn
    obtain ⟨n, rfl⟩ : ∃ m, n = m + 1 := ⟨n - 1, (Nat.sub_add_cancel hn).symm⟩
    exact .not (.has tag)
  | not inner ih =>
    intro n hn
    obtain ⟨n, rfl⟩ : ∃ m, n = m + 1 :=
      ⟨n - 1, (Nat.sub_add_cancel ((Nat.le_add_left 1 _).trans hn)).symm⟩
    cases inner with
    | has tag => cases hnormal
    | _ => exact .not (derives_parens (ih hnormal) (Nat.le_of_succ_le_succ hn))
  | cmp path op value => exact fun n _ => .cmp path op value
  | and left right ih ih' =>
    intro n hn
    obtain ⟨hleft, hright⟩ := Bool.and_eq_true_iff.1 hnormal
    exact .andMore (derives_parens (ih hleft) (le_of_max_le_left hn))
      (derives_parens (ih' hright) (le_of_max_le_right hn))
  | or left right ih ih' =>
    intro n hn
    obtain ⟨hleft, hright⟩ := Bool.and_eq_true_iff.1 hnormal
    exact .orMore ((ih hleft n (le_of_max_le_left hn)).covered rfl)
      (derives_parens (ih' hright) (le_of_max_le_right hn))

/-- The grammar has a tree exactly where its shortest writing nests no deeper than it may. -/
theorem derives_tokens_iff :
    Derives .expr n e.tokens e ↔ e.normal ∧ e.nesting ≤ n := by
  constructor
  · exact fun h => ⟨h.shortest.1, h.shortest.2.1⟩
  · exact fun ⟨hnormal, hnesting⟩ => (derives_tokens hnormal n hnesting).covered rfl

end Trees

section ReadBack

variable {fns : CharFns} {e : Expr}

/-- A tree is read back from any spelling of its tokens exactly where it has no negated marker
check and its shortest writing nests no deeper than the parser goes. -/
theorem written_parses_iff {texts : List (List Char)}
    (h : List.Forall₂ (Spells fns) texts e.tokens) :
    parse fns (spaced texts) = .ok e ↔ e.normal ∧ e.nesting ≤ maxParseDepth := by
  rw [← derives_tokens_iff, parse_eq_ok, tokenize_spaced h]
  simp

def asciiFns : CharFns where
  isAlphabetic := Char.isAlpha
  isNumeric := Char.isDigit
  parseF64 text := if text = ['7', '2'] then some 0x4052000000000000 else none
  ascii _ _ := ⟨rfl, rfl⟩
  notBlank c h := by
    simp only [Char.isAlpha, Char.isUpper, Char.isLower, Bool.or_eq_true, Bool.and_eq_true,
      decide_eq_true_eq, UInt32.le_iff_toNat_le, ge_iff_le] at h
    change (65 ≤ c.toNat ∧ c.toNat ≤ 90) ∨ 97 ≤ c.toNat ∧ c.toNat ≤ 122 at h
    simp [isWhitespace]
    omega

theorem Spells.of_word {c : Char} {cs : List Char} {t : Token} (hstart : startsWord fns c)
    (hall : cs.all (inWord fns)) (ht : wordToken (String.ofList (c :: cs)) = t) :
    Spells fns (c :: cs) t :=
  ht ▸ .word hstart (List.all_eq_true.1 hall)

theorem warm_site_read_back :
    parse asciiFns (spaced ["(".toList, "site".toList, "or".toList, "not".toList, "ahu".toList,
        ")".toList, "and".toList, "temp".toList, ">".toList, "72".toList]) =
      .ok (.and (.or (.has "site") (.missing "ahu"))
        (.cmp ⟨"temp", []⟩ .gt (.num 0x4052000000000000))) := by
  refine (written_parses_iff ?_).2 ⟨rfl, by decide⟩
  refine .cons (.symbol (by decide)) (.cons (.of_word (by decide) (by decide) rfl)
    (.cons (.of_word (by decide) (by decide) rfl) (.cons (.of_word (by decide) (by decide) rfl)
    (.cons (.of_word (by decide) (by decide) rfl) (.cons (.symbol (by decide))
    (.cons (.of_word (by decide) (by decide) rfl) (.cons (.of_word (by decide) (by decide) rfl)
    (.cons (.symbol (by decide)) (.cons (.number rfl (List.all_eq_true.1 rfl) rfl) .nil)))))))))

theorem spells_of_written {tokens : List Token} (h : ∀ t ∈ tokens, ∃ text, Spells fns text t) :
    ∃ texts, List.Forall₂ (Spells fns) texts tokens := by
  induction tokens with
  | nil => exact ⟨[], .nil⟩
  | cons t tokens ih =>
    obtain ⟨hfirst, hlater⟩ := List.forall_mem_cons.1 h
    obtain ⟨text, htext⟩ := hfirst
    obtain ⟨texts, htexts⟩ := ih hlater
    exact ⟨text :: texts, .cons htext htexts⟩

/-- The trees of all texts: those without a negated marker check whose shortest writing nests no
deeper than the parser goes and whose tokens can be written. -/
theorem parses_iff (fns : CharFns) (e : Expr) :
    (∃ text, parse fns text = .ok e) ↔
      e.normal ∧ e.nesting ≤ maxParseDepth ∧ ∀ t ∈ e.tokens, ∃ text, Spells fns text t := by
  constructor
  · rintro ⟨text, h⟩
    obtain ⟨tokens, htokens, hderives⟩ := parse_eq_ok.1 h
    obtain ⟨hnormal, hnesting, hsub⟩ := hderives.shortest
    refine ⟨hnormal, hnesting, fun t ht => ?_⟩
    rcases List.mem_cons.1 (hsub ht) with rfl | hmem
    · exact ⟨['('], .symbol (by decide)⟩
    rcases List.mem_cons.1 hmem with rfl | hmem
    · exact ⟨[')'], .symbol (by decide)⟩
    · exact tokenizeLoop_written htokens t hmem
  · rintro ⟨hnormal, hnesting, hwritten⟩
    obtain ⟨texts, htexts⟩ := spells_of_written hwritten
    exact ⟨spaced texts, (written_parses_iff htexts).2 ⟨hnormal, hnesting⟩⟩

end ReadBack

end Sandstar.Filter
