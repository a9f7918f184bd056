import Sandstar.FilterText
import Sandstar.PointFilterChains

set_option autoImplicit false

namespace Sandstar.RoxWarp
open Sandstar.Filter

section Trimming

theorem dropWhile_blank {b t : List Char} (hb : b.all isWhitespace = true)
    (ht : ∃ c cs, t = c :: cs ∧ isWhitespace c = false) :
    (b ++ t).dropWhile isWhitespace = t := by
  rw [List.dropWhile_append_of_pos fun c hc => List.all_eq_true.1 hb c hc]
  obtain ⟨c, cs, rfl, hc⟩ := ht
  exact List.dropWhile_cons_of_neg (by simp [hc])

/-- Trimming takes the blanks around a solid text, and no more. -/
theorem trim_solid {b t b' : List Char} (hb : b.all isWhitespace = true)
    (hb' : b'.all isWhitespace = true) (ht : Solid t) : trim (b ++ t ++ b') = t := by
  obtain ⟨c, cs, hstart, hc⟩ := ht.starts
  obtain ⟨ds, d, hend, hd⟩ := ht.ends
  have hleft : (b ++ t ++ b').dropWhile isWhitespace = t ++ b' := by
    rw [List.append_assoc]
    apply dropWhile_blank hb
    exact ⟨c, cs ++ b', by rw [hstart]; rfl, hc⟩
  have hright : (b'.reverse ++ t.reverse).dropWhile isWhitespace = t.reverse := by
    apply dropWhile_blank
    · rw [List.all_reverse]
      exact hb'
    · exact ⟨d, ds.reverse, by rw [hend]; simp, hd⟩
  unfold trim trimMatches
  rw [hleft, List.reverse_append, hright, List.reverse_reverse]

theorem Solid.append {t u : List Char} (ht : Solid t) (hu : ∃ cs c, u = cs ++ [c] ∧
    isWhitespace c = false) : Solid (t ++ u) := by
  obtain ⟨c, cs, rfl, hc⟩ := ht.starts
  obtain ⟨ds, d, rfl, hd⟩ := hu
  exact ⟨⟨c, cs ++ (ds ++ [d]), rfl, hc⟩, ⟨c :: cs ++ ds, d, by simp, hd⟩⟩

theorem solid_chainText {first : Operand} {links : List Link} (hfirst : Solid first.text)
    (hlinks : ∀ l ∈ links, Solid l.operand.text) : Solid (chainText first links) := by
  induction links generalizing first with
  | nil =>
    unfold chainText tailText
    rw [List.flatMap_nil, List.append_nil]
    exact hfirst
  | cons l links ih =>
    have hrest := ih (hlinks l List.mem_cons_self)
      fun l' hl' => hlinks l' (List.mem_cons_of_mem l hl')
    obtain ⟨cs, c, hcs, hc⟩ := hrest.ends
    have htail : tailText (l :: links) = l.before ++ (l.connective.keyword ++ (l.after ++ cs)) ++ [c] := by
      rw [tailText_cons]
      change l.before ++ (l.connective.keyword ++ (l.after ++ chainText l.operand links)) = _
      rw [hcs]
      simp
    exact hfirst.append ⟨_, c, htail, hc⟩

end Trimming

section Values

/-- The point filter on the truth values of a chain: the operands between two `and`s are
    joined by `or` first. -/
def splitValue : Bool → List (Connective × Bool) → Bool
  | b, [] => b
  | b, (.or, x) :: xs => splitValue (b || x) xs
  | b, (.and, x) :: xs => b && splitValue x xs

theorem splitValue_or {b x : Bool} {xs : List (Connective × Bool)}
    (h : ∀ y ∈ xs, y.1 ≠ .and) : splitValue (b || x) xs = (b || splitValue x xs) := by
  induction xs generalizing x with
  | nil => rfl
  | cons y xs ih =>
    obtain ⟨c, y⟩ := y
    cases c with
    | and => exact absurd rfl (h _ List.mem_cons_self)
    | or =>
      unfold splitValue
      rw [Bool.or_assoc]
      exact ih fun z hz => h z (List.mem_cons_of_mem _ hz)

theorem splitValue_and {b x : Bool} {xs ys : List (Connective × Bool)}
    (h : ∀ y ∈ xs, y.1 ≠ .and) :
    splitValue b (xs ++ (.and, x) :: ys) = (splitValue b xs && splitValue x ys) := by
  induction xs generalizing b with
  | nil => rfl
  | cons y xs ih =>
    obtain ⟨c, y⟩ := y
    cases c with
    | and => exact absurd rfl (h _ List.mem_cons_self)
    | or => exact ih fun z hz => h z (List.mem_cons_of_mem _ hz)

variable {O : Type} {fns : TextFns}

/-- The truth values of the operands of a chain, with their connectives. -/
def linkValues (fns : TextFns) (point : VersionedPoint UInt64 O) (links : List Link) :
    List (Connective × Bool) :=
  links.map fun l => (l.connective, evaluateComparison fns l.operand.text point)

theorem exists_first_and (links : List Link) (h : ¬ ∀ l ∈ links, l.connective ≠ .and) :
    ∃ ls l rest, links = ls ++ l :: rest ∧ (∀ l' ∈ ls, l'.connective ≠ .and) ∧
      l.connective = .and := by
  induction links with
  | nil => exact absurd (fun l hl => absurd hl List.not_mem_nil) h
  | cons k links ih =>
    by_cases hk : k.connective = .and
    · exact ⟨[], k, links, rfl, fun l hl => absurd hl List.not_mem_nil, hk⟩
    · have hrest : ¬ ∀ l ∈ links, l.connective ≠ .and := by
        intro hall
        apply h
        intro l hl
        rcases List.mem_cons.1 hl with rfl | hl
        · exact hk
        · exact hall l hl
      obtain ⟨ls, l, rest, rfl, hls, hl⟩ := ih hrest
      refine ⟨k :: ls, l, rest, rfl, ?_, hl⟩
      intro l' hl'
      rcases List.mem_cons.1 hl' with rfl | hl'
      · exact hk
      · exact hls l' hl'

theorem linkValues_no_and (fns : TextFns) {links : List Link} (point : VersionedPoint UInt64 O)
    (h : ∀ l ∈ links, l.connective ≠ .and) : ∀ y ∈ linkValues fns point links, y.1 ≠ .and := by
  intro y hy
  obtain ⟨l, hl, rfl⟩ := List.mem_map.1 hy
  exact h l hl

section Steps

variable {point : VersionedPoint UInt64 O} {fuel pos : ℕ} {filter f left right : List Char}
  {x y : Bool}

theorem evaluateWith_and (hf : trim filter = f) (hand : findKeyword fns f .and = some pos)
    (hcut : cutKeyword f pos .and = some (left, right))
    (hleft : evaluateWith fns point fuel left = some x)
    (hright : evaluateWith fns point fuel right = some y) :
    evaluateWith fns point (fuel + 1) filter = some (x && y) := by
  unfold evaluateWith
  simp only [hf, hand, hcut, hleft]
  cases x
  · rfl
  · exact hright

theorem evaluateWith_or (hf : trim filter = f) (hand : findKeyword fns f .and = none)
    (hor : findKeyword fns f .or = some pos) (hcut : cutKeyword f pos .or = some (left, right))
    (hleft : evaluateWith fns point fuel left = some x)
    (hright : evaluateWith fns point fuel right = some y) :
    evaluateWith fns point (fuel + 1) filter = some (x || y) := by
  unfold evaluateWith
  simp only [hf, hand, hor, hcut, hleft]
  cases x
  · exact hright
  · rfl

theorem evaluateWith_comparison (hf : trim filter = f) (hand : findKeyword fns f .and = none)
    (hor : findKeyword fns f .or = none) :
    evaluateWith fns point (fuel + 1) filter = some (evaluateComparison fns f point) := by
  unfold evaluateWith
  simp only [hf, hand, hor]

end Steps

/-- The point filter on a chain. The induction is on the fuel, of which every link takes one. -/
theorem evaluateWith_chain (hlaw : LowercaseLaw fns) (point : VersionedPoint UInt64 O) {fuel : ℕ}
    {first : Operand} {links : List Link} {b b' : List Char} (h : Readable fns first links)
    (hb : b.all isWhitespace = true) (hb' : b'.all isWhitespace = true)
    (hfuel : links.length < fuel) :
    evaluateWith fns point fuel (b ++ chainText first links ++ b') =
      some (splitValue (evaluateComparison fns first.text point) (linkValues fns point links)) := by
  induction fuel generalizing first links b b' with
  | zero => exact absurd hfuel (Nat.not_lt_zero _)
  | succ fuel ih =>
    have htrim := trim_solid hb hb' (solid_chainText h.solid h.links_solid)
    -- the two smaller chains around a link, as the slices give them
    have hsplit : ∀ ls l rest, Readable fns first (ls ++ l :: rest) →
        (ls ++ l :: rest).length < fuel + 1 →
        evaluateWith fns point fuel (chainText first ls ++ l.before) =
            some (splitValue (evaluateComparison fns first.text point) (linkValues fns point ls)) ∧
          evaluateWith fns point fuel (l.after ++ chainText l.operand rest) =
            some (splitValue (evaluateComparison fns l.operand.text point)
              (linkValues fns point rest)) := by
      intro ls l rest hread hlength
      rw [List.length_append, List.length_cons] at hlength
      obtain ⟨hleft, hright⟩ := hread.split
      have hblanks := (hread.links_fit l (by simp)).blanks
      have hnil : ([] : List Char).all isWhitespace = true := rfl
      have hleftValue := ih hleft hnil hblanks.1 (by omega)
      have hrightValue := ih hright hblanks.2 hnil (by omega)
      rw [List.append_nil] at hrightValue
      exact ⟨hleftValue, hrightValue⟩
    by_cases hand : ∀ l ∈ links, l.connective ≠ .and
    · have hnone := h.findKeyword_none hlaw hand
      cases links with
      | nil =>
        have hor := h.findKeyword_none hlaw (c := .or) fun l hl => absurd hl List.not_mem_nil
        rw [evaluateWith_comparison htrim hnone hor]
        simp [chainText, tailText, linkValues, splitValue]
      | cons l rest =>
        have hl : l.connective = .or := by
          cases hc : l.connective with
          | and => exact absurd hc (hand l List.mem_cons_self)
          | or => rfl
        have hread : Readable fns first ([] ++ l :: rest) := h
        have hfind := hread.findKeyword_first hlaw (fun l hl => absurd hl List.not_mem_nil) hl
        have hcut := hread.cutKeyword_first
        rw [hl] at hcut
        obtain ⟨hleft, hright⟩ := hsplit [] l rest hread hfuel
        rw [evaluateWith_or htrim hnone hfind hcut hleft hright]
        have hrest := linkValues_no_and fns point
          fun l' hl' => hand l' (List.mem_cons_of_mem l hl')
        have hvalues : linkValues fns point (l :: rest) =
            (.or, evaluateComparison fns l.operand.text point) :: linkValues fns point rest := by
          simp [linkValues, hl]
        rw [hvalues]
        exact congrArg some (splitValue_or hrest).symm
    · obtain ⟨ls, l, rest, rfl, hls, hl⟩ := exists_first_and links hand
      have hfind := h.findKeyword_first hlaw hls hl
      have hcut := h.cutKeyword_first
      rw [hl] at hcut
      obtain ⟨hleft, hright⟩ := hsplit ls l rest h hfuel
      rw [evaluateWith_and htrim hfind hcut hleft hright]
      have hvalues : linkValues fns point (ls ++ l :: rest) = linkValues fns point ls ++
          (.and, evaluateComparison fns l.operand.text point) :: linkValues fns point rest := by
        simp [linkValues, hl]
      rw [hvalues, splitValue_and (linkValues_no_and fns point hls)]

theorem length_le_chainText (first : Operand) (links : List Link) :
    links.length ≤ (chainText first links).length := by
  induction links generalizing first with
  | nil => exact Nat.zero_le _
  | cons l links ih =>
    have hrest := ih l.operand
    have hpos : 0 < l.connective.keyword.length := by cases l.connective <;> decide
    unfold chainText at hrest ⊢
    rw [tailText_cons]
    simp only [List.length_append, List.length_cons] at hrest ⊢
    omega

theorem evaluatePointFilter_chain (hlaw : LowercaseLaw fns) (point : VersionedPoint UInt64 O)
    {first : Operand} {links : List Link} {b b' : List Char} (h : Readable fns first links)
    (hb : b.all isWhitespace = true) (hb' : b'.all isWhitespace = true) :
    evaluatePointFilter fns (b ++ chainText first links ++ b') point =
      some (splitValue (evaluateComparison fns first.text point) (linkValues fns point links)) := by
  apply evaluateWith_chain hlaw point h hb hb'
  have hlength := length_le_chainText first links
  simp only [List.length_append]
  omega

end Values

section Grouping

variable {α : Type}

/-- What is joined by `or` so far, with the current run of `and`s. -/
def joinRun (or : α → α → α) : Option α → α → α
  | none, run => run
  | some done, run => or done run

/-- A chain in the grouping of the REST parser: `and` first, both to the left. -/
def grouped (or and : α → α → α) : Option α → α → List (Connective × α) → α
  | done, run, [] => joinRun or done run
  | done, run, (.and, x) :: xs => grouped or and done (and run x) xs
  | done, run, (.or, x) :: xs => grouped or and (some (joinRun or done run)) x xs

def Connective.token : Connective → Token
  | .and => .and
  | .or => .or

def tailTokens (links : List Link) : List Token :=
  links.flatMap fun l => l.connective.token :: l.operand.tokens

def chainTokens (first : Operand) (links : List Link) : List Token :=
  first.tokens ++ tailTokens links

def linkExprs (links : List Link) : List (Connective × Expr) :=
  links.map fun l => (l.connective, l.operand.expr)

/-- The parser reads the operand as a comparison or a marker. -/
def Operand.Parses (op : Operand) : Prop := Derives .term 0 op.tokens op.expr

theorem Operand.Parses.term {op : Operand} (h : op.Parses) (n : ℕ) :
    Derives .term n op.tokens op.expr := by
  unfold Operand.Parses at h
  generalize op.tokens = tokens at h
  generalize op.expr = expr at h
  cases h with
  | has tag => exact .has tag
  | cmp path op value => exact .cmp path op value

/-- The derivation of a chain. The induction is on the links: `done` stands for a derived
    `expr` with an `or` behind it, `run` for a derived `andExpr`. -/
theorem derives_grouped {n : ℕ} {links : List Link} (hlinks : ∀ l ∈ links, l.operand.Parses)
    {done : Option Expr} {run : Expr} {before tokens : List Token}
    (hdone : ∀ ts e, Derives .andExpr n ts e →
      Derives .expr n (before ++ ts) (joinRun .or done e))
    (hrun : Derives .andExpr n tokens run) :
    Derives .expr n (before ++ (tokens ++ tailTokens links))
      (grouped .or .and done run (linkExprs links)) := by
  induction links generalizing done run before tokens with
  | nil =>
    have hall := hdone tokens run hrun
    simpa [tailTokens, linkExprs, grouped] using hall
  | cons l links ih =>
    have hl := (hlinks l List.mem_cons_self).term n
    have hrest : ∀ l' ∈ links, l'.operand.Parses :=
      fun l' hl' => hlinks l' (List.mem_cons_of_mem l hl')
    have htail : tailTokens (l :: links) =
        l.connective.token :: (l.operand.tokens ++ tailTokens links) := rfl
    have hexprs : linkExprs (l :: links) = (l.connective, l.operand.expr) :: linkExprs links := rfl
    rw [htail, hexprs]
    cases hc : l.connective with
    | and =>
      have hnext := ih hrest hdone (.andMore hrun hl)
      simpa [grouped, Connective.token] using hnext
    | or =>
      have hjoin : ∀ ts e, Derives .andExpr n ts e → Derives .expr n
          (before ++ (tokens ++ [.or]) ++ ts) (joinRun .or (some (joinRun .or done run)) e) := by
        intro ts e hts
        have hjoined := Derives.orMore (hdone tokens run hrun) hts
        simpa [joinRun] using hjoined
      have hnext := ih hrest hjoin (.andOne hl)
      simpa [grouped, Connective.token] using hnext

theorem parseTokens_chain {first : Operand} {links : List Link} (hfirst : first.Parses)
    (hlinks : ∀ l ∈ links, l.operand.Parses) :
    parseTokens (chainTokens first links) =
      .ok (grouped .or .and none first.expr (linkExprs links)) := by
  rw [parseTokens_eq_ok]
  have hnone : ∀ ts e, Derives .andExpr maxParseDepth ts e →
      Derives .expr maxParseDepth ([] ++ ts) (joinRun .or none e) := fun _ _ h => .orOne h
  exact derives_grouped hlinks hnone (.andOne (hfirst.term _))

/-- Wherever the text of the operand stands before the end or a blank, the tokenizer reads it
    as the operand's tokens. -/
def Operand.Reads (chars : CharFns) (op : Operand) : Prop :=
  ∀ rest later, StartsBlank rest → tokenize chars rest = .ok later →
    tokenize chars (op.text ++ rest) = .ok (op.tokens ++ later)

theorem startsBlank_blanks {b : List Char} (hb : b.all isWhitespace = true) : StartsBlank b := by
  intro x hx
  cases b with
  | nil => cases hx
  | cons c b =>
    rw [← Option.some.inj hx]
    rw [List.all_cons, Bool.and_eq_true] at hb
    exact hb.1

theorem startsBlank_append {b rest : List Char} (hb : b.all isWhitespace = true)
    (hrest : StartsBlank rest) : StartsBlank (b ++ rest) := by
  cases b with
  | nil => exact hrest
  | cons c b =>
    have hstart := startsBlank_blanks hb
    exact hstart

theorem startsBlank_keyword (c : Connective) (rest : List Char) :
    StartsBlank (c.keyword ++ rest) := by
  intro x hx
  have hspace : x = ' ' := by cases c <;> exact (Option.some.inj hx).symm
  rw [hspace]
  decide

theorem tokenize_keyword {chars : CharFns} (c : Connective) {rest : List Char}
    {later : List Token} (hlater : tokenize chars rest = .ok later) :
    tokenize chars (c.keyword ++ rest) = .ok (c.token :: later) := by
  have hblank : tokenize chars (' ' :: rest) = .ok later :=
    tokenize_blanks (b := [' ']) (by decide) hlater
  have hends : Ends (' ' :: rest) := by simp [Ends]
  have hletter : startsWord chars 'a' = true ∧ startsWord chars 'o' = true ∧
      inWord chars 'n' = true ∧ inWord chars 'd' = true ∧ inWord chars 'r' = true := by
    have ha : chars.isAlphabetic 'a' = true := (chars.ascii 'a' (by decide)).1
    have ho : chars.isAlphabetic 'o' = true := (chars.ascii 'o' (by decide)).1
    have hn : chars.isAlphabetic 'n' = true := (chars.ascii 'n' (by decide)).1
    have hd : chars.isAlphabetic 'd' = true := (chars.ascii 'd' (by decide)).1
    have hr : chars.isAlphabetic 'r' = true := (chars.ascii 'r' (by decide)).1
    simp [startsWord, inWord, ha, ho, hn, hd, hr]
  have hword : ∃ first letters, c.keyword = ' ' :: first :: (letters ++ [' ']) ∧
      Spells chars (first :: letters) c.token := by
    cases c with
    | and => exact ⟨'a', ['n', 'd'], rfl, .word hletter.1 (by simp [hletter])⟩
    | or => exact ⟨'o', ['r'], rfl, .word hletter.2.1 (by simp [hletter])⟩
  obtain ⟨first, letters, hkeyword, hspells⟩ := hword
  obtain ⟨_, _, heq, hread⟩ := readToken_spells hspells hends
  cases heq
  rw [hkeyword]
  have htoken := tokenize_cons hread hblank
  have hall := tokenize_blanks (b := [' ']) (by decide) htoken
  simpa using hall

theorem tokenize_tail {chars : CharFns} {links : List Link}
    (hblank : ∀ l ∈ links, l.before.all isWhitespace = true ∧ l.after.all isWhitespace = true)
    (hlinks : ∀ l ∈ links, l.operand.Reads chars) {b : List Char}
    (hb : b.all isWhitespace = true) :
    StartsBlank (tailText links ++ b) ∧
      tokenize chars (tailText links ++ b) = .ok (tailTokens links) := by
  induction links with
  | nil =>
    refine ⟨startsBlank_blanks hb, ?_⟩
    have hnil : tokenize chars [] = .ok [] := rfl
    have hall := tokenize_blanks hb hnil
    rwa [List.append_nil] at hall
  | cons l links ih =>
    obtain ⟨hbefore, hafter⟩ := hblank l List.mem_cons_self
    obtain ⟨hstart, hrest⟩ := ih (fun l' hl' => hblank l' (List.mem_cons_of_mem l hl'))
      fun l' hl' => hlinks l' (List.mem_cons_of_mem l hl')
    have hoperand := hlinks l List.mem_cons_self _ _ hstart hrest
    have htail : tailText (l :: links) ++ b = l.before ++ (l.connective.keyword ++
        (l.after ++ (l.operand.text ++ (tailText links ++ b)))) := by
      rw [tailText_cons]
      simp
    rw [htail]
    exact ⟨startsBlank_append hbefore (startsBlank_keyword _ _),
      tokenize_blanks hbefore (tokenize_keyword _ (tokenize_blanks hafter hoperand))⟩

theorem parse_chain {chars : CharFns} {first : Operand} {links : List Link} {b b' : List Char}
    (hblank : ∀ l ∈ links, l.before.all isWhitespace = true ∧ l.after.all isWhitespace = true)
    (hfirst : first.Reads chars) (hlinks : ∀ l ∈ links, l.operand.Reads chars)
    (hparses : first.Parses) (hparses' : ∀ l ∈ links, l.operand.Parses)
    (hb : b.all isWhitespace = true) (hb' : b'.all isWhitespace = true) :
    parse chars (b ++ chainText first links ++ b') =
      .ok (grouped .or .and none first.expr (linkExprs links)) := by
  obtain ⟨hstart, htail⟩ := tokenize_tail hblank hlinks hb'
  have htokens : tokenize chars (b ++ chainText first links ++ b') =
      .ok (chainTokens first links) := by
    unfold chainText chainTokens
    rw [List.append_assoc, List.append_assoc]
    exact tokenize_blanks hb (hfirst _ _ hstart htail)
  unfold parse
  rw [htokens]
  dsimp only
  rw [parseTokens_chain hparses hparses']
  rfl

end Grouping

section Agreement

/-- The maximal groups of a chain that one connective joins. -/
def groups (c : Connective) : List Bool → List (Connective × Bool) → List (List Bool)
  | g, [] => [g]
  | g, (d, x) :: xs => if d = c then groups c (g ++ [x]) xs else g :: groups c [x] xs

/-- The point filter is false as soon as all operands of an `or` group are. -/
theorem splitValue_eq_false (g : List Bool) (xs : List (Connective × Bool)) :
    splitValue (g.any id) xs = false ↔ ∃ g' ∈ groups .or g xs, ∀ b ∈ g', b = false := by
  induction xs generalizing g with
  | nil => simp [splitValue, groups]
  | cons x xs ih =>
    obtain ⟨c, x⟩ := x
    cases c with
    | or =>
      have happend : (g.any id || x) = (g ++ [x]).any id := by simp
      unfold splitValue groups
      rw [if_pos rfl, happend]
      exact ih (g ++ [x])
    | and =>
      have hnext := ih [x]
      simp only [List.any_cons, List.any_nil, Bool.or_false, id_eq] at hnext
      unfold splitValue groups
      rw [if_neg (by decide), Bool.and_eq_false_iff, hnext]
      simp

/-- The REST grouping is true as soon as all operands of an `and` group are. -/
theorem grouped_eq_true (done : Option Bool) (g : List Bool) (xs : List (Connective × Bool)) :
    grouped (· || ·) (· && ·) done (g.all id) xs = true ↔
      done = some true ∨ ∃ g' ∈ groups .and g xs, ∀ b ∈ g', b = true := by
  induction xs generalizing done g with
  | nil =>
    cases done with
    | none => simp [grouped, groups, joinRun]
    | some d => simp [grouped, groups, joinRun]
  | cons x xs ih =>
    obtain ⟨c, x⟩ := x
    cases c with
    | and =>
      have happend : (g.all id && x) = (g ++ [x]).all id := by simp
      unfold grouped groups
      rw [if_pos rfl, happend]
      exact ih done (g ++ [x])
    | or =>
      have hnext := ih (some (joinRun (· || ·) done (g.all id))) [x]
      simp only [List.all_cons, List.all_nil, Bool.and_true, id_eq] at hnext
      unfold grouped groups
      rw [if_neg (by decide), hnext]
      cases done with
      | none => simp [joinRun]
      | some d => cases d <;> simp [joinRun]

/-- What the point filter finds true is true in the REST grouping. The induction carries that
    the open `or` group is true only if something is already true over there. -/
theorem grouped_of_splitValue {b r : Bool} {done : Option Bool} {xs : List (Connective × Bool)}
    (hopen : b = true → joinRun (· || ·) done r = true) (h : splitValue b xs = true) :
    grouped (· || ·) (· && ·) done r xs = true := by
  induction xs generalizing b r done with
  | nil => exact hopen h
  | cons x xs ih =>
    obtain ⟨c, x⟩ := x
    cases c with
    | or =>
      apply ih (b := b || x) (fun hb => ?_) h
      apply Bool.or_eq_true_iff.2
      exact (Bool.or_eq_true_iff.1 hb).imp hopen id
    | and =>
      obtain ⟨hb, hrest⟩ := Bool.and_eq_true_iff.1 h
      apply ih (fun hx => ?_) hrest
      have hjoin := hopen hb
      cases done with
      | none => simpa [joinRun, hx] using hjoin
      | some d => simpa [joinRun, hx] using hjoin

/-- The two readings differ exactly if an `or` group is false throughout while an `and` group is
    true throughout. -/
theorem splitValue_eq_grouped_iff (b : Bool) (xs : List (Connective × Bool)) :
    splitValue b xs = grouped (· || ·) (· && ·) none b xs ↔
      ¬ ((∃ g ∈ groups .or [b] xs, ∀ y ∈ g, y = false) ∧
        ∃ g ∈ groups .and [b] xs, ∀ y ∈ g, y = true) := by
  have hfalse := splitValue_eq_false [b] xs
  have htrue := grouped_eq_true none [b] xs
  have himp : splitValue b xs = true → grouped (· || ·) (· && ·) none b xs = true :=
    grouped_of_splitValue id
  simp only [List.any_cons, List.any_nil, Bool.or_false, id_eq] at hfalse
  simp only [List.all_cons, List.all_nil, Bool.and_true, id_eq, reduceCtorEq, false_or] at htrue
  rw [← hfalse, ← htrue]
  cases hs : splitValue b xs with
  | true => simp [himp hs]
  | false => cases hg : grouped (· || ·) (· && ·) none b xs <;> simp

end Agreement

section Panics

/-- The value of the left side with which the right one is not looked at. -/
def Connective.decides : Connective → Bool
  | .and => false
  | .or => true

/-- The keyword that the search comes to first, with the slices around it. -/
structure Cut (fns : TextFns) (s : List Char) (c : Connective) (left middle right : List Char) :
    Prop where
  text : trim s = left ++ middle ++ right
  first : c = .or → findKeyword fns (trim s) .and = none
  found : findKeyword fns (trim s) c = some left.length
  length : middle.length = c.keyword.length
  ascii : (left ++ middle).all isAscii = true

/-- Every keyword that the evaluation comes to has only ASCII characters before it, so that the
    slices are cut where the keyword stands; and so on in the left slice, and in the right one
    where the value of the left does not decide. -/
inductive Sliceable {O : Type} (fns : TextFns) (point : VersionedPoint UInt64 O) :
    List Char → Bool → Prop
  | plain {s : List Char} (h : ∀ c, findKeyword fns (trim s) c = none) :
      Sliceable fns point s (evaluateComparison fns (trim s) point)
  | decided {s left middle right : List Char} {c : Connective}
      (h : Cut fns s c left middle right) (hleft : Sliceable fns point left c.decides) :
      Sliceable fns point s c.decides
  | both {s left middle right : List Char} {c : Connective} {value : Bool}
      (h : Cut fns s c left middle right) (hleft : Sliceable fns point left !c.decides)
      (hright : Sliceable fns point right value) : Sliceable fns point s value

theorem length_trim_le (s : List Char) : (trim s).length ≤ s.length := by
  unfold trim trimMatches
  rw [List.length_reverse]
  calc ((s.dropWhile isWhitespace).reverse.dropWhile isWhitespace).length
      ≤ (s.dropWhile isWhitespace).reverse.length := (List.dropWhile_sublist _).length_le
    _ = (s.dropWhile isWhitespace).length := List.length_reverse
    _ ≤ s.length := (List.dropWhile_sublist _).length_le

variable {O : Type} {fns : TextFns} {point : VersionedPoint UInt64 O}
  {s left middle right : List Char} {c : Connective}

theorem Cut.shorter (h : Cut fns s c left middle right) :
    left.length < s.length ∧ right.length < s.length := by
  have hpos : 0 < c.keyword.length := by cases c <;> decide
  have hlength := length_trim_le s
  rw [h.text, List.length_append, List.length_append, h.length] at hlength
  omega

theorem Cut.cutKeyword (h : Cut fns s c left middle right) :
    cutKeyword (trim s) left.length c = some (left, right) := by
  have hcut := cutKeyword_ascii right h.ascii h.length
  rwa [← h.text] at hcut

theorem evaluateWith_cut (h : Cut fns s c left middle right) {fuel : ℕ} {x : Bool}
    (hleft : evaluateWith fns point fuel left = some x) :
    evaluateWith fns point (fuel + 1) s =
      if x = c.decides then some x else evaluateWith fns point fuel right := by
  have hfound := h.found
  have hcut := h.cutKeyword
  generalize hright : evaluateWith fns point fuel right = r
  cases c with
  | and =>
    unfold evaluateWith
    simp only [hfound, hcut, hleft, hright]
    cases x <;> rfl
  | or =>
    have hand := h.first rfl
    unfold evaluateWith
    simp only [hand, hfound, hcut, hleft, hright]
    cases x <;> rfl

/-- A sliceable filter is evaluated without a panic. The induction is on how it is sliced. -/
theorem Sliceable.evaluates {value : Bool} (h : Sliceable fns point s value) {fuel : ℕ}
    (hfuel : s.length < fuel) : evaluateWith fns point fuel s = some value := by
  induction h generalizing fuel with
  | plain h =>
    obtain ⟨fuel, rfl⟩ := Nat.exists_eq_add_one_of_ne_zero (Nat.ne_of_gt (Nat.zero_lt_of_lt hfuel))
    exact evaluateWith_comparison rfl (h .and) (h .or)
  | decided h _ ihleft =>
    obtain ⟨fuel, rfl⟩ := Nat.exists_eq_add_one_of_ne_zero (Nat.ne_of_gt (Nat.zero_lt_of_lt hfuel))
    obtain ⟨hshort, -⟩ := h.shorter
    rw [evaluateWith_cut h (ihleft (by omega)), if_pos rfl]
  | @both s left middle right c value h _ _ ihleft ihright =>
    obtain ⟨fuel, rfl⟩ := Nat.exists_eq_add_one_of_ne_zero (Nat.ne_of_gt (Nat.zero_lt_of_lt hfuel))
    obtain ⟨hshort, hshort'⟩ := h.shorter
    rw [evaluateWith_cut h (ihleft (by omega)), if_neg (by cases c.decides <;> decide)]
    exact ihright (by omega)

end Panics

section Filters

/-- On every chain both evaluators read, the point filter gives the truth value of the REST
    grouping exactly if no `or` group is false throughout while an `and` group is true
    throughout; and it panics on no sliceable filter. -/
theorem pointFilter_agrees_iff {O : Type} (fns : TextFns) (hlaw : LowercaseLaw fns)
    (chars : CharFns) (point : VersionedPoint UInt64 O) :
    (∀ first links b b', Readable fns first links → first.Parses →
      (∀ l ∈ links, l.operand.Parses) → b.all isWhitespace = true → b'.all isWhitespace = true →
      parseTokens (chainTokens first links) =
          .ok (grouped .or .and none first.expr (linkExprs links)) ∧
        (first.Reads chars → (∀ l ∈ links, l.operand.Reads chars) →
          parse chars (b ++ chainText first links ++ b') =
            .ok (grouped .or .and none first.expr (linkExprs links))) ∧
        ∃ value, evaluatePointFilter fns (b ++ chainText first links ++ b') point = some value ∧
          (value = grouped (· || ·) (· && ·) none (evaluateComparison fns first.text point)
              (linkValues fns point links) ↔
            ¬ ((∃ g ∈ groups .or [evaluateComparison fns first.text point]
                  (linkValues fns point links), ∀ y ∈ g, y = false) ∧
              ∃ g ∈ groups .and [evaluateComparison fns first.text point]
                  (linkValues fns point links), ∀ y ∈ g, y = true))) ∧
      ∀ filter value, Sliceable fns point filter value →
        evaluatePointFilter fns filter point = some value := by
  constructor
  · intro first links b b' hread hfirst hlinks hb hb'
    have hblank : ∀ l ∈ links, l.before.all isWhitespace = true ∧
        l.after.all isWhitespace = true := fun l hl => (hread.links_fit l hl).blanks
    exact ⟨parseTokens_chain hfirst hlinks,
      fun hreads hreads' => parse_chain hblank hreads hreads' hfirst hlinks hb hb', _,
      evaluatePointFilter_chain hlaw point hread hb hb', splitValue_eq_grouped_iff _ _⟩
  · intro filter value hslice
    exact hslice.evaluates (Nat.lt_succ_self _)

/-- Lower case on ASCII texts. -/
def asciiFns : TextFns := ⟨fun s => s.map Char.toLower, fun _ => none⟩

theorem isAscii_toLower {c : Char} (h : isAscii c = true) : isAscii c.toLower = true := by
  have hall : ∀ n < 128, isAscii (Char.ofNat n).toLower = true := by decide
  have hlt : c.toNat < 128 := by simpa [isAscii] using h
  have hc := hall c.toNat hlt
  rw [Char.ofNat_toNat] at hc
  exact hc

theorem asciiFns_lowercaseLaw : LowercaseLaw asciiFns where
  nil := rfl
  ascii := by
    intro p s hp
    have hview : ∀ t, asciiFns.view t = t.map fun c => mask c.toLower := fun t => List.map_map
    rw [hview, hview, List.map_append]
    congr 1
    apply List.map_congr_left
    intro c hc
    exact if_pos (isAscii_toLower (List.all_eq_true.1 hp c hc))

/-- A point of channel one. -/
def firstPoint : VersionedPoint UInt64 Unit := ⟨1, 0, "°F", "ok", 1, 1000, ()⟩

/-- The operand `channel==n`, with the number as the tokenizer reads it. -/
def channelIs (digits : List Char) (bits : UInt64) : Operand :=
  ⟨"channel==".toList ++ digits, [.name "channel", .eq, .num bits],
    .cmp ⟨"channel", []⟩ .eq (.num bits)⟩

theorem channelIs_solid (digits : List Char) {d : Char} {bits : UInt64}
    (hd : isWhitespace d = false) : Solid (channelIs (digits ++ [d]) bits).text :=
  ⟨⟨'c', "hannel==".toList ++ (digits ++ [d]), rfl, by decide⟩,
    ⟨"channel==".toList ++ digits, d, (List.append_assoc _ _ _).symm, hd⟩⟩

/-- The numbers one and two. -/
def oneAndTwo : CharFns :=
  { Filter.asciiFns with
    parseF64 := fun text => if text = ['1'] then some 0x3FF0000000000000
      else if text = ['2'] then some 0x4000000000000000 else none }

theorem channelIs_reads {d : Char} {bits : UInt64} (hdigit : d.isDigit = true)
    (hbits : oneAndTwo.parseF64 [d] = some bits) : (channelIs [d] bits).Reads oneAndTwo := by
  intro rest later hstart hlater
  have hnumber : readToken oneAndTwo d rest = .ok (some (.num bits), rest) := by
    have hnone : rest.takeWhile inNumber = [] ∧ rest.dropWhile inNumber = rest := by
      cases rest with
      | nil => exact ⟨rfl, rfl⟩
      | cons c rest =>
        have hc : inNumber c = false := by
          have hblank := hstart c rfl
          by_contra hin
          rw [Bool.not_eq_false] at hin
          rcases Bool.or_eq_true_iff.1 hin with hc | hc
          · have hstarts : startsNumber c [] = true := by simp [startsNumber, hc]
            rw [(startsNumber_first hstarts).1] at hblank
            cases hblank
          · rw [eq_of_beq hc] at hblank
            revert hblank
            decide
        exact ⟨List.takeWhile_cons_of_neg (by simp [hc]), List.dropWhile_cons_of_neg (by simp [hc])⟩
    have hfirst : startsNumber d rest = true := by simp [startsNumber, hdigit]
    obtain ⟨hblank, hquote⟩ := startsNumber_first hfirst
    unfold readToken
    rw [hblank, readSymbol_number hfirst, hnone.1, hnone.2, hfirst, hbits]
    exact if_neg hquote
  have hop : readToken oneAndTwo '=' ('=' :: d :: rest) = .ok (some .eq, d :: rest) := rfl
  have hname : readToken oneAndTwo 'c' ("hannel==".toList ++ d :: rest) =
      .ok (some (.name "channel"), '=' :: '=' :: d :: rest) := rfl
  exact tokenize_cons hname (tokenize_cons hop (tokenize_cons hnumber hlater))

/-- The right side behind a character outside ASCII is not looked at. -/
theorem sliceable_decided :
    Sliceable asciiFns firstPoint "channel==9 and é and point".toList false := by
  have hplain : ∀ c, findKeyword asciiFns (trim "channel==9".toList) c = none := by
    intro c
    cases c <;> decide +kernel
  have hfalse : evaluateComparison asciiFns (trim "channel==9".toList) firstPoint = false := by
    decide +kernel
  have hcut : Cut asciiFns "channel==9 and é and point".toList .and "channel==9".toList
      " and ".toList "é and point".toList :=
    ⟨by decide +kernel, (fun h => nomatch h), by decide +kernel, rfl, by decide +kernel⟩
  have hleft : Sliceable asciiFns firstPoint "channel==9".toList _ := .plain hplain
  rw [hfalse] at hleft
  exact .decided hcut hleft

/-- An unmixed chain of two comparisons, and a filter decided on the left. -/
theorem pointFilter_agrees_iff_conjunction :
    parse oneAndTwo "channel==1 and channel==2".toList =
        .ok (.and (.cmp ⟨"channel", []⟩ .eq (.num 0x3FF0000000000000))
          (.cmp ⟨"channel", []⟩ .eq (.num 0x4000000000000000))) ∧
      ∃ value, evaluatePointFilter asciiFns "channel==1 and channel==2".toList firstPoint =
          some value ∧
        value = grouped (· || ·) (· && ·) none
          (evaluateComparison asciiFns "channel==1".toList firstPoint)
          [(.and, evaluateComparison asciiFns "channel==2".toList firstPoint)] ∧
        evaluatePointFilter asciiFns "channel==9 and é and point".toList firstPoint =
          some false := by
  have hquiet : ∀ t, t = "channel==1".toList ∨ t = "channel==2".toList → Quiet (asciiFns.view t) := by
    rintro t (rfl | rfl)
    all_goals
      refine ⟨fun c => ?_, by decide +kernel⟩
      cases c <;> decide +kernel
  have hread : Readable asciiFns (channelIs ['1'] 0x3FF0000000000000)
      [⟨.and, [], [], channelIs ['2'] 0x4000000000000000⟩] := by
    refine ⟨channelIs_solid [] (by decide), hquiet _ (Or.inl rfl), ?_, ?_, ?_⟩
    · intro l hl
      rw [List.mem_singleton.1 hl]
      exact channelIs_solid [] (by decide)
    · intro l hl
      rw [List.mem_singleton.1 hl]
      exact ⟨rfl, rfl, hquiet _ (Or.inr rfl)⟩
    · exact ⟨⟨by decide +kernel, rfl, rfl⟩, trivial⟩
  have hparses : ∀ digits bits, (channelIs digits bits).Parses :=
    fun _ bits => .cmp ⟨"channel", []⟩ .eq (.num bits)
  have hfilters := pointFilter_agrees_iff asciiFns asciiFns_lowercaseLaw oneAndTwo firstPoint
  have hagree := hfilters.1 _ _ [] [] hread (hparses _ _)
    (fun l hl => by rw [List.mem_singleton.1 hl]; exact hparses _ _) rfl rfl
  obtain ⟨-, hrest, value, hvalue, hiff⟩ := hagree
  refine ⟨hrest (channelIs_reads rfl rfl) fun l hl => ?_, value, hvalue, hiff.2 (by decide +kernel),
    hfilters.2 _ _ sliceable_decided⟩
  rw [List.mem_singleton.1 hl]
  exact channelIs_reads rfl rfl

/-- An `and` after an `or` binds looser than in the REST filters, and a keyword behind a character
    outside ASCII is cut within it. -/
theorem pointFilter_misreads :
    (parseTokens [.name "channel", .eq, .num 0x3FF0000000000000, .or,
        .name "channel", .eq, .num 0x3FF0000000000000, .and,
        .name "channel", .eq, .num 0x4000000000000000] =
          .ok (.or (.cmp ⟨"channel", []⟩ .eq (.num 0x3FF0000000000000))
            (.and (.cmp ⟨"channel", []⟩ .eq (.num 0x3FF0000000000000))
              (.cmp ⟨"channel", []⟩ .eq (.num 0x4000000000000000)))) ∧
      evaluateComparison asciiFns "channel==1".toList firstPoint = true ∧
      evaluatePointFilter asciiFns "channel==1 or channel==1 and channel==2".toList firstPoint =
        some false) ∧
      evaluatePointFilter asciiFns "é and point".toList firstPoint = none := by
  refine ⟨⟨by rfl, by decide +kernel, by decide +kernel⟩, by decide +kernel⟩

end Filters

end Sandstar.RoxWarp
