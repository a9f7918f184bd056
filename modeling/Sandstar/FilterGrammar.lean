import Sandstar.FilterParser

set_option autoImplicit false

/-!
# The filter grammar

The grammar at the head of `rest/filter.rs`, once as the language it describes
and once with the syntax tree of each derivation. The parser accepts exactly what
the second derives, and returns its tree. The two differ in one point: a path of
more than one segment is a term only together with an operator and a value.
-/
namespace Sandstar.Filter

section Grammar

inductive Nonterminal
  | expr
  | andExpr
  | term
deriving DecidableEq, Repr

def CmpOp.token : CmpOp → Token
  | .eq => .eq
  | .ne => .ne
  | .lt => .lt
  | .le => .le
  | .gt => .gt
  | .ge => .ge

def Value.token : Value → Token
  | .num bits => .num bits
  | .str s => .str s
  | .bool Bool.true => .true
  | .bool Bool.false => .false

def segmentTokens (segments : List String) : List Token :=
  segments.flatMap fun n => [.arrow, .name n]

def Path.tokens (path : Path) : List Token := .name path.head :: segmentTokens path.tail

/-- The token lists of the documented grammar with at most `n` nested `not` and
    parentheses, whose `cmp` takes any path with or without an operator. -/
inductive Documented : Nonterminal → ℕ → List Token → Prop
  | orOne {n ts} : Documented .andExpr n ts → Documented .expr n ts
  | orMore {n ts ts'} : Documented .expr n ts → Documented .andExpr n ts' →
      Documented .expr n (ts ++ .or :: ts')
  | andOne {n ts} : Documented .term n ts → Documented .andExpr n ts
  | andMore {n ts ts'} : Documented .andExpr n ts → Documented .term n ts' →
      Documented .andExpr n (ts ++ .and :: ts')
  | not {n ts} : Documented .term n ts → Documented .term (n + 1) (.not :: ts)
  | paren {n ts} : Documented .expr n ts → Documented .term (n + 1) (.lParen :: (ts ++ [.rParen]))
  | path {n} (path : Path) : Documented .term n path.tokens
  | cmp {n} (path : Path) (op : CmpOp) (value : Value) :
      Documented .term n (path.tokens ++ [op.token, value.token])

/-- The same with the syntax tree: chains associate to the left, `and` binds tighter than
    `or`, and a bare path has one segment. -/
inductive Derives : Nonterminal → ℕ → List Token → Expr → Prop
  | orOne {n ts e} : Derives .andExpr n ts e → Derives .expr n ts e
  | orMore {n ts ts' e e'} : Derives .expr n ts e → Derives .andExpr n ts' e' →
      Derives .expr n (ts ++ .or :: ts') (.or e e')
  | andOne {n ts e} : Derives .term n ts e → Derives .andExpr n ts e
  | andMore {n ts ts' e e'} : Derives .andExpr n ts e → Derives .term n ts' e' →
      Derives .andExpr n (ts ++ .and :: ts') (.and e e')
  | not {n ts e} : Derives .term n ts e → Derives .term (n + 1) (.not :: ts) (negate e)
  | paren {n ts e} : Derives .expr n ts e →
      Derives .term (n + 1) (.lParen :: (ts ++ [.rParen])) e
  | has {n} (tag : String) : Derives .term n [.name tag] (.has tag)
  | cmp {n} (path : Path) (op : CmpOp) (value : Value) :
      Derives .term n (path.tokens ++ [op.token, value.token]) (.cmp path op value)

/-- What has a syntax tree is documented. -/
theorem Derives.documented {nt : Nonterminal} {n : ℕ} {ts : List Token} {e : Expr}
    (h : Derives nt n ts e) : Documented nt n ts := by
  induction h with
  | orOne _ ih => exact .orOne ih
  | orMore _ _ ih ih' => exact .orMore ih ih'
  | andOne _ ih => exact .andOne ih
  | andMore _ _ ih ih' => exact .andMore ih ih'
  | not _ ih => exact .not ih
  | paren _ ih => exact .paren ih
  | has tag => exact .path ⟨tag, []⟩
  | cmp path op value => exact .cmp path op value

end Grammar

section Tokens

theorem asOp_token (op : CmpOp) : op.token.asOp = some op := by
  cases op <;> rfl

theorem eq_token_of_asOp {t : Token} {op : CmpOp} (h : t.asOp = some op) : t = op.token := by
  unfold Token.asOp at h
  split at h
  all_goals cases h <;> rfl

theorem asValue_token (value : Value) : value.token.asValue = some value := by
  match value with
  | .num bits => rfl
  | .str s => rfl
  | .bool Bool.true => rfl
  | .bool Bool.false => rfl

theorem eq_token_of_asValue {t : Token} {value : Value} (h : t.asValue = some value) :
    t = value.token := by
  cases t with
  | num bits =>
    rw [← Option.some.inj h]
    rfl
  | str s =>
    rw [← Option.some.inj h]
    rfl
  | true =>
    rw [← Option.some.inj h]
    rfl
  | false =>
    rw [← Option.some.inj h]
    rfl
  | _ => cases h

end Tokens

section Soundness

/-- What a parser reads is derived, and what it leaves is the rest. -/
def Reads (parser : List Token → Parsed Expr) (R : List Token → Expr → Prop) : Prop :=
  ∀ ts e rest, parser ts = .ok (e, rest) → ∃ used, ts = used ++ rest ∧ R used e

theorem parseSegments_reads {ts rest : List Token} {segments : List String}
    (h : parseSegments ts = .ok (segments, rest)) : ts = segmentTokens segments ++ rest := by
  fun_induction parseSegments ts generalizing segments with
  | case1 n ts segments' rest' hrec ih =>
    cases h
    rw [ih hrec]
    rfl
  | case2 n ts e hrec ih => cases h
  | case3 ts hts => cases h
  | case4 ts h1 h2 =>
    cases h
    rfl

theorem parseOpValue_reads {path : Path} {ts rest : List Token} {e : Expr}
    (h : parseOpValue path ts = .ok (e, rest)) :
    (path.tail = [] ∧ e = .has path.head ∧ ts = rest) ∨
      ∃ op value, e = .cmp path op value ∧ ts = op.token :: value.token :: rest := by
  have hbare : ∀ ts, bareName path ts = .ok (e, rest) →
      path.tail = [] ∧ e = .has path.head ∧ ts = rest := by
    intro ts hts
    unfold bareName at hts
    split_ifs at hts with hsingle
    cases hts
    exact ⟨List.isEmpty_iff.1 hsingle, rfl, rfl⟩
  unfold parseOpValue at h
  split at h
  · exact Or.inl (hbare [] h)
  · rename_i t ts
    cases hop : t.asOp with
    | none =>
      rw [hop] at h
      exact Or.inl (hbare _ h)
    | some op =>
      rw [hop] at h
      cases ts with
      | nil => cases h
      | cons v rest' =>
        cases hvalue : v.asValue with
        | none => simp [hvalue] at h
        | some value =>
          right
          rw [eq_token_of_asOp hop, eq_token_of_asValue hvalue]
          simp only [hvalue] at h
          cases h
          exact ⟨op, value, rfl, rfl⟩

theorem parseCmp_reads (n : ℕ) : Reads parseCmp (Derives .term n) := by
  intro ts e rest h
  unfold parseCmp at h
  split at h
  · cases h
  · rename_i first ts
    split at h
    · rename_i segments rest' hsegments
      rw [parseSegments_reads hsegments]
      rcases parseOpValue_reads h with ⟨htail, rfl, rfl⟩ | ⟨op, value, rfl, rfl⟩
      · change segments = [] at htail
        subst htail
        exact ⟨[.name first], rfl, .has first⟩
      · refine ⟨_, ?_, .cmp ⟨first, segments⟩ op value⟩
        simp [Path.tokens]
    · cases h
  · cases h

theorem parseJoined_reads {sep : Token} {join : Expr → Expr → Expr}
    {operand : List Token → Parsed Expr} {R L : List Token → Expr → Prop}
    (hoperand : Reads operand R)
    (hjoin : ∀ us e us' e', L us e → R us' e' → L (us ++ sep :: us') (join e e'))
    {fuel : ℕ} {left e : Expr} {read ts rest : List Token} (hread : L read left)
    (h : parseJoined sep join operand fuel left ts = .ok (e, rest)) :
    ∃ used, ts = used ++ rest ∧ L (read ++ used) e := by
  induction fuel generalizing left read ts with
  | zero =>
    cases h
    exact ⟨[], rfl, by simpa using hread⟩
  | succ fuel ih =>
    cases ts with
    | nil =>
      cases h
      exact ⟨[], rfl, by simpa using hread⟩
    | cons t ts =>
      unfold parseJoined at h
      split_ifs at h with ht
      · subst ht
        split at h
        · rename_i right rest' hright
          obtain ⟨used, rfl, hused⟩ := hoperand _ _ _ hright
          obtain ⟨more, rfl, hmore⟩ := ih (hjoin _ _ _ _ hread hused) h
          refine ⟨t :: (used ++ more), by simp, ?_⟩
          simpa using hmore
        · cases h
      · cases h
        exact ⟨[], rfl, by simpa using hread⟩

theorem parseChain_reads {sep : Token} {join : Expr → Expr → Expr}
    {operand : List Token → Parsed Expr} {R L : List Token → Expr → Prop}
    (hoperand : Reads operand R) (hone : ∀ us e, R us e → L us e)
    (hjoin : ∀ us e us' e', L us e → R us' e' → L (us ++ sep :: us') (join e e')) :
    Reads (parseChain sep join operand) L := by
  intro ts e rest h
  unfold parseChain at h
  split at h
  · rename_i left rest' hleft
    obtain ⟨used, rfl, hused⟩ := hoperand _ _ _ hleft
    obtain ⟨more, rfl, hmore⟩ := parseJoined_reads hoperand hjoin (hone _ _ hused) h
    exact ⟨used ++ more, by simp, hmore⟩
  · cases h

theorem parseAnd_reads {n : ℕ} {term : List Token → Parsed Expr}
    (hterm : Reads term (Derives .term n)) : Reads (parseAnd term) (Derives .andExpr n) :=
  parseChain_reads hterm (fun _ _ => .andOne) (fun _ _ _ _ => .andMore)

theorem parseOr_reads {n levels : ℕ} {term : List Token → Parsed Expr}
    (hterm : Reads term (Derives .term n)) : Reads (parseOr levels term) (Derives .expr n) := by
  intro ts e rest h
  unfold parseOr at h
  split_ifs at h
  exact parseChain_reads (parseAnd_reads hterm) (fun _ _ => .orOne) (fun _ _ _ _ => .orMore)
    ts e rest h

/-- One term, given what is read inside a `not` and inside parentheses. -/
theorem parseTerm_succ_reads {n levels : ℕ}
    (hnot : Reads (parseTerm levels) fun ts e => Derives .term n (.not :: ts) (negate e))
    (hparen : Reads (parseOr levels (parseTerm levels))
      fun ts e => Derives .term n (.lParen :: (ts ++ [.rParen])) e) :
    Reads (parseTerm (levels + 1)) (Derives .term n) := by
  intro ts e rest h
  unfold parseTerm at h
  split at h
  · cases h
  · cases h
  · rename_i m ts' hm
    cases hm
    split at h
    · rename_i inner rest' hinner
      cases h
      obtain ⟨used, rfl, hused⟩ := hnot _ _ _ hinner
      exact ⟨_, rfl, hused⟩
    · cases h
  · rename_i m ts' hm
    cases hm
    split at h
    · rename_i inner rest' hinner
      cases h
      obtain ⟨used, rfl, hused⟩ := hparen _ _ _ hinner
      exact ⟨_, by simp, hused⟩
    · cases h
    · cases h
  · exact parseCmp_reads n _ _ _ h

/-- The induction is on the nesting levels: what is inside a `not` or parentheses has one less. -/
theorem parseTerm_reads (n : ℕ) : Reads (parseTerm (n + 1)) (Derives .term n) := by
  induction n with
  | zero =>
    apply parseTerm_succ_reads
    · intro ts e rest h
      cases h
    · intro ts e rest h
      cases h
  | succ n ih =>
    apply parseTerm_succ_reads
    · intro ts e rest h
      obtain ⟨used, hts, hused⟩ := ih ts e rest h
      exact ⟨used, hts, .not hused⟩
    · intro ts e rest h
      obtain ⟨used, hts, hused⟩ := parseOr_reads ih ts e rest h
      exact ⟨used, hts, .paren hused⟩

end Soundness

section Completeness

def StopsTerm (rest : List Token) : Prop :=
  ∀ t, rest.head? = some t → t ≠ .arrow ∧ t.asOp = none

theorem parseSegments_stops {rest : List Token} (h : rest.head? ≠ some .arrow) :
    parseSegments rest = .ok ([], rest) := by
  unfold parseSegments
  split
  · exact absurd rfl h
  · exact absurd rfl h
  · rfl

theorem parseSegments_complete (segments : List String) {rest : List Token}
    (h : rest.head? ≠ some .arrow) :
    parseSegments (segmentTokens segments ++ rest) = .ok (segments, rest) := by
  induction segments with
  | nil => exact parseSegments_stops h
  | cons n segments ih =>
    change parseSegments (.arrow :: .name n :: (segmentTokens segments ++ rest)) = _
    unfold parseSegments
    rw [ih]

theorem parseCmp_has (tag : String) {rest : List Token} (h : StopsTerm rest) :
    parseCmp (.name tag :: rest) = .ok (.has tag, rest) := by
  unfold parseCmp
  dsimp only
  rw [parseSegments_stops fun harrow => (h _ harrow).1 rfl]
  cases rest with
  | nil => rfl
  | cons t ts =>
    simp only [parseOpValue, (h t rfl).2]
    rfl

theorem parseCmp_cmp (path : Path) (op : CmpOp) (value : Value) (rest : List Token) :
    parseCmp (path.tokens ++ [op.token, value.token] ++ rest) = .ok (.cmp path op value, rest) := by
  have hop : (op.token :: value.token :: rest).head? ≠ some .arrow := by
    cases op <;> simp [CmpOp.token]
  have hsegments := parseSegments_complete path.tail hop
  have htokens : path.tokens ++ [op.token, value.token] ++ rest =
      .name path.head :: (segmentTokens path.tail ++ (op.token :: value.token :: rest)) := by
    simp [Path.tokens]
  rw [htokens]
  unfold parseCmp
  dsimp only
  rw [hsegments]
  simp only [parseOpValue, asOp_token, asValue_token]

variable {sep : Token} {join : Expr → Expr → Expr} {operand : List Token → Parsed Expr}

theorem parseJoined_stops {fuel : ℕ} {left : Expr} {rest : List Token}
    (h : rest.head? ≠ some sep) : parseJoined sep join operand fuel left rest = .ok (left, rest) := by
  cases fuel with
  | zero => rfl
  | succ fuel =>
    cases rest with
    | nil => rfl
    | cons t ts =>
      unfold parseJoined
      exact if_neg fun ht => h (congrArg some ht)

/-- Any fuel of at least the tokens left is enough, as an operand only takes from them. -/
theorem parseJoined_fuel {R : List Token → Expr → Prop} (hoperand : Reads operand R)
    {fuel fuel' : ℕ} {left : Expr} {ts : List Token} (h : ts.length ≤ fuel)
    (h' : ts.length ≤ fuel') :
    parseJoined sep join operand fuel left ts = parseJoined sep join operand fuel' left ts := by
  induction fuel generalizing fuel' left ts with
  | zero =>
    have hnil : ts = [] := List.length_eq_zero_iff.1 (Nat.le_zero.1 h)
    subst hnil
    exact (parseJoined_stops (by simp)).symm
  | succ fuel ih =>
    cases ts with
    | nil => rw [parseJoined_stops (by simp), parseJoined_stops (by simp)]
    | cons t ts =>
      cases fuel' with
      | zero => exact absurd h' (by simp)
      | succ fuel' =>
        unfold parseJoined
        by_cases ht : t = sep
        · rw [if_pos ht, if_pos ht]
          cases hright : operand ts with
          | error e => rfl
          | ok result =>
            obtain ⟨used, hused, -⟩ := hoperand ts result.1 result.2 hright
            have hlength : result.2.length ≤ ts.length := by
              rw [hused, List.length_append]
              omega
            simp only [List.length_cons] at h h'
            exact ih (by omega) (by omega)
        · rw [if_neg ht, if_neg ht]

theorem parseJoined_step {R : List Token → Expr → Prop} (hoperand : Reads operand R)
    {left right : Expr} {ts rest : List Token} (hright : operand (ts ++ rest) = .ok (right, rest)) :
    parseJoined sep join operand (sep :: ts ++ rest).length left (sep :: ts ++ rest) =
      parseJoined sep join operand rest.length (join left right) rest := by
  have htaken : parseJoined sep join operand ((ts ++ rest).length + 1) left (sep :: (ts ++ rest)) =
      parseJoined sep join operand (ts ++ rest).length (join left right) rest := by
    simp only [parseJoined, if_true, hright]
  exact htaken.trans (parseJoined_fuel hoperand (by simp) le_rfl)

/-- What the parser does with a derived token list before some other tokens: a term is read,
    and after the operands of a chain the loop goes on behind them. -/
def Accepts : Nonterminal → ℕ → List Token → Expr → Prop
  | .term, n, ts, e => ∀ rest, StopsTerm rest → parseTerm (n + 1) (ts ++ rest) = .ok (e, rest)
  | .andExpr, n, ts, e => ∀ rest, StopsTerm rest →
      parseAnd (parseTerm (n + 1)) (ts ++ rest) =
        parseJoined .and .and (parseTerm (n + 1)) rest.length e rest
  | .expr, n, ts, e => ∀ rest, StopsTerm rest → rest.head? ≠ some .and →
      parseOr (n + 1) (parseTerm (n + 1)) (ts ++ rest) =
        parseJoined .or .or (parseAnd (parseTerm (n + 1))) rest.length e rest

theorem stopsTerm_cons {t : Token} {ts : List Token} (harrow : t ≠ .arrow) (hop : t.asOp = none) :
    StopsTerm (t :: ts) := by
  intro t' ht'
  rw [← Option.some.inj ht']
  exact ⟨harrow, hop⟩

theorem Derives.accepts {nt : Nonterminal} {n : ℕ} {ts : List Token} {e : Expr}
    (h : Derives nt n ts e) : Accepts nt n ts e := by
  induction h with
  | orOne _ ih =>
    intro rest hstops hand
    unfold parseOr
    rw [if_neg (Nat.succ_ne_zero _)]
    unfold parseChain
    rw [ih rest hstops, parseJoined_stops hand]
  | @orMore n ts ts' e e' _ _ ih ih' =>
    intro rest hstops hand
    have hright : parseAnd (parseTerm (n + 1)) (ts' ++ rest) = .ok (e', rest) := by
      rw [ih' rest hstops, parseJoined_stops hand]
    rw [List.append_assoc, List.cons_append,
      ih _ (stopsTerm_cons (by decide) rfl) (by simp)]
    exact parseJoined_step (parseAnd_reads (parseTerm_reads n)) hright
  | andOne _ ih =>
    intro rest hstops
    unfold parseAnd parseChain
    rw [ih rest hstops]
  | @andMore n ts ts' e e' _ _ ih ih' =>
    intro rest hstops
    rw [List.append_assoc, List.cons_append, ih _ (stopsTerm_cons (by decide) rfl)]
    exact parseJoined_step (parseTerm_reads n) (ih' rest hstops)
  | not _ ih =>
    intro rest hstops
    rw [List.cons_append]
    unfold parseTerm
    rw [ih rest hstops]
  | @paren n ts e _ ih =>
    intro rest hstops
    have hinner := ih (.rParen :: rest) (stopsTerm_cons (by decide) rfl) (by simp)
    rw [parseJoined_stops (by simp)] at hinner
    have htokens : .lParen :: (ts ++ [.rParen]) ++ rest = .lParen :: (ts ++ .rParen :: rest) := by
      simp
    rw [htokens]
    unfold parseTerm
    rw [hinner]
  | has tag =>
    intro rest hstops
    exact parseCmp_has tag hstops
  | cmp path op value =>
    intro rest _
    exact parseCmp_cmp path op value rest

/-- The parser accepts what the grammar derives, and returns the tree of the derivation. -/
theorem parseTokens_eq_ok {tokens : List Token} {e : Expr} :
    parseTokens tokens = .ok e ↔ Derives .expr maxParseDepth tokens e := by
  constructor
  · intro h
    unfold parseTokens at h
    split_ifs at h
    split at h
    · rename_i result hresult
      cases h
      obtain ⟨used, hused, hderives⟩ := parseOr_reads (parseTerm_reads maxParseDepth) _ _ _ hresult
      rw [List.append_nil] at hused
      exact hused ▸ hderives
    · cases h
    · cases h
  · intro h
    have hparsed := h.accepts [] (fun t ht => by cases ht) (by simp)
    rw [List.append_nil, parseJoined_stops (by simp)] at hparsed
    unfold parseTokens
    split_ifs with hempty
    · rw [List.isEmpty_iff.1 hempty] at hparsed
      cases hparsed
    · rw [hparsed]

/-- Every accepted token list belongs to the documented language. -/
theorem parseTokens_documented {tokens : List Token} {e : Expr} (h : parseTokens tokens = .ok e) :
    Documented .expr maxParseDepth tokens :=
  (parseTokens_eq_ok.1 h).documented

/-- A path of two segments without an operator: documented, and refused. -/
theorem bare_path_documented_and_refused :
    Documented .expr maxParseDepth [.name "siteRef", .arrow, .name "area"] ∧
      parseTokens [.name "siteRef", .arrow, .name "area"] = .error .requiresOperator :=
  ⟨.orOne (.andOne (.path ⟨"siteRef", ["area"]⟩)), by rfl⟩

end Completeness

end Sandstar.Filter
