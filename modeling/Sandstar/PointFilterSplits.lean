import Sandstar.PointFilter

set_option autoImplicit false

/-!
# Where the point filter splits

The scan for a keyword over a text of operands and connectives, and the slices
around the keyword. An operand is quiet if it hides no keyword between spaces and
closes its quotes; over quiet operands the scan finds the connectives and nothing else.
The slices are the right ones as long as everything before the keyword is ASCII.
-/
namespace Sandstar.RoxWarp
open Sandstar.Filter

section Slices

def isAscii (c : Char) : Bool := decide (c.toNat < 128)

theorem utf8Size_of_isAscii {c : Char} (h : isAscii c = true) : c.utf8Size = 1 := by
  have hlt : c.toNat < 128 := by simpa [isAscii] using h
  have hle : c.val ≤ 0x7f := by
    rw [UInt32.le_iff_toNat_le]
    change c.toNat ≤ 127
    omega
  simp [Char.utf8Size, hle]

theorem splitAtByte_ascii {p : List Char} (s : List Char) (h : p.all isAscii = true) :
    splitAtByte p.length (p ++ s) = some (p, s) := by
  induction p with
  | nil =>
    cases s <;> rfl
  | cons c p ih =>
    rw [List.all_cons, Bool.and_eq_true] at h
    rw [List.length_cons, List.cons_append]
    simp [splitAtByte, utf8Size_of_isAscii h.1, ih h.2]

theorem keyword_ascii (c : Connective) : c.keyword.all isAscii = true := by
  cases c <;> decide

theorem cutKeyword_ascii {left middle : List Char} {c : Connective} (right : List Char)
    (h : (left ++ middle).all isAscii = true) (hmiddle : middle.length = c.keyword.length) :
    cutKeyword (left ++ middle ++ right) left.length c = some (left, right) := by
  have hleft : splitAtByte left.length (left ++ middle ++ right) = some (left, middle ++ right) := by
    rw [List.all_append, Bool.and_eq_true] at h
    rw [List.append_assoc]
    exact splitAtByte_ascii _ h.1
  have hright := splitAtByte_ascii right h
  rw [List.length_append, hmiddle] at hright
  unfold cutKeyword
  rw [hleft, hright]

end Slices

section Scanning

/-- The parity of the double quotes: whether a scan that starts outside ends inside. -/
def endsInQuotes (u : List Char) : Bool := u.foldl (fun q c => if c = '"' then !q else q) false

theorem foldl_quotes (u : List Char) (q : Bool) :
    u.foldl (fun q c => if c = '"' then !q else q) q = (q ^^ endsInQuotes u) := by
  induction u generalizing q with
  | nil => simp [endsInQuotes]
  | cons c u ih =>
    unfold endsInQuotes
    rw [List.foldl_cons, List.foldl_cons, ih, ih]
    by_cases hc : c = '"' <;> simp [hc]

theorem endsInQuotes_cons (c : Char) (u : List Char) :
    endsInQuotes (c :: u) = ((if c = '"' then true else false) ^^ endsInQuotes u) := by
  have hfold : endsInQuotes (c :: u) =
      u.foldl (fun q c => if c = '"' then !q else q) (if c = '"' then !false else false) := rfl
  rw [hfold, foldl_quotes]
  simp

/-- A keyword stands between two spaces and has neither a space nor a quote inside. -/
theorem keyword_inside {c : Connective} {i : ℕ} {x : Char} (hi : 0 < i)
    (hlast : i + 1 < c.keyword.length) (hx : c.keyword[i]? = some x) : isWhitespace x = false := by
  cases c with
  | and =>
    have hcases : i = 1 ∨ i = 2 ∨ i = 3 := by
      change i + 1 < 5 at hlast
      omega
    rcases hcases with rfl | rfl | rfl
    all_goals
      rw [← Option.some.inj hx]
      decide
  | or =>
    have hcases : i = 1 ∨ i = 2 := by
      change i + 1 < 4 at hlast
      omega
    rcases hcases with rfl | rfl
    all_goals
      rw [← Option.some.inj hx]
      decide

theorem keyword_last {c : Connective} {i : ℕ} (hlast : i + 1 = c.keyword.length) :
    c.keyword = c.keyword.take i ++ [' '] := by
  cases c with
  | and =>
    have hi : i = 4 := by
      change i + 1 = 5 at hlast
      omega
    subst hi
    rfl
  | or =>
    have hi : i = 3 := by
      change i + 1 = 4 at hlast
      omega
    subst hi
    rfl

def StartsBlank (rest : List Char) : Prop := ∀ x, rest.head? = some x → isWhitespace x = true

/-- A keyword that starts within an operand ends within it or with the space behind it. -/
theorem keyword_prefix_pad {c : Connective} {v rest : List Char} (hv : v ≠ [])
    (hrest : StartsBlank rest) (h : c.keyword <+: v ++ rest) : c.keyword <+: v ++ [' '] := by
  obtain ⟨more, hmore⟩ := h
  have hpos : 0 < v.length := List.length_pos_iff.2 hv
  by_cases hlong : c.keyword.length ≤ v.length
  · have hprefix : c.keyword <+: v := by
      rw [List.prefix_iff_eq_take]
      have htake := congrArg (List.take c.keyword.length) hmore
      rw [List.take_left, List.take_append_of_le_length hlong] at htake
      exact htake
    exact hprefix.trans (List.prefix_append v [' '])
  · have hat : c.keyword[v.length]? = rest.head? := by
      have hget : (c.keyword ++ more)[v.length]? = (v ++ rest)[v.length]? := by rw [hmore]
      rw [List.getElem?_append_left (by omega), List.getElem?_append_right le_rfl] at hget
      rw [hget, Nat.sub_self]
      cases rest <;> rfl
    have hsome : ∃ x, c.keyword[v.length]? = some x :=
      ⟨_, List.getElem?_eq_getElem (by omega)⟩
    obtain ⟨x, hx⟩ := hsome
    have hblank := hrest x (hat ▸ hx)
    by_cases hlast : v.length + 1 = c.keyword.length
    · have hkeyword := keyword_last hlast
      have hv' : c.keyword.take v.length = v := by
        have htake := congrArg (List.take v.length) hmore
        rw [List.take_append_of_le_length (by omega), List.take_left] at htake
        exact htake
      rw [hv'] at hkeyword
      rw [hkeyword]
    · rw [keyword_inside hpos (by omega) hx] at hblank
      cases hblank

theorem scanKeyword_quote (keyword : List Char) (q : Bool) (cs : List Char) :
    scanKeyword keyword q ('"' :: cs) = (scanKeyword keyword (!q) cs).map (· + 1) := by
  rw [scanKeyword, if_pos rfl]

theorem scanKeyword_step {keyword : List Char} {q : Bool} {c : Char} {cs : List Char} (hc : c ≠ '"')
    (h : q = true ∨ keyword.isPrefixOf (c :: cs) = false) :
    scanKeyword keyword q (c :: cs) = (scanKeyword keyword q cs).map (· + 1) := by
  rw [scanKeyword, if_neg hc, if_neg]
  rcases h with h | h <;> simp [h]

theorem scanKeyword_none_cons {keyword : List Char} {q : Bool} {c : Char} {cs : List Char}
    (h : scanKeyword keyword q (c :: cs) = none) :
    scanKeyword keyword (if c = '"' then !q else q) cs = none ∧
      (c ≠ '"' → q = true ∨ keyword.isPrefixOf (c :: cs) = false) := by
  unfold scanKeyword at h
  by_cases hc : c = '"'
  · rw [if_pos hc, Option.map_eq_none_iff] at h
    rw [if_pos hc]
    exact ⟨h, fun hne => absurd hc hne⟩
  · rw [if_neg hc] at h
    rw [if_neg hc]
    by_cases hmatch : (!q && keyword.isPrefixOf (c :: cs)) = true
    · rw [if_pos hmatch] at h
      cases h
    · rw [if_neg hmatch, Option.map_eq_none_iff] at h
      refine ⟨h, fun _ => ?_⟩
      cases q with
      | true => exact Or.inl rfl
      | false => exact Or.inr (Bool.eq_false_iff.2 hmatch)

/-- The scan over an operand, which no keyword starts in, goes on behind it. The induction is
    on what is left of the operand, with the state of the quotes. -/
theorem scanKeyword_operand {c : Connective} {u rest : List Char} {q : Bool}
    (hrest : StartsBlank rest) (h : scanKeyword c.keyword q (u ++ [' ']) = none) :
    scanKeyword c.keyword q (u ++ rest) =
      (scanKeyword c.keyword (q ^^ endsInQuotes u) rest).map (· + u.length) := by
  induction u generalizing q with
  | nil => simp [endsInQuotes]
  | cons x u ih =>
    rw [List.cons_append] at h
    obtain ⟨htail, hstart⟩ := scanKeyword_none_cons h
    have hmap : ∀ o : Option ℕ, (o.map (· + u.length)).map (· + 1) = o.map (· + (u.length + 1)) := by
      intro o
      cases o <;> rfl
    rw [List.cons_append, List.length_cons, endsInQuotes_cons]
    by_cases hx : x = '"'
    · subst hx
      rw [if_pos rfl] at htail
      rw [scanKeyword_quote, ih htail, hmap]
      simp
    · rw [if_neg hx] at htail
      have hskip : q = true ∨ c.keyword.isPrefixOf (x :: (u ++ rest)) = false := by
        refine (hstart hx).imp_right fun hno => ?_
        rw [Bool.eq_false_iff]
        intro hyes
        have hpad := keyword_prefix_pad (List.cons_ne_nil x u) hrest
          (List.isPrefixOf_iff_prefix.1 hyes)
        rw [List.cons_append, ← List.isPrefixOf_iff_prefix, hno] at hpad
        cases hpad
      rw [scanKeyword_step hx hskip, ih htail, hmap]
      simp [hx]

theorem not_prefix_of_blank {c : Connective} {x y : Char} {cs : List Char}
    (h : isWhitespace y = true) : c.keyword.isPrefixOf (x :: y :: cs) = false := by
  rw [Bool.eq_false_iff]
  intro hyes
  have hinside : isWhitespace y = false := by
    apply keyword_inside (c := c) (i := 1) Nat.one_pos
    · cases c <;> decide
    · obtain ⟨more, hmore⟩ := List.isPrefixOf_iff_prefix.1 hyes
      have hget : (c.keyword ++ more)[1]? = (x :: y :: cs)[1]? := by rw [hmore]
      rw [List.getElem?_append_left (by cases c <;> decide)] at hget
      exact hget
  rw [hinside] at h
  cases h

theorem not_prefix_of_ne_space {c : Connective} {x : Char} {cs : List Char} (h : x ≠ ' ') :
    c.keyword.isPrefixOf (x :: cs) = false := by
  rw [Bool.eq_false_iff]
  intro hyes
  have hhead : (c.keyword).head? = some ' ' := by cases c <;> rfl
  obtain ⟨more, hmore⟩ := List.isPrefixOf_iff_prefix.1 hyes
  cases hkeyword : c.keyword with
  | nil =>
    rw [hkeyword] at hhead
    cases hhead
  | cons k ks =>
    rw [hkeyword] at hhead hmore
    have hk : k = x := List.head_eq_of_cons_eq hmore
    exact h (hk.symm.trans (Option.some.inj hhead))

theorem not_quote_of_blank {x : Char} (h : isWhitespace x = true) : x ≠ '"' := by
  rintro rfl
  exact absurd h (by decide)

theorem scanKeyword_blanks {c : Connective} {b : List Char} {x : Char} {rest : List Char}
    (hb : b.all isWhitespace = true) (hx : isWhitespace x = true) :
    scanKeyword c.keyword false (b ++ x :: rest) =
      (scanKeyword c.keyword false (x :: rest)).map (· + b.length) := by
  induction b with
  | nil => simp
  | cons y b ih =>
    rw [List.all_cons, Bool.and_eq_true] at hb
    have hnext : ∃ z cs, b ++ x :: rest = z :: cs ∧ isWhitespace z = true := by
      cases b with
      | nil => exact ⟨x, rest, rfl, hx⟩
      | cons z b =>
        rw [List.all_cons, Bool.and_eq_true] at hb
        exact ⟨z, b ++ x :: rest, rfl, hb.2.1⟩
    obtain ⟨z, cs, hcs, hz⟩ := hnext
    have hskip : c.keyword.isPrefixOf (y :: (b ++ x :: rest)) = false := by
      rw [hcs]
      exact not_prefix_of_blank hz
    rw [List.cons_append, scanKeyword_step (not_quote_of_blank hb.1) (Or.inr hskip), ih hb.2]
    cases scanKeyword c.keyword false (x :: rest) <;> rfl

/-- An operand that hides no keyword, even with a space on either side, and closes its quotes. -/
structure Quiet (u : List Char) : Prop where
  no_keyword : ∀ c : Connective, scanKeyword c.keyword false (' ' :: (u ++ [' '])) = none
  closed : endsInQuotes u = false

theorem Quiet.unpadded {u : List Char} (h : Quiet u) (c : Connective) :
    scanKeyword c.keyword false (u ++ [' ']) = none :=
  (scanKeyword_none_cons (h.no_keyword c)).1

theorem Quiet.scan {u rest : List Char} (h : Quiet u) (c : Connective) (hrest : StartsBlank rest) :
    scanKeyword c.keyword false (u ++ rest) =
      (scanKeyword c.keyword false rest).map (· + u.length) := by
  rw [scanKeyword_operand hrest (h.unpadded c), h.closed]
  rfl

theorem Quiet.scan_blanks {u rest b : List Char} (h : Quiet u) (c : Connective)
    (hrest : StartsBlank rest) (hb : b.all isWhitespace = true) (hne : b ≠ []) :
    scanKeyword c.keyword false (b ++ (u ++ rest)) =
      (scanKeyword c.keyword false rest).map (· + (b.length + u.length)) := by
  obtain ⟨front, x, rfl⟩ : ∃ front x, b = front ++ [x] :=
    ⟨b.dropLast, b.getLast hne, (List.dropLast_append_getLast hne).symm⟩
  rw [List.all_append, Bool.and_eq_true] at hb
  have hx : isWhitespace x = true := by simpa using hb.2
  have hlast : scanKeyword c.keyword false (x :: (u ++ rest)) =
      (scanKeyword c.keyword false rest).map (· + (u.length + 1)) := by
    by_cases hspace : x = ' '
    · subst hspace
      have hoperand : scanKeyword c.keyword false (' ' :: u ++ rest) = _ :=
        scanKeyword_operand hrest (h.no_keyword c)
      rw [endsInQuotes_cons, h.closed] at hoperand
      exact hoperand
    · rw [scanKeyword_step (not_quote_of_blank hx) (Or.inr (not_prefix_of_ne_space hspace)),
        h.scan c hrest]
      cases scanKeyword c.keyword false rest <;> rfl
  rw [List.append_assoc, List.singleton_append, scanKeyword_blanks hb.1 hx, hlast]
  cases scanKeyword c.keyword false rest with
  | none => rfl
  | some n =>
    simp only [Option.map_some, List.length_append, List.length_singleton]
    congr 1
    omega

end Scanning

end Sandstar.RoxWarp
