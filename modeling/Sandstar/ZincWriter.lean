import Mathlib
import Sandstar.TextLines

set_option autoImplicit false

/-!
# The Zinc writer (rest/zinc_grid.rs)

Grids as the REST answers build them, and the text they are sent as. How a double is
displayed is a parameter.
-/
namespace Sandstar.ZincWriter

inductive ZincValue (F : Type)
  | marker
  | null
  | str (s : String)
  | num (n : F) (unit : Option String)
  | bool (b : Bool)
  | dateTime (text : String)
deriving DecidableEq

structure ZincColumn (F : Type) where
  name : String
  metadata : List (String × ZincValue F)

structure ZincGrid (F : Type) where
  metadata : List (String × ZincValue F)
  columns : List (ZincColumn F)
  rows : List (List (ZincValue F))

structure FloatText (F : Type) where
  isNan : F → Bool
  isInfinite : F → Bool
  isPositive : F → Bool
  display : F → List Char

def escapeChar : Char → List Char
  | '"' => ['\\', '"']
  | '\\' => ['\\', '\\']
  | '\n' => ['\\', 'n']
  | '\r' => ['\\', 'r']
  | '\t' => ['\\', 't']
  | c => [c]

section Writing

variable {F : Type} (float : FloatText F)

def writeNum (n : F) (unit : Option String) : List Char :=
  (if float.isNan n then "NaN".toList
    else if float.isInfinite n then (if float.isPositive n then "INF" else "-INF").toList
    else float.display n) ++ (unit.map String.toList).getD []

def writeZincValue : ZincValue F → List Char
  | .marker => ['M']
  | .null => ['N']
  | .str s => '"' :: (s.toList.flatMap escapeChar ++ ['"'])
  | .num n unit => writeNum float n unit
  | .bool b => [if b then 'T' else 'F']
  | .dateTime text => text.toList

def writeTagPair (pair : String × ZincValue F) : List Char :=
  match pair.2 with
  | .marker => pair.1.toList
  | value => pair.1.toList ++ ':' :: writeZincValue float value

def writeTagPairs (pairs : List (String × ZincValue F)) : List Char :=
  pairs.flatMap fun pair => ' ' :: writeTagPair float pair

namespace ZincGrid

def headerLine (grid : ZincGrid F) : List Char :=
  "ver:\"3.0\"".toList ++ writeTagPairs float grid.metadata

def columnLine (grid : ZincGrid F) : List Char :=
  [','].intercalate
    (grid.columns.map fun col => col.name.toList ++ writeTagPairs float col.metadata)

def rowLine (row : List (ZincValue F)) : List Char :=
  [','].intercalate (row.map (writeZincValue float))

def toZinc (grid : ZincGrid F) : List Char :=
  grid.headerLine float ++ '\n' :: (grid.columnLine float ++ '\n' ::
    grid.rows.flatMap fun row => rowLine float row ++ ['\n'])

end ZincGrid
end Writing
end Sandstar.ZincWriter

/-!
# The scan of a row

Equations for the loop over a line, without its bound on the turns: a separator ends the
cell, a quoted string goes on to its closing quote, and a plain character is taken as it is.
-/
namespace Sandstar.Zinc
open RoxWarp

section Bound

theorem scanQuoted_length (cs : List Char) : (scanQuoted cs).2.length ≤ cs.length := by
  fun_induction scanQuoted cs with
  | case1 => exact le_refl _
  | case2 cs text rest h ih =>
    rw [h] at ih
    simp only [List.length_cons] at ih ⊢
    omega
  | case3 cs => simp
  | case4 c cs _ _ text rest h ih =>
    rw [h] at ih
    simp only [List.length_cons] at ih ⊢
    omega

theorem scanBracketed_length (opening closing : Char) (depth : ℕ) (cs : List Char) :
    (scanBracketed opening closing depth cs).2.length ≤ cs.length := by
  fun_induction scanBracketed opening closing depth cs with
  | case1 cs => exact le_refl _
  | case2 depth => exact le_refl _
  | case3 depth c cs text rest h ih =>
    rw [h] at ih
    simp only [List.length_cons] at ih ⊢
    omega

theorem scanRef_length (quoted : Bool) (cs : List Char) :
    (scanRef quoted cs).2.length ≤ cs.length := by
  fun_induction scanRef quoted cs with
  | case1 quoted => exact le_refl _
  | case2 c cs text rest h ih =>
    rw [h] at ih
    simp only [List.length_cons] at ih ⊢
    omega
  | case3 cs => exact le_refl _
  | case4 c cs hc text rest h ih =>
    rw [h] at ih
    simp only [List.length_cons] at ih ⊢
    omega

theorem scanCells_turns {n m : ℕ} {cs : List Char} (current : List Char) (hn : cs.length < n)
    (hm : cs.length < m) : scanCells n current cs = scanCells m current cs := by
  induction n generalizing m current cs with
  | zero => exact absurd hn (Nat.not_lt_zero _)
  | succ n ih =>
    obtain ⟨m, rfl⟩ : ∃ k, m = k + 1 := ⟨m - 1, by omega⟩
    cases cs with
    | nil => rfl
    | cons ch cs =>
      rw [List.length_cons] at hn hm
      have hquoted := scanQuoted_length cs
      have hsquare := scanBracketed_length '[' ']' 1 cs
      have hbrace := scanBracketed_length '{' '}' 1 cs
      have href := scanRef_length false cs
      unfold scanCells
      split_ifs
      · exact ih _ (by omega) (by omega)
      · exact ih _ (by omega) (by omega)
      · exact ih _ (by omega) (by omega)
      · exact ih _ (by omega) (by omega)
      · exact congrArg _ (ih [] (by omega) (by omega))
      · exact ih _ (by omega) (by omega)

end Bound

section Equations

def cellsFrom (current cs : List Char) : List String := scanCells (cs.length + 1) current cs

theorem cellsFrom_nil (current : List Char) :
    cellsFrom current [] = [String.ofList (trim current)] := rfl

theorem cellsFrom_separator (current cs : List Char) :
    cellsFrom current (',' :: cs) = String.ofList (trim current) :: cellsFrom [] cs := rfl

theorem cellsFrom_quote (current cs : List Char) : cellsFrom current ('"' :: cs) =
    cellsFrom (current ++ '"' :: (scanQuoted cs).1) (scanQuoted cs).2 := by
  have hquoted := scanQuoted_length cs
  have hturns := @scanCells_turns (cs.length + 1) ((scanQuoted cs).2.length + 1) (scanQuoted cs).2
    (current ++ '"' :: (scanQuoted cs).1) (by omega) (by omega)
  exact hturns

def PlainChar (c : Char) : Prop := c ≠ '"' ∧ c ≠ '[' ∧ c ≠ '{' ∧ c ≠ '@' ∧ c ≠ ','

theorem cellsFrom_plainChar {c : Char} (h : PlainChar c) (current cs : List Char) :
    cellsFrom current (c :: cs) = cellsFrom (current ++ [c]) cs := by
  unfold cellsFrom
  rw [List.length_cons, scanCells]
  simp [h.1, h.2.1, h.2.2.1, h.2.2.2.1, h.2.2.2.2]

theorem cellsFrom_plain {s : List Char} (h : ∀ c ∈ s, PlainChar c) (current cs : List Char) :
    cellsFrom current (s ++ cs) = cellsFrom (current ++ s) cs := by
  induction s generalizing current with
  | nil => rw [List.append_nil, List.nil_append]
  | cons c s ih =>
    rw [List.cons_append, cellsFrom_plainChar (h c List.mem_cons_self),
      ih fun d hd => h d (List.mem_cons_of_mem _ hd), List.append_assoc, List.singleton_append]

theorem scanCells_head (turns : ℕ) (current cs : List Char) :
    ∃ more cells, scanCells turns current cs = String.ofList (trim (current ++ more)) :: cells := by
  induction turns generalizing current cs with
  | zero => exact ⟨[], [], by rw [List.append_nil]; rfl⟩
  | succ turns ih =>
    cases cs with
    | nil => exact ⟨[], [], by rw [List.append_nil]; rfl⟩
    | cons ch cs =>
      have hgoes : ∀ text rest, ∃ more cells, scanCells turns (current ++ text) rest =
          String.ofList (trim (current ++ more)) :: cells := by
        intro text rest
        obtain ⟨more, cells, h⟩ := ih (current ++ text) rest
        exact ⟨text ++ more, cells, by rw [h, List.append_assoc]⟩
      unfold scanCells
      split_ifs
      · exact hgoes _ _
      · exact hgoes _ _
      · exact hgoes _ _
      · exact hgoes _ _
      · exact ⟨[], _, by rw [List.append_nil]⟩
      · exact hgoes _ _

end Equations
end Sandstar.Zinc

/-!
# Escapes written and undone

The writer doubles a backslash and escapes carriage returns and tabs; the reader undoes
the escapes of quotes and line feeds only, and takes a quote behind any backslash for an
escaped one.
-/
namespace Sandstar.ZincWriter
open Zinc

def escape (s : List Char) : List Char := s.flatMap escapeChar

theorem escape_cons (c : Char) (s : List Char) : escape (c :: s) = escapeChar c ++ escape s :=
  List.flatMap_cons

/-- Text of characters that come back. -/
def Clean (s : List Char) : Prop := ∀ c ∈ s, c ≠ '\\' ∧ c ≠ '\r' ∧ c ≠ '\t'

instance (s : List Char) : Decidable (Clean s) := List.decidableBAll _ s

theorem clean_cons {c : Char} {s : List Char} :
    Clean (c :: s) ↔ (c ≠ '\\' ∧ c ≠ '\r' ∧ c ≠ '\t') ∧ Clean s := List.forall_mem_cons

section Replacing

variable {first second result : Char}

theorem replacePair_other {c : Char} (h : c ≠ first) (t : List Char) :
    replacePair first second result (c :: t) = c :: replacePair first second result t := by
  cases t with
  | nil => rfl
  | cons d t => simp [replacePair, h]

theorem replacePair_pair (t : List Char) :
    replacePair first second result (first :: second :: t) =
      result :: replacePair first second result t := by
  simp [replacePair]

theorem replacePair_first {t : List Char} (h : t.head? ≠ some second) :
    replacePair first second result (first :: t) =
      first :: replacePair first second result t := by
  cases t with
  | nil => rfl
  | cons d t =>
    have hd : d ≠ second := fun heq => h (congrArg some heq)
    simp [replacePair, hd]

end Replacing

section Unescaping

def unescape (t : List Char) : List Char :=
  replacePair '\\' 'n' '\n' (replacePair '\\' '"' '"' t)

theorem unescape_other {c : Char} (h : c ≠ '\\') (t : List Char) :
    unescape (c :: t) = c :: unescape t := by
  unfold unescape
  rw [replacePair_other h, replacePair_other h]

theorem unescape_quote (t : List Char) : unescape ('\\' :: '"' :: t) = '"' :: unescape t := by
  unfold unescape
  rw [replacePair_pair, replacePair_other (by decide)]

theorem unescape_line (t : List Char) : unescape ('\\' :: 'n' :: t) = '\n' :: unescape t := by
  have hquote : replacePair '\\' '"' '"' ('\\' :: 'n' :: t) =
      '\\' :: 'n' :: replacePair '\\' '"' '"' t := by
    rw [replacePair_first (by simp), replacePair_other (by decide)]
  unfold unescape
  rw [hquote, replacePair_pair]

theorem unescape_kept {c : Char} (hquote : c ≠ '"') (hline : c ≠ 'n') (hslash : c ≠ '\\')
    (t : List Char) : unescape ('\\' :: c :: t) = '\\' :: c :: unescape t := by
  unfold unescape
  rw [replacePair_first (by simp [hquote]), replacePair_other hslash,
    replacePair_first (by simp [hline]), replacePair_other hslash]

theorem unescape_slashes (t : List Char) :
    unescape ('\\' :: '\\' :: t) = '\\' :: unescape ('\\' :: t) := by
  unfold unescape
  rw [replacePair_first (by simp)]
  by_cases ht : t.head? = some '"'
  · cases t with
    | nil => cases ht
    | cons d t =>
      rw [Option.some.inj ht, replacePair_pair, replacePair_first (by simp)]
  · rw [replacePair_first ht, replacePair_first (by simp)]

/-- A character comes back, or it is a backslash, or one whose escape is kept. -/
theorem unescape_escapeChar (c : Char) (t : List Char) :
    (unescape (escapeChar c ++ t) = c :: unescape t ∧ c ≠ '\\' ∧ c ≠ '\r' ∧ c ≠ '\t') ∨
      (c = '\\' ∧ unescape (escapeChar c ++ t) = '\\' :: unescape ('\\' :: t)) ∨
      ((c = '\r' ∨ c = '\t') ∧ ∃ d, unescape (escapeChar c ++ t) = '\\' :: d :: unescape t) := by
  unfold escapeChar
  split
  · exact .inl ⟨unescape_quote t, by decide⟩
  · exact .inr (.inl ⟨rfl, unescape_slashes t⟩)
  · exact .inl ⟨unescape_line t, by decide⟩
  · exact .inr (.inr ⟨.inl rfl, 'r', unescape_kept (by decide) (by decide) (by decide) t⟩)
  · exact .inr (.inr ⟨.inr rfl, 't', unescape_kept (by decide) (by decide) (by decide) t⟩)
  · rename_i _ hslash _ hreturn htab
    exact .inl ⟨unescape_other hslash t, hslash, hreturn, htab⟩

theorem unescape_escape {s : List Char} (h : Clean s) (t : List Char) :
    unescape (escape s ++ t) = s ++ unescape t := by
  induction s with
  | nil => rfl
  | cons c s ih =>
    rw [clean_cons] at h
    rw [escape_cons, List.append_assoc]
    rcases unescape_escapeChar c (escape s ++ t) with ⟨hback, -⟩ | ⟨hslash, -⟩ | ⟨hkept, -⟩
    · rw [hback, ih h.2]
      rfl
    · exact absurd hslash h.1.1
    · exact absurd hkept (not_or.2 h.1.2)

theorem length_unescape_slash (t : List Char) :
    (unescape t).length ≤ (unescape ('\\' :: t)).length ∧
      (t.head? ≠ some '"' → t.head? ≠ some 'n' →
        (unescape t).length < (unescape ('\\' :: t)).length) := by
  cases t with
  | nil => exact ⟨by decide, fun _ _ => by decide⟩
  | cons c t =>
    by_cases hquote : c = '"'
    · rw [hquote, unescape_quote, unescape_other (by decide)]
      exact ⟨le_refl _, fun h => absurd rfl h⟩
    by_cases hline : c = 'n'
    · rw [hline, unescape_line, unescape_other (by decide)]
      exact ⟨le_refl _, fun _ h => absurd rfl h⟩
    by_cases hslash : c = '\\'
    · rw [hslash, unescape_slashes]
      exact ⟨Nat.le_succ _, fun _ _ => Nat.lt_succ_self _⟩
    · rw [unescape_kept hquote hline hslash, unescape_other hslash]
      exact ⟨Nat.le_succ _, fun _ _ => Nat.lt_succ_self _⟩

theorem length_le_unescape (s t : List Char) :
    s.length ≤ (unescape (escape s ++ t)).length := by
  induction s with
  | nil => exact Nat.zero_le _
  | cons c s ih =>
    rw [escape_cons, List.append_assoc, List.length_cons]
    rcases unescape_escapeChar c (escape s ++ t) with ⟨hback, -⟩ | ⟨-, hslash⟩ | ⟨-, d, hkept⟩
    · rw [hback]
      exact Nat.succ_le_succ ih
    · rw [hslash]
      exact Nat.succ_le_succ (ih.trans (length_unescape_slash _).1)
    · rw [hkept]
      exact Nat.succ_le_succ (ih.trans (Nat.le_succ _))

theorem head_escapeChar (c : Char) (t : List Char) :
    (escapeChar c ++ t).head? = some '\\' ∨ (escapeChar c ++ t).head? = some c ∧ c ≠ '"' := by
  unfold escapeChar
  split
  · exact .inl rfl
  · exact .inl rfl
  · exact .inl rfl
  · exact .inl rfl
  · exact .inl rfl
  · rename_i hquote _ _ _ _
    exact .inr ⟨rfl, hquote⟩

theorem head_escape {d : Char} (s t : List Char) {c : Char} (hslash : c ≠ '\\')
    (hc : c = '"' ∨ d ≠ c) : (escape (d :: s) ++ t).head? ≠ some c := by
  rw [escape_cons, List.append_assoc]
  intro h
  rcases head_escapeChar d (escape s ++ t) with hd | ⟨hd, hquote⟩
  · rw [hd] at h
    exact hslash (Option.some.inj h).symm
  · rw [hd] at h
    rcases hc with rfl | hne
    · exact hquote (Option.some.inj h)
    · exact hne (Option.some.inj h)

/-- A backslash in front makes the text come back longer, or with a line feed for an n. -/
theorem unescape_slash_ne {s t : List Char} (ht : t = [] ∨ t.head? = some '"') :
    unescape ('\\' :: (escape s ++ t)) ≠ s := by
  intro h
  cases s with
  | nil =>
    change unescape ('\\' :: t) = [] at h
    rcases ht with rfl | ht
    · exact absurd h (by decide)
    · cases t with
      | nil => cases ht
      | cons c t =>
        rw [Option.some.inj ht, unescape_quote] at h
        cases h
  | cons d s =>
    have hlength := length_le_unescape (d :: s) t
    by_cases hn : d = 'n'
    · rw [hn, escape_cons] at h
      change unescape ('\\' :: 'n' :: _) = _ at h
      rw [unescape_line] at h
      exact absurd (List.cons.inj h).1 (by decide)
    · have hlonger := (length_unescape_slash _).2
        (head_escape s t (by decide) (.inl rfl)) (head_escape s t (by decide) (.inr hn))
      rw [h] at hlonger
      omega

theorem clean_of_unescape {s t : List Char} (ht : t = [] ∨ t.head? = some '"')
    (h : unescape (escape s ++ t) = s) : Clean s := by
  induction s with
  | nil => exact fun c hc => absurd hc List.not_mem_nil
  | cons c s ih =>
    rw [escape_cons, List.append_assoc] at h
    rcases unescape_escapeChar c (escape s ++ t) with ⟨hback, hc⟩ | ⟨-, hslash⟩ | ⟨hc, d, hkept⟩
    · rw [hback] at h
      exact clean_cons.2 ⟨hc, ih (List.cons.inj h).2⟩
    · rw [hslash] at h
      exact absurd (List.cons.inj h).2 (unescape_slash_ne ht)
    · rw [hkept] at h
      have hsame : '\\' = c := (List.cons.inj h).1
      rcases hc with rfl | rfl
      · exact absurd hsame (by decide)
      · exact absurd hsame (by decide)

end Unescaping

section Scanning

theorem scanQuoted_step {c : Char} {t : List Char} (hquote : c ≠ '"')
    (hslash : c = '\\' → t.head? ≠ some '"') :
    scanQuoted (c :: t) = (c :: (scanQuoted t).1, (scanQuoted t).2) := by
  rw [scanQuoted.eq_def]
  split
  · rename_i h
    cases h
  · rename_i h
    injection h with hc ht
    exact absurd (by rw [ht]; rfl) (hslash hc)
  · rename_i h
    injection h with hc ht
    exact absurd hc hquote
  · rename_i h
    injection h with hc ht
    rw [hc, ht]

theorem scanQuoted_escapeChar {c : Char} {t : List Char} (h : c = '\\' → t.head? ≠ some '"') :
    scanQuoted (escapeChar c ++ t) = (escapeChar c ++ (scanQuoted t).1, (scanQuoted t).2) := by
  have hpair : ∀ d : Char, d ≠ '"' → (d = '\\' → t.head? ≠ some '"') →
      scanQuoted ('\\' :: d :: t) = ('\\' :: d :: (scanQuoted t).1, (scanQuoted t).2) := by
    intro d hd hslash
    have hfirst : ('\\' : Char) = '\\' → (d :: t).head? ≠ some '"' :=
      fun _ hhead => hd (Option.some.inj hhead)
    rw [scanQuoted_step (by decide) hfirst, scanQuoted_step hd hslash]
  unfold escapeChar
  split
  · rfl
  · exact hpair '\\' (by decide) fun _ => h rfl
  · exact hpair 'n' (by decide) fun heq => absurd heq (by decide)
  · exact hpair 'r' (by decide) fun heq => absurd heq (by decide)
  · exact hpair 't' (by decide) fun heq => absurd heq (by decide)
  · rename_i hquote hslash _ _ _
    exact scanQuoted_step hquote fun heq => absurd heq hslash

/-- The scan of a quoted string takes the closing quote; it stops there unless a backslash
    stands before it. -/
theorem scanQuoted_escape (s rest : List Char) : ∃ more left,
    scanQuoted (escape s ++ '"' :: rest) = (escape s ++ '"' :: more, left) ∧
      (Clean s → more = [] ∧ left = rest) := by
  induction s with
  | nil => exact ⟨[], rest, rfl, fun _ => ⟨rfl, rfl⟩⟩
  | cons c s ih =>
    obtain ⟨more, left, hscan, hclean⟩ := ih
    rw [escape_cons, List.append_assoc]
    by_cases hend : c = '\\' ∧ (escape s ++ '"' :: rest).head? = some '"'
    · have hnil : s = [] := by
        cases s with
        | nil => rfl
        | cons d s => exact absurd hend.2 (head_escape s _ (by decide) (.inl rfl))
      refine ⟨(scanQuoted rest).1, (scanQuoted rest).2, ?_, fun h => ?_⟩
      · rw [hend.1, hnil]
        rfl
      · exact absurd hend.1 (clean_cons.1 h).1.1
    · refine ⟨more, left, ?_, fun h => hclean (clean_cons.1 h).2⟩
      rw [scanQuoted_escapeChar fun hc hhead => hend ⟨hc, hhead⟩, hscan, List.append_assoc]

end Scanning
end Sandstar.ZincWriter
