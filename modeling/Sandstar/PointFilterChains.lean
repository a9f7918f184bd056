import Sandstar.PointFilterSplits

set_option autoImplicit false

/-!
# Chains of comparisons

A filter of comparisons joined by `and` and `or`, with the blanks around them, as
the text both evaluators are given. The point filter splits it at the first `and` before
it looks for an `or`, and so computes a conjunction of disjunctions; the parser of
the REST filters groups the same chain as a disjunction of conjunctions.
-/
namespace Sandstar.RoxWarp
open Sandstar.Filter

section Chains

structure Operand where
  text : List Char
  tokens : List Token
  expr : Expr

structure Link where
  connective : Connective
  before : List Char
  after : List Char
  operand : Operand

def Link.text (l : Link) : List Char :=
  l.before ++ (l.connective.keyword ++ (l.after ++ l.operand.text))

def tailText (links : List Link) : List Char := links.flatMap Link.text

def chainText (first : Operand) (links : List Link) : List Char := first.text ++ tailText links

theorem tailText_cons (l : Link) (links : List Link) :
    tailText (l :: links) =
      l.before ++ (l.connective.keyword ++ (l.after ++ (l.operand.text ++ tailText links))) := by
  simp [tailText, Link.text]

theorem chainText_append (first : Operand) (links : List Link) (l : Link) (rest : List Link) :
    chainText first (links ++ l :: rest) =
      chainText first links ++ l.before ++ l.connective.keyword ++
        (l.after ++ chainText l.operand rest) := by
  simp [chainText, tailText, Link.text]

end Chains

section ChainScan

/-- The blanks are blanks, and the operand is quiet. -/
structure Link.Fits (l : Link) : Prop where
  before_blank : l.before.all isWhitespace = true
  after_blank : l.after.all isWhitespace = true
  quiet : Quiet l.operand.text

theorem startsBlank_tailText {links : List Link} (h : ∀ l ∈ links, l.Fits) :
    StartsBlank (tailText links) := by
  intro x hx
  cases links with
  | nil => cases hx
  | cons l links =>
    rw [tailText_cons] at hx
    have hl := (h l List.mem_cons_self).before_blank
    cases hbefore : l.before with
    | nil =>
      rw [hbefore] at hx
      have hspace : x = ' ' := by
        cases hc : l.connective <;> rw [hc] at hx <;> exact (Option.some.inj hx).symm
      rw [hspace]
      decide
    | cons y b =>
      rw [hbefore] at hx hl
      rw [List.all_cons, Bool.and_eq_true] at hl
      rw [← Option.some.inj hx]
      exact hl.1

theorem scanKeyword_self (c : Connective) (rest : List Char) :
    scanKeyword c.keyword false (c.keyword ++ rest) = some 0 := by
  cases c <;> simp [Connective.keyword, scanKeyword]

theorem keyword_head (c : Connective) : ∃ w, c.keyword = ' ' :: w := by
  cases c
  · exact ⟨_, rfl⟩
  · exact ⟨_, rfl⟩

theorem scan_tailText_same {l : Link} {links : List Link} (hl : l.Fits) :
    scanKeyword l.connective.keyword false (tailText (l :: links)) = some l.before.length := by
  obtain ⟨w, hw⟩ := keyword_head l.connective
  have hself := scanKeyword_self l.connective (l.after ++ (l.operand.text ++ tailText links))
  rw [tailText_cons]
  nth_rewrite 2 [hw]
  nth_rewrite 2 [hw] at hself
  rw [List.cons_append] at hself ⊢
  rw [scanKeyword_blanks hl.before_blank (by decide), hself]
  simp

theorem scanKeyword_other {c d : Connective} (h : d ≠ c) (rest : List Char) :
    scanKeyword c.keyword false (d.keyword ++ rest) =
      (scanKeyword c.keyword false (' ' :: rest)).map (· + (d.keyword.length - 1)) := by
  cases c <;> cases d
  · exact absurd rfl h
  · change scanKeyword _ false (' ' :: 'o' :: 'r' :: ' ' :: rest) = _
    rw [scanKeyword_step (by decide) (Or.inr rfl), scanKeyword_step (by decide) (Or.inr rfl),
      scanKeyword_step (by decide) (Or.inr rfl)]
    cases scanKeyword Connective.and.keyword false (' ' :: rest) <;> rfl
  · change scanKeyword _ false (' ' :: 'a' :: 'n' :: 'd' :: ' ' :: rest) = _
    rw [scanKeyword_step (by decide) (Or.inr rfl), scanKeyword_step (by decide) (Or.inr rfl),
      scanKeyword_step (by decide) (Or.inr rfl), scanKeyword_step (by decide) (Or.inr rfl)]
    cases scanKeyword Connective.or.keyword false (' ' :: rest) <;> rfl
  · exact absurd rfl h

theorem scan_tailText_other {c : Connective} {l : Link} {links : List Link} (hl : l.Fits)
    (hlinks : ∀ l ∈ links, l.Fits) (h : l.connective ≠ c) :
    scanKeyword c.keyword false (tailText (l :: links)) =
      (scanKeyword c.keyword false (tailText links)).map (· + l.text.length) := by
  obtain ⟨w, hw⟩ := keyword_head l.connective
  have hother := scanKeyword_other h (l.after ++ (l.operand.text ++ tailText links))
  have hoperand := hl.quiet.scan_blanks c (startsBlank_tailText hlinks)
    (show (' ' :: l.after).all isWhitespace = true by
      rw [List.all_cons, hl.after_blank]
      rfl) (List.cons_ne_nil _ _)
  rw [List.cons_append] at hoperand
  rw [hoperand] at hother
  have hlength : l.text.length =
      l.before.length + (l.connective.keyword.length + (l.after.length + l.operand.text.length)) := by
    simp [Link.text]
  have hpos : 0 < l.connective.keyword.length := by
    rw [hw]
    simp
  rw [tailText_cons]
  rw [hw, List.cons_append] at hother ⊢
  rw [scanKeyword_blanks hl.before_blank (by decide), hother]
  rw [hw] at hpos hlength
  cases scanKeyword c.keyword false (tailText links) with
  | none => rfl
  | some n =>
    simp only [Option.map_some, hlength, List.length_cons]
    congr 1
    simp only [List.length_cons] at hpos
    omega

theorem scan_tailText_none {c : Connective} {links : List Link} (hlinks : ∀ l ∈ links, l.Fits)
    (h : ∀ l ∈ links, l.connective ≠ c) :
    scanKeyword c.keyword false (tailText links) = none := by
  induction links with
  | nil => rfl
  | cons l links ih =>
    have hrest : ∀ l ∈ links, l.Fits := fun l' hl' => hlinks l' (List.mem_cons_of_mem l hl')
    rw [scan_tailText_other (hlinks l List.mem_cons_self) hrest (h l List.mem_cons_self),
      ih hrest fun l' hl' => h l' (List.mem_cons_of_mem l hl')]
    rfl

theorem scan_tailText_first {c : Connective} {links rest : List Link} {l : Link}
    (hlinks : ∀ l' ∈ links ++ l :: rest, l'.Fits) (hother : ∀ l' ∈ links, l'.connective ≠ c)
    (hl : l.connective = c) :
    scanKeyword c.keyword false (tailText (links ++ l :: rest)) =
      some ((tailText links).length + l.before.length) := by
  subst hl
  induction links with
  | nil =>
    rw [List.nil_append, scan_tailText_same (hlinks l (by simp))]
    simp [tailText]
  | cons k links ih =>
    have hrest : ∀ l' ∈ links ++ l :: rest, l'.Fits :=
      fun l' hl' => hlinks l' (List.mem_cons_of_mem k hl')
    rw [List.cons_append, scan_tailText_other (hlinks k List.mem_cons_self) hrest
      (hother k List.mem_cons_self), ih hrest fun l' hl' => hother l' (List.mem_cons_of_mem k hl')]
    have hlength : (tailText (k :: links)).length = k.text.length + (tailText links).length := by
      simp [tailText]
    rw [hlength]
    simp only [Option.map_some]
    congr 1
    omega

variable {first : Operand} {links rest : List Link} {l : Link} {c : Connective}

theorem scan_chainText_none (hfirst : Quiet first.text) (hlinks : ∀ l ∈ links, l.Fits)
    (h : ∀ l ∈ links, l.connective ≠ c) :
    scanKeyword c.keyword false (chainText first links) = none := by
  unfold chainText
  rw [hfirst.scan c (startsBlank_tailText hlinks), scan_tailText_none hlinks h]
  rfl

theorem scan_chainText_first (hfirst : Quiet first.text)
    (hlinks : ∀ l' ∈ links ++ l :: rest, l'.Fits) (hother : ∀ l' ∈ links, l'.connective ≠ c)
    (hl : l.connective = c) :
    scanKeyword c.keyword false (chainText first (links ++ l :: rest)) =
      some (chainText first links ++ l.before).length := by
  unfold chainText
  rw [hfirst.scan c (startsBlank_tailText hlinks), scan_tailText_first hlinks hother hl]
  simp only [Option.map_some, List.length_append]
  congr 1
  omega

end ChainScan

section Lowercase

def mask (c : Char) : Char := if isAscii c then c else 'é'

def TextFns.view (fns : TextFns) (s : List Char) : List Char := (fns.toLowercase s).map mask

/-- Lower case works on ASCII characters one by one, and no other character becomes
    dependent on them but for its spelling outside ASCII. -/
structure LowercaseLaw (fns : TextFns) : Prop where
  nil : fns.toLowercase [] = []
  ascii : ∀ p s, p.all isAscii = true → fns.view (p ++ s) = p.map Char.toLower ++ fns.view s

theorem mask_eq_iff {c k : Char} (hk : isAscii k = true) : mask c = k ↔ c = k := by
  unfold mask
  split_ifs with hc
  · rfl
  · constructor
    · rintro rfl
      exact absurd hk (by decide)
    · rintro rfl
      exact absurd hk hc

theorem isPrefixOf_map_mask {keyword : List Char} (hk : keyword.all isAscii = true)
    (cs : List Char) : keyword.isPrefixOf (cs.map mask) = keyword.isPrefixOf cs := by
  induction keyword generalizing cs with
  | nil => rfl
  | cons k ks ih =>
    rw [List.all_cons, Bool.and_eq_true] at hk
    cases cs with
    | nil => rfl
    | cons c cs =>
      rw [List.map_cons, List.isPrefixOf_cons_cons, List.isPrefixOf_cons_cons, ih hk.2]
      congr 1
      rw [Bool.eq_iff_iff, beq_iff_eq, beq_iff_eq]
      exact ⟨fun h => ((mask_eq_iff hk.1).1 h.symm).symm, fun h => ((mask_eq_iff hk.1).2 h.symm).symm⟩

theorem scanKeyword_map_mask {keyword : List Char} (hk : keyword.all isAscii = true) (q : Bool)
    (cs : List Char) : scanKeyword keyword q (cs.map mask) = scanKeyword keyword q cs := by
  induction cs generalizing q with
  | nil => rfl
  | cons c cs ih =>
    have hprefix := isPrefixOf_map_mask hk (c :: cs)
    rw [List.map_cons] at hprefix ⊢
    unfold scanKeyword
    rw [ih, ih, hprefix]
    by_cases hc : c = '"'
    · rw [if_pos hc, if_pos ((mask_eq_iff (by decide)).2 hc)]
    · rw [if_neg hc, if_neg (mt (mask_eq_iff (by decide)).1 hc)]

theorem findKeyword_eq_scan (fns : TextFns) (s : List Char) (c : Connective) :
    findKeyword fns s c = scanKeyword c.keyword false (fns.view s) :=
  (scanKeyword_map_mask (keyword_ascii c) false _).symm

theorem LowercaseLaw.view_ascii {fns : TextFns} (h : LowercaseLaw fns) {p : List Char}
    (hp : p.all isAscii = true) : fns.view p = p.map Char.toLower := by
  have hview := h.ascii p [] hp
  have hnil : fns.view [] = [] := by
    unfold TextFns.view
    rw [h.nil]
    rfl
  rw [hnil, List.append_nil, List.append_nil] at hview
  exact hview

theorem toLower_of_blank {c : Char} (h : isWhitespace c = true) : c.toLower = c := by
  unfold Char.toLower
  have hne : ¬ (c.val ≥ 'A'.val ∧ c.val ≤ 'Z'.val) := by
    rintro ⟨hge, hle⟩
    rw [ge_iff_le, UInt32.le_iff_toNat_le] at hge
    rw [UInt32.le_iff_toNat_le] at hle
    change 65 ≤ c.toNat at hge
    change c.toNat ≤ 90 at hle
    simp only [isWhitespace, Bool.or_eq_true, Bool.and_eq_true, decide_eq_true_eq, beq_iff_eq] at h
    omega
  exact dif_neg hne

theorem map_toLower_blank {b : List Char} (h : b.all isWhitespace = true) :
    b.map Char.toLower = b := by
  induction b with
  | nil => rfl
  | cons c b ih =>
    rw [List.all_cons, Bool.and_eq_true] at h
    rw [List.map_cons, toLower_of_blank h.1, ih h.2]

theorem map_toLower_keyword (c : Connective) : c.keyword.map Char.toLower = c.keyword := by
  cases c <;> decide

end Lowercase

section ChainText

def AsciiUpToLast : Operand → List Link → Prop
  | _, [] => True
  | first, l :: links =>
    (first.text.all isAscii = true ∧ l.before.all isAscii = true ∧ l.after.all isAscii = true) ∧
      AsciiUpToLast l.operand links

def Operand.view (fns : TextFns) (op : Operand) : Operand := { op with text := fns.view op.text }

def Link.view (fns : TextFns) (l : Link) : Link := { l with operand := l.operand.view fns }

structure Solid (t : List Char) : Prop where
  starts : ∃ c cs, t = c :: cs ∧ isWhitespace c = false
  ends : ∃ cs c, t = cs ++ [c] ∧ isWhitespace c = false

/-- A chain both evaluators can read: solid, quiet operands, blanks around the keywords, and
    ASCII before the last operand. -/
structure Readable (fns : TextFns) (first : Operand) (links : List Link) : Prop where
  solid : Solid first.text
  quiet : Quiet (fns.view first.text)
  links_solid : ∀ l ∈ links, Solid l.operand.text
  links_fit : ∀ l ∈ links, (l.view fns).Fits
  ascii : AsciiUpToLast first links

variable {fns : TextFns} {first : Operand} {links rest : List Link} {l : Link}

theorem Link.Fits.blanks (h : (l.view fns).Fits) :
    l.before.all isWhitespace = true ∧ l.after.all isWhitespace = true :=
  ⟨h.before_blank, h.after_blank⟩

theorem view_chainText (hlaw : LowercaseLaw fns) (hfit : ∀ l ∈ links, (l.view fns).Fits)
    (hascii : AsciiUpToLast first links) :
    fns.view (chainText first links) = chainText (first.view fns) (links.map (Link.view fns)) := by
  induction links generalizing first with
  | nil => simp [chainText, tailText, Operand.view]
  | cons l links ih =>
    obtain ⟨⟨hfirst, hbefore, hafter⟩, hrest⟩ := hascii
    have hblanks := (hfit l List.mem_cons_self).blanks
    have ih := ih (fun l' hl' => hfit l' (List.mem_cons_of_mem l hl')) hrest
    unfold chainText at ih ⊢
    rw [List.map_cons, tailText_cons, tailText_cons]
    rw [hlaw.ascii _ _ hfirst, hlaw.ascii _ _ hbefore, hlaw.ascii _ _ (keyword_ascii _),
      hlaw.ascii _ _ hafter, ih, map_toLower_blank hblanks.1, map_toLower_blank hblanks.2,
      map_toLower_keyword, ← hlaw.view_ascii hfirst]
    rfl

theorem AsciiUpToLast.split (h : AsciiUpToLast first (links ++ l :: rest)) :
    AsciiUpToLast first links ∧ (chainText first links ++ l.before).all isAscii = true ∧
      AsciiUpToLast l.operand rest := by
  induction links generalizing first with
  | nil =>
    obtain ⟨⟨hfirst, hbefore, -⟩, hrest⟩ := h
    refine ⟨trivial, ?_, hrest⟩
    simp [chainText, tailText, hfirst, hbefore]
  | cons k links ih =>
    obtain ⟨hk, hrest⟩ := h
    obtain ⟨hleft, hprefix, hright⟩ := ih hrest
    refine ⟨⟨hk, hleft⟩, ?_, hright⟩
    unfold chainText at hprefix ⊢
    rw [tailText_cons]
    simp only [List.all_append, Bool.and_eq_true, List.append_assoc] at hprefix ⊢
    exact ⟨hk.1, hk.2.1, keyword_ascii _, hk.2.2, hprefix.1, hprefix.2.1, hprefix.2.2⟩

theorem Readable.split (h : Readable fns first (links ++ l :: rest)) :
    Readable fns first links ∧ Readable fns l.operand rest := by
  obtain ⟨hleft, -, hright⟩ := h.ascii.split
  have hmem : l ∈ links ++ l :: rest := by simp
  exact ⟨⟨h.solid, h.quiet, fun l' hl' => h.links_solid l' (List.mem_append_left _ hl'),
      fun l' hl' => h.links_fit l' (List.mem_append_left _ hl'), hleft⟩,
    ⟨h.links_solid l hmem, (h.links_fit l hmem).quiet,
      fun l' hl' => h.links_solid l' (List.mem_append_right _ (List.mem_cons_of_mem l hl')),
      fun l' hl' => h.links_fit l' (List.mem_append_right _ (List.mem_cons_of_mem l hl')), hright⟩⟩

theorem Readable.findKeyword_none (hlaw : LowercaseLaw fns) (h : Readable fns first links)
    {c : Connective} (hother : ∀ l ∈ links, l.connective ≠ c) :
    findKeyword fns (chainText first links) c = none := by
  rw [findKeyword_eq_scan, view_chainText hlaw h.links_fit h.ascii]
  apply scan_chainText_none h.quiet
  · intro l hl
    obtain ⟨k, hk, rfl⟩ := List.mem_map.1 hl
    exact h.links_fit k hk
  · intro l hl
    obtain ⟨k, hk, rfl⟩ := List.mem_map.1 hl
    exact hother k hk

theorem Readable.findKeyword_first (hlaw : LowercaseLaw fns)
    (h : Readable fns first (links ++ l :: rest)) {c : Connective}
    (hother : ∀ l' ∈ links, l'.connective ≠ c) (hl : l.connective = c) :
    findKeyword fns (chainText first (links ++ l :: rest)) c =
      some (chainText first links ++ l.before).length := by
  obtain ⟨hleft, hprefix, -⟩ := h.ascii.split
  have hfit : ∀ l' ∈ links, (l'.view fns).Fits :=
    fun l' hl' => h.links_fit l' (List.mem_append_left _ hl')
  have hseen : (chainText (first.view fns) (links.map (Link.view fns))).length =
      (chainText first links).length := by
    rw [← view_chainText hlaw hfit hleft]
    rw [List.all_append, Bool.and_eq_true] at hprefix
    rw [hlaw.view_ascii hprefix.1, List.length_map]
  rw [findKeyword_eq_scan, view_chainText hlaw h.links_fit h.ascii, List.map_append, List.map_cons]
  rw [scan_chainText_first (l := l.view fns) h.quiet]
  · rw [List.length_append, List.length_append, hseen]
    rfl
  · intro l' hl'
    rw [← List.map_cons, ← List.map_append] at hl'
    obtain ⟨k, hk, rfl⟩ := List.mem_map.1 hl'
    exact h.links_fit k hk
  · intro l' hl'
    obtain ⟨k, hk, rfl⟩ := List.mem_map.1 hl'
    exact hother k hk
  · exact hl

/-- The slices around the first keyword are the two smaller chains. -/
theorem Readable.cutKeyword_first (h : Readable fns first (links ++ l :: rest)) :
    cutKeyword (chainText first (links ++ l :: rest)) (chainText first links ++ l.before).length
      l.connective = some (chainText first links ++ l.before, l.after ++ chainText l.operand rest) := by
  rw [chainText_append]
  apply cutKeyword_ascii _ ?_ rfl
  rw [List.all_append, h.ascii.split.2.1, keyword_ascii]
  rfl

end ChainText

end Sandstar.RoxWarp
