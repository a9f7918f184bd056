import Sandstar.PointFilterAgreement
import Sandstar.Splitting
import Sandstar.ZincGrid

set_option autoImplicit false

namespace Sandstar.Zinc
open RoxWarp

section Trimming

theorem trim_eq (s : List Char) :
    trim s = (s.dropWhile isWhitespace).rdropWhile isWhitespace := rfl

theorem trim_concat {c : Char} (hc : isWhitespace c = true) (s : List Char) :
    trim (s ++ [c]) = trim s := by
  rw [trim_eq, trim_eq, List.dropWhile_append]
  split_ifs with hblank
  · rw [List.isEmpty_iff.1 hblank, List.dropWhile_cons_of_pos hc]
    rfl
  · exact List.rdropWhile_concat_pos _ _ _ hc

theorem stripCarriageReturn_concat (s : List Char) : stripCarriageReturn (s ++ ['\r']) = s := by
  simp [stripCarriageReturn]

theorem stripCarriageReturn_of_ne {s : List Char} (h : s.getLast? ≠ some '\r') :
    stripCarriageReturn s = s := if_neg h

theorem eq_concat_of_getLast? {s : List Char} {c : Char} (h : s.getLast? = some c) :
    s = s.dropLast ++ [c] := by
  have hne : s ≠ [] := by
    rintro rfl
    cases h
  rw [List.getLast?_eq_getLast_of_ne_nil hne] at h
  injection h with hlast
  rw [← hlast, List.dropLast_append_getLast hne]

theorem trim_stripCarriageReturn (s : List Char) : trim (stripCarriageReturn s) = trim s := by
  by_cases h : s.getLast? = some '\r'
  · rw [eq_concat_of_getLast? h, stripCarriageReturn_concat]
    exact (trim_concat (by decide) _).symm
  · rw [stripCarriageReturn_of_ne h]

theorem length_stripCarriageReturn_le (s : List Char) :
    (stripCarriageReturn s).length ≤ s.length := by
  unfold stripCarriageReturn
  split_ifs
  · rw [List.length_dropLast]
    omega
  · exact le_refl _

theorem stripCarriageReturn_eq_self {s : List Char}
    (h : s.length ≤ (stripCarriageReturn s).length) : s.getLast? ≠ some '\r' := by
  intro hlast
  rw [eq_concat_of_getLast? hlast, stripCarriageReturn_concat, List.length_append] at h
  simp at h

theorem trim_rdropWhile (s : List Char) : trim (s.rdropWhile isWhitespace) = trim s := by
  induction s using List.reverseRecOn with
  | nil => rfl
  | append_singleton s c ih =>
    by_cases hc : isWhitespace c = true
    · rw [List.rdropWhile_concat_pos _ _ _ hc, ih, trim_concat hc]
    · rw [List.rdropWhile_concat_neg _ _ _ hc]

/-- Blanks behind a character that is none are taken, those before it are kept. -/
theorem rdropWhile_behind {c : Char} (hc : isWhitespace c = false) (u s : List Char) :
    (u ++ c :: s).rdropWhile isWhitespace = u ++ c :: s.rdropWhile isWhitespace := by
  induction s using List.reverseRecOn with
  | nil =>
    rw [List.rdropWhile_concat_neg _ _ _ (by simp [hc]), List.rdropWhile_nil]
  | append_singleton s d ih =>
    by_cases hd : isWhitespace d = true
    · have hall : u ++ c :: (s ++ [d]) = (u ++ c :: s) ++ [d] := by simp
      rw [hall, List.rdropWhile_concat_pos _ _ _ hd, ih, List.rdropWhile_concat_pos _ _ _ hd]
    · have hall : u ++ c :: (s ++ [d]) = (u ++ c :: s) ++ [d] := by simp
      rw [hall, List.rdropWhile_concat_neg _ _ _ hd, List.rdropWhile_concat_neg _ _ _ hd]
      simp

theorem trim_behind {c : Char} {u : List Char} (hu : ∀ d ∈ u, isWhitespace d = false)
    (hc : isWhitespace c = false) (s : List Char) :
    trim (u ++ c :: s) = u ++ c :: s.rdropWhile isWhitespace := by
  have hstart : (u ++ c :: s).dropWhile isWhitespace = u ++ c :: s := by
    cases u with
    | nil => exact List.dropWhile_cons_of_neg (by simp [hc])
    | cons d u => exact List.dropWhile_cons_of_neg (by simp [hu d List.mem_cons_self])
  rw [trim_eq, hstart, rdropWhile_behind hc]

theorem trim_solidChars {u : List Char} (hu : ∀ d ∈ u, isWhitespace d = false) : trim u = u := by
  induction u using List.reverseRecOn with
  | nil => rfl
  | append_singleton u c _ =>
    have hc := hu c (by simp)
    have hall := trim_behind (fun d hd => hu d (List.mem_append_left _ hd)) hc []
    rwa [List.rdropWhile_nil] at hall

theorem trim_of_solid {t : List Char} (h : Solid t) : trim t = t := by
  have hall := @trim_solid [] t [] rfl rfl h
  rwa [List.nil_append, List.append_nil] at hall

theorem solid_of_solidChars {t : List Char} (hne : t ≠ [])
    (h : ∀ c ∈ t, isWhitespace c = false) : Solid t := by
  refine ⟨?_, t.dropLast, t.getLast hne, (List.dropLast_append_getLast hne).symm,
    h _ (List.getLast_mem hne)⟩
  cases t with
  | nil => exact absurd rfl hne
  | cons c t => exact ⟨c, t, rfl, h c List.mem_cons_self⟩

theorem stripCarriageReturn_of_solid {t : List Char} (h : Solid t) :
    stripCarriageReturn t = t := by
  rcases h.ends with ⟨s, c, rfl, hc⟩
  refine stripCarriageReturn_of_ne fun hlast => ?_
  rw [List.getLast?_concat] at hlast
  rw [Option.some.inj hlast] at hc
  exact absurd hc (by decide)

theorem solid_intercalate {pieces : List (List Char)} (sep : List Char) (hne : pieces ≠ [])
    (h : ∀ piece ∈ pieces, Solid piece) : Solid (sep.intercalate pieces) := by
  refine Splitting.intercalate_of (fun a b ha hb => ?_) hne h
  rcases hb.ends with ⟨cs, c, hend, hc⟩
  rw [List.append_assoc]
  exact ha.append ⟨sep ++ cs, c, by rw [hend, List.append_assoc], hc⟩

theorem not_mem_intercalate {pieces : List (List Char)} {sep : List Char} {c : Char}
    (hsep : c ∉ sep) (h : ∀ piece ∈ pieces, c ∉ piece) : c ∉ sep.intercalate pieces := by
  by_cases hne : pieces = []
  · rw [hne]
    exact List.not_mem_nil
  · refine Splitting.intercalate_of (P := fun cs => c ∉ cs) (fun a b ha hb => ?_) hne h
    simp only [List.mem_append, not_or]
    exact ⟨⟨ha, hsep⟩, hb⟩

end Trimming

section Lines

theorem lines_nil : lines [] = [] := rfl

theorem lines_line {line : List Char} (h : '\n' ∉ line) (rest : List Char) :
    lines (line ++ '\n' :: rest) = stripCarriageReturn line :: lines rest := by
  have hparts := List.splitOn_append_cons_self_of_not_mem h rest
  have hne := List.splitOn_ne_nil '\n' rest
  unfold lines
  rw [hparts]
  dsimp only
  rw [List.dropLast_cons_of_ne_nil hne, List.getLast?_cons_of_ne_nil hne]
  rfl

theorem stripCarriageReturn_starts (s : List Char) : stripCarriageReturn s <+: s := by
  unfold stripCarriageReturn
  split_ifs
  · exact List.dropLast_prefix s
  · exact List.prefix_refl s

theorem lines_head_starts {content line : List Char} (h : (lines content).head? = some line) :
    line <+: content := by
  cases hparts : content.splitOn '\n' with
  | nil => exact absurd hparts (List.splitOn_ne_nil '\n' content)
  | cons first pieces =>
    have hfirst := Splitting.prefix_of_splitOn hparts
    unfold lines at h
    rw [hparts] at h
    cases pieces with
    | nil =>
      simp at h
      exact h.1 ▸ hfirst
    | cons second pieces =>
      simp at h
      exact h ▸ (stripCarriageReturn_starts first).trans hfirst

theorem not_mem_of_mem_lines {content line : List Char} (h : line ∈ lines content) :
    '\n' ∉ line := by
  have hpiece : ∃ piece ∈ content.splitOn '\n', line <+: piece := by
    unfold lines at h
    rcases List.mem_append.1 h with hmem | hmem
    · obtain ⟨piece, hpiece, rfl⟩ := List.mem_map.1 hmem
      exact ⟨piece, List.dropLast_subset _ hpiece, stripCarriageReturn_starts piece⟩
    · have hlast : (content.splitOn '\n').getLast? = some line := by
        rw [Option.mem_toList] at hmem
        exact (Option.mem_filter_iff.1 hmem).1
      exact ⟨line, List.mem_of_getLast? hlast, List.prefix_refl line⟩
  obtain ⟨piece, hmem, hstarts⟩ := hpiece
  exact fun hline => Splitting.not_mem_of_mem_splitOn hmem (hstarts.subset hline)

/-- A text written line by line, and more behind it. -/
theorem lines_block {block : List (List Char)} (h : ∀ line ∈ block, '\n' ∉ line)
    (rest : List Char) :
    lines ((block.flatMap fun line => line ++ ['\n']) ++ rest) =
      block.map stripCarriageReturn ++ lines rest := by
  induction block with
  | nil => rfl
  | cons line block ih =>
    have hrest := ih fun l hl => h l (List.mem_cons_of_mem _ hl)
    rw [List.flatMap_cons, List.append_assoc, List.append_assoc, List.singleton_append,
      lines_line (h line List.mem_cons_self), hrest]
    rfl

end Lines
end Sandstar.Zinc
