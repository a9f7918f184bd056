import Sandstar.DirectoryTree
import Sandstar.FileTransfer
import Sandstar.Splitting

set_option autoImplicit false

namespace Sandstar.FileTransfer
open SoxProtocol TreeRequests Machine

structure Name where
  text : String
  valid : text ≠ "" ∧ text ≠ "." ∧ text ≠ ".." ∧ '/' ∉ text.toList
deriving DecidableEq

theorem Name.text_injective : Function.Injective Name.text := by
  rintro ⟨text, _⟩ ⟨text', _⟩ rfl
  rfl

abbrev FileTree := DirectoryTree Name (List UInt8)

abbrev PathStep := DirectoryTree.Step Name

section Paths

def segmentStep (seg : String) : PathStep :=
  if h : seg ≠ "" ∧ seg ≠ "." ∧ seg ≠ ".." ∧ '/' ∉ seg.toList then .down ⟨seg, h⟩
  else if seg = ".." then .up
  else .here

def pathSteps (path : String) : List PathStep :=
  (path.toList.splitOn '/').map fun seg => segmentStep (String.ofList seg)

def stepNames : List PathStep → Option (List Name)
  | [] => some []
  | .here :: steps => stepNames steps
  | .up :: _ => none
  | .down name :: steps => (stepNames steps).map (name :: ·)

def pathNames (path : String) : Option (List Name) := stepNames (pathSteps path)

def pathString (names : List Name) : String := "/" ++ "/".intercalate (names.map (·.text))

@[simp] theorem segmentStep_name (name : Name) : segmentStep name.text = .down name := by
  rw [segmentStep, dif_pos name.2]

theorem splitOn_pathString (names : List Name) :
    (pathString names).toList.splitOn '/' =
      [] :: if names = [] then [[]] else names.map (·.text.toList) := by
  have hsplit : ∀ cs : List Char, ('/' :: cs).splitOn '/' = [] :: cs.splitOn '/' := by
    intro cs
    exact List.splitOn_append_cons_self_of_not_mem List.not_mem_nil cs
  rw [pathString, String.toList_append, String.toList_intercalate]
  change ('/' :: ['/'].intercalate _).splitOn '/' = _
  rw [hsplit]
  split_ifs with hnil
  · simp [hnil]
  · rw [List.splitOn_intercalate]
    · simp
    · simp only [List.map_map, List.mem_map, forall_exists_index, and_imp]
      rintro _ name - rfl
      exact name.2.2.2.2
    · simpa using hnil

theorem pathSteps_pathString (names : List Name) :
    pathSteps (pathString names) =
      .here :: if names = [] then [.here] else names.map .down := by
  have hhere : segmentStep "" = .here := by decide
  rw [pathSteps, splitOn_pathString]
  split_ifs with hnil
  · simp [hhere]
  · simp [hhere, Function.comp_def]

theorem stepNames_down (names : List Name) : stepNames (names.map .down) = some names := by
  induction names with
  | nil => rfl
  | cons name names ih => simp [stepNames, ih]

theorem pathNames_pathString (names : List Name) : pathNames (pathString names) = some names := by
  rw [pathNames, pathSteps_pathString]
  split_ifs with hnil
  · simp [stepNames, hnil]
  · simp [stepNames, stepNames_down]

theorem pathComponents_pathString (names : List Name) :
    pathComponents (pathString names) = names.map (·.text) := by
  have hkept : ∀ name : Name, name.text ≠ "" ∧ name.text ≠ "." := fun name => ⟨name.2.1, name.2.2.1⟩
  rw [pathComponents, splitOn_pathString]
  split_ifs with hnil
  · simp [hnil]
  · simp [List.filter_eq_self.2, hkept]

theorem infix_intercalate {sep seg : List Char} {segs : List (List Char)} (h : seg ∈ segs) :
    seg <:+: sep.intercalate segs := by
  induction segs with
  | nil => cases h
  | cons first segs ih =>
    rcases List.mem_cons.1 h with rfl | hmem
    · cases segs with
      | nil => simp
      | cons second segs =>
        rw [List.intercalate_cons_cons, List.append_assoc]
        exact (List.prefix_append _ _).isInfix
    · rw [List.intercalate_cons_of_ne_nil (List.ne_nil_of_mem hmem), List.append_assoc]
      exact (ih hmem).trans ((List.suffix_append _ _).trans (List.suffix_append _ _)).isInfix

theorem hasTraversal_of_dots {cs : List Char} (h : ['.', '.'] <:+: cs) :
    hasTraversal cs = true := by
  induction cs with
  | nil => simp at h
  | cons c cs ih =>
    rw [List.infix_cons_iff] at h
    rcases h with hpre | hdots
    · obtain ⟨rest, hrest⟩ := hpre
      cases hrest
      rfl
    · simp [hasTraversal, ih hdots]

theorem stepNames_segments {segs : List (List Char)}
    (h : ∀ seg ∈ segs, '/' ∉ seg ∧ seg ≠ ['.', '.']) :
    ∃ names, stepNames (segs.map fun seg => segmentStep (String.ofList seg)) = some names ∧
      ((segs.map String.ofList).filter fun seg => seg ≠ "" ∧ seg ≠ ".") = names.map (·.text) := by
  induction segs with
  | nil => exact ⟨[], rfl, rfl⟩
  | cons seg segs ih =>
    obtain ⟨names, hnames, hfilter⟩ := ih fun seg hseg => h seg (List.mem_cons_of_mem _ hseg)
    obtain ⟨hsep, hdots⟩ := h seg List.mem_cons_self
    have hup : String.ofList seg ≠ ".." := by
      intro heq
      exact hdots (by simpa using congrArg String.toList heq)
    by_cases hname : String.ofList seg ≠ "" ∧ String.ofList seg ≠ "."
    · have hvalid : String.ofList seg ≠ "" ∧ String.ofList seg ≠ "." ∧ String.ofList seg ≠ ".." ∧
          '/' ∉ (String.ofList seg).toList := ⟨hname.1, hname.2, hup, by simpa using hsep⟩
      have hdown : segmentStep (String.ofList seg) = .down ⟨String.ofList seg, hvalid⟩ := by
        rw [segmentStep, dif_pos hvalid]
      refine ⟨⟨String.ofList seg, hvalid⟩ :: names, ?_, ?_⟩
      · simp only [List.map_cons, hdown, stepNames, hnames, Option.map_some]
      · rw [List.map_cons, List.filter_cons_of_pos (by simpa using hname), hfilter]
        rfl
    · have hhere : segmentStep (String.ofList seg) = .here := by
        rw [segmentStep, dif_neg fun hvalid => hname ⟨hvalid.1, hvalid.2.1⟩, if_neg hup]
      refine ⟨names, ?_, ?_⟩
      · simp only [List.map_cons, hhere, stepNames, hnames]
      · rw [List.map_cons, List.filter_cons_of_neg (by simpa using hname), hfilter]

/-- A path that passes the first test goes nowhere upwards. -/
theorem pathComponents_names {path : String} (h : hasTraversal path.toList = false) :
    ∃ names, pathNames path = some names ∧ pathComponents path = names.map (·.text) := by
  refine stepNames_segments fun seg hseg => ⟨Splitting.not_mem_of_mem_splitOn hseg, ?_⟩
  rintro rfl
  have hdots : ['.', '.'] <:+: ['/'].intercalate (path.toList.splitOn '/') :=
    infix_intercalate hseg
  rw [List.intercalate_splitOn] at hdots
  simp [hasTraversal_of_dots hdots] at h

theorem splitPath_names {path : String} {names : List Name}
    (h : pathComponents path = names.map (·.text)) :
    splitPath path =
      names.getLast?.map fun name => (pathString names.dropLast, name.text) := by
  induction names using List.reverseRecOn with
  | nil => simp [splitPath, h]
  | append_singleton names name _ => simp [splitPath, h, pathString]

theorem pathString_concat {names : List Name} (h : names ≠ []) (name : Name) :
    pathString (names ++ [name]) = pathString names ++ "/" ++ name.text := by
  rw [pathString, List.map_append, List.map_singleton,
    String.intercalate_append_of_ne_nil (by simpa using h) (by simp),
    String.intercalate_singleton, pathString]
  simp only [String.append_assoc]

theorem getLast?_pathString {names : List Name} (h : names ≠ []) :
    (pathString names).toList.getLast? ≠ some '/' := by
  induction names using List.reverseRecOn with
  | nil => exact absurd rfl h
  | append_singleton names name _ =>
    obtain ⟨s, hs⟩ : ∃ s, pathString (names ++ [name]) = s ++ name.text := by
      by_cases hnil : names = []
      · exact ⟨"/", by simp [hnil, pathString]⟩
      · exact ⟨_, pathString_concat hnil name⟩
    have hne : name.text.toList ≠ [] := by simpa using name.2.1
    rw [hs, String.toList_append, List.getLast?_append_of_ne_nil _ hne]
    intro hlast
    exact name.2.2.2.2 (List.mem_of_getLast? hlast)

theorem joinPath_pathString (names : List Name) (name : Name) :
    joinPath (pathString names) name.text = pathString (names ++ [name]) := by
  by_cases hnil : names = []
  · have hlast : (pathString []).toList.getLast? = some '/' := by decide
    rw [hnil, joinPath, if_pos hlast]
    simp [pathString]
  · rw [joinPath, if_neg (getLast?_pathString hnil), pathString_concat hnil]

end Paths

section Starts

/-- Where both sides are cut at their separators, one starts with the other piece by piece. -/
theorem cut_prefix_iff {sep : Char} {first first' rest rest' : List Char} (h : sep ∉ first)
    (h' : sep ∉ first') (hrest' : rest' ≠ [] → rest'.head? = some sep) :
    first ++ sep :: rest <+: first' ++ rest' ↔ first = first' ∧ sep :: rest <+: rest' := by
  constructor
  · intro hpre
    induction first generalizing first' with
    | nil =>
      cases first' with
      | nil => exact ⟨rfl, hpre⟩
      | cons c cs =>
        rw [List.nil_append, List.cons_append, List.cons_prefix_cons] at hpre
        exact absurd (hpre.1 ▸ List.mem_cons_self) h'
    | cons c cs ih =>
      cases first' with
      | nil =>
        have hne : rest' ≠ [] := by
          rintro rfl
          simp at hpre
        obtain ⟨tail, rfl⟩ : ∃ tail, rest' = sep :: tail := by
          cases rest' with
          | nil => exact absurd rfl hne
          | cons d ds => exact ⟨ds, by simpa using hrest' hne⟩
        rw [List.nil_append, List.cons_append, List.cons_prefix_cons] at hpre
        exact absurd (hpre.1 ▸ List.mem_cons_self) h
      | cons d ds =>
        rw [List.cons_append, List.cons_append, List.cons_prefix_cons] at hpre
        simp only [List.mem_cons, not_or] at h h'
        obtain ⟨rfl, hpre'⟩ := ih h.2 h'.2 hpre.2
        exact ⟨by rw [hpre.1], hpre'⟩
  · rintro ⟨rfl, hpre⟩
    exact (List.prefix_append_right_inj first).2 hpre

/-- What holds no separator reaches no further than the first piece. -/
theorem prefix_cut_iff {sep : Char} {first first' rest' : List Char} (h : sep ∉ first)
    (hrest' : rest' ≠ [] → rest'.head? = some sep) :
    first <+: first' ++ rest' ↔ first <+: first' := by
  refine ⟨fun hpre => ?_, fun hpre => hpre.trans (List.prefix_append _ _)⟩
  rcases List.prefix_or_prefix_of_prefix hpre (List.prefix_append first' rest') with hle | hle
  · exact hle
  · obtain ⟨tail, rfl⟩ := hle
    have htail := (List.prefix_append_right_inj first').1 hpre
    cases tail with
    | nil => simp
    | cons c cs =>
      have hne : rest' ≠ [] := by
        rintro rfl
        simp at htail
      obtain ⟨tail, rfl⟩ : ∃ tail, rest' = sep :: tail := by
        cases rest' with
        | nil => exact absurd rfl hne
        | cons d ds => exact ⟨ds, by simpa using hrest' hne⟩
      rw [List.cons_prefix_cons] at htail
      exact absurd (List.mem_append_right _ (htail.1 ▸ List.mem_cons_self)) h

def pieces (names : List Name) : List Char := names.flatMap fun name => '/' :: name.text.toList

theorem head?_pieces (names : List Name) : pieces names ≠ [] → (pieces names).head? = some '/' := by
  cases names with
  | nil => exact fun h => absurd rfl h
  | cons name names => exact fun _ => rfl

theorem pieces_prefix_iff (names dir : List Name) (last : Name) :
    pieces (dir ++ [last]) <+: pieces names ↔
      ∃ name rest, names = dir ++ name :: rest ∧ startsWith name.text last.text = true := by
  induction dir generalizing names with
  | nil =>
    cases names with
    | nil => simp [pieces]
    | cons name names =>
      change '/' :: (last.text.toList ++ []) <+: '/' :: (name.text.toList ++ pieces names) ↔ _
      rw [List.append_nil, List.cons_prefix_cons, prefix_cut_iff last.2.2.2.2 (head?_pieces names)]
      simp [startsWith]
  | cons first dir ih =>
    cases names with
    | nil => simp [pieces]
    | cons name names =>
      obtain ⟨rest, hrest⟩ : ∃ rest, pieces (dir ++ [last]) = '/' :: rest := by
        cases dir with
        | nil => exact ⟨_, rfl⟩
        | cons second dir => exact ⟨_, rfl⟩
      change '/' :: (first.text.toList ++ pieces (dir ++ [last])) <+:
        '/' :: (name.text.toList ++ pieces names) ↔ _
      rw [List.cons_prefix_cons, hrest,
        cut_prefix_iff first.2.2.2.2 name.2.2.2.2 (head?_pieces names), ← hrest, ih]
      constructor
      · rintro ⟨-, heq, name', rest', rfl, hstart⟩
        exact ⟨name', rest', by rw [Name.text_injective (String.toList_inj.1 heq)]; rfl, hstart⟩
      · rintro ⟨name', rest', heq, hstart⟩
        simp only [List.cons_append, List.cons.injEq] at heq
        exact ⟨rfl, by rw [heq.1], name', rest', heq.2, hstart⟩

theorem pathString_toList {names : List Name} (h : names ≠ []) :
    (pathString names).toList = pieces names := by
  induction names using List.reverseRecOn with
  | nil => exact absurd rfl h
  | append_singleton names name ih =>
    by_cases hnil : names = []
    · simp [hnil, pathString, pieces]
    · rw [pathString_concat hnil, String.toList_append, String.toList_append, ih hnil]
      simp [pieces]

/-- The test on strings: the names agree up to the last one of the directory, and the
    name at its place may go on from there. -/
theorem startsWith_pathString_iff (names dir : List Name) (last : Name) :
    startsWith (pathString names) (pathString (dir ++ [last])) = true ↔
      ∃ name rest, names = dir ++ name :: rest ∧ startsWith name.text last.text = true := by
  rw [startsWith, List.isPrefixOf_iff_prefix, pathString_toList (by simp : dir ++ [last] ≠ [])]
  by_cases hnil : names = []
  · subst hnil
    have hroot : (pathString []).toList = ['/'] := by decide
    have hne : last.text.toList ≠ [] := by simpa using last.2.1
    refine iff_of_false (fun hpre => ?_) (by simp)
    have hlen := hpre.length_le
    have hpos := List.length_pos_iff.2 hne
    rw [hroot] at hlen
    simp only [pieces, List.flatMap_append, List.length_append, List.length_flatMap,
      List.flatMap_singleton, List.length_cons, List.length_nil] at hlen
    omega
  · rw [pathString_toList hnil]
    exact pieces_prefix_iff names dir last

end Starts
end Sandstar.FileTransfer
