import Sandstar.TrioRoundTrip

set_option autoImplicit false

/-!
# Which strings Trio keeps

A string on one line is read like any value, so it must not look like another kind of
value, and blanks around it are lost. A string of several lines loses what indents a
line, a carriage return at the end of one, and empty lines at its two ends.
-/
namespace Sandstar.Trio
open RoxWarp Zinc

section OneLine

variable (serde : SerdeText)

def ReadsAsText (s : List Char) : Prop :=
  s ≠ "N".toList ∧ s ≠ "true".toList ∧ s ≠ "false".toList ∧
    (s.head? = some '@' ∨ isDate s = some true ∨
      (isDate s = some false ∧ (isTime s = some true ∨
        (isTime s = some false ∧ parseI64 s = none ∧ serde.parseF64 s = none))))

instance (s : List Char) : Decidable (ReadsAsText serde s) := inferInstanceAs (Decidable (_ ∧ _))

theorem text_inj {s u : List Char} : text s = text u ↔ s = u := by
  constructor
  · intro h
    injection h with hscalar
    injection hscalar with hstring
    rw [← String.toList_ofList (l := s), hstring, String.toList_ofList]
  · rintro rfl
    rfl

theorem parseNumber_text {s u : List Char} : parseNumber serde s = text u ↔
    s = u ∧ parseI64 s = none ∧ serde.parseF64 s = none := by
  unfold parseNumber
  cases parseI64 s with
  | some n =>
    have hscalar : JsonScalar.ofInt64 (Int64.ofInt n) ≠ .str (String.ofList u) := by
      unfold JsonScalar.ofInt64
      split_ifs <;> exact nofun
    simp [text, hscalar]
  | none =>
    rcases serde.parseF64 s with _ | _ | x
    · simp [text_inj]
    · simp [ofDouble, text]
    · simp [ofDouble, text]

theorem parseTrioValue_text {s u : List Char} : parseTrioValue serde s = some (text u) ↔
    s = u ∧ ReadsAsText serde s := by
  unfold parseTrioValue ReadsAsText
  by_cases hN : s = ['N']
  · simp [hN, text]
  by_cases htrue : s = ['t', 'r', 'u', 'e']
  · simp [htrue, text]
  by_cases hfalse : s = ['f', 'a', 'l', 's', 'e']
  · simp [hfalse, text]
  by_cases href : s.head? = some '@'
  · simp [hN, htrue, hfalse, href, text_inj]
  · rcases isDate s with _ | _ | _
    · simp [hN, htrue, hfalse, href]
    · rcases isTime s with _ | _ | _
      · simp [hN, htrue, hfalse, href]
      · simp [hN, htrue, hfalse, href, parseNumber_text]
      · simp [hN, htrue, hfalse, href, text_inj]
    · simp [hN, htrue, hfalse, href, text_inj]

end OneLine

section SeveralLines

def KeptLines (s : List Char) : Prop :=
  (s.splitOn '\n').head? ≠ some [] ∧ (s.splitOn '\n').getLast? ≠ some [] ∧
    ∀ line ∈ s.splitOn '\n', trimStart line = line ∧ line.getLast? ≠ some '\r'

instance (s : List Char) : Decidable (KeptLines s) := inferInstanceAs (Decidable (_ ∧ _))

theorem joinLine_fold {buf : List Char} (h : buf ≠ []) (block : List (List Char)) :
    block.foldl joinLine buf = ['\n'].intercalate (buf :: block) := by
  induction block generalizing buf with
  | nil => simp
  | cons line block ih =>
    have hjoined : buf ++ '\n' :: line ≠ [] := by simp
    rw [List.foldl_cons, joinLine, if_neg h, ih hjoined]
    cases block with
    | nil => simp
    | cons second block => simp

theorem joinLines_eq (block : List (List Char)) :
    joinLines block = ['\n'].intercalate (block.dropWhile (· = [])) := by
  induction block with
  | nil => rfl
  | cons line block ih =>
    by_cases hline : line = []
    · rw [List.dropWhile_cons_of_pos (by simp [hline]), ← ih, hline]
      rfl
    · rw [List.dropWhile_cons_of_neg (by simp [hline])]
      exact joinLine_fold hline block

theorem kept_of_strip {line : List Char} (h : trimStart (stripCarriageReturn line) = line) :
    trimStart line = line ∧ line.getLast? ≠ some '\r' := by
  have hlength : line.length ≤ (stripCarriageReturn line).length := by
    conv_lhs => rw [← h]
    exact (List.dropWhile_sublist _).length_le
  have hlast := stripCarriageReturn_eq_self hlength
  rw [stripCarriageReturn_of_ne hlast] at h
  exact ⟨h, hlast⟩

theorem kept_of_strip_twice {line : List Char}
    (h : trimStart (stripCarriageReturn (stripCarriageReturn line)) = line) :
    trimStart line = line ∧ line.getLast? ≠ some '\r' := by
  have hlength : line.length ≤ (stripCarriageReturn line).length := by
    conv_lhs => rw [← h]
    calc (trimStart (stripCarriageReturn (stripCarriageReturn line))).length
        ≤ (stripCarriageReturn (stripCarriageReturn line)).length :=
          (List.dropWhile_sublist _).length_le
      _ ≤ (stripCarriageReturn line).length := length_stripCarriageReturn_le _
  have hlast := stripCarriageReturn_eq_self hlength
  rw [stripCarriageReturn_of_ne hlast] at h
  exact kept_of_strip h

theorem map_self {α : Type} {f : α → α} {as : List α} :
    as.map f = as ↔ ∀ a ∈ as, f a = a := by
  conv_lhs => rhs; rw [← List.map_id as]
  exact List.map_inj_left

theorem lines_pieces {s last : List Char} {init : List (List Char)}
    (h : s.splitOn '\n' = init ++ [last]) :
    lines s = init.map stripCarriageReturn ++ if last = [] then [] else [last] := by
  unfold lines
  rw [h]
  by_cases hlast : last = []
  · simp [hlast]
  · simp [hlast]

theorem joinLines_lines_iff {s : List Char} (hs : '\n' ∈ s) :
    joinLines ((lines s).map fun line => trimStart (stripCarriageReturn line)) = s ↔
      KeptLines s := by
  have hne := List.splitOn_ne_nil '\n' s
  have hjoin : ['\n'].intercalate (s.splitOn '\n') = s := List.intercalate_splitOn '\n'
  unfold KeptLines
  rw [joinLines_eq]
  generalize hpieces : s.splitOn '\n' = pieces at hne hjoin
  obtain ⟨init, last, rfl⟩ : ∃ init last, pieces = init ++ [last] :=
    ⟨_, _, (List.dropLast_append_getLast hne).symm⟩
  rw [lines_pieces hpieces, List.getLast?_concat]
  constructor
  · intro hback
    generalize hread : (init.map stripCarriageReturn ++ if last = [] then [] else [last]).map
      (fun line => trimStart (stripCarriageReturn line)) = read at hback
    have hkeep : read.dropWhile (· = []) ≠ [] := by
      intro hnil
      rw [hnil] at hback
      rw [← hback] at hs
      cases hs
    have hnone : ∀ line ∈ read, '\n' ∉ line := by
      intro line hline hmem
      rw [← hread, ← lines_pieces hpieces] at hline
      obtain ⟨whole, hwhole, rfl⟩ := List.mem_map.1 hline
      exact not_mem_of_mem_lines hwhole ((stripCarriageReturn_starts whole).subset
        ((List.dropWhile_sublist _).subset hmem))
    have hsplit : s.splitOn '\n' = read.dropWhile (· = []) := by
      conv_lhs => rw [← hback]
      exact List.splitOn_intercalate '\n'
        (fun line hline => hnone line ((List.dropWhile_sublist _).subset hline)) hkeep
    have hpiecewise : init ++ [last] = read.dropWhile (· = []) := hpieces.symm.trans hsplit
    have hlength : read.length ≤ (read.dropWhile (· = [])).length := by
      rw [← hpiecewise, ← hread]
      split_ifs <;> simp
    have hall : read.dropWhile (· = []) = read :=
      (List.dropWhile_sublist _).eq_of_length_le hlength
    rw [hall] at hpiecewise
    have hlast : last ≠ [] := by
      intro hnil
      have hcount := congrArg List.length hpiecewise
      rw [← hread, if_pos hnil] at hcount
      simp at hcount
    rw [if_neg hlast, List.map_append, List.map_map] at hread
    have hparts := List.append_inj (hread.trans hpiecewise.symm) (by simp)
    refine ⟨?_, fun hnil => hlast (Option.some.inj hnil), ?_⟩
    · rw [hpiecewise]
      intro hfirst
      have hdropped := List.head?_dropWhile_not (· = []) read
      rw [hall, hfirst] at hdropped
      simp at hdropped
    · intro line hline
      rcases List.mem_append.1 hline with hmem | hmem
      · exact kept_of_strip_twice (map_self.1 hparts.1 line hmem)
      · rw [List.mem_singleton.1 hmem]
        exact kept_of_strip (List.singleton_inj.1 hparts.2)
  · rintro ⟨hfirst, hlast, hkept⟩
    have hlast : last ≠ [] := fun hnil => hlast (congrArg some hnil)
    have hsame : ∀ line ∈ init ++ [last], trimStart (stripCarriageReturn line) = line := by
      intro line hline
      rw [stripCarriageReturn_of_ne (hkept line hline).2, (hkept line hline).1]
    have hstrip : init.map stripCarriageReturn = init := map_self.2 fun line hline =>
      stripCarriageReturn_of_ne (hkept line (List.mem_append_left _ hline)).2
    have hdrop : (init ++ [last]).dropWhile (· = []) = init ++ [last] := by
      cases hcase : init ++ [last] with
      | nil => rfl
      | cons first rest =>
        rw [hcase] at hfirst
        exact List.dropWhile_cons_of_neg (by simpa using hfirst)
    rw [if_neg hlast, hstrip, map_self.2 hsame, hdrop]
    exact hjoin

end SeveralLines

section Kept

variable (serde : SerdeText)

def KeptText (s : List Char) : Prop :=
  if '\n' ∈ s then KeptLines s else s = [] ∨ (trim s = s ∧ ReadsAsText serde s)

instance (s : List Char) : Decidable (KeptText serde s) :=
  inferInstanceAs (Decidable
    (if '\n' ∈ s then KeptLines s else s = [] ∨ (trim s = s ∧ ReadsAsText serde s)))

theorem readText_iff (s : List Char) : readText serde s = some (text s) ↔ KeptText serde s := by
  unfold readText KeptText
  by_cases hlines : '\n' ∈ s
  · rw [if_pos hlines, if_pos hlines, Option.some_inj, text_inj]
    exact joinLines_lines_iff hlines
  rw [if_neg hlines, if_neg hlines]
  by_cases hblank : trim s = []
  · rw [if_pos hblank, Option.some_inj, text_inj, hblank]
    constructor
    · exact fun hnil => .inl hnil.symm
    · rintro (hnil | hsame)
      · exact hnil.symm
      · exact hsame.1
  · rw [if_neg hblank, parseTrioValue_text]
    constructor
    · rintro ⟨hsame, hreads⟩
      exact .inr ⟨hsame, by rwa [hsame] at hreads⟩
    · rintro (rfl | ⟨hsame, hreads⟩)
      · exact absurd rfl hblank
      · exact ⟨hsame, by rwa [hsame]⟩

def Kept : Json → Prop
  | .scalar (.posInt n) => n.toNat < 2 ^ 63
  | .scalar (.str s) => KeptText serde s.toList
  | _ => True

theorem readBack_iff {value : Json} (h : Plain value) :
    readBack serde value = some value ↔ Kept serde value := by
  cases value with
  | arr items => exact h.elim
  | obj fields => exact h.elim
  | scalar value =>
    cases value with
    | null | bool b | float x => exact iff_of_true rfl trivial
    | posInt n => exact readBack_posInt serde n
    | negInt n => exact iff_of_true (readBack_negInt serde h) trivial
    | str s =>
      have hall := readText_iff serde s.toList
      unfold text at hall
      rwa [String.ofList_toList] at hall

/-- Records come back exactly if each of their values does. -/
theorem recordsKept_iff {rs : List Record} (h : ∀ tags ∈ rs, tags.size ≠ 0 ∧ PlainRecord tags) :
    decodeTrioRecords serde (encodeTrioRecords serde rs) = some rs ↔
      ∀ tags ∈ rs, ∀ key value, tags.get key = some value → Kept serde value := by
  rw [decode_encode_iff serde h]
  refine forall₂_congr fun tags htags => forall₂_congr fun key value => ?_
  exact imp_congr_right fun hget => readBack_iff serde ((h tags htags).2 key value hget).2

end Kept

def noDoubles : SerdeText := ⟨fun _ => none, fun _ => [], fun _ => []⟩

def displayName (s : String) : Record := Table.empty.insert "dis" (.scalar (.str s))

theorem get_displayName {s key : String} {value : Json}
    (h : (displayName s).get key = some value) : key = "dis" ∧ value = .scalar (.str s) := by
  unfold displayName at h
  rw [Table.get_insert] at h
  split_ifs at h with hkey
  · exact ⟨hkey, (Option.some.inj h).symm⟩
  · cases h

theorem plain_displayName (s : String) :
    ∀ tags ∈ [displayName s], tags.size ≠ 0 ∧ PlainRecord tags := by
  intro tags htags
  rw [List.mem_singleton.1 htags]
  refine ⟨?_, fun key value hget => ?_⟩
  · unfold displayName
    rw [Table.size_insert_absent rfl]
    exact Nat.succ_ne_zero _
  · rcases get_displayName hget with ⟨rfl, rfl⟩
    exact ⟨⟨by decide, by simp [isWhitespace]⟩, trivial⟩

theorem recordsKept_zoneTemp :
    decodeTrioRecords noDoubles (encodeTrioRecords noDoubles [displayName "Zone Temp"]) =
      some [displayName "Zone Temp"] := by
  refine (recordsKept_iff noDoubles (plain_displayName "Zone Temp")).2 ?_
  intro tags htags key value hget
  rw [List.mem_singleton.1 htags] at hget
  rcases get_displayName hget with ⟨-, rfl⟩
  have hkept : KeptText noDoubles "Zone Temp".toList := by decide +kernel
  exact hkept

/-- A string of digits comes back as a number. -/
theorem digits_not_kept : ¬ ∀ rs : List Record, (∀ tags ∈ rs, tags.size ≠ 0 ∧ PlainRecord tags) →
    decodeTrioRecords noDoubles (encodeTrioRecords noDoubles rs) = some rs := by
  intro h
  have hback := h [displayName "42"] (plain_displayName "42")
  have hvalue := (decode_encode_iff noDoubles (plain_displayName "42")).1 hback
    (displayName "42") List.mem_cons_self "dis" (.scalar (.str "42"))
    (by unfold displayName; rw [Table.get_insert, if_pos rfl])
  have hkept : KeptText noDoubles "42".toList := (readText_iff noDoubles "42".toList).1 hvalue
  exact absurd hkept (by decide +kernel)

end Sandstar.Trio
