import Sandstar.Decimals
import Sandstar.TextLines
import Sandstar.Trio

set_option autoImplicit false

namespace Sandstar.Trio
open RoxWarp Zinc

section TagLines

def TagName (key : List Char) : Prop :=
  key ≠ [] ∧ ∀ c ∈ key, c ≠ ':' ∧ c ≠ '/' ∧ isWhitespace c = false

variable {key : List Char}

theorem TagName.solid (h : TagName key) : ∀ c ∈ key, isWhitespace c = false :=
  fun c hc => (h.2 c hc).2.2

theorem TagName.not_mem (h : TagName key) {c : Char} (hc : isWhitespace c = true) : c ∉ key := by
  intro hmem
  rw [h.solid c hmem] at hc
  cases hc

theorem TagName.head (h : TagName key) (v : List Char) : (key ++ v).head? ≠ some ' ' := by
  cases key with
  | nil => exact absurd rfl h.1
  | cons c key =>
    intro hblank
    injection hblank with hc
    have hsolid := h.solid c List.mem_cons_self
    rw [hc] at hsolid
    exact absurd hsolid (by decide)

theorem splitOnce_absent {s : List Char} (h : ':' ∉ s) : splitOnce [':'] s = none := by
  induction s with
  | nil => rfl
  | cons c s ih =>
    rw [List.mem_cons, not_or] at h
    have hc : [':'].isPrefixOf (c :: s) = false := by simp [List.isPrefixOf, h.1]
    simp [splitOnce, hc, ih h.2]

theorem splitOnce_first (h : ':' ∉ key) (v : List Char) :
    splitOnce [':'] (key ++ ':' :: v) = some (key, v) := by
  induction key with
  | nil => simp [splitOnce, List.isPrefixOf]
  | cons c s ih =>
    rw [List.mem_cons, not_or] at h
    have hc : [':'].isPrefixOf (c :: (s ++ ':' :: v)) = false := by simp [List.isPrefixOf, h.1]
    simp [splitOnce, hc, ih h.2]

variable (serde : SerdeText) (d : Decoding)

theorem not_comment (h : TagName key) (v : List Char) :
    "//".toList.isPrefixOf (key ++ v) = false := by
  cases key with
  | nil => exact absurd rfl h.1
  | cons c key =>
    have hc := (h.2 c List.mem_cons_self).2.1
    have hslash : ('/' == c) = false := beq_false_of_ne (Ne.symm hc)
    change ('/' == c && _) = false
    rw [hslash, Bool.false_and]

theorem decodeTagLine_named (h : TagName key) (v : List Char) :
    decodeTagLine serde d (key ++ ':' :: v) =
      if trim v = [] then
        some { d with multilineKey := some (String.ofList key), multilineBuf := [] }
      else (parseTrioValue serde (trim v)).map (d.insert (String.ofList key)) := by
  have hcolon : ':' ∉ key := fun hmem => (h.2 ':' hmem).1 rfl
  have htrim := trim_behind h.solid (c := ':') (by decide) v
  unfold decodeTagLine
  rw [htrim]
  dsimp only
  rw [if_neg (by simp), not_comment h, if_neg (by simp), splitOnce_first hcolon]
  dsimp only
  rw [trim_solidChars h.solid, trim_rdropWhile]

theorem decodeTagLine_marker (h : TagName key) :
    decodeTagLine serde d key = some (d.insert (String.ofList key) (.scalar (.bool true))) := by
  have hcolon : ':' ∉ key := fun hmem => (h.2 ':' hmem).1 rfl
  have hslash := not_comment h []
  rw [List.append_nil] at hslash
  unfold decodeTagLine
  rw [trim_solidChars h.solid]
  dsimp only
  rw [if_neg h.1, hslash, if_neg (by simp), splitOnce_absent hcolon]

theorem decodeTagLine_strip (line : List Char) :
    decodeTagLine serde d (stripCarriageReturn line) = decodeTagLine serde d line := by
  unfold decodeTagLine
  rw [trim_stripCarriageReturn]

end TagLines

section Loop

variable (serde : SerdeText)

def outcome (d : Decoding) (content : List Char) : Option (List Record) :=
  ((lines content).foldlM (decodeLine serde) d).map fun d => d.endMultiline.endRecord.records

def settled (records : List Record) (current : Record) : Decoding := ⟨records, current, none, []⟩

theorem decodeTrioRecords_eq (content : List Char) :
    decodeTrioRecords serde content = outcome serde (settled [] Table.empty) content := rfl

theorem unindented {line : List Char} (h : line.head? ≠ some ' ') :
    "  ".toList.isPrefixOf line = false := by
  by_contra hindent
  obtain ⟨more, rfl⟩ := List.isPrefixOf_iff_prefix.1 (Bool.eq_true_of_not_eq_false hindent)
  exact h rfl

theorem head_of_starts {line content : List Char} (h : line <+: content)
    (hcontent : content.head? ≠ some ' ') : line.head? ≠ some ' ' := by
  obtain ⟨more, rfl⟩ := h
  cases line with
  | nil => exact nofun
  | cons c line => exact hcontent

theorem decodeLine_unindented {line : List Char} (h : "  ".toList.isPrefixOf line = false)
    (d : Decoding) : decodeLine serde d line = decodeTagLine serde d.endMultiline line :=
  if_neg fun hboth => by
    rw [h] at hboth
    exact absurd hboth.2 (by decide)

theorem outcome_line {line : List Char} (h : '\n' ∉ line) (d : Decoding) (rest : List Char) :
    outcome serde d (line ++ '\n' :: rest) =
      (decodeLine serde d (stripCarriageReturn line)).bind fun d => outcome serde d rest := by
  unfold outcome
  rw [lines_line h, List.foldlM_cons]
  cases decodeLine serde d (stripCarriageReturn line) with
  | none => rfl
  | some d => rfl

theorem endMultiline_idem (d : Decoding) : d.endMultiline.endMultiline = d.endMultiline := by
  obtain ⟨records, current, key, buf⟩ := d
  cases key with
  | none => rfl
  | some key => rfl

theorem outcome_endMultiline {content : List Char} (h : content.head? ≠ some ' ')
    (d : Decoding) : outcome serde d content = outcome serde d.endMultiline content := by
  unfold outcome
  cases hlines : lines content with
  | nil =>
    change some d.endMultiline.endRecord.records = some d.endMultiline.endMultiline.endRecord.records
    rw [endMultiline_idem]
  | cons line rest =>
    have hline : line <+: content := lines_head_starts (by rw [hlines]; rfl)
    have hunindented := unindented (head_of_starts hline h)
    rw [List.foldlM_cons, List.foldlM_cons, decodeLine_unindented serde hunindented,
      decodeLine_unindented serde hunindented, endMultiline_idem]

end Loop

section ReadBack

variable (serde : SerdeText)

def joinLines (block : List (List Char)) : List Char := block.foldl joinLine []

def readText (s : List Char) : Option Json :=
  if '\n' ∈ s then
    some (text (joinLines ((lines s).map fun line => trimStart (stripCarriageReturn line))))
  else if trim s = [] then some (text [])
  else parseTrioValue serde (trim s)

def readBack : Json → Option Json
  | .scalar (.posInt n) => parseTrioValue serde (toString n.toNat).toList
  | .scalar (.negInt n) => parseTrioValue serde (toString n.toInt).toList
  | .scalar (.str s) => readText serde s.toList
  | value => some value

/-- The values of the records in question: null, the marker, integers and strings. -/
def Plain : Json → Prop
  | .scalar .null => True
  | .scalar (.bool b) => b = true
  | .scalar (.posInt _) => True
  | .scalar (.negInt n) => n < 0
  | .scalar (.str _) => True
  | _ => False

variable {key : List Char} (records : List Record) (current : Record) {rest : List Char}

theorem outcome_namedLine (h : TagName key) {v : List Char} (hv : '\n' ∉ v) :
    outcome serde (settled records current) (key ++ ':' :: (v ++ '\n' :: rest)) =
      (if trim v = [] then some ⟨records, current, some (String.ofList key), []⟩
        else (parseTrioValue serde (trim v)).map
          ((settled records current).insert (String.ofList key))).bind fun d =>
        outcome serde d rest := by
  have hline : '\n' ∉ key ++ ':' :: v := by
    simp [h.not_mem (show isWhitespace '\n' = true by decide), hv]
  have htext : key ++ ':' :: (v ++ '\n' :: rest) = (key ++ ':' :: v) ++ '\n' :: rest := by simp
  have hindent := unindented (head_of_starts (stripCarriageReturn_starts (key ++ ':' :: v))
    (h.head _))
  rw [htext, outcome_line serde hline, decodeLine_unindented serde hindent, decodeTagLine_strip,
    decodeTagLine_named serde _ h]
  rfl

theorem outcome_named (h : TagName key) {v : List Char} (hv : '\n' ∉ v) (hsolid : trim v ≠ []) :
    outcome serde (settled records current) (key ++ ':' :: (v ++ '\n' :: rest)) =
      (parseTrioValue serde (trim v)).bind fun value =>
        outcome serde (settled records (current.insert (String.ofList key) value)) rest := by
  rw [outcome_namedLine serde records current h hv, if_neg hsolid]
  cases parseTrioValue serde (trim v) with
  | none => rfl
  | some value => rfl

theorem outcome_empty (h : TagName key) {v : List Char} (hv : '\n' ∉ v) (hblank : trim v = [])
    (hrest : rest.head? ≠ some ' ') :
    outcome serde (settled records current) (key ++ ':' :: (v ++ '\n' :: rest)) =
      outcome serde (settled records (current.insert (String.ofList key) (text []))) rest := by
  rw [outcome_namedLine serde records current h hv, if_pos hblank]
  exact outcome_endMultiline serde hrest _

theorem outcome_marker (h : TagName key) :
    outcome serde (settled records current) (key ++ '\n' :: rest) =
      outcome serde (settled records (current.insert (String.ofList key) (.scalar (.bool true))))
        rest := by
  have hline : '\n' ∉ key := h.not_mem (by decide)
  have hindent := unindented (head_of_starts (stripCarriageReturn_starts key) (by
    have hhead := h.head []
    rwa [List.append_nil] at hhead))
  rw [outcome_line serde hline, decodeLine_unindented serde hindent, decodeTagLine_strip,
    decodeTagLine_marker serde _ h]
  rfl

def indented (block : List (List Char)) : List Char :=
  block.flatMap fun line => "  ".toList ++ line ++ ['\n']

theorem strip_indented (line : List Char) :
    stripCarriageReturn ("  ".toList ++ line) = "  ".toList ++ stripCarriageReturn line := by
  induction line using List.reverseRecOn with
  | nil => rfl
  | append_singleton line c _ =>
    rw [← List.append_assoc]
    by_cases hc : c = '\r'
    · rw [hc, stripCarriageReturn_concat, stripCarriageReturn_concat]
    · have hlast : ∀ u : List Char, (u ++ [c]).getLast? ≠ some '\r' := fun u => by simp [hc]
      rw [stripCarriageReturn_of_ne (hlast _), stripCarriageReturn_of_ne (hlast _),
        List.append_assoc]

theorem outcome_indented {block : List (List Char)} (hblock : ∀ line ∈ block, '\n' ∉ line)
    (name : String) (buf : List Char) :
    outcome serde ⟨records, current, some name, buf⟩ (indented block ++ rest) =
      outcome serde ⟨records, current, some name,
        (block.map fun line => trimStart (stripCarriageReturn line)).foldl joinLine buf⟩ rest := by
  induction block generalizing buf with
  | nil => rfl
  | cons line block ih =>
    have hrest := ih (fun l hl => hblock l (List.mem_cons_of_mem _ hl))
      (joinLine buf (trimStart (stripCarriageReturn line)))
    have hline : '\n' ∉ "  ".toList ++ line := by
      simp [hblock line List.mem_cons_self]
    have htext : indented (line :: block) ++ rest =
        ("  ".toList ++ line) ++ '\n' :: (indented block ++ rest) := by
      simp [indented]
    have hpast : trimStart ("  ".toList ++ stripCarriageReturn line) =
        trimStart (stripCarriageReturn line) := rfl
    rw [htext, outcome_line serde hline, strip_indented]
    unfold decodeLine
    rw [if_pos ⟨rfl, rfl⟩, hpast]
    exact hrest

theorem outcome_multiline (h : TagName key) {block : List (List Char)}
    (hblock : ∀ line ∈ block, '\n' ∉ line) (hrest : rest.head? ≠ some ' ') :
    outcome serde (settled records current) (key ++ ':' :: '\n' :: (indented block ++ rest)) =
      outcome serde (settled records (current.insert (String.ofList key)
        (text (joinLines (block.map fun line => trimStart (stripCarriageReturn line)))))) rest := by
  have hstart := @outcome_namedLine serde key records current (indented block ++ rest) h []
    (by simp)
  rw [List.nil_append] at hstart
  rw [hstart, if_pos (show trim [] = [] from rfl), Option.bind_some]
  change outcome serde ⟨records, current, some (String.ofList key), []⟩ _ = _
  rw [outcome_indented serde records current hblock]
  exact outcome_endMultiline serde hrest _

/-- A string comes back as its text does, whatever tags are around it. -/
theorem outcome_string (h : TagName key) (s : List Char) (hrest : rest.head? ≠ some ' ') :
    outcome serde (settled records current) (encodeString key s ++ rest) =
      (readText serde s).bind fun value =>
        outcome serde (settled records (current.insert (String.ofList key) value)) rest := by
  unfold encodeString readText
  by_cases hlines : '\n' ∈ s
  · have htext : key ++ ":\n".toList ++ indented (lines s) ++ rest =
        key ++ ':' :: '\n' :: (indented (lines s) ++ rest) := by simp
    have hblock : ∀ line ∈ lines s, '\n' ∉ line := fun line hline => not_mem_of_mem_lines hline
    have hall := outcome_multiline serde records current h hblock hrest
    rw [if_pos hlines, if_pos hlines, Option.bind_some, ← hall, ← htext]
    rfl
  · have htext : key ++ ':' :: (s ++ ['\n']) ++ rest = key ++ ':' :: (s ++ '\n' :: rest) := by simp
    rw [if_neg hlines, if_neg hlines, htext]
    by_cases hblank : trim s = []
    · rw [if_pos hblank]
      exact outcome_empty serde records current h hlines hblank hrest
    · rw [if_neg hblank]
      exact outcome_named serde records current h hlines hblank

end ReadBack

section Integers

variable (serde : SerdeText)

def Numeral (s : List Char) : Prop :=
  ∃ c cs, s = c :: cs ∧ (c = '-' ∨ c.isDigit = true) ∧ ∀ d ∈ cs, d.isDigit = true

theorem isDigit_solid {c : Char} (h : c.isDigit = true) : isWhitespace c = false := by
  have hrange : 48 ≤ c.toNat ∧ c.toNat ≤ 57 := by
    simpa [Char.isDigit, UInt32.le_iff_toNat_le] using h
  simp only [isWhitespace]
  have hne : ∀ k : ℕ, k < 48 ∨ 57 < k → (c.toNat == k) = false := by
    intro k hk
    exact beq_false_of_ne (by omega)
  simp [hne]
  omega

theorem Numeral.solid {s : List Char} (h : Numeral s) : ∀ c ∈ s, isWhitespace c = false := by
  rcases h with ⟨c, cs, rfl, hc, hcs⟩
  intro d hd
  rcases List.mem_cons.1 hd with rfl | hmem
  · rcases hc with rfl | hdigit
    · decide
    · exact isDigit_solid hdigit
  · exact isDigit_solid (hcs d hmem)

theorem Numeral.ne_nil {s : List Char} (h : Numeral s) : s ≠ [] := by
  rcases h with ⟨c, cs, rfl, -, -⟩
  exact List.cons_ne_nil c cs

theorem Numeral.later {s : List Char} (h : Numeral s) {i : ℕ} {d : Char} (hd : d.isDigit = false) :
    s[i + 1]? ≠ some d := by
  rcases h with ⟨c, cs, rfl, -, hcs⟩
  intro hget
  rw [List.getElem?_cons_succ] at hget
  have hdigit := hcs d (List.mem_of_getElem? hget)
  rw [hd] at hdigit
  cases hdigit

theorem parseTrioValue_numeral {s : List Char} (h : Numeral s) :
    parseTrioValue serde s = some (parseNumber serde s) := by
  have hdate : isDate s = some false := if_neg fun hform => h.later (by decide) hform.2.1
  have htime : isTime s = some false := if_neg fun hform => h.later (by decide) hform.2.1
  rcases h with ⟨c, cs, rfl, hc, hcs⟩
  have hhead : ∀ d : Char, d.isDigit = false → d ≠ '-' → c ≠ d := by
    rintro d hd hminus rfl
    rcases hc with rfl | hdigit
    · exact hminus rfl
    · rw [hd] at hdigit
      cases hdigit
  have hN : c ≠ 'N' := hhead 'N' (by decide) (by decide)
  have ht : c ≠ 't' := hhead 't' (by decide) (by decide)
  have hf : c ≠ 'f' := hhead 'f' (by decide) (by decide)
  have hat : c ≠ '@' := hhead '@' (by decide) (by decide)
  unfold parseTrioValue
  rw [hdate, htime]
  simp [hN, ht, hf, hat]

theorem numeral_nat (n : ℕ) : Numeral (toString n).toList := by
  rw [Decimals.toList_nat]
  cases hcs : Nat.toDigits 10 n with
  | nil => exact absurd hcs Nat.toDigits_ne_nil
  | cons c cs =>
    have hdigits : ∀ d ∈ c :: cs, d.isDigit = true := fun d hd =>
      Decimals.isDigit_of_mem (by rwa [hcs])
    exact ⟨c, cs, rfl, .inr (hdigits c List.mem_cons_self),
      fun d hd => hdigits d (List.mem_cons_of_mem _ hd)⟩

theorem numeral_neg {z : ℤ} (h : z < 0) : Numeral (toString z).toList :=
  ⟨'-', _, Decimals.toList_neg h, .inl rfl, fun _ => Decimals.isDigit_of_mem⟩

theorem parseI64_nat (n : ℕ) :
    parseI64 (toString n).toList = if n < 2 ^ 63 then some (n : ℤ) else none := by
  have hminus := Decimals.head_ne (c := '-') (by decide) n
  have hplus := Decimals.head_ne (c := '+') (by decide) n
  rw [Decimals.toList_nat]
  unfold parseI64
  simp [hminus, hplus, Decimals.all_isDigit, Decimals.sum_digits, Nat.toDigits_ne_nil]

theorem parseI64_neg {z : ℤ} (h : z < 0) (hmin : -2 ^ 63 ≤ z) :
    parseI64 (toString z).toList = some z := by
  have habs : |z| = -z := abs_of_neg h
  rw [Decimals.toList_neg h]
  unfold parseI64
  simp [Decimals.all_isDigit, Decimals.sum_digits, Nat.toDigits_ne_nil, habs]
  omega

theorem ofInt64_pos {n : UInt64} (h : n.toNat < 2 ^ 63) :
    JsonScalar.ofInt64 (Int64.ofInt n.toNat) = .posInt n := by
  have hint : (Int64.ofInt n.toNat).toInt = n.toNat :=
    Int64.toInt_ofInt_of_le (by omega) (by omega)
  have hpos : ¬ Int64.ofInt n.toNat < 0 := by
    rw [Int64.lt_iff_toInt_lt, hint]
    exact not_lt.2 (Int.natCast_nonneg _)
  have hword : (Int64.ofInt n.toNat).toUInt64 = n := by
    rw [Int64.ofInt_eq_ofNat, Int64.toUInt64_ofNat', UInt64.ofNat_toNat]
  unfold JsonScalar.ofInt64
  rw [if_neg hpos, hword]

theorem readBack_posInt (n : UInt64) :
    readBack serde (.scalar (.posInt n)) = some (.scalar (.posInt n)) ↔ n.toNat < 2 ^ 63 := by
  change parseTrioValue serde (toString n.toNat).toList = _ ↔ _
  rw [parseTrioValue_numeral serde (numeral_nat _)]
  unfold parseNumber
  rw [parseI64_nat]
  constructor
  · intro h
    by_contra hlarge
    rw [if_neg hlarge] at h
    generalize serde.parseF64 (toString n.toNat).toList = parsed at h
    match parsed with
    | none => simp [text] at h
    | some none => simp [ofDouble] at h
    | some (some x) => simp [ofDouble] at h
  · intro h
    rw [if_pos h]
    change some (Json.scalar (.ofInt64 (Int64.ofInt n.toNat))) = _
    rw [ofInt64_pos h]

theorem readBack_negInt {n : Int64} (h : n < 0) :
    readBack serde (.scalar (.negInt n)) = some (.scalar (.negInt n)) := by
  have hneg : n.toInt < 0 := Int64.lt_iff_toInt_lt.1 h
  change parseTrioValue serde (toString n.toInt).toList = _
  rw [parseTrioValue_numeral serde (numeral_neg hneg)]
  unfold parseNumber
  rw [parseI64_neg hneg (Int64.le_toInt n)]
  change some (Json.scalar (.ofInt64 (Int64.ofInt n.toInt))) = _
  rw [Int64.ofInt_toInt]
  unfold JsonScalar.ofInt64
  rw [if_pos h]

end Integers

section Records

variable (serde : SerdeText)

theorem outcome_tag {key : List Char} (h : TagName key) {value : Json} (hvalue : Plain value)
    (records : List Record) (current : Record) {rest : List Char} (hrest : rest.head? ≠ some ' ') :
    outcome serde (settled records current) (encodeTag serde key value ++ rest) =
      (readBack serde value).bind fun back =>
        outcome serde (settled records (current.insert (String.ofList key) back)) rest := by
  have hnumeral : ∀ s : List Char, Numeral s →
      outcome serde (settled records current) (key ++ ':' :: (s ++ ['\n']) ++ rest) =
        (parseTrioValue serde s).bind fun back =>
          outcome serde (settled records (current.insert (String.ofList key) back)) rest := by
    intro s hs
    have htext : key ++ ':' :: (s ++ ['\n']) ++ rest = key ++ ':' :: (s ++ '\n' :: rest) := by simp
    have hline : '\n' ∉ s := fun hmem => absurd (hs.solid _ hmem) (by decide)
    have htrim := trim_solidChars hs.solid
    rw [htext, outcome_named serde records current h hline (by rw [htrim]; exact hs.ne_nil), htrim]
  cases value with
  | arr items => exact hvalue.elim
  | obj fields => exact hvalue.elim
  | scalar value =>
    cases value with
    | null =>
      have htext : key ++ ":N\n".toList ++ rest = key ++ ':' :: (['N'] ++ '\n' :: rest) := by simp
      have hall := @outcome_named serde key records current rest h ['N'] (by decide) (by decide)
      change outcome serde _ (key ++ ":N\n".toList ++ rest) = _
      rw [htext, hall]
      rfl
    | bool b =>
      cases b with
      | false => cases hvalue
      | true =>
        have htext : key ++ ['\n'] ++ rest = key ++ '\n' :: rest := by simp
        change outcome serde _ (key ++ ['\n'] ++ rest) = _
        rw [htext, outcome_marker serde records current h]
        rfl
    | posInt n => exact hnumeral _ (numeral_nat _)
    | negInt n => exact hnumeral _ (numeral_neg (Int64.lt_iff_toInt_lt.1 hvalue))
    | float x => exact hvalue.elim
    | str s => exact outcome_string serde records current h s.toList hrest

theorem encodeTag_head {key : List Char} (h : TagName key) {value : Json} (hvalue : Plain value)
    (rest : List Char) : (encodeTag serde key value ++ rest).head? ≠ some ' ' := by
  have hstarts : ∃ more, encodeTag serde key value = key ++ more := by
    cases value with
    | arr items => exact hvalue.elim
    | obj fields => exact hvalue.elim
    | scalar value =>
      cases value with
      | null | posInt n | negInt n | float x => exact ⟨_, rfl⟩
      | bool b =>
        cases b with
        | false => cases hvalue
        | true => exact ⟨_, rfl⟩
      | str s =>
        change ∃ more, encodeString key s.toList = key ++ more
        unfold encodeString
        split_ifs
        · exact ⟨_, List.append_assoc _ _ _⟩
        · exact ⟨_, rfl⟩
  rcases hstarts with ⟨more, hmore⟩
  rw [hmore, List.append_assoc]
  exact h.head _

/-- Names that can stand on a line, and values of the kinds in question. -/
def PlainRecord (tags : Record) : Prop :=
  ∀ key value, tags.get key = some value → TagName key.toList ∧ Plain value

def writtenKeys (tags : Record) (keys : List String) : List Char :=
  keys.flatMap fun key =>
    match tags.get key with
    | some value => encodeTag serde key.toList value
    | none => []

def readKey (tags current : Record) (key : String) : Option Record :=
  match tags.get key with
  | some value => (readBack serde value).map (current.insert key)
  | none => some current

def readRecord (tags : Record) : Option Record :=
  (tags.keys.sort (· ≤ ·)).foldlM (readKey serde tags) Table.empty

variable {tags : Record}

theorem readKey_present {key : String} {value : Json} (h : tags.get key = some value)
    (current : Record) :
    readKey serde tags current key = (readBack serde value).map (current.insert key) := by
  unfold readKey
  rw [h]

theorem readKey_absent {key : String} (h : tags.get key = none) (current : Record) :
    readKey serde tags current key = some current := by
  unfold readKey
  rw [h]

theorem writtenKeys_head (h : PlainRecord tags) (keys : List String) {rest : List Char}
    (hrest : rest.head? ≠ some ' ') : (writtenKeys serde tags keys ++ rest).head? ≠ some ' ' := by
  induction keys with
  | nil => exact hrest
  | cons key keys ih =>
    unfold writtenKeys
    rw [List.flatMap_cons, List.append_assoc]
    cases hget : tags.get key with
    | none => exact ih
    | some value => exact encodeTag_head serde (h key value hget).1 (h key value hget).2 _

theorem outcome_keys (h : PlainRecord tags) (keys : List String) (records : List Record)
    (current : Record) {rest : List Char} (hrest : rest.head? ≠ some ' ') :
    outcome serde (settled records current) (writtenKeys serde tags keys ++ rest) =
      (keys.foldlM (readKey serde tags) current).bind fun back =>
        outcome serde (settled records back) rest := by
  induction keys generalizing current with
  | nil => rfl
  | cons key keys ih =>
    have hlater := writtenKeys_head serde h keys hrest
    rw [List.foldlM_cons]
    cases hget : tags.get key with
    | none =>
      have htext : writtenKeys serde tags (key :: keys) = writtenKeys serde tags keys := by
        simp [writtenKeys, hget]
      rw [htext, readKey_absent serde hget]
      exact ih current
    | some value =>
      have htext : writtenKeys serde tags (key :: keys) ++ rest =
          encodeTag serde key.toList value ++ (writtenKeys serde tags keys ++ rest) := by
        simp [writtenKeys, hget]
      have htag := outcome_tag serde (h key value hget).1 (h key value hget).2 records current
        hlater
      rw [htext, htag, String.ofList_toList, readKey_present serde hget]
      cases readBack serde value with
      | none => rfl
      | some back => exact ih (current.insert key back)

theorem outcome_record (h : PlainRecord tags) (records : List Record) {rest : List Char}
    (hrest : rest.head? ≠ some ' ') :
    outcome serde (settled records Table.empty) (encodeTrio serde tags ++ rest) =
      (readRecord serde tags).bind fun back => outcome serde (settled records back) rest :=
  outcome_keys serde h _ records Table.empty hrest

theorem outcome_blank (records : List Record) {current : Record} (h : current.size ≠ 0)
    (rest : List Char) :
    outcome serde (settled records current) ('\n' :: rest) =
      outcome serde (settled (records ++ [current]) Table.empty) rest := by
  have hline := @outcome_line serde [] List.not_mem_nil (settled records current) rest
  have hblank : decodeLine serde (settled records current) (stripCarriageReturn []) =
      some (settled records current).endRecord := rfl
  rw [List.nil_append] at hline
  rw [hline, hblank]
  unfold Decoding.endRecord
  rw [if_neg (show ¬ (settled records current).current.size = 0 from h)]
  rfl

theorem outcome_end (records : List Record) {current : Record} (h : current.size ≠ 0) :
    outcome serde (settled records current) [] = some (records ++ [current]) := by
  change some (settled records current).endRecord.records = _
  unfold Decoding.endRecord
  rw [if_neg (show ¬ (settled records current).current.size = 0 from h)]
  rfl

theorem readKeys_get {keys : List String} (hkeys : keys.Nodup) {current back : Record}
    (h : keys.foldlM (readKey serde tags) current = some back) :
    (∀ key ∈ keys, ∀ value, tags.get key = some value →
      back.get key = readBack serde value ∧ (back.get key).isSome) ∧
    ∀ key ∉ keys, back.get key = current.get key := by
  induction keys generalizing current with
  | nil =>
    cases h
    exact ⟨by simp, fun key _ => rfl⟩
  | cons key keys ih =>
    rw [List.nodup_cons] at hkeys
    rw [List.foldlM_cons] at h
    cases hget : tags.get key with
    | none =>
      rw [readKey_absent serde hget] at h
      have hrest := ih hkeys.2 h
      constructor
      · intro k hk value hvalue
        rcases List.mem_cons.1 hk with rfl | hmem
        · rw [hget] at hvalue
          cases hvalue
        · exact hrest.1 k hmem value hvalue
      · intro k hk
        exact hrest.2 k fun hmem => hk (List.mem_cons_of_mem _ hmem)
    | some value =>
      rw [readKey_present serde hget] at h
      cases hback : readBack serde value with
      | none =>
        rw [hback] at h
        cases h
      | some b =>
        rw [hback] at h
        have hrest := ih hkeys.2 h
        have hkey : back.get key = some b := by
          rw [hrest.2 key hkeys.1, Table.get_insert, if_pos rfl]
        constructor
        · intro k hk v hv
          rcases List.mem_cons.1 hk with rfl | hmem
          · rw [hget] at hv
            cases hv
            rw [hkey, hback]
            exact ⟨rfl, rfl⟩
          · exact hrest.1 k hmem v hv
        · intro k hk
          rw [List.mem_cons, not_or] at hk
          rw [hrest.2 k hk.2, Table.get_insert_ne _ _ hk.1]

theorem readKeys_total {keys : List String} (current : Record)
    (h : ∀ key value, tags.get key = some value → readBack serde value = some value) :
    ∃ back, keys.foldlM (readKey serde tags) current = some back := by
  induction keys generalizing current with
  | nil => exact ⟨current, rfl⟩
  | cons key keys ih =>
    rw [List.foldlM_cons]
    cases hget : tags.get key with
    | none =>
      rw [readKey_absent serde hget]
      exact ih current
    | some value =>
      rw [readKey_present serde hget, h key value hget]
      exact ih _

theorem readRecord_get {back : Record} (h : readRecord serde tags = some back) (key : String) :
    (∀ value, tags.get key = some value →
      back.get key = readBack serde value ∧ (back.get key).isSome) ∧
    (tags.get key = none → back.get key = none) := by
  have hall := readKeys_get serde (Finset.sort_nodup tags.keys (· ≤ ·)) h
  constructor
  · intro value hvalue
    exact hall.1 key ((Finset.mem_sort _).2 ((Table.mem_keys tags key).2 ⟨value, hvalue⟩)) value
      hvalue
  · intro hnone
    refine hall.2 key fun hmem => ?_
    exact (Table.get_eq_none_iff tags key).1 hnone ((Finset.mem_sort _).1 hmem)

theorem readRecord_iff (tags : Record) : readRecord serde tags = some tags ↔
    ∀ key value, tags.get key = some value → readBack serde value = some value := by
  constructor
  · intro h key value hvalue
    rw [← ((readRecord_get serde h key).1 value hvalue).1, hvalue]
  · intro h
    rcases readKeys_total serde Table.empty h with ⟨back, hback⟩
    have hsame : back = tags := by
      apply Finmap.ext_lookup
      intro key
      have hkey := readRecord_get serde hback key
      cases hget : tags.get key with
      | none => exact (hkey.2 hget).trans hget.symm
      | some value => exact ((hkey.1 value hget).1.trans (h key value hget)).trans hget.symm
    exact hback.trans (congrArg some hsame)

theorem readRecord_size {back : Record} (hne : tags.size ≠ 0)
    (h : readRecord serde tags = some back) : back.size ≠ 0 := by
  have hkeys : tags.keys.Nonempty := Finset.card_ne_zero.1 hne
  rcases hkeys with ⟨key, hkey⟩
  rcases (Table.mem_keys tags key).1 hkey with ⟨value, hvalue⟩
  have hback := ((readRecord_get serde h key).1 value hvalue).2
  exact Finset.card_ne_zero.2 ⟨key, (Table.mem_keys back key).2 (Option.isSome_iff_exists.1 hback)⟩

theorem outcome_records {rs : List Record} (h : ∀ tags ∈ rs, tags.size ≠ 0 ∧ PlainRecord tags)
    (records : List Record) :
    outcome serde (settled records Table.empty) (encodeTrioRecords serde rs) =
      (rs.mapM (readRecord serde)).map (records ++ ·) := by
  induction rs generalizing records with
  | nil =>
    change some records = some (records ++ [])
    rw [List.append_nil]
  | cons tags rs ih =>
    have htags := h tags List.mem_cons_self
    have hlater := ih fun t ht => h t (List.mem_cons_of_mem _ ht)
    cases rs with
    | nil =>
      have htext : encodeTrioRecords serde [tags] = encodeTrio serde tags ++ [] := by
        simp [encodeTrioRecords]
      rw [htext, outcome_record serde htags.2 records (by simp), List.mapM_cons]
      cases hback : readRecord serde tags with
      | none => rfl
      | some back => exact outcome_end serde records (readRecord_size serde htags.1 hback)
    | cons second rs =>
      have htext : encodeTrioRecords serde (tags :: second :: rs) =
          encodeTrio serde tags ++ '\n' :: encodeTrioRecords serde (second :: rs) := by
        simp [encodeTrioRecords]
      rw [htext, outcome_record serde htags.2 records (by simp), List.mapM_cons]
      cases hback : readRecord serde tags with
      | none => rfl
      | some back =>
        rw [Option.bind_some, outcome_blank serde records (readRecord_size serde htags.1 hback),
          hlater]
        cases (second :: rs).mapM (readRecord serde) with
        | none => rfl
        | some backs =>
          change some (records ++ [back] ++ backs) = some (records ++ back :: backs)
          rw [List.append_assoc, List.singleton_append]

theorem mapM_self {α : Type} {f : α → Option α} (as : List α) :
    as.mapM f = some as ↔ ∀ a ∈ as, f a = some a := by
  induction as with
  | nil => simp
  | cons a as ih =>
    rw [List.mapM_cons]
    cases hfa : f a with
    | none => simp [hfa]
    | some b =>
      cases hrest : as.mapM f with
      | none =>
        rw [hrest] at ih
        simpa [hrest, hfa] using fun _ => ih
      | some bs =>
        rw [hrest] at ih
        simp [hfa, ← ih]

theorem decode_encode_iff {rs : List Record}
    (h : ∀ tags ∈ rs, tags.size ≠ 0 ∧ PlainRecord tags) :
    decodeTrioRecords serde (encodeTrioRecords serde rs) = some rs ↔
      ∀ tags ∈ rs, ∀ key value, tags.get key = some value → readBack serde value = some value := by
  have hall := outcome_records serde h []
  change _ = Option.map id _ at hall
  rw [Option.map_id] at hall
  rw [decodeTrioRecords_eq, hall, id, mapM_self]
  exact forall₂_congr fun tags _ => readRecord_iff serde tags

end Records

end Sandstar.Trio
