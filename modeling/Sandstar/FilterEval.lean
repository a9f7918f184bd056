import Sandstar.DynSlots
import Sandstar.FilterGrammar
import Sandstar.SoxSlots

set_option autoImplicit false

/-!
# The filter evaluator

`matches_full` of `rest/filter.rs`: a filter over the fields of a channel, its
dynamic tags and the records its references lead to. Of the standard library
the Unicode lower case of a text and the reading of a decimal number are parameters.
-/
namespace Sandstar.Filter
open SoxSlots

section Values

/-- `str::to_lowercase` and `str::parse::<f64>`, a number by its bit pattern. -/
structure TextOps where
  toLowercase : String → String
  parseF64 : String → Option UInt64

def f64Epsilon : Float := Float.ofBits 0x3CB0000000000000

def cmpF64 (lhs : Float) (op : CmpOp) (rhs : Float) : Bool :=
  match op with
  | .eq => decide ((lhs - rhs).abs < f64Epsilon)
  | .ne => decide ((lhs - rhs).abs ≥ f64Epsilon)
  | .lt => decide (lhs < rhs)
  | .le => decide (lhs ≤ rhs)
  | .gt => decide (lhs > rhs)
  | .ge => decide (lhs ≥ rhs)

def eqIgnoreAsciiCase (a b : String) : Bool := a.toLower == b.toLower

def cmpStr (lhs : String) (op : CmpOp) (rhs : String) : Bool :=
  match op with
  | .eq => eqIgnoreAsciiCase lhs rhs
  | .ne => !eqIgnoreAsciiCase lhs rhs
  | .lt => decide (lhs < rhs)
  | .le => decide (lhs ≤ rhs)
  | .gt => decide (lhs > rhs)
  | .ge => decide (lhs ≥ rhs)

def cmpBool (lhs : Bool) (op : CmpOp) (rhs : Bool) : Bool :=
  match op with
  | .eq => lhs == rhs
  | .ne => lhs != rhs
  | _ => false

def containsText (s t : String) : Bool := s.toList.tails.any fun rest => t.toList.isPrefixOf rest

end Values

section Channel

variable (text : TextOps)

def hasTag (ch : ChannelInfo) (tag : String) : Bool :=
  match tag with
  | "point" => true
  | "enabled" => ch.enabled
  | "disabled" => !ch.enabled
  | "analog" | "Analog" => eqIgnoreAsciiCase ch.channelType "analog"
  | "digital" | "Digital" => eqIgnoreAsciiCase ch.channelType "digital"
  | "pwm" | "Pwm" => eqIgnoreAsciiCase ch.channelType "pwm"
  | "i2c" | "I2c" | "I2C" => eqIgnoreAsciiCase ch.channelType "i2c"
  | "uart" | "Uart" | "UART" => eqIgnoreAsciiCase ch.channelType "uart"
  | "virtual" | "Virtual" =>
    eqIgnoreAsciiCase ch.channelType "virtualanalog" ||
      eqIgnoreAsciiCase ch.channelType "virtualdigital"
  | "input" | "in" | "In" => eqIgnoreAsciiCase ch.direction "in"
  | "output" | "out" | "Out" => eqIgnoreAsciiCase ch.direction "out"
  | _ => containsText (text.toLowercase ch.label) (text.toLowercase tag)

def cmpNumField (field : Float) (op : CmpOp) : Value → Bool
  | .num bits => cmpF64 field op (Float.ofBits bits)
  | _ => false

def cmpStrField (field : String) (op : CmpOp) : Value → Bool
  | .str s => cmpStr field op s
  | _ => false

def cmpBoolField (field : Bool) (op : CmpOp) : Value → Bool
  | .bool b => cmpBool field op b
  | _ => false

def cmpTag (ch : ChannelInfo) (tag : String) (op : CmpOp) (value : Value) : Bool :=
  match tag with
  | "channel" | "id" => cmpNumField ch.id.toFloat op value
  | "cur" | "curVal" => cmpNumField (Float.ofBits ch.cur) op value
  | "raw" | "rawVal" => cmpNumField (Float.ofBits ch.raw) op value
  | "label" | "navName" | "dis" => cmpStrField ch.label op value
  | "type" | "channelType" => cmpStrField ch.channelType op value
  | "direction" => cmpStrField ch.direction op value
  | "enabled" => cmpBoolField ch.enabled op value
  | "status" => cmpStrField ch.status op value
  | _ => false

end Channel

section Tags

def hasDynTag (tags : Tags) (tag : String) : Bool :=
  match tags.get tag with
  | some .null => false
  | some _ => true
  | none => false

def cmpDynTag (text : TextOps) (tags : Tags) (tag : String) (op : CmpOp) (value : Value) : Bool :=
  match tags.get tag, value with
  | some (.int i), .num bits => cmpF64 i.toFloat op (Float.ofBits bits)
  | some (.float f), .num bits => cmpF64 (Float.ofBits f) op (Float.ofBits bits)
  | some (.str s), .str v => cmpStr s op v
  | some (.ref r), .str v => cmpStr r op v
  | some (.bool b), .bool v => cmpBool b op v
  | some (.str s), .num bits =>
    match text.parseF64 s with
    | some f => cmpF64 (Float.ofBits f) op (Float.ofBits bits)
    | none => false
  | _, _ => false

def getRefString (tag : String) (tags : Option Tags) : Option String :=
  match tags with
  | none => none
  | some tags =>
    match tags.get tag with
    | some (.ref r) => some r
    | some (.str s) => some s
    | _ => none

end Tags

section Evaluation

abbrev Pather := String → Option Tags

/-- The record a filter is evaluated against. -/
structure Record where
  channel : ChannelInfo
  tags : Option Tags
  pather : Option Pather

variable (text : TextOps)

def cmpSingle (ch : ChannelInfo) (tags : Option Tags) (tag : String) (op : CmpOp) (value : Value) :
    Bool :=
  if cmpTag ch tag op value then true
  else
    match tags with
    | some tags => cmpDynTag text tags tag op value
    | none => false

/-- `eval_path_cmp`: every segment but the last leads to another record's tags. -/
def evalPathCmp (ch : ChannelInfo) (pather : Option Pather) (op : CmpOp) (value : Value) :
    Option Tags → String → List String → Bool
  | tags, head, [] => cmpSingle text ch tags head op value
  | tags, head, next :: segments =>
    match pather with
    | none => false
    | some resolve =>
      match getRefString head tags with
      | none => false
      | some ref =>
        match resolve ref with
        | none => false
        | some nextTags => evalPathCmp ch pather op value (some nextTags) next segments

def matchesInner (r : Record) : Expr → Bool
  | .has tag => hasTag text r.channel tag || (r.tags.map fun t => hasDynTag t tag).getD false
  | .missing tag =>
    !hasTag text r.channel tag && (r.tags.map fun t => !hasDynTag t tag).getD true
  | .not inner => !matchesInner r inner
  | .cmp path op value =>
    evalPathCmp text r.channel r.pather op value r.tags path.head path.tail
  | .and left right => matchesInner r left && matchesInner r right
  | .or left right => matchesInner r left || matchesInner r right

theorem matchesInner_missing (r : Record) (tag : String) :
    matchesInner text r (.missing tag) = !matchesInner text r (.has tag) := by
  unfold matchesInner
  cases r.tags with
  | none => simp
  | some tags => simp

theorem matchesInner_negate (r : Record) (e : Expr) :
    matchesInner text r (negate e) = !matchesInner text r e := by
  cases e with
  | has tag => exact matchesInner_missing text r tag
  | _ => rfl

/-- The filter language as a whole: the parser accepts exactly the derivable token lists, with
    the tree of the derivation, and a tree means what its parts mean. -/
theorem filter_parsed_and_evaluated :
    (∀ tokens e, parseTokens tokens = .ok e ↔ Derives .expr maxParseDepth tokens e) ∧
      ∀ r e e', matchesInner text r (.and e e') = (matchesInner text r e && matchesInner text r e') ∧
        matchesInner text r (.or e e') = (matchesInner text r e || matchesInner text r e') ∧
        matchesInner text r (.not e) = !matchesInner text r e ∧
        matchesInner text r (negate e) = !matchesInner text r e ∧
        ∀ tag, matchesInner text r (.missing tag) = !matchesInner text r (.has tag) :=
  ⟨fun _ _ => parseTokens_eq_ok, fun r e _ => ⟨rfl, rfl, rfl, matchesInner_negate text r e,
    matchesInner_missing text r⟩⟩

end Evaluation

end Sandstar.Filter

/-!
# What a path through references depends on

`eval_path_cmp` follows a path to the record at its end, and compares there as it compares on
the channel itself: the fields of the channel first, then the tags of the record. So a field of
the channel answers for the record wherever it goes by the name of the last segment.
-/
namespace Sandstar.Filter

open SoxSlots

variable (text : TextOps) (pather : Option Pather) (op : CmpOp) (value : Value)

/-- The record at the end of a path and the last segment, from the reference that the first
    segment gives. -/
def finalRecord : Option String → String → List String → Option (Tags × String)
  | ref, next, segments =>
    match pather.bind fun resolve => ref.bind resolve, segments with
    | none, _ => none
    | some tags, [] => some (tags, next)
    | some tags, next' :: segments => finalRecord (getRefString next (some tags)) next' segments

theorem cmpSingle_some (ch : ChannelInfo) (tags : Tags) (tag : String) :
    cmpSingle text ch (some tags) tag op value =
      (cmpTag ch tag op value || cmpDynTag text tags tag op value) := by
  unfold cmpSingle
  cases cmpTag ch tag op value <;> rfl

theorem evalPathCmp_path (ch : ChannelInfo) (tags : Option Tags) (head next : String)
    (segments : List String) :
    evalPathCmp text ch pather op value tags head (next :: segments) =
      match finalRecord pather (getRefString head tags) next segments with
      | none => false
      | some (final, last) => cmpTag ch last op value || cmpDynTag text final last op value := by
  induction segments generalizing tags head next with
  | nil =>
    unfold evalPathCmp finalRecord
    cases pather with
    | none => rfl
    | some resolve =>
      cases getRefString head tags with
      | none => rfl
      | some ref =>
        cases hrecord : resolve ref with
        | none => simp [hrecord]
        | some record => simp [hrecord, evalPathCmp, cmpSingle_some]
  | cons next' segments ih =>
    unfold evalPathCmp finalRecord
    cases pather with
    | none => rfl
    | some resolve =>
      cases getRefString head tags with
      | none => rfl
      | some ref =>
        cases hrecord : resolve ref with
        | none => simp [hrecord]
        | some record => simpa [hrecord] using ih (some record) next next'

section Isolation

/-- Two channels that agree on the reference of the first segment get the same answer, whatever
    their fields and their other tags are. -/
def Isolated (head next : String) (segments : List String) (ref : Option String) : Prop :=
  ∀ r r' : Record, r.pather = pather → r'.pather = pather →
    getRefString head r.tags = ref → getRefString head r'.tags = ref →
    matchesInner text r (.cmp ⟨head, next :: segments⟩ op value) =
      matchesInner text r' (.cmp ⟨head, next :: segments⟩ op value)

def FieldFree (tag : String) : Prop :=
  ∀ ch ch' : ChannelInfo, cmpTag ch tag op value = cmpTag ch' tag op value

def fieldNames : List String :=
  ["channel", "id", "cur", "curVal", "raw", "rawVal", "label", "navName", "dis", "type",
    "channelType", "direction", "enabled", "status"]

theorem fieldFree_of_not_mem {tag : String} (h : tag ∉ fieldNames) : FieldFree op value tag := by
  have hnone : ∀ ch : ChannelInfo, cmpTag ch tag op value = false := by
    intro ch
    unfold cmpTag
    split <;> first | rfl | simp [fieldNames] at h
  intro ch ch'
  rw [hnone ch, hnone ch']

variable {text pather op value} {head next : String} {segments : List String}
  {ref : Option String}

/-- A record whose first segment is the given reference. -/
def referring (ch : ChannelInfo) (pather : Option Pather) (head : String) (ref : Option String) :
    Record :=
  ⟨ch, ref.map fun r => Table.empty.insert head (.ref r), pather⟩

theorem getRefString_referring (ch : ChannelInfo) :
    getRefString head (referring ch pather head ref).tags = ref := by
  cases ref with
  | none => rfl
  | some r => simp [referring, getRefString]

/-- A path is isolated exactly where it leads nowhere, where the record at its end passes the
    comparison by itself, or where no channel field bears on it. -/
theorem isolated_iff (head next : String) (segments : List String) (ref : Option String) :
    Isolated text pather op value head next segments ref ↔
      ∀ final last, finalRecord pather ref next segments = some (final, last) →
        cmpDynTag text final last op value = true ∨ FieldFree op value last := by
  have hmatches : ∀ r : Record, r.pather = pather → getRefString head r.tags = ref →
      matchesInner text r (.cmp ⟨head, next :: segments⟩ op value) =
        match finalRecord pather ref next segments with
        | none => false
        | some (final, last) =>
          cmpTag r.channel last op value || cmpDynTag text final last op value := by
    rintro r rfl rfl
    exact evalPathCmp_path text r.pather op value r.channel r.tags head next segments
  constructor
  · intro h final last hfinal
    by_cases hdyn : cmpDynTag text final last op value = true
    · exact Or.inl hdyn
    · refine Or.inr fun ch ch' => ?_
      have hsame := h (referring ch pather head ref) (referring ch' pather head ref) rfl rfl
        (getRefString_referring ch) (getRefString_referring ch')
      rw [hmatches _ rfl (getRefString_referring ch), hmatches _ rfl (getRefString_referring ch'),
        hfinal] at hsame
      simpa [hdyn, referring] using hsame
  · intro h r r' hr hr' href href'
    rw [hmatches r hr href, hmatches r' hr' href']
    cases hfinal : finalRecord pather ref next segments with
    | none => rfl
    | some found =>
      obtain ⟨final, last⟩ := found
      rcases h final last hfinal with hdyn | hfree
      · simp only [hdyn, Bool.or_true]
      · simp only [hfree r.channel r'.channel]

end Isolation

section Leak

def plainChannel (enabled : Bool) : ChannelInfo where
  id := 1
  label := "Fan"
  channelType := "digital"
  direction := "out"
  enabled := enabled
  status := "ok"
  cur := 0
  raw := 0

/-- A site that says nothing of being enabled. -/
def siteOnly : Pather := fun ref => if ref = "site" then some Table.empty else none

def plainText : TextOps := ⟨id, fun _ => none⟩

/-- `siteRef->enabled==true` of two channels of one site answers with their own fields. -/
theorem path_leaks_field :
    ¬Isolated plainText (some siteOnly) .eq (.bool true) "siteRef" "enabled" [] (some "site") ∧
    matchesInner plainText (referring (plainChannel true) (some siteOnly) "siteRef" (some "site"))
      (.cmp ⟨"siteRef", ["enabled"]⟩ .eq (.bool true)) = true ∧
    matchesInner plainText (referring (plainChannel false) (some siteOnly) "siteRef" (some "site"))
      (.cmp ⟨"siteRef", ["enabled"]⟩ .eq (.bool true)) = false := by
  have hmatches : ∀ enabled,
      matchesInner plainText (referring (plainChannel enabled) (some siteOnly) "siteRef" (some "site"))
        (.cmp ⟨"siteRef", ["enabled"]⟩ .eq (.bool true)) = enabled := by
    intro enabled
    cases enabled <;> rfl
  refine ⟨fun h => ?_, hmatches true, hmatches false⟩
  have hsame := h (referring (plainChannel true) (some siteOnly) "siteRef" (some "site"))
    (referring (plainChannel false) (some siteOnly) "siteRef" (some "site")) rfl rfl rfl rfl
  rw [hmatches, hmatches] at hsame
  cases hsame

end Leak

end Sandstar.Filter
