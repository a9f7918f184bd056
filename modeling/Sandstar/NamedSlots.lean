import Sandstar.ComponentTick

set_option autoImplicit false

/-!
# Slot names and slot positions (sox_handlers.rs)

`default_slots_for_type` lays a block's slots out by name, `execute_components` addresses
them by position. What a block is documented to compute is stated here on the names, and
compared with what an execution leaves in the slots.
-/
namespace Sandstar.NamedSlots
open ComponentTree SoxProtocol SoxSlots

section Values

theorem slotValueEq_comm (a b : SlotValue) : slotValueEq a b = slotValueEq b a := by
  cases a <;> cases b <;> simp only [slotValueEq, eq_comm]
  · rename_i x y
    rw [UInt32.or_comm x y, Bool.and_comm (!isNan32 x)]
  · rename_i x y
    rw [UInt64.or_comm x y, Bool.and_comm (!isNan64 x)]

theorem zeros32 {a b m : UInt32} : (a ||| b) &&& m = 0 ↔ a &&& m = 0 ∧ b &&& m = 0 := by
  rw [← UInt32.or_eq_zero_iff]
  simp only [← UInt32.toBitVec_inj]
  simp [BitVec.and_or_distrib_right]

theorem zeros64 {a b m : UInt64} : (a ||| b) &&& m = 0 ↔ a &&& m = 0 ∧ b &&& m = 0 := by
  rw [← UInt64.or_eq_zero_iff]
  simp only [← UInt64.toBitVec_inj]
  simp [BitVec.and_or_distrib_right]

theorem slotValueEq_trans {a b c : SlotValue} (hab : slotValueEq a b = true)
    (hbc : slotValueEq b c = true) : slotValueEq a c = true := by
  cases a <;> cases b <;> cases c <;> simp only [slotValueEq, decide_eq_true_eq, reduceCtorEq,
    Bool.and_eq_true, Bool.or_eq_true, zeros32, zeros64, SlotValue.int.injEq] at hab hbc ⊢
  all_goals grind

/-- The second value is the first, or equal to it as the slots' values are compared. -/
def Shows (v w : SlotValue) : Prop := w = v ∨ slotValueEq w v = true

instance (v w : SlotValue) : Decidable (Shows v w) := inferInstanceAs (Decidable (_ ∨ _))

theorem Shows.trans {u v w : SlotValue} (h : Shows u v) (h' : Shows v w) : Shows u w := by
  rcases h' with rfl | h'
  · exact h
  · rcases h with rfl | h
    · exact .inr h'
    · exact .inr (slotValueEq_trans h' h)

theorem Shows.symm {v w : SlotValue} (h : Shows v w) : Shows w v := by
  rcases h with rfl | h
  · exact .inl rfl
  · rw [slotValueEq_comm] at h
    exact .inr h

theorem shows_put (v : SlotValue) (s : VirtualSlot) : Shows v (put v s).value := by
  unfold put
  split_ifs with heq
  · exact .inr heq
  · exact .inl rfl

theorem put_eq_iff (v : SlotValue) (s : VirtualSlot) : put v s = s ↔ Shows v s.value := by
  unfold put Shows
  split_ifs with heq
  · simp [heq]
  · constructor
    · intro h
      exact .inl (congrArg VirtualSlot.value h).symm
    · rintro (rfl | h)
      · rfl
      · exact absurd h heq

theorem shows_put_iff (d v : SlotValue) (s : VirtualSlot) :
    Shows d (put v s).value ↔ Shows d v := by
  have hput := shows_put v s
  constructor
  · intro hd
    exact hd.trans hput.symm
  · intro hd
    exact hd.trans hput

/-- Two values put one after the other leave a slot as it was if the second is there
    already, or both show. -/
theorem put_put_eq_iff (d v : SlotValue) (s : VirtualSlot) : put v (put d s) = s ↔
    s.value = v ∨ slotValueEq s.value v = true ∧ Shows d s.value := by
  by_cases hd : Shows d s.value
  · rw [(put_eq_iff d s).2 hd, put_eq_iff]
    simp only [hd, and_true]
    rfl
  · have hput : put d s = setValue d s := if_neg fun heq => hd (.inr heq)
    simp only [hd, and_false, or_false]
    constructor
    · intro h
      have hvalue := congrArg VirtualSlot.value h
      rw [hput] at hvalue
      unfold put at hvalue
      split_ifs at hvalue
      · exact absurd (.inl hvalue.symm) hd
      · exact hvalue.symm
    · rintro rfl
      have hne : ¬ slotValueEq d s.value = true := fun heq =>
        hd (.inr (slotValueEq_comm _ _ ▸ heq))
      rw [hput]
      exact if_neg hne

end Values

section Documented

def named (c : VirtualComponent) (name : String) : Option SlotValue :=
  (c.slots.find? fun s => s.name = name).map VirtualSlot.value

def namedFloat (c : VirtualComponent) (name : String) : Float32 :=
  match named c name with
  | some (.float bits) => Float32.ofBits bits
  | some (.int v) => v.toFloat32
  | _ => 0

def namedBool (c : VirtualComponent) (name : String) : Bool :=
  match named c name with
  | some (.bool v) => v
  | _ => false

def namedInt (c : VirtualComponent) (name : String) : Int32 :=
  match named c name with
  | some (.int v) => v
  | some (.float bits) => (Float32.ofBits bits).toInt32
  | _ => 0

def passed (c : VirtualComponent) (name : String) : SlotValue :=
  match c.typeId.toNat with
  | 57 => .float (namedFloat c name).toBits
  | 56 => .bool (namedBool c name)
  | _ => .int (namedInt c name)

def isWrite (c : VirtualComponent) : Bool :=
  c.kitId = 2 && c.typeId.toNat ∈ [57, 56, 58]

/-- What the comments beside a block's evaluation say of its outputs. A constant has
    none of its own, but one of kind float is brought the channel it is named after. -/
def outputs (t : ComponentTree) (order : List UInt16) (c : VirtualComponent) :
    List (String × SlotValue) :=
  let in1 := namedFloat c "in1"
  let in2 := namedFloat c "in2"
  if c.kitId = 2 then
    match c.typeId.toNat with
    | 3 => [("out", .float (in1 + in2).toBits)]
    | 49 => [("out", .float (in1 - in2).toBits)]
    | 37 => [("out", .float (in1 * in2).toBits)]
    | 18 =>
      let div0 := in2 == 0
      [("out", .float (if div0 then 0 else in1 / in2).toBits), ("div0", .bool div0)]
    | 57 | 56 | 58 => [("out", passed c "in")]
    | 14 => (sensed t order c).toList.map fun v => ("out", v)
    | _ => []
  else if isChannelRead c ∧ 0 < namedInt c "channelId" then
    (channelValue (beforeRead order (t.reads order) (t.evaluatedTree order) c.compId) order
      (namedInt c "channelId")).toList.map fun v => ("out", v)
  else []

def Met (outputs : List (String × SlotValue)) (s s' : VirtualSlot) : Prop :=
  s'.name = s.name ∧ match outputs.lookup s.name with
    | some v => Shows v s'.value
    | none => s' = s

def OnNamedSlots (t : ComponentTree) (order : List UInt16) (c : VirtualComponent) : Prop :=
  ∃ c', (t.executeComponents order).1.get c.compId = some c' ∧
    List.Forall₂ (Met (outputs t order c)) c.slots c'.slots

/-- The component's slots have the names that its type's layout gives them. -/
def Laid (c : VirtualComponent) : Prop :=
  c.slots.map VirtualSlot.name =
    (defaultSlotsForType c.kitId c.typeId).map VirtualSlot.name

instance (c : VirtualComponent) : Decidable (Laid c) := inferInstanceAs (Decidable (_ = _))

/-- What has to hold before an execution. A write block that passes its value the wrong
    way round needs both slots to show what the other passes on; a bridge that brings a
    channel's value to the second slot needs it to be there, or to be computed there. -/
def InPlace (t : ComponentTree) (order : List UInt16) (c : VirtualComponent) : Prop :=
  if isWrite c then
    (∀ s ∈ c.slots, s.name = "out" → Shows (passed c "in") s.value) ∧
    ∀ s ∈ c.slots, s.name = "in" → match sensed t order c with
      | none => Shows (passed c "out") s.value
      | some v => s.value = v ∨ slotValueEq s.value v = true ∧ Shows (passed c "out") s.value
  else ∀ v, sensed t order c = some v → ∀ s ∈ c.slots, s.name = "out" →
    match (outputs t order c).lookup "out" with
    | some d => Shows d v
    | none => Shows v s.value

end Documented

section Execution

variable {t : ComponentTree} {order : List UInt16} {c : VirtualComponent}

def pulled (v : Option SlotValue) (s : VirtualSlot) : VirtualSlot := v.elim s fun v => put v s

theorem readSlots_eq (t : ComponentTree) (order : List UInt16) (c : VirtualComponent) :
    readSlots t order c =
      pull (sensed t order c) (if isChannelRead c then 2 else 1) (evaluatedSlots t c) := by
  unfold readSlots
  cases hread : readOf t c with
  | none => simp [sensed, hread, pull]
  | some b =>
    rcases readOf_cases hread with ⟨hchannel, -, rfl⟩ | ⟨hchannel, -, ch, -, -, rfl⟩
    · simp [hchannel]
    · simp [hchannel]

theorem pull_one (v : Option SlotValue) (s₀ s₁ : VirtualSlot) (rest : List VirtualSlot) :
    pull v 1 (s₀ :: s₁ :: rest) = s₀ :: pulled v s₁ :: rest := by
  cases v <;> rfl

theorem pull_two (v : Option SlotValue) (s₀ s₁ s₂ : VirtualSlot) (rest : List VirtualSlot) :
    pull v 2 (s₀ :: s₁ :: s₂ :: rest) = s₀ :: s₁ :: pulled v s₂ :: rest := by
  cases v <;> rfl

theorem onNamedSlots_iff (h : Enumerates order t) (hget : t.get c.compId = some c)
    (hshort : c.slots.length ≤ 6) : OnNamedSlots t order c ↔
      List.Forall₂ (Met (outputs t order c)) c.slots (readSlots t order c) := by
  have hlength : (readSlots t order c).length = c.slots.length := by
    rw [readSlots_eq]
    have hpull : ∀ v idx (slots : List VirtualSlot), (pull v idx slots).length = slots.length := by
      intro v idx slots
      cases v with
      | none => rfl
      | some v => exact List.length_modify _ _ _
    rw [hpull]
    unfold evaluatedSlots
    split_ifs
    · exact stored_length _ _
    · rfl
  unfold OnNamedSlots
  rw [get_executeComponents_short h hget (hlength.trans_le hshort)]
  simp

theorem met_same {outs : List (String × SlotValue)} {s : VirtualSlot}
    (h : outs.lookup s.name = none) : Met outs s s := ⟨rfl, by rw [h]⟩

theorem pulled_name (v : Option SlotValue) (s : VirtualSlot) : (pulled v s).name = s.name := by
  cases v with
  | none => rfl
  | some v => exact put_name v s

theorem met_sensed {outs : List (String × SlotValue)} {s : VirtualSlot} {v : Option SlotValue}
    (h : outs.lookup s.name = v) : Met outs s (pulled v s) := by
  refine ⟨pulled_name v s, ?_⟩
  rw [h]
  cases v with
  | none => rfl
  | some v => exact shows_put v s

theorem met_kept_iff {outs : List (String × SlotValue)} {s : VirtualSlot}
    (h : outs.lookup s.name = none) (v : Option SlotValue) :
    Met outs s (pulled v s) ↔ ∀ w, v = some w → Shows w s.value := by
  unfold Met
  rw [h]
  cases v with
  | none => simp [pulled]
  | some v => simp [pulled, put_eq_iff]

/-- A slot that has its output stored before a bridge brings a value. -/
theorem met_computed_iff {outs : List (String × SlotValue)} {s : VirtualSlot} {d : SlotValue}
    (h : outs.lookup s.name = some d) (v : Option SlotValue) :
    Met outs s (pulled v (put d s)) ↔ ∀ w, v = some w → Shows d w := by
  unfold Met
  rw [h]
  cases v with
  | none => simp [pulled, shows_put]
  | some v => simp [pulled, shows_put_iff]

theorem met_overwritten_iff {outs : List (String × SlotValue)} {s : VirtualSlot}
    (h : outs.lookup s.name = none) (d : SlotValue) (v : Option SlotValue) :
    Met outs s (pulled v (put d s)) ↔ match v with
      | none => Shows d s.value
      | some v => s.value = v ∨ slotValueEq s.value v = true ∧ Shows d s.value := by
  unfold Met
  rw [h]
  cases v with
  | none => simp [pulled, put_eq_iff]
  | some v => simp [pulled, put_put_eq_iff]

theorem two_slots {slots : List VirtualSlot} {n₀ n₁ : String} {ns : List String}
    (h : slots.map VirtualSlot.name = n₀ :: n₁ :: ns) : ∃ s₀ s₁ rest,
      slots = s₀ :: s₁ :: rest ∧ s₀.name = n₀ ∧ s₁.name = n₁ ∧ rest.map VirtualSlot.name = ns := by
  obtain ⟨s₀, rest, rfl, h₀, h⟩ := List.map_eq_cons_iff.1 h
  obtain ⟨s₁, rest, rfl, h₁, h⟩ := List.map_eq_cons_iff.1 h
  exact ⟨s₀, s₁, rest, rfl, h₀, h₁, h⟩

theorem met_rest {outs : List (String × SlotValue)} {rest : List VirtualSlot}
    (h : ∀ n ∈ rest.map VirtualSlot.name, outs.lookup n = none) :
    List.Forall₂ (Met outs) rest rest :=
  List.forall₂_same.2 fun _ hs => met_same (h _ (List.mem_map_of_mem hs))

theorem forall_named_iff {slots : List VirtualSlot} {s : VirtualSlot} {n : String}
    {P : VirtualSlot → Prop} (hs : s ∈ slots) (hname : s.name = n)
    (honly : ∀ s' ∈ slots, s'.name = n → s' = s) :
    (∀ s ∈ slots, s.name = n → P s) ↔ P s := by
  constructor
  · intro h
    exact h s hs hname
  · intro h s' hs' hname'
    rw [honly s' hs' hname']
    exact h

theorem lookup_single (v : Option SlotValue) (n : String) :
    (v.toList.map fun v => ("out", v)).lookup n = if n = "out" then v else none := by
  cases v with
  | none => simp
  | some v =>
    by_cases hn : n = "out"
    · simp [hn]
    · simp [hn, List.lookup, beq_false_of_ne hn]

/-- No block computes its first slot. -/
theorem outputs_meta (t : ComponentTree) (order : List UInt16) (c : VirtualComponent) :
    (outputs t order c).lookup "meta" = none := by
  unfold outputs
  dsimp only
  by_cases hkit : c.kitId = 2
  · rw [if_pos hkit]
    split
    all_goals first | rfl | skip
    rw [lookup_single]
    rfl
  · rw [if_neg hkit]
    split_ifs
    · rw [lookup_single]
      rfl
    · rfl

/-- The condition on a block whose second slot alone is named out. -/
theorem inPlace_iff (hwrite : isWrite c = false) {s₀ s₁ : VirtualSlot} {rest : List VirtualSlot}
    (hslots : c.slots = s₀ :: s₁ :: rest) (h₀ : s₀.name = "meta") (h₁ : s₁.name = "out")
    (hrest : "out" ∉ rest.map VirtualSlot.name) : InPlace t order c ↔
      ∀ v, sensed t order c = some v → match (outputs t order c).lookup "out" with
        | some d => Shows d v
        | none => Shows v s₁.value := by
  have hnot : ∀ s ∈ rest, s.name ≠ "out" := fun s hs hname =>
    hrest (hname ▸ List.mem_map_of_mem hs)
  have hmeta : s₀.name ≠ "out" := by
    rw [h₀]
    decide
  unfold InPlace
  rw [if_neg (by rw [hwrite]; decide), hslots]
  refine forall_congr' fun v => forall_congr' fun _ => forall_named_iff (by simp) h₁ ?_
  simp +contextual [hmeta, hnot]

theorem constant_iff (houts : outputs t order c = []) (hwrite : isWrite c = false)
    (hread : isChannelRead c = false) (hidle : isEvaluated c = false) {ns : List String}
    (hlaid : c.slots.map VirtualSlot.name = "meta" :: "out" :: ns) (hns : "out" ∉ ns) :
    List.Forall₂ (Met (outputs t order c)) c.slots (readSlots t order c) ↔ InPlace t order c := by
  obtain ⟨s₀, s₁, rest, hslots, h₀, h₁, hrest⟩ := two_slots hlaid
  have hsame : evaluatedSlots t c = c.slots := if_neg (by rw [hidle]; decide)
  rw [inPlace_iff hwrite hslots h₀ h₁ (hrest ▸ hns), readSlots_eq, hsame, hread, hslots, houts]
  simp only [Bool.false_eq_true, if_false, pull_one, List.forall₂_cons]
  rw [met_kept_iff rfl]
  have hothers : List.Forall₂ (Met []) rest rest := met_rest fun _ _ => rfl
  have hmeta : Met [] s₀ s₀ := met_same rfl
  exact ⟨fun h => h.2.1, fun h => ⟨hmeta, h, hothers⟩⟩

/-- A block that stores its output before a bridge brings a value. -/
theorem computed_iff {d : SlotValue} {s₀ s₁ : VirtualSlot} {rest rest' : List VirtualSlot}
    (hwrite : isWrite c = false) (hread : isChannelRead c = false)
    (hslots : c.slots = s₀ :: s₁ :: rest) (h₀ : s₀.name = "meta") (h₁ : s₁.name = "out")
    (hrest : "out" ∉ rest.map VirtualSlot.name)
    (hout : (outputs t order c).lookup "out" = some d)
    (hstored : evaluatedSlots t c = s₀ :: put d s₁ :: rest')
    (hothers : List.Forall₂ (Met (outputs t order c)) rest rest') :
    List.Forall₂ (Met (outputs t order c)) c.slots (readSlots t order c) ↔ InPlace t order c := by
  have hmeta : Met (outputs t order c) s₀ s₀ := met_same (h₀ ▸ outputs_meta t order c)
  rw [inPlace_iff hwrite hslots h₀ h₁ hrest, readSlots_eq, hstored, hread, hslots, hout]
  simp only [Bool.false_eq_true, if_false, pull_one, List.forall₂_cons]
  rw [met_computed_iff (by rw [h₁]; exact hout)]
  exact ⟨fun h => h.2.1, fun h => ⟨hmeta, h, hothers⟩⟩

section Sensing

variable (houts : outputs t order c = (sensed t order c).toList.map fun v => ("out", v))
include houts

theorem lookup_sensed (n : String) :
    (outputs t order c).lookup n = if n = "out" then sensed t order c else none := by
  rw [houts, lookup_single]

/-- A block whose only output is the value that its bridge brings. -/
theorem inPlace_sensed (hwrite : isWrite c = false) : InPlace t order c := by
  unfold InPlace
  rw [if_neg (by rw [hwrite]; decide)]
  intro v hv s hs hname
  rw [lookup_sensed houts, if_pos rfl, hv]
  exact .inl rfl

end Sensing

variable (t order) in
theorem constFloat_met (hkit : c.kitId = 2) (htype : c.typeId = 14) (hlaid : Laid c) :
    List.Forall₂ (Met (outputs t order c)) c.slots (readSlots t order c) ∧
      InPlace t order c := by
  have hnames : c.slots.map VirtualSlot.name = ["meta", "out", "set", "setNull"] := by
    rw [hlaid, hkit, htype]
    decide
  obtain ⟨s₀, s₁, rest, hslots, h₀, h₁, hrest⟩ := two_slots hnames
  have houts : outputs t order c = (sensed t order c).toList.map fun v => ("out", v) := by
    simp [outputs, hkit, htype]
  have hlookup := lookup_sensed houts
  have hwrite : isWrite c = false := by simp [isWrite, hkit, htype]
  have hread : isChannelRead c = false := by simp [isChannelRead, hkit]
  have hidle : isEvaluated c = false := by simp [isEvaluated, hkit, htype]
  have hsame : evaluatedSlots t c = c.slots := if_neg (by rw [hidle]; decide)
  refine ⟨?_, inPlace_sensed houts hwrite⟩
  rw [readSlots_eq, hsame, hread, hslots]
  simp only [Bool.false_eq_true, if_false, pull_one, List.forall₂_cons]
  refine ⟨met_same ?_, met_sensed ?_, met_rest ?_⟩
  · rw [hlookup, h₀]
    rfl
  · rw [hlookup, h₁]
    rfl
  · simp [hrest, hlookup]

theorem find_named {slots : List VirtualSlot} {name : String}
    (h : name ∈ slots.map VirtualSlot.name) :
    (slots.find? fun s => s.name = name) = slots[(slots.map VirtualSlot.name).idxOf name]? := by
  induction slots with
  | nil => exact absurd h List.not_mem_nil
  | cons s slots ih =>
    rw [List.map_cons, List.find?_cons, List.idxOf_cons]
    by_cases hs : s.name = name
    · simp [hs]
    · have hrest : name ∈ slots.map VirtualSlot.name :=
        (List.mem_cons.1 h).resolve_left fun heq => hs heq.symm
      simp [hs, beq_false_of_ne hs, ih hrest]

theorem named_eq {names : List String} (h : c.slots.map VirtualSlot.name = names)
    {name : String} (hname : name ∈ names) :
    named c name = c.slots[names.idxOf name]?.map VirtualSlot.value := by
  subst h
  rw [named, find_named hname]

theorem namedFloat_eq {names : List String} (h : c.slots.map VirtualSlot.name = names)
    {name : String} (hname : name ∈ names) :
    namedFloat c name = getFloat c.slots (names.idxOf name) := by
  unfold namedFloat getFloat
  rewrite [named_eq h hname]
  rfl

theorem namedBool_eq {names : List String} (h : c.slots.map VirtualSlot.name = names)
    {name : String} (hname : name ∈ names) :
    namedBool c name = getBool c.slots (names.idxOf name) := by
  unfold namedBool getBool
  rewrite [named_eq h hname]
  rfl

theorem namedInt_eq {names : List String} (h : c.slots.map VirtualSlot.name = names)
    {name : String} (hname : name ∈ names) :
    namedInt c name = getInt c.slots (names.idxOf name) := by
  unfold namedInt getInt
  rewrite [named_eq h hname]
  rfl

theorem binary_iff (hkit : c.kitId = 2)
    (htype : c.typeId = 3 ∨ c.typeId = 49 ∨ c.typeId = 37) (hlaid : Laid c) :
    List.Forall₂ (Met (outputs t order c)) c.slots (readSlots t order c) ↔ InPlace t order c := by
  have hnames : c.slots.map VirtualSlot.name = ["meta", "out", "in1", "in2"] := by
    rw [hlaid, hkit]
    rcases htype with htype | htype | htype <;> rw [htype] <;> decide
  obtain ⟨s₀, s₁, rest, hslots, h₀, h₁, hrest⟩ := two_slots hnames
  have hin1 : namedFloat c "in1" = getFloat c.slots 2 := namedFloat_eq hnames (by decide)
  have hin2 : namedFloat c "in2" = getFloat c.slots 3 := namedFloat_eq hnames (by decide)
  obtain ⟨d, houts, hevaluate, hevaluated⟩ : ∃ d, outputs t order c = [("out", d)] ∧
      (evaluate c (t.componentState.get c.compId)).1 = [(1, d)] ∧ isEvaluated c = true := by
    rcases htype with htype | htype | htype <;>
      simp [outputs, evaluate, evaluatePure, floatOut, isEvaluated, hkit, htype, hin1, hin2]
  have hwrite : isWrite c = false := by
    rcases htype with htype | htype | htype <;> simp [isWrite, htype]
  have hread : isChannelRead c = false := by simp [isChannelRead, hkit]
  have hstored : evaluatedSlots t c = s₀ :: put d s₁ :: rest := by
    rw [evaluatedSlots, if_pos hevaluated, hevaluate, hslots]
    rfl
  refine computed_iff hwrite hread hslots h₀ h₁ (by rw [hrest]; decide) (by rw [houts]; rfl)
    hstored (met_rest ?_)
  rw [hrest, houts]
  simp [List.lookup]

theorem div2_iff (hkit : c.kitId = 2) (htype : c.typeId = 18) (hlaid : Laid c) :
    List.Forall₂ (Met (outputs t order c)) c.slots (readSlots t order c) ↔ InPlace t order c := by
  have hnames : c.slots.map VirtualSlot.name = ["meta", "out", "in1", "in2", "div0"] := by
    rw [hlaid, hkit, htype]
    decide
  obtain ⟨s₀, s₁, rest, hslots, h₀, h₁, hrest⟩ := two_slots hnames
  obtain ⟨s₂, s₃, rest, rfl, h₂, h₃, hrest⟩ := two_slots hrest
  obtain ⟨s₄, rest, rfl, h₄, hrest⟩ := List.map_eq_cons_iff.1 hrest
  obtain rfl := List.map_eq_nil_iff.1 hrest
  have hin1 : namedFloat c "in1" = getFloat c.slots 2 := namedFloat_eq hnames (by decide)
  have hin2 : namedFloat c "in2" = getFloat c.slots 3 := namedFloat_eq hnames (by decide)
  obtain ⟨d, b, houts, hevaluate⟩ : ∃ d b, outputs t order c = [("out", d), ("div0", b)] ∧
      (evaluate c (t.componentState.get c.compId)).1 = [(1, d), (4, b)] := by
    simp [outputs, evaluate, evaluatePure, floatOut, boolOut, hkit, htype, hin1, hin2]
  have hevaluated : isEvaluated c = true := by simp [isEvaluated, hkit, htype]
  have hwrite : isWrite c = false := by simp [isWrite, htype]
  have hread : isChannelRead c = false := by simp [isChannelRead, hkit]
  have hstored : evaluatedSlots t c = [s₀, put d s₁, s₂, s₃, put b s₄] := by
    rw [evaluatedSlots, if_pos hevaluated, hevaluate, hslots]
    rfl
  refine computed_iff hwrite hread hslots h₀ h₁ (by simp [h₂, h₃, h₄]) (by rw [houts]; rfl)
    hstored ?_
  rw [houts]
  have hin1' : Met [("out", d), ("div0", b)] s₂ s₂ := met_same (by rw [h₂]; rfl)
  have hin2' : Met [("out", d), ("div0", b)] s₃ s₃ := met_same (by rw [h₃]; rfl)
  have hflag : Met [("out", d), ("div0", b)] s₄ (put b s₄) := by
    refine ⟨put_name b s₄, ?_⟩
    rw [h₄]
    exact shows_put b s₄
  exact .cons hin1' (.cons hin2' (.cons hflag .nil))

/-- WriteFloat, WriteBool and WriteInt pass their value from the third slot to the second,
    which the layout names out and in. -/
theorem write_iff (hkit : c.kitId = 2)
    (htype : c.typeId = 57 ∨ c.typeId = 56 ∨ c.typeId = 58) (hlaid : Laid c) :
    List.Forall₂ (Met (outputs t order c)) c.slots (readSlots t order c) ↔ InPlace t order c := by
  obtain ⟨ns, hnames, hns⟩ : ∃ ns, c.slots.map VirtualSlot.name = "meta" :: "in" :: "out" :: ns ∧
      "in" ∉ ns ∧ "out" ∉ ns := by
    rw [hlaid, hkit]
    rcases htype with htype | htype | htype <;> rw [htype]
    · exact ⟨["set", "setNull"], by decide⟩
    · exact ⟨["setTrue", "setFalse", "setNull"], by decide⟩
    · exact ⟨["set"], by decide⟩
  obtain ⟨s₀, s₁, rest, hslots, h₀, h₁, hrest⟩ := two_slots hnames
  obtain ⟨s₂, rest, rfl, h₂, hrest⟩ := List.map_eq_cons_iff.1 hrest
  have houtIdx : ("meta" :: "in" :: "out" :: ns).idxOf "out" = 2 := by simp
  have hpassed : (evaluate c (t.componentState.get c.compId)).1 = [(1, passed c "out")] := by
    have hmem : "out" ∈ "meta" :: "in" :: "out" :: ns := by simp
    have hfloat := namedFloat_eq hnames hmem
    have hbool := namedBool_eq hnames hmem
    have hint := namedInt_eq hnames hmem
    rw [houtIdx] at hfloat hbool hint
    rcases htype with htype | htype | htype <;>
      simp [evaluate, evaluatePure, floatOut, boolOut, intOut, passed, htype, hfloat, hbool, hint]
  have houts : outputs t order c = [("out", passed c "in")] := by
    rcases htype with htype | htype | htype <;> simp [outputs, hkit, htype]
  have hevaluated : isEvaluated c = true := by
    rcases htype with htype | htype | htype <;> simp [isEvaluated, hkit, htype]
  have hwrite : isWrite c = true := by
    rcases htype with htype | htype | htype <;> simp [isWrite, hkit, htype]
  have hread : isChannelRead c = false := by simp [isChannelRead, hkit]
  have hstored : evaluatedSlots t c = s₀ :: put (passed c "out") s₁ :: s₂ :: rest := by
    rw [evaluatedSlots, if_pos hevaluated, hpassed, hslots]
    rfl
  have hnot : ∀ s ∈ rest, s.name ≠ "in" ∧ s.name ≠ "out" := by
    intro s hs
    have hname : s.name ∈ ns := hrest ▸ List.mem_map_of_mem hs
    exact ⟨fun heq => hns.1 (heq ▸ hname), fun heq => hns.2 (heq ▸ hname)⟩
  have hlookup : ∀ n ∈ ns, [("out", passed c "in")].lookup n = none := by
    intro n hn
    have hne : n ≠ "out" := fun heq => hns.2 (heq ▸ hn)
    simp [List.lookup, beq_false_of_ne hne]
  have hmeta : Met [("out", passed c "in")] s₀ s₀ := met_same (by rw [h₀]; rfl)
  have hothers : List.Forall₂ (Met [("out", passed c "in")]) rest rest :=
    met_rest (hrest ▸ hlookup)
  have hout : Met [("out", passed c "in")] s₂ s₂ ↔ Shows (passed c "in") s₂.value := by
    simp [Met, h₂]
  have hplace : InPlace t order c ↔ Shows (passed c "in") s₂.value ∧ match sensed t order c with
      | none => Shows (passed c "out") s₁.value
      | some v => s₁.value = v ∨
          slotValueEq s₁.value v = true ∧ Shows (passed c "out") s₁.value := by
    unfold InPlace
    rw [if_pos hwrite, hslots]
    have honly : ∀ n, n = "in" ∨ n = "out" → ∀ s ∈ rest, s.name ≠ n := by
      rintro n (rfl | rfl) s hs
      · exact (hnot s hs).1
      · exact (hnot s hs).2
    rw [forall_named_iff (s := s₂) (by simp) h₂, forall_named_iff (s := s₁) (by simp) h₁]
    · simp only [List.forall_mem_cons, h₀, h₁, h₂]
      simp +contextual [honly]
    · simp only [List.forall_mem_cons, h₀, h₁, h₂]
      simp +contextual [honly]
  rw [hplace, readSlots_eq, hstored, hread, hslots, houts]
  simp only [Bool.false_eq_true, if_false, pull_one, List.forall₂_cons]
  rw [met_overwritten_iff (by rw [h₁]; rfl), hout]
  exact ⟨fun h => ⟨h.2.2.1, h.2.1⟩, fun h => ⟨hmeta, h.2, h.1, hothers⟩⟩

variable (t order) in
theorem channelRead_met (hkit : c.kitId = 1) (htype : c.typeId = 100) (hlaid : Laid c) :
    List.Forall₂ (Met (outputs t order c)) c.slots (readSlots t order c) ∧
      InPlace t order c := by
  have hnames : c.slots.map VirtualSlot.name = ["meta", "channelId", "out", "status"] := by
    rw [hlaid, hkit, htype]
    decide
  obtain ⟨s₀, s₁, rest, hslots, h₀, h₁, hrest⟩ := two_slots hnames
  obtain ⟨s₂, rest, rfl, h₂, hrest⟩ := List.map_eq_cons_iff.1 hrest
  have hread : isChannelRead c = true := by simp [isChannelRead, hkit, htype]
  have hwrite : isWrite c = false := by simp [isWrite, hkit]
  have hint : namedInt c "channelId" = getInt c.slots 1 := namedInt_eq hnames (by decide)
  have houts : outputs t order c = (sensed t order c).toList.map fun v => ("out", v) := by
    unfold outputs sensed readOf bridgeOf
    rw [if_neg (by rw [hkit]; decide), if_pos hread, hint]
    by_cases hpos : 0 < getInt c.slots 1
    · simp [hread, hpos]
    · simp [hpos]
  have hlookup := lookup_sensed houts
  refine ⟨?_, inPlace_sensed houts hwrite⟩
  rw [readSlots_eq, evaluatedSlots_channelRead t hread, hread, hslots]
  simp only [if_true, pull_two, List.forall₂_cons]
  refine ⟨met_same ?_, met_same ?_, met_sensed ?_, met_rest ?_⟩
  · rw [hlookup, h₀]
    rfl
  · rw [hlookup, h₁]
    rfl
  · rw [hlookup, h₂]
    rfl
  · simp [hrest, hlookup]

def Above (outs : List (ℕ × SlotValue)) : Prop := ∀ p ∈ outs, 1 ≤ p.1

theorem above_evaluate (c : VirtualComponent) (st : Option ComponentState) :
    Above (evaluate c st).1 := by
  have hpure : ∀ slots typeId, Above (evaluatePure slots typeId) := by
    intro slots typeId
    unfold evaluatePure
    split <;> simp only [Above, floatOut, boolOut, intOut] <;> (try split_ifs) <;> simp
  unfold evaluate
  dsimp only
  split
  · simp [Above, boolOut]
  · simp [Above, boolOut]
  · simp [Above, intOut]
  · split_ifs <;> simp [Above, floatOut]
  · exact hpure _ _

theorem stored_single {outs : List (ℕ × SlotValue)} (h : Above outs) (s : VirtualSlot) :
    stored outs [s] = [s] := by
  induction outs with
  | nil => rfl
  | cons p outs ih =>
    have hp : [s].modify p.1 (put p.2) = [s] := List.modify_eq_self (h p List.mem_cons_self)
    rw [stored, List.foldl_cons, hp]
    exact ih fun q hq => h q (List.mem_cons_of_mem _ hq)

variable (t order) in
/-- A block of a type without a layout has its first slot only. -/
theorem bare_met (hnames : c.slots.map VirtualSlot.name = ["meta"]) :
    List.Forall₂ (Met (outputs t order c)) c.slots (readSlots t order c) ∧
      InPlace t order c := by
  obtain ⟨s, rest, hslots, hname, hrest⟩ := List.map_eq_cons_iff.1 hnames
  obtain rfl := List.map_eq_nil_iff.1 hrest
  have hstored : evaluatedSlots t c = [s] := by
    unfold evaluatedSlots
    rw [hslots]
    split_ifs
    · exact stored_single (above_evaluate c _) s
    · rfl
  have hpull : readSlots t order c = [s] := by
    rw [readSlots_eq, hstored]
    cases sensed t order c with
    | none => rfl
    | some v => split_ifs <;> rfl
  constructor
  · rw [hpull, hslots]
    exact .cons (met_same (by rw [hname]; exact outputs_meta t order c)) .nil
  · unfold InPlace
    rw [hslots]
    split_ifs <;> simp [hname]

theorem layout_length (kitId typeId : UInt8) : (defaultSlotsForType kitId typeId).length ≤ 6 := by
  unfold defaultSlotsForType
  split_ifs <;> simp

/-- In one execution a component with its type's layout computes on its named slots
    exactly when they are in place. -/
theorem named_slots_iff (h : Enumerates order t) (hget : t.get c.compId = some c)
    (hlaid : Laid c) : OnNamedSlots t order c ↔ InPlace t order c := by
  have hlength : c.slots.length ≤ 6 := by
    have hmap := congrArg List.length hlaid
    rw [List.length_map, List.length_map] at hmap
    exact hmap.trans_le (layout_length _ _)
  rw [onNamedSlots_iff h hget hlength]
  by_cases hfloat : (c.kitId, c.typeId) = (2, 14)
  · obtain ⟨hkit, htype⟩ := Prod.mk.inj hfloat
    have hmet := constFloat_met t order hkit htype hlaid
    exact iff_of_true hmet.1 hmet.2
  by_cases hint : (c.kitId, c.typeId) = (2, 15)
  · obtain ⟨hkit, htype⟩ := Prod.mk.inj hint
    have hnames : c.slots.map VirtualSlot.name = ["meta", "out", "set"] := by
      rw [hlaid, hkit, htype]
      decide
    exact constant_iff (by simp [outputs, hkit, htype]) (by simp [isWrite, htype])
      (by simp [isChannelRead, hkit]) (by simp [isEvaluated, hkit, htype]) hnames (by decide)
  by_cases hbinary : (c.kitId, c.typeId) = (2, 3) ∨ (c.kitId, c.typeId) = (2, 49) ∨
      (c.kitId, c.typeId) = (2, 37)
  · have htype : c.kitId = 2 ∧ (c.typeId = 3 ∨ c.typeId = 49 ∨ c.typeId = 37) := by
      simpa [Prod.mk.injEq, ← and_or_left] using hbinary
    exact binary_iff htype.1 htype.2 hlaid
  by_cases hdiv : (c.kitId, c.typeId) = (2, 18)
  · obtain ⟨hkit, htype⟩ := Prod.mk.inj hdiv
    exact div2_iff hkit htype hlaid
  by_cases hbool : (c.kitId, c.typeId) = (2, 13)
  · obtain ⟨hkit, htype⟩ := Prod.mk.inj hbool
    have hnames : c.slots.map VirtualSlot.name =
        ["meta", "out", "setTrue", "setFalse", "setNull"] := by
      rw [hlaid, hkit, htype]
      decide
    exact constant_iff (by simp [outputs, hkit, htype]) (by simp [isWrite, htype])
      (by simp [isChannelRead, hkit]) (by simp [isEvaluated, hkit, htype]) hnames (by decide)
  by_cases hwriteBool : (c.kitId, c.typeId) = (2, 56)
  · obtain ⟨hkit, htype⟩ := Prod.mk.inj hwriteBool
    exact write_iff hkit (.inr (.inl htype)) hlaid
  by_cases hwriteFloat : (c.kitId, c.typeId) = (2, 57)
  · obtain ⟨hkit, htype⟩ := Prod.mk.inj hwriteFloat
    exact write_iff hkit (.inl htype) hlaid
  by_cases hwriteInt : (c.kitId, c.typeId) = (2, 58)
  · obtain ⟨hkit, htype⟩ := Prod.mk.inj hwriteInt
    exact write_iff hkit (.inr (.inr htype)) hlaid
  by_cases hread : (c.kitId, c.typeId) = (1, 100)
  · obtain ⟨hkit, htype⟩ := Prod.mk.inj hread
    have hmet := channelRead_met t order hkit htype hlaid
    exact iff_of_true hmet.1 hmet.2
  have hnames : c.slots.map VirtualSlot.name = ["meta"] := by
    rw [hlaid, defaultSlotsForType, if_neg hfloat, if_neg hint, if_neg hbinary, if_neg hdiv,
      if_neg hbool, if_neg hwriteBool, if_neg hwriteFloat, if_neg hwriteInt, if_neg hread]
    rfl
  have hmet := bare_met t order hnames
  exact iff_of_true hmet.1 hmet.2

end Execution

section Added

open TreeRequests

/-- A component that an add request makes has its type's layout, unless a manifest gives
    the type another one. -/
theorem handleAdd_laid {req : SoxRequest} {t : ComponentTree} {comp : VirtualComponent}
    (h : decodeAdd req t = .ok comp)
    (hmanifest : t.manifestDb.getSlots comp.kitId comp.typeId = none) : Laid comp := by
  unfold decodeAdd at h
  dsimp only at h
  split at h
  · cases h
  · split at h
    · cases h
    · split_ifs at h
      cases h
      unfold newComponent at hmanifest
      dsimp only at hmanifest
      unfold Laid newComponent
      dsimp only
      rw [hmanifest]

/-- An added WriteInt with a number in its second slot. -/
def writerTree (n : Int32) : ComponentTree :=
  ((handleAdd ⟨.add, 1, [0, 6, 2, 58, 119, 0]⟩ (fromChannels [])).1.setSlotValue 7 1 (.int n)).1

def writer (n : Int32) : VirtualComponent :=
  ⟨7, 6, "w", "kit2::type58", 2, 58, [],
    [metaSlot, slot "in" .int slotFlagConfig (.int n), slot "out" .int slotFlagRuntime (.int 0),
      slot "set" .int slotFlagAction (.int 0)], []⟩

/-- The ids of a tree whose components are all under their own ids. -/
theorem enumerates_of_keys {order : List UInt16} {t : ComponentTree} (hnodup : order.Nodup)
    (hkeys : t.components.keys = order.toFinset)
    (hown : (order.map fun a => (t.get a).map VirtualComponent.compId) = order.map some) :
    Enumerates order t where
  nodup := hnodup
  mem a := by
    rw [← List.mem_toFinset, ← hkeys, Table.mem_keys, Option.isSome_iff_exists]
    rfl
  keyed a c hget := by
    have hmem : a ∈ order := by
      rw [← List.mem_toFinset, ← hkeys, Table.mem_keys]
      exact ⟨c, hget⟩
    have hkey := List.map_inj_left.1 hown a hmem
    rw [hget] at hkey
    exact Option.some.inj hkey

theorem writer_alike : InPlace (writerTree 0) [0, 1, 2, 3, 4, 5, 6, 7] (writer 0) := by
  have hsensed : sensed (writerTree 0) [0, 1, 2, 3, 4, 5, 6, 7] (writer 0) = none := by
    decide +kernel
  unfold InPlace
  rw [if_pos (by decide)]
  simp only [hsensed]
  decide +kernel

/-- With both slots alike the WriteInt stays as it is. -/
theorem writer_in_place :
    OnNamedSlots (writerTree 0) [0, 1, 2, 3, 4, 5, 6, 7] (writer 0) :=
  (named_slots_iff
    (enumerates_of_keys (by decide) (by decide +kernel) (by decide +kernel))
    (by decide +kernel) (by decide)).2 writer_alike

/-- The number in the slot named in does not reach the slot named out. -/
theorem writer_turned : (writerTree 5).get 7 = some (writer 5) ∧ Laid (writer 5) ∧
    ¬ OnNamedSlots (writerTree 5) [0, 1, 2, 3, 4, 5, 6, 7] (writer 5) := by
  refine ⟨by decide +kernel, by decide, ?_⟩
  rintro ⟨c', hget, hmet⟩
  have hafter : (((writerTree 5).executeComponents [0, 1, 2, 3, 4, 5, 6, 7]).1.get 7).bind
      (fun c => c.slots[2]?.map VirtualSlot.value) = some (.int 0) := by
    decide +kernel
  have houts : (outputs (writerTree 5) [0, 1, 2, 3, 4, 5, 6, 7] (writer 5)).lookup "out" =
      some (.int 5) := by
    decide +kernel
  have hget7 : ((writerTree 5).executeComponents [0, 1, 2, 3, 4, 5, 6, 7]).1.get 7 =
      some c' := hget
  rw [hget7, Option.bind_some] at hafter
  have hslots : (writer 5).slots = [metaSlot, slot "in" .int slotFlagConfig (.int 5),
    slot "out" .int slotFlagRuntime (.int 0), slot "set" .int slotFlagAction (.int 0)] := rfl
  rw [hslots] at hmet
  generalize c'.slots = slots at hmet hafter
  obtain _ | ⟨-, _ | ⟨-, _ | ⟨⟨-, hshow⟩, -⟩⟩⟩ := hmet
  rw [show (slot "out" SoxValueType.int slotFlagRuntime (SlotValue.int 0)).name = "out" from rfl,
    houts] at hshow
  have hvalue := Option.some.inj hafter
  rw [hvalue] at hshow
  have hfive : Shows (.int 5) (.int 0) := hshow
  exact absurd hfive (by decide)

end Added

end Sandstar.NamedSlots
