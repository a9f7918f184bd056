import Sandstar.Persistence

set_option autoImplicit false

/-!
# Refreshing and executing the tree (sox_handlers.rs)

What a tick does to the slots: the channels' values come in, then components compute
their outputs, and the bridges copy values between channel components and the
components named after them. `order` is the order in which the tree's map iterates.
Sums of counters wrap, as they do in the release profile.
-/
namespace Sandstar.ComponentTree
open SoxProtocol SoxSlots

def setSlotValue (t : ComponentTree) (id : UInt16) (idx : ℕ) (v : SlotValue) :
    ComponentTree × Bool :=
  match (t.get id).bind fun c => c.slots[idx]? with
  | none => (t, false)
  | some s =>
    if slotValueEq s.value v then (t, false)
    else (t.modify id fun c => { c with slots := c.slots.modify idx (setValue v) }, true)

section Channels

def channelCompId (i : ℕ) : UInt16 := channelCompBase + UInt16.ofNat i

def slotsDiffer (a b : List VirtualSlot) : Bool :=
  a.length ≠ b.length || (a.zip b).any fun p => !slotValueEq p.1.value p.2.value

def refreshedSlots (old : List VirtualSlot) (ch : ChannelInfo) : List VirtualSlot :=
  match old.head? with
  | some existing =>
    if existing.name = "meta" then (channelSlots ch).modifyHead (setValue existing.value)
    else channelSlots ch
  | none => channelSlots ch

structure Refresh where
  tree : ComponentTree
  changed : List UInt16
  outputs : List (Int32 × SlotValue)

def refreshChannel (r : Refresh) (entry : ChannelInfo × ℕ) : Refresh :=
  let (ch, i) := entry
  let compId := channelCompId i
  match r.tree.get compId with
  | none => r
  | some comp =>
    let newSlots := refreshedSlots comp.slots ch
    if slotsDiffer comp.slots newSlots then
      { tree := r.tree.modify compId fun c => { c with slots := newSlots }
        changed := r.changed ++ [compId]
        outputs :=
          if ch.id.toInt32 ∈ r.tree.outputChannelIds then
            r.outputs ++ (newSlots[6]?.map fun s => (ch.id.toInt32, s.value)).toList
          else r.outputs }
    else r

theorem refreshChannel_cases (r : Refresh) (entry : ChannelInfo × ℕ) :
    (refreshChannel r entry).tree = r.tree ∨
      ∃ comp, r.tree.get (channelCompId entry.2) = some comp ∧
        (refreshChannel r entry).tree = r.tree.modify (channelCompId entry.2) fun c =>
          { c with slots := refreshedSlots comp.slots entry.1 } := by
  unfold refreshChannel
  dsimp only
  cases hget : r.tree.get (channelCompId entry.2) with
  | none => exact .inl rfl
  | some comp =>
    dsimp only
    by_cases hdiffer : slotsDiffer comp.slots (refreshedSlots comp.slots entry.1) = true
    · rw [if_pos hdiffer]
      exact .inr ⟨comp, rfl, rfl⟩
    · rw [if_neg hdiffer]
      exact .inl rfl

def refreshChannels (t : ComponentTree) (channels : List ChannelInfo) : Refresh :=
  channels.zipIdx.foldl refreshChannel ⟨t, [], []⟩

def syncBridge (state : ComponentTree × List UInt16) (output : Int32 × SlotValue) :
    ComponentTree × List UInt16 :=
  let (t, changed) := state
  match (t.nameToComp.get ("ch" ++ toString output.1.toInt)).filter t.isUserAdded with
  | none => (t, changed)
  | some id =>
    let (t, set) := t.setSlotValue id 1 output.2
    (t, if set then changed ++ [id] else changed)

def updateFromChannels (t : ComponentTree) (channels : List ChannelInfo) :
    ComponentTree × List UInt16 :=
  let r := t.refreshChannels channels
  r.outputs.foldl syncBridge (r.tree, r.changed)

end Channels

section Evaluation

def getFloat (slots : List VirtualSlot) (idx : ℕ) : Float32 :=
  match slots[idx]?.map VirtualSlot.value with
  | some (.float bits) => Float32.ofBits bits
  | some (.int v) => v.toFloat32
  | _ => 0

def getBool (slots : List VirtualSlot) (idx : ℕ) : Bool :=
  match slots[idx]?.map VirtualSlot.value with
  | some (.bool v) => v
  | _ => false

def getInt (slots : List VirtualSlot) (idx : ℕ) : Int32 :=
  match slots[idx]?.map VirtualSlot.value with
  | some (.int v) => v
  | some (.float bits) => (Float32.ofBits bits).toInt32
  | _ => 0

/-- `f32::powi` by squaring; a 32-bit exponent has as many digits. -/
def powi (base : Float32) (exponent : Int32) : Float32 :=
  let rec go (a r : Float32) (n : ℕ) : ℕ → Float32
    | 0 => r
    | fuel + 1 =>
      if n = 0 then r else go (a * a) (if n % 2 = 1 then r * a else r) (n / 2) fuel
  let r := go base 1 exponent.toInt.natAbs 32
  if exponent < 0 then 1 / r else r

def defaultState : ComponentState := ⟨0, 0, false⟩

def isEvaluated (comp : VirtualComponent) : Bool :=
  comp.kitId = 2 && comp.typeId.toNat ∈
    [3, 49, 37, 18, 4, 50, 38, 39, 23, 34, 35, 32, 47, 5, 6, 42, 43, 40, 59, 12, 10, 22, 26, 1, 11,
      28, 25, 48, 46, 57, 56, 58, 31, 19, 20, 16, 44, 54, 55] ||
  comp.kitId = 1 && comp.typeId = 100

def isChannelRead (comp : VirtualComponent) : Bool := comp.kitId = 1 && comp.typeId = 100

def floatOut (idx : ℕ) (v : Float32) : List (ℕ × SlotValue) := [(idx, .float v.toBits)]

def boolOut (idx : ℕ) (v : Bool) : List (ℕ × SlotValue) := [(idx, .bool v)]

def intOut (idx : ℕ) (v : Int32) : List (ℕ × SlotValue) := [(idx, .int v)]

def tstat (diff : Float32) (isHeating : Bool) (sp cv : Float32) (currentOut : Bool) :
    Bool × Bool × Bool :=
  let halfDb := diff / 2
  if isHeating then
    if cv < sp - halfDb then (true, true, false)
    else if cv > sp + halfDb then (false, false, true)
    else (currentOut, false, false)
  else if cv > sp + halfDb then (true, false, true)
  else if cv < sp - halfDb then (false, true, false)
  else (currentOut, false, false)

def evaluatePure (slots : List VirtualSlot) (typeId : ℕ) : List (ℕ × SlotValue) :=
  let f := getFloat slots
  let b := getBool slots
  let n := getInt slots
  match typeId with
  | 3 => floatOut 1 (f 2 + f 3)
  | 49 => floatOut 1 (f 2 - f 3)
  | 37 => floatOut 1 (f 2 * f 3)
  | 18 =>
    let div0 := f 3 == 0
    floatOut 1 (if div0 then 0 else f 2 / f 3) ++ boolOut 4 div0
  | 4 => floatOut 1 (f 2 + f 3 + f 4 + f 5)
  | 50 => floatOut 1 (f 2 - f 3 - f 4 - f 5)
  | 38 => floatOut 1 (f 2 * f 3 * f 4 * f 5)
  | 39 => floatOut 1 (-f 2)
  | 23 => floatOut 1 (f 2 + f 3)
  | 34 => floatOut 1 (if f 2 > f 3 then f 2 else f 3)
  | 35 => floatOut 1 (if f 2 < f 3 then f 2 else f 3)
  | 32 => floatOut 1 (if f 2 < f 3 then f 3 else if f 2 > f 4 then f 4 else f 2)
  | 47 =>
    let factor := powi 10 (n 3)
    floatOut 1 ((f 2 * factor).round / factor)
  | 5 => boolOut 1 (b 2 && b 3)
  | 6 => boolOut 1 (b 2 && b 3 && b 4 && b 5)
  | 42 => boolOut 1 (b 2 || b 3)
  | 43 => boolOut 1 (b 2 || b 3 || b 4 || b 5)
  | 40 => boolOut 1 (!b 2)
  | 59 => boolOut 1 (b 2 ^^ b 3)
  | 12 => boolOut 1 (f 4 > f 5) ++ boolOut 2 (f 4 == f 5) ++ boolOut 3 (f 4 < f 5)
  | 10 => boolOut 1 (b 2)
  | 22 => intOut 1 (f 2).toInt32
  | 26 => floatOut 1 (n 2).toFloat32
  | 1 => floatOut 1 (if b 2 then f 4 else f 3)
  | 11 => boolOut 1 (if b 2 then b 4 else b 3)
  | 28 => intOut 1 (if b 2 then n 4 else n 3)
  | 25 => boolOut 1 (if b 1 then f 2 ≥ f 4 else f 2 ≥ f 3)
  | 48 => boolOut 1 (if b 3 then false else if b 2 then true else b 1)
  | 46 =>
    let range := f 4 - f 3
    floatOut 1 (if range == 0 then f 5 else f 5 + (f 2 - f 3) / range * (f 6 - f 5))
  | 57 => floatOut 1 (f 2)
  | 56 => boolOut 1 (b 2)
  | 58 => intOut 1 (n 2)
  | 31 =>
    if 0 < n 3 then intOut 1 (min (max (f 2 * (n 3).toFloat32).floor.toInt32 0) (n 3)) else []
  | 54 =>
    let (out, raise, lower) := tstat (f 1) (b 2) (f 3) (f 4) (b 5)
    boolOut 5 out ++ boolOut 6 raise ++ boolOut 7 lower
  | 55 =>
    let up := if b 2 then (if f 1 + f 4 > f 6 then f 6 else f 1 + f 4) else f 1
    floatOut 1 (if b 3 then (if up - f 4 < f 5 then f 5 else up - f 4) else up)
  | _ => []

def evaluate (comp : VirtualComponent) (state : Option ComponentState) :
    List (ℕ × SlotValue) × Option ComponentState :=
  let f := getFloat comp.slots
  let b := getBool comp.slots
  let n := getInt comp.slots
  let st := state.getD defaultState
  match comp.typeId.toNat with
  | 20 =>
    let counter := if b 2 then st.counter + 1 else 0
    (boolOut 1 (b 2 && decide ((f 3).toInt32 ≤ counter)), some { st with counter := counter })
  | 19 =>
    let counter := if b 2 then 0 else st.counter + 1
    (boolOut 1 (b 2 || decide (counter < (f 3).toInt32)), some { st with counter := counter })
  | 16 =>
    let next := n 1 + 1
    let out := if b 2 && !st.prevBool then (if 0 < n 3 ∧ n 3 ≤ next then 0 else next) else n 1
    (intOut 1 out, some { st with prevBool := b 2 })
  | 44 =>
    let direction := if st.direction = 0 then 1 else st.direction
    let out := f 1 + f 4 * direction.toFloat32
    if out ≥ f 3 then (floatOut 1 (f 3), some { st with direction := -1 })
    else if out ≤ f 2 then (floatOut 1 (f 2), some { st with direction := 1 })
    else (floatOut 1 out, some { st with direction := direction })
  | typeId => (evaluatePure comp.slots typeId, none)

/-- An output that goes to the first slot is of any kind; the others are booleans. -/
def Plain (outputs : List (ℕ × SlotValue)) : Prop :=
  ∀ idx v, (idx, v) ∈ outputs → idx = 1 ∨ ∃ b, v = .bool b

theorem plain_floatOut (v : Float32) : Plain (floatOut 1 v) := by
  simp [Plain, floatOut]

theorem plain_intOut (v : Int32) : Plain (intOut 1 v) := by
  simp [Plain, intOut]

theorem plain_boolOut (idx : ℕ) (v : Bool) : Plain (boolOut idx v) := by
  simp [Plain, boolOut]

theorem Plain.append {a b : List (ℕ × SlotValue)} (ha : Plain a) (hb : Plain b) :
    Plain (a ++ b) := by
  intro idx v h
  rcases List.mem_append.1 h with h | h
  · exact ha idx v h
  · exact hb idx v h

theorem plain_evaluatePure (slots : List VirtualSlot) (typeId : ℕ) :
    Plain (evaluatePure slots typeId) := by
  unfold evaluatePure
  split
  all_goals first
    | exact plain_floatOut _
    | exact plain_intOut _
    | exact plain_boolOut _ _
    | exact (plain_floatOut _).append (plain_boolOut _ _)
    | exact ((plain_boolOut _ _).append (plain_boolOut _ _)).append (plain_boolOut _ _)
    | skip
  · dsimp only
    split_ifs
    · exact plain_intOut _
    · simp [Plain]
  · simp [Plain]

theorem plain_evaluate (comp : VirtualComponent) (state : Option ComponentState) :
    Plain (evaluate comp state).1 := by
  unfold evaluate
  dsimp only
  split
  · exact plain_boolOut _ _
  · exact plain_boolOut _ _
  · exact plain_intOut _
  · split_ifs <;> exact plain_floatOut _
  · exact plain_evaluatePure _ _
abbrev ComponentUpdate := UInt16 × List (ℕ × SlotValue) × Option ComponentState

def computeUpdates (t : ComponentTree) (order : List UInt16) : List ComponentUpdate :=
  (((order.filterMap t.get).filter isEvaluated).map VirtualComponent.compId).filterMap fun id =>
    (t.get id).bind fun comp =>
      let (outputs, state) := evaluate comp (t.componentState.get id)
      if outputs.isEmpty && state.isNone then none else some (id, outputs, state)

def applyOutputs (t : ComponentTree) (id : UInt16) (outputs : List (ℕ × SlotValue)) :
    ComponentTree × Bool :=
  outputs.foldl (fun (t, changed) (idx, v) =>
    ((t.setSlotValue id idx v).1, changed || (t.setSlotValue id idx v).2)) (t, false)

def storeState (t : ComponentTree) (id : UInt16) : Option ComponentState → ComponentTree
  | none => t
  | some st => { t with componentState := t.componentState.insert id st }

def applyUpdate (state : ComponentTree × List UInt16) (update : ComponentUpdate) :
    ComponentTree × List UInt16 :=
  let (t, changed) := state
  let (id, outputs, st) := update
  let (t, set) := t.applyOutputs id outputs
  (t.storeState id st, if set then changed ++ [id] else changed)

end Evaluation

section Bridges

/-- `str::parse::<i32>`: an optional sign and decimal digits, within range. -/
def parseI32 (s : List Char) : Option Int32 :=
  let (negative, digits) : Bool × List Char := match s with
    | '-' :: cs => (true, cs)
    | '+' :: cs => (false, cs)
    | cs => (false, cs)
  if digits ≠ [] ∧ digits.all fun c => 48 ≤ c.toNat && c.toNat ≤ 57 then
    let n : ℕ := digits.foldl (fun n c => 10 * n + (c.toNat - 48)) 0
    let v : Int := if negative then -(n : Int) else n
    if -2 ^ 31 ≤ v ∧ v < 2 ^ 31 then some (Int32.ofInt v) else none
  else none

def trimCh : List Char → List Char
  | 'c' :: 'h' :: cs => trimCh cs
  | cs => cs

def bridgeChannel (name : String) : Option Int32 :=
  match name.toList with
  | 'c' :: 'h' :: _ =>
    (parseI32 ((trimCh name.toList).dropWhile (· = '_'))).filter fun ch => decide (0 < ch)
  | _ => none

structure Bridge where
  compId : UInt16
  channelId : Int32
  slotIdx : ℕ
  deriving DecidableEq, Repr

def bridgeOf (t : ComponentTree) (comp : VirtualComponent) : Option (Bridge ⊕ Bridge) :=
  if isChannelRead comp then
    if 0 < getInt comp.slots 1 then some (.inl ⟨comp.compId, getInt comp.slots 1, 2⟩) else none
  else if t.isUserAdded comp.compId then
    (bridgeChannel comp.name).map fun ch =>
      if ch ∈ t.outputChannelIds then .inr ⟨comp.compId, ch, 1⟩ else .inl ⟨comp.compId, ch, 1⟩
  else none

def findChannelComp (t : ComponentTree) (order : List UInt16) (channelId : Int32) :
    Option VirtualComponent :=
  (order.filterMap t.get).find? fun c =>
    t.isChannelComp c.compId && (c.slots[2]?.any fun s => slotValueEq s.value (.int channelId))

def readBridge (order : List UInt16) (state : ComponentTree × List UInt16) (bridge : Bridge) :
    ComponentTree × List UInt16 :=
  let (t, changed) := state
  match (t.findChannelComp order bridge.channelId).bind fun c => c.slots[6]? with
  | none => (t, changed)
  | some s =>
    let (t, set) := t.setSlotValue bridge.compId bridge.slotIdx s.value
    (t, if set then changed ++ [bridge.compId] else changed)

def writeBridge (order : List UInt16) (state : ComponentTree × List UInt16) (bridge : Bridge) :
    ComponentTree × List UInt16 :=
  let (t, changed) := state
  match (t.get bridge.compId).bind fun c => c.slots[bridge.slotIdx]? with
  | none => (t, changed)
  | some s => match t.findChannelComp order bridge.channelId with
    | none => (t, changed)
    | some c =>
      let (t, set) := t.setSlotValue c.compId 6 s.value
      (t, if set then changed ++ [c.compId] else changed)

def bridges (t : ComponentTree) (order : List UInt16) : List (Bridge ⊕ Bridge) :=
  (order.filterMap t.get).filterMap t.bridgeOf

def executeComponents (t : ComponentTree) (order : List UInt16) : ComponentTree × List UInt16 :=
  let state := (t.computeUpdates order).foldl applyUpdate (t, [])
  let all := state.1.bridges order
  let state := (all.filterMap Sum.getLeft?).foldl (readBridge order) state
  (all.filterMap Sum.getRight?).foldl (writeBridge order) state

end Bridges

section Writes

def numericValue : SlotValue → Option UInt64
  | .float bits => some (Float32.ofBits bits).toFloat.toBits
  | .double bits => some bits
  | .int v => some (Float.ofInt v.toInt).toBits
  | _ => none

def channelNumber (comp : VirtualComponent) : Option UInt32 :=
  match comp.slots[2]?.map VirtualSlot.value with
  | some (.int id) => some id.toUInt32
  | _ => none

def hasLinkToOut (comp : VirtualComponent) (compId : UInt16) : Bool :=
  comp.links.any fun l => l.toComp = compId && l.toSlot = 6

def channelWrite (t : ComponentTree) (compId : UInt16) : Option (UInt32 × UInt64) :=
  if !t.isChannelComp compId then none
  else (t.get compId).bind fun comp => (channelNumber comp).bind fun ch =>
    if !hasLinkToOut comp compId && ch.toInt32 ∉ t.outputChannelIds then none
    else (comp.slots[6]?.bind fun s => numericValue s.value).map fun v => (ch, v)

def collectChannelWrites (t : ComponentTree) (changedIds : List UInt16) :
    List (UInt32 × UInt64) :=
  changedIds.filterMap t.channelWrite

structure WriteRequest where
  compId : UInt16
  slotId : UInt8
  value : SlotValue
  deriving DecidableEq, Repr

def slotTypeIn (t : ComponentTree) (compId : UInt16) (slotId : UInt8) : UInt8 :=
  (((t.get compId).bind fun c => c.slots[slotId.toNat]?).map VirtualSlot.typeId).getD
    SoxValueType.float.code

def parseWriteRequest (req : SoxRequest) (t : ComponentTree) : Option WriteRequest :=
  if req.cmd ≠ .write then none
  else match (SoxReader.mk req.payload).readU16 with
    | (none, _) => none
    | (some compId, r) => match r.readU8 with
      | (none, _) => none
      | (some slotId, r) =>
        (decodeSlotValue r (t.slotTypeIn compId slotId)).1.map fun v => ⟨compId, slotId, v⟩

/-- The write to the engine that a request stands for. Any component above the base counts
    as a channel here. -/
def toChannelWrite (w : WriteRequest) (t : ComponentTree) : Option (UInt32 × UInt64) :=
  if w.compId < channelCompBase then none
  else if w.slotId ≠ 6 then none
  else (t.get w.compId).bind fun comp => (channelNumber comp).bind fun ch =>
    (numericValue w.value).map fun v => (ch, v)

end Writes
end Sandstar.ComponentTree
