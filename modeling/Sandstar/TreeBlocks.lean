import Sandstar.TreeExecution

set_option autoImplicit false

namespace Sandstar.TreeBlocks

open SoxProtocol SoxSlots

class TreeNumber (K : Type) extends Add K, Sub K, Mul K, Div K, Neg K where
  lit : ℕ → K
  lt : K → K → Bool
  le : K → K → Bool
  eq : K → K → Bool
  ofInt32 : Int32 → K
  /-- `as i32`, which saturates. -/
  toInt32 : K → Int32

instance : TreeNumber Float32 where
  lit n := Float32.ofNat n
  lt a b := decide (a < b)
  le a b := decide (a ≤ b)
  eq a b := a == b
  ofInt32 n := n.toFloat32
  toInt32 x := x.toInt32

instance : TreeNumber ℚ where
  lit n := n
  lt a b := decide (a < b)
  le a b := decide (a ≤ b)
  eq a b := decide (a = b)
  ofInt32 n := n.toInt
  toInt32 x := Int32.ofInt (max (-2 ^ 31) (min (2 ^ 31 - 1) (if 0 ≤ x then ⌊x⌋ else ⌈x⌉)))

inductive TreeValue (K : Type)
  | bool (v : Bool)
  | int (v : Int32)
  | float (v : K)
  | other
deriving DecidableEq

section Evaluation

variable {K : Type} [TreeNumber K]

open TreeNumber

def getFloat (values : List (TreeValue K)) (idx : ℕ) : K :=
  match values[idx]? with
  | some (.float x) => x
  | some (.int v) => ofInt32 v
  | _ => lit 0

def getBool (values : List (TreeValue K)) (idx : ℕ) : Bool :=
  match values[idx]? with
  | some (.bool v) => v
  | _ => false

def tstat (diff : K) (isHeating : Bool) (sp cv : K) (currentOut : Bool) : Bool × Bool × Bool :=
  let halfDb := diff / lit 2
  if isHeating then
    if lt cv (sp - halfDb) then (true, true, false)
    else if lt (sp + halfDb) cv then (false, false, true)
    else (currentOut, false, false)
  else if lt (sp + halfDb) cv then (true, false, true)
  else if lt cv (sp - halfDb) then (false, true, false)
  else (currentOut, false, false)

def blockTypes : List ℕ := [3, 49, 37, 18, 39, 23, 5, 42, 40, 48, 25, 54, 20, 19]

/-- The new outputs of a block, and its new state where its type keeps one. -/
def evaluate (values : List (TreeValue K)) (typeId : ℕ) (state : Option ComponentState) :
    List (ℕ × TreeValue K) × Option ComponentState :=
  let f := getFloat values
  let b := getBool values
  let st := state.getD ComponentTree.defaultState
  match typeId with
  | 3 => ([(1, .float (f 2 + f 3))], none)
  | 49 => ([(1, .float (f 2 - f 3))], none)
  | 37 => ([(1, .float (f 2 * f 3))], none)
  | 18 =>
    let div0 := eq (f 3) (lit 0)
    ([(1, .float (if div0 then lit 0 else f 2 / f 3)), (4, .bool div0)], none)
  | 39 => ([(1, .float (-f 2))], none)
  | 23 => ([(1, .float (f 2 + f 3))], none)
  | 5 => ([(1, .bool (b 2 && b 3))], none)
  | 42 => ([(1, .bool (b 2 || b 3))], none)
  | 40 => ([(1, .bool (!b 2))], none)
  | 48 => ([(1, .bool (if b 3 then false else if b 2 then true else b 1))], none)
  | 25 => ([(1, .bool (if b 1 then le (f 4) (f 2) else le (f 3) (f 2)))], none)
  | 54 =>
    let (out, raise, lower) := tstat (f 1) (b 2) (f 3) (f 4) (b 5)
    ([(5, .bool out), (6, .bool raise), (7, .bool lower)], none)
  | 20 =>
    let counter := if b 2 then st.counter + 1 else 0
    ([(1, .bool (b 2 && decide (toInt32 (f 3) ≤ counter)))], some { st with counter := counter })
  | 19 =>
    let counter := if b 2 then 0 else st.counter + 1
    ([(1, .bool (b 2 || decide (counter < toInt32 (f 3))))], some { st with counter := counter })
  | _ => ([], none)

structure BlockState (K : Type) where
  values : List (TreeValue K)
  state : Option ComponentState

/-- A block is evaluated and its outputs are stored. -/
def BlockState.execute (s : BlockState K) (typeId : ℕ) : BlockState K :=
  let (outputs, state) := evaluate s.values typeId s.state
  ⟨outputs.foldl (fun values p => values.set p.1 p.2) s.values, state.or s.state⟩

end Evaluation

section Floats

def view : SlotValue → TreeValue Float32
  | .bool v => .bool v
  | .int v => .int v
  | .float bits => .float (Float32.ofBits bits)
  | _ => .other

def store : TreeValue Float32 → SlotValue
  | .bool v => .bool v
  | .int v => .int v
  | .float x => .float x.toBits
  | .other => .null

def values (slots : List VirtualSlot) : List (TreeValue Float32) :=
  slots.map fun s => view s.value

theorem getFloat_values (slots : List VirtualSlot) (idx : ℕ) :
    getFloat (values slots) idx = ComponentTree.getFloat slots idx := by
  unfold getFloat ComponentTree.getFloat values
  rw [List.getElem?_map]
  cases slots[idx]? with
  | none => rfl
  | some s => cases hvalue : s.value <;> simp [view, hvalue] <;> rfl

theorem getBool_values (slots : List VirtualSlot) (idx : ℕ) :
    getBool (values slots) idx = ComponentTree.getBool slots idx := by
  unfold getBool ComponentTree.getBool values
  rw [List.getElem?_map]
  cases slots[idx]? with
  | none => rfl
  | some s => cases hvalue : s.value <;> simp [view, hvalue]

theorem tstat_floats (diff : Float32) (isHeating : Bool) (sp cv : Float32) (currentOut : Bool) :
    tstat diff isHeating sp cv currentOut = ComponentTree.tstat diff isHeating sp cv currentOut := by
  unfold tstat ComponentTree.tstat
  simp only [TreeNumber.lt, decide_eq_true_eq]
  rfl

/-- Over the tree's floats the blocks are the ones the tree executes. -/
theorem evaluate_values (comp : VirtualComponent) (state : Option ComponentState)
    (h : comp.typeId.toNat ∈ blockTypes) :
    ComponentTree.evaluate comp state =
      ((evaluate (values comp.slots) comp.typeId.toNat state).1.map fun p => (p.1, store p.2),
        (evaluate (values comp.slots) comp.typeId.toNat state).2) := by
  unfold ComponentTree.evaluate
  generalize comp.typeId.toNat = typeId at h
  simp only [blockTypes, List.mem_cons, List.not_mem_nil, or_false] at h
  rcases h with rfl | rfl | rfl | rfl | rfl | rfl | rfl | rfl | rfl | rfl | rfl | rfl | rfl | rfl
  all_goals simp only [evaluate, getFloat_values, getBool_values, List.map_cons, List.map_nil,
    store, tstat_floats]
  all_goals rfl

end Floats

end Sandstar.TreeBlocks
