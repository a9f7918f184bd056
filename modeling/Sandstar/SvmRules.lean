import Sandstar.SvmInterpreter

set_option autoImplicit false

namespace Sandstar.Svm

open Sandstar.Effects

section Rules

variable {X : Halt → Vm → Prop} {s : Vm}

theorem post_perform (o : Op) {Q : o.Res → Vm → Prop} :
    Prog.Post Vm.handle Q X (perform o) s ↔ Prog.Settles Q X (Vm.handle o s) :=
  @Prog.post_perform ops Vm Halt Vm.handle X o Q s

@[simp] theorem post_push {v : Cell} {Q : Unit → Vm → Prop} :
    Prog.Post Vm.handle Q X (push v) s ↔
      if s.capacity ≤ s.sp then X (.error .stackOverflow) s else Q () (s.write [v]) := by
  apply (post_perform (.push v)).trans
  simp only [Vm.handle]
  split_ifs <;> rfl

@[simp] theorem post_pop {Q : Cell → Vm → Prop} :
    Prog.Post Vm.handle Q X pop s ↔
      if s.sp = 0 then X (.error .stackUnderflow) s
      else if s.capacity < s.sp then X (.fault .slice) { s with sp := s.sp - 1 }
      else Q (s.top 1) { s with sp := s.sp - 1 } := by
  apply (post_perform .pop).trans
  simp only [Vm.handle]
  split_ifs <;> rfl

@[simp] theorem post_dropCells {n : ℕ} {Q : Unit → Vm → Prop} :
    Prog.Post Vm.handle Q X (dropCells n) s ↔
      if s.sp < n then X (.error .stackUnderflow) s else Q () { s with sp := s.sp - n } := by
  apply (post_perform (.drop n)).trans
  simp only [Vm.handle]
  split_ifs <;> rfl

@[simp] theorem post_room {n : ℕ} {Q : Unit → Vm → Prop} :
    Prog.Post Vm.handle Q X (room n) s ↔ if s.capacity < s.sp + n then X (.error .stackOverflow) s else Q () s := by
  apply (post_perform (.room n)).trans
  simp only [Vm.handle]
  split_ifs <;> rfl

@[simp] theorem post_need {n : ℕ} {Q : Unit → Vm → Prop} :
    Prog.Post Vm.handle Q X (need n) s ↔ if s.sp < n then X (.error .stackUnderflow) s else Q () s := by
  apply (post_perform (.need n)).trans
  simp only [Vm.handle]
  split_ifs <;> rfl

@[simp] theorem post_peek {k : ℕ} {Q : Cell → Vm → Prop} :
    Prog.Post Vm.handle Q X (peek k) s ↔
      match s.peekIndex k with
      | .error e => X e s
      | .ok i => Q (s.cells i) s := by
  apply (post_perform (.peek k)).trans
  simp only [Vm.handle]
  cases s.peekIndex k <;> rfl

@[simp] theorem post_poke {k : ℕ} {v : Cell} {Q : Unit → Vm → Prop} :
    Prog.Post Vm.handle Q X (poke k v) s ↔
      match s.peekIndex k with
      | .error e => X e s
      | .ok i => Q () (s.setCell i v) := by
  apply (post_perform (.poke k v)).trans
  simp only [Vm.handle]
  cases s.peekIndex k <;> rfl

@[simp] theorem post_bankBase {b : Bank} {Q : Unit → Vm → Prop} :
    Prog.Post Vm.handle Q X (bankBase b) s ↔
      match s.bankBase b with
      | .error e => X e s
      | .ok _ => Q () s := by
  apply (post_perform (.base b)).trans
  simp only [Vm.handle]
  cases s.bankBase b <;> rfl

@[simp] theorem post_getSlot {b : Bank} {i : ℕ} {Q : Cell → Vm → Prop} :
    Prog.Post Vm.handle Q X (getSlot b i) s ↔
      match s.slotIndex b i with
      | .error e => X e s
      | .ok n => Q (s.cells n) s := by
  apply (post_perform (.get b i)).trans
  simp only [Vm.handle]
  cases s.slotIndex b i <;> rfl

@[simp] theorem post_setSlot {b : Bank} {i : ℕ} {v : Cell} {Q : Unit → Vm → Prop} :
    Prog.Post Vm.handle Q X (setSlot b i v) s ↔
      match s.slotIndex b i with
      | .error e => X e s
      | .ok n => Q () (s.setCell n v) := by
  apply (post_perform (.set b i v)).trans
  simp only [Vm.handle]
  cases s.slotIndex b i <;> rfl

@[simp] theorem post_code {w addr : ℕ} {Q : Bytes w → Vm → Prop} :
    Prog.Post Vm.handle Q X (code w addr) s ↔
      match s.codeAt w addr with
      | none => X (.error (.pcOutOfBounds addr s.code.length)) s
      | some v => Q v s := by
  apply (post_perform (.code w addr)).trans
  simp only [Vm.handle]
  cases s.codeAt w addr <;> rfl

@[simp] theorem post_load {w addr : ℕ} {Q : Bytes w → Vm → Prop} :
    Prog.Post Vm.handle Q X (load w addr) s ↔
      match s.dataAt w addr with
      | none => X (.error .nullPointer) s
      | some v => Q v s := by
  apply (post_perform (.load w addr)).trans
  simp only [Vm.handle]
  cases s.dataAt w addr <;> rfl

@[simp] theorem post_store {w addr : ℕ} {v : Bytes w} {Q : Unit → Vm → Prop} :
    Prog.Post Vm.handle Q X (store w addr v) s ↔
      match s.dataAt w addr with
      | none => X (.error .nullPointer) s
      | some _ => Q () { s with data := writeAt s.data addr (leBytes w v) } := by
  apply (post_perform (.store w addr v)).trans
  simp only [Vm.handle]
  cases s.dataAt w addr <;> rfl

@[simp] theorem post_fail {α : Type} {e : VmError} {Q : α → Vm → Prop} :
    Prog.Post Vm.handle Q X (fail e) s ↔ X (.error e) s := Iff.rfl

@[simp] theorem post_fault {α : Type} {Q : α → Vm → Prop} :
    Prog.Post Vm.handle Q X fault s ↔ X (.fault .overflow) s := Iff.rfl

@[simp] theorem post_next {n : ℕ} {Q : StepResult → Vm → Prop} :
    Prog.Post Vm.handle Q X (next n) s ↔ Q .continue { s with pc := n } := Iff.rfl

@[simp] theorem post_jumpTo {target : ℤ} {Q : StepResult → Vm → Prop} :
    Prog.Post Vm.handle Q X (jumpTo target) s ↔
      Q .continue { s with pc := (target % usizeLimit).toNat } := Iff.rfl

end Rules

section Paths

variable {K : Op → Prop}

theorem all_unit {o : Op} {R : Unit → Prop} : (K o ∧ ∀ r : Unit, R r) ↔ K o ∧ R () :=
  and_congr_right fun _ => ⟨fun h => h (), fun h _ => h⟩

@[simp] theorem all_push {v : Cell} {R : Unit → Prop} :
    Prog.All K R (push v) ↔ K (.push v) ∧ R () := all_unit

@[simp] theorem all_pop {R : Cell → Prop} : Prog.All K R pop ↔ K .pop ∧ ∀ v, R v := Iff.rfl

@[simp] theorem all_dropCells {n : ℕ} {R : Unit → Prop} :
    Prog.All K R (dropCells n) ↔ K (.drop n) ∧ R () := all_unit

@[simp] theorem all_room {n : ℕ} {R : Unit → Prop} :
    Prog.All K R (room n) ↔ K (.room n) ∧ R () := all_unit

@[simp] theorem all_need {n : ℕ} {R : Unit → Prop} :
    Prog.All K R (need n) ↔ K (.need n) ∧ R () := all_unit

@[simp] theorem all_peek {k : ℕ} {R : Cell → Prop} :
    Prog.All K R (peek k) ↔ K (.peek k) ∧ ∀ v, R v := Iff.rfl

@[simp] theorem all_poke {k : ℕ} {v : Cell} {R : Unit → Prop} :
    Prog.All K R (poke k v) ↔ K (.poke k v) ∧ R () := all_unit

@[simp] theorem all_bankBase {b : Bank} {R : Unit → Prop} :
    Prog.All K R (bankBase b) ↔ K (.base b) ∧ R () := all_unit

@[simp] theorem all_getSlot {b : Bank} {i : ℕ} {R : Cell → Prop} :
    Prog.All K R (getSlot b i) ↔ K (.get b i) ∧ ∀ v, R v := Iff.rfl

@[simp] theorem all_setSlot {b : Bank} {i : ℕ} {v : Cell} {R : Unit → Prop} :
    Prog.All K R (setSlot b i v) ↔ K (.set b i v) ∧ R () := all_unit

@[simp] theorem all_code {w addr : ℕ} {R : Bytes w → Prop} :
    Prog.All K R (code w addr) ↔ K (.code w addr) ∧ ∀ v, R v := Iff.rfl

@[simp] theorem all_load {w addr : ℕ} {R : Bytes w → Prop} :
    Prog.All K R (load w addr) ↔ K (.load w addr) ∧ ∀ v, R v := Iff.rfl

@[simp] theorem all_store {w addr : ℕ} {v : Bytes w} {R : Unit → Prop} :
    Prog.All K R (store w addr v) ↔ K (.store w addr v) ∧ R () := all_unit

@[simp] theorem all_setPc {n : ℕ} {R : Unit → Prop} :
    Prog.All K R (setPc n) ↔ K (.setPc n) ∧ R () := all_unit

@[simp] theorem all_unwindFrame {R : UnwindResult → Prop} :
    Prog.All K R unwindFrame ↔ K .unwind ∧ ∀ r, R r := Iff.rfl

@[simp] theorem all_fail {α : Type} {e : VmError} {R : α → Prop} :
    Prog.All K R (fail e) ↔ K (.fail e) := ⟨fun h => h.1, fun h => ⟨h, nofun⟩⟩

@[simp] theorem all_ite {α : Type} {c : Prop} [Decidable c] {p q : Program α}
    {R : α → Prop} :
    Prog.All K R (if c then p else q) ↔ if c then Prog.All K R p else Prog.All K R q := by
  split <;> rfl

@[simp] theorem all_fault {α : Type} {R : α → Prop} :
    Prog.All K R fault ↔ K .fault := ⟨fun h => h.1, fun h => ⟨h, nofun⟩⟩

@[simp] theorem all_setupCallFrame {m : ℕ} {np nl : Byte} {r : ℕ} {R : Unit → Prop} :
    Prog.All K R (setupCallFrame m np nl r) ↔ K (.enter m np nl r) ∧ R () := all_unit

@[simp] theorem all_countAssert {passed : Bool} {R : Unit → Prop} :
    Prog.All K R (countAssert passed) ↔ K (.countAssert passed) ∧ R () := all_unit

@[simp] theorem all_next {n : ℕ} {R : StepResult → Prop} :
    Prog.All K R (next n) ↔ K (.setPc n) ∧ R .continue := by
  simp [next]

@[simp] theorem all_jumpTo {target : ℤ} {R : StepResult → Prop} :
    Prog.All K R (jumpTo target) ↔ K (.jump target) ∧ R .continue := all_unit

end Paths

section Pushes

namespace Vm

@[simp] theorem write_nil (s : Vm) : s.write [] = s := by
  simp [write]

@[simp] theorem write_sp (s : Vm) (vs : List Cell) : (s.write vs).sp = s.sp + vs.length := rfl

@[simp] theorem write_capacity (s : Vm) (vs : List Cell) : (s.write vs).capacity = s.capacity := rfl

@[simp] theorem write_frames (s : Vm) (vs : List Cell) : (s.write vs).frames = s.frames := rfl

@[simp] theorem write_pc (s : Vm) (vs : List Cell) : (s.write vs).pc = s.pc := rfl

@[simp] theorem setCell_sp (s : Vm) (i : ℕ) (v : Cell) : (s.setCell i v).sp = s.sp := rfl

@[simp] theorem setCell_capacity (s : Vm) (i : ℕ) (v : Cell) :
    (s.setCell i v).capacity = s.capacity := rfl

@[simp] theorem setCell_frames (s : Vm) (i : ℕ) (v : Cell) :
    (s.setCell i v).frames = s.frames := rfl

@[simp] theorem setCell_pc (s : Vm) (i : ℕ) (v : Cell) : (s.setCell i v).pc = s.pc := rfl

theorem write_cells_lt {s : Vm} {vs : List Cell} {i : ℕ} (hi : i < s.sp) :
    (s.write vs).cells i = s.cells i := if_neg (by omega)

theorem write_cells_ge {s : Vm} {vs : List Cell} {i : ℕ} (hi : s.sp ≤ i) :
    (s.write vs).cells i = (vs[i - s.sp]?).getD (s.cells i) := if_pos hi

theorem write_cons (s : Vm) (v : Cell) (vs : List Cell) :
    (s.write [v]).write vs = s.write (v :: vs) := by
  have hcells : ((s.write [v]).write vs).cells = (s.write (v :: vs)).cells := by
    funext i
    rcases Nat.lt_trichotomy i s.sp with h | h | h
    · rw [write_cells_lt (by simp; omega), write_cells_lt h, write_cells_lt h]
    · rw [write_cells_lt (by simp; omega), write_cells_ge (by omega), write_cells_ge (by omega), h,
        Nat.sub_self]
      rfl
    · obtain ⟨j, rfl⟩ : ∃ j, i = s.sp + 1 + j := ⟨i - s.sp - 1, by omega⟩
      have hj : s.sp + 1 + j - s.sp = j + 1 := by omega
      have hj' : s.sp + 1 + j - (s.write [v]).sp = j := by simp
      rw [write_cells_ge (by simp), write_cells_ge (by omega), write_cells_ge (by omega), hj, hj']
      rfl
  have hsp : ((s.write [v]).write vs).sp = (s.write (v :: vs)).sp := by
    simp only [write_sp, List.length_cons, List.length_nil]
    omega
  have hall : (s.write [v]).write vs =
      { s.write (v :: vs) with
        cells := ((s.write [v]).write vs).cells, sp := ((s.write [v]).write vs).sp } := rfl
  rw [hall, hcells, hsp]

/-- Pushing succeeds where there is room, and else fills the stack up. -/
theorem pushCells_eq (s : Vm) (vs : List Cell) (hs : s.sp ≤ s.capacity) :
    s.pushCells vs =
      if s.sp + vs.length ≤ s.capacity then (.ok (), s.write vs)
      else (.error (.error .stackOverflow), s.write (vs.take (s.capacity - s.sp))) := by
  induction vs generalizing s with
  | nil => simp [pushCells, hs]
  | cons v vs ih =>
    rw [pushCells]
    by_cases hfull : s.capacity ≤ s.sp
    · have hzero : s.capacity - s.sp = 0 := by omega
      rw [if_pos hfull, if_neg (by simp; omega), hzero, List.take_zero, write_nil]
    · obtain ⟨k, hk⟩ : ∃ k, s.capacity - s.sp = k + 1 := ⟨s.capacity - s.sp - 1, by omega⟩
      have hk' : (s.write [v]).capacity - (s.write [v]).sp = k := by simp; omega
      rw [if_neg hfull, ih _ (by simp; omega), hk', hk, List.take_succ_cons, write_cons,
        write_cons]
      have hroom : (s.write [v]).sp + vs.length ≤ (s.write [v]).capacity ↔
          s.sp + (v :: vs).length ≤ s.capacity := by
        simp only [write_sp, write_capacity, List.length_cons, List.length_nil]
        omega
      by_cases h : s.sp + (v :: vs).length ≤ s.capacity
      · rw [if_pos h, if_pos (hroom.2 h)]
      · rw [if_neg h, if_neg (fun h' => h (hroom.1 h'))]

theorem settles_andThen {α : Type} {Q : α → Vm → Prop} {X : Halt → Vm → Prop}
    {o : Except Halt Unit × Vm} {f : Vm → Except Halt α × Vm} :
    Prog.Settles Q X (andThen o f) ↔ Prog.Settles (fun _ t => Prog.Settles Q X (f t)) X o := by
  rcases o with ⟨_ | _, t⟩ <;> exact Iff.rfl

theorem andThen_state {α : Type} {I J : Vm → Prop} {o : Except Halt Unit × Vm}
    {f : Vm → Except Halt α × Vm} (ho : I o.2) (hstop : ∀ t, I t → J t)
    (hf : ∀ t, I t → J (f t).2) : J (andThen o f).2 := by
  rcases o with ⟨_ | _, t⟩
  · exact hstop t ho
  · exact hf t ho

theorem peekIndex_eq {s : Vm} {k : ℕ} (hk : 1 ≤ k) (hle : k ≤ s.sp) (hs : s.sp ≤ s.capacity) :
    s.peekIndex k = .ok (s.sp - k) := by
  unfold peekIndex
  rw [if_neg (by omega), if_pos (by omega)]

end Vm

theorem post_peek_le {X : Halt → Vm → Prop} {s : Vm} {k : ℕ} {Q : Cell → Vm → Prop} (hk : 1 ≤ k)
    (hle : k ≤ s.sp) (hs : s.sp ≤ s.capacity) :
    Prog.Post Vm.handle Q X (peek k) s ↔ Q (s.top k) s := by
  rw [post_peek, Vm.peekIndex_eq hk hle hs]
  rfl

theorem post_poke_le {X : Halt → Vm → Prop} {s : Vm} {k : ℕ} {v : Cell} {Q : Unit → Vm → Prop}
    (hk : 1 ≤ k) (hle : k ≤ s.sp) (hs : s.sp ≤ s.capacity) :
    Prog.Post Vm.handle Q X (poke k v) s ↔ Q () (s.setCell (s.sp - k) v) := by
  rw [post_poke, Vm.peekIndex_eq hk hle hs]

end Pushes

section Fixed

structure Vm.Fixed (s t : Vm) : Prop where
  code : t.code = s.code
  blockSize : t.blockSize = s.blockSize
  capacity : t.capacity = s.capacity
  stopped : t.stopped = s.stopped

namespace Vm

theorem Fixed.refl (s : Vm) : Fixed s s := ⟨rfl, rfl, rfl, rfl⟩

theorem Fixed.trans {s t u : Vm} (hst : Fixed s t) (htu : Fixed t u) : Fixed s u :=
  ⟨htu.code.trans hst.code, htu.blockSize.trans hst.blockSize, htu.capacity.trans hst.capacity,
    htu.stopped.trans hst.stopped⟩

theorem andThen_fixed {α : Type} {s : Vm} {o : Except Halt Unit × Vm}
    {f : Vm → Except Halt α × Vm} (ho : Fixed s o.2) (hf : ∀ t, Fixed t (f t).2) :
    Fixed s (andThen o f).2 :=
  andThen_state (I := Fixed s) ho (fun _ h => h) fun t ht => ht.trans (hf t)

theorem pushCells_fixed (s : Vm) (vs : List Cell) : Fixed s (s.pushCells vs).2 := by
  induction vs generalizing s with
  | nil => exact Fixed.refl s
  | cons v vs ih =>
    rw [pushCells]
    split
    · exact Fixed.refl s
    · have hwrite : Fixed s (s.write [v]) := ⟨rfl, rfl, rfl, rfl⟩
      exact hwrite.trans (ih _)

theorem pushFrame_fixed (s : Vm) (f : CallFrame) : Fixed s (s.pushFrame f).2 := by
  unfold pushFrame
  split <;> exact ⟨rfl, rfl, rfl, rfl⟩

theorem setupCallFrame_fixed (s : Vm) (m : ℕ) (np nl : Byte) (r : ℕ) :
    Fixed s (s.setupCallFrame m np nl r).2 :=
  andThen_fixed (pushCells_fixed _ _) fun t =>
    andThen_fixed (pushFrame_fixed t _) fun u =>
      andThen_fixed (pushCells_fixed u _) fun _ => ⟨rfl, rfl, rfl, rfl⟩

theorem pushEntry_fixed (s : Vm) (entryPoint : ℕ) (args : List Cell) (np nl : Byte) :
    Fixed s (s.pushEntry entryPoint args np nl).2 :=
  andThen_fixed (pushCells_fixed _ _) fun t => pushFrame_fixed t _

theorem setup_fixed (s : Vm) (e : Entry) : Fixed s (e.setup s).2 := by
  cases e with
  | withArgs entryPoint args =>
    exact andThen_fixed (pushEntry_fixed s entryPoint args _ _) fun _ => ⟨rfl, rfl, rfl, rfl⟩
  | method entryPoint args =>
    rw [Entry.setup]
    split
    · exact Fixed.refl s
    · split
      · exact Fixed.refl s
      · split
        · exact Fixed.refl s
        · exact andThen_fixed (pushEntry_fixed s entryPoint args _ _) fun t =>
            andThen_fixed (pushCells_fixed t _) fun _ => ⟨rfl, rfl, rfl, rfl⟩

theorem handle_fixed (o : Op) (s : Vm) : Fixed s (handle o s).2 := by
  cases o <;> simp only [handle]
  case enter m np nl r => exact s.setupCallFrame_fixed m np nl r
  case unwind =>
    unfold unwindFrame
    split
    · exact Fixed.refl s
    · split_ifs <;> exact ⟨rfl, rfl, rfl, rfl⟩
  case countAssert passed =>
    unfold Vm.countAssert
    cases passed <;> simp only <;> split_ifs <;> exact ⟨rfl, rfl, rfl, rfl⟩
  all_goals
    first
    | exact ⟨rfl, rfl, rfl, rfl⟩
    | (split <;> first | exact ⟨rfl, rfl, rfl, rfl⟩ | (split <;> exact ⟨rfl, rfl, rfl, rfl⟩))

theorem step_fixed (natives : Natives) (s : Vm) : Fixed s (s.step natives).2 :=
  Prog.run_state (I := Fixed s) (fun o t ht => ht.trans (handle_fixed o t)) (Fixed.refl s)

end Vm

end Fixed

section Step

/-- What the arm of an instruction adds to the program counter when it falls
    through; the arms without such a path have none. The `Switch` arm adds the
    length of its table too. -/
def Instr.length : Instr → Option ℕ
  | .operand w | .jumpIf w _ | .jumpCompare w _ | .foreach w | .loadField _ w
  | .loadFieldWide w | .storeField _ w | .storeFieldWide w | .loadConstField w
  | .loadInlineField w | .loadParam0InlineField w => some (1 + w)
  | .loadSlotU1 _ | .loadSlotWide _ | .storeSlotU1 _ | .storeSlotWide _ => some 2
  | .poolInt | .poolWide | .poolRef | .loadConstStatic | .initBlock _ | .assert | .switch
  | .metaSlot => some 3
  | .callNative | .callNativeWide | .callNativeVoid => some 4
  | .jump _ | .call | .loadParam0Call | .callVirtual | .returnPop | .returnPopWide
  | .returnVoid | .unsupported => none
  | _ => some 1

theorem Opcode.length_le {op : Opcode} {n : ℕ} (hn : op.instr.length = some n) : n ≤ 5 := by
  revert hn
  cases op <;>
    simp only [Opcode.instr, Instr.length, Option.some.injEq, reduceCtorEq, false_implies] <;>
    intro hn <;> subst hn <;> decide

theorem step_byte (natives : Natives) {s : Vm} {byte : Byte} (hbyte : s.codeAt 1 s.pc = some byte) :
    s.step natives = Prog.run Vm.handle (match Opcode.tryFrom byte with
      | none => fail (.invalidOpcode byte)
      | some op => exec natives s.blockSize.toNat s.pc byte op.instr) s := by
  change Prog.run Vm.handle (.op (Op.code 1 s.pc : ops.Op) _) s = _
  rw [Prog.run]
  simp only [Vm.handle, hbyte]
  rfl

theorem step_opcode (natives : Natives) {s : Vm} {op : Opcode} (hop : s.opcode = some op) :
    ∃ byte, s.codeAt 1 s.pc = some byte ∧ Opcode.tryFrom byte = some op ∧
      s.step natives = Prog.run Vm.handle (exec natives s.blockSize.toNat s.pc byte op.instr) s := by
  obtain ⟨byte, hbyte, hdecode⟩ := Option.bind_eq_some_iff.1 hop
  refine ⟨byte, hbyte, hdecode, ?_⟩
  rw [step_byte natives hbyte, hdecode]

theorem step_invalid (natives : Natives) {s : Vm} {byte : Byte} (hbyte : s.codeAt 1 s.pc = some byte)
    (hdecode : Opcode.tryFrom byte = none) :
    s.step natives = (.error (.error (.invalidOpcode byte)), s) := by
  rewrite [step_byte natives hbyte, hdecode]
  rfl

theorem step_undecoded_error (natives : Natives) {s : Vm} (hop : s.opcode = none) :
    s.step natives = (.error (.error (match s.codeAt 1 s.pc with
      | none => .pcOutOfBounds s.pc s.code.length
      | some byte => .invalidOpcode byte)), s) := by
  cases hbyte : s.codeAt 1 s.pc with
  | none =>
    change Prog.run Vm.handle (.op (Op.code 1 s.pc : ops.Op) _) s = _
    rw [Prog.run]
    simp only [Vm.handle, hbyte]
  | some byte =>
    have hdecode : Opcode.tryFrom byte = none := by
      simpa only [Vm.opcode, hbyte, Option.bind_some] using hop
    exact step_invalid natives hbyte hdecode

theorem along_opcode (natives : Natives) {K : Op → Vm → Prop} {s : Vm} {op : Opcode}
    (hop : s.opcode = some op)
    (halong : Prog.Along Vm.handle K (stepProgram natives s.blockSize.toNat s.pc) s) :
    ∃ byte, s.codeAt 1 s.pc = some byte ∧
      Prog.Along Vm.handle K (exec natives s.blockSize.toNat s.pc byte op.instr) s ∧
      s.step natives =
        Prog.run Vm.handle (exec natives s.blockSize.toNat s.pc byte op.instr) s := by
  obtain ⟨byte, hbyte, hdecode, hstep⟩ := step_opcode natives hop
  refine ⟨byte, hbyte, ?_, hstep⟩
  have hrest := (Prog.along_op.1 halong).2
  simp only [Vm.handle, hbyte] at hrest
  have harm : Prog.Along Vm.handle K (match Opcode.tryFrom byte with
      | none => fail (.invalidOpcode byte)
      | some op => exec natives s.blockSize.toNat s.pc byte op.instr) s := hrest
  rw [hdecode] at harm
  exact harm

end Step

end Sandstar.Svm
