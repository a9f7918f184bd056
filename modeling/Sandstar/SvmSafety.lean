import Sandstar.SvmMemory
import Sandstar.SvmRules
import Sandstar.SvmRunner

set_option autoImplicit false

/-!
# Safety of the virtual machine

Every operation keeps the stack inside its vector and every frame above its
parameters. What an instruction can still do wrong is arithmetic that it does
not check: on the stack pointer, on a negative index or offset, on a jump
before the code, or on a parameter count taken from the code.
-/
namespace Sandstar.Svm

open Sandstar.Effects

section Invariant

/-- The bound below which no `isize` is negative. -/
def isizeLimit : ℕ := 2 ^ 63

/-- A frame lies in the stack, above its parameters. -/
structure CallFrame.Ok (capacity : ℕ) (f : CallFrame) : Prop where
  params : f.numParams.toNat ≤ f.framePointer
  inside : f.framePointer ≤ capacity
  returnPc : f.returnPc < isizeLimit

structure Vm.StackOk (s : Vm) : Prop where
  sp : s.sp ≤ s.capacity
  frames : ∀ f ∈ s.frames, f.Ok s.capacity

structure Vm.Sound (s : Vm) : Prop extends Vm.StackOk s where
  pc : s.pc < isizeLimit

/-- An outcome is no panic. -/
def Harmless (e : Halt) (t : Vm) : Prop := (∃ err, e = .error err) ∧ t.StackOk

end Invariant

section Conditions

namespace Vm

def BranchSafe (s : Vm) (w : ℕ) : Prop :=
  ∀ offset, s.codeAt w (s.pc + 1) = some offset → 0 ≤ (s.pc : ℤ) + 1 + w + offset.toInt

def OffsetSafe (s : Vm) (w : ℕ) : Prop :=
  ∀ offset : Bytes w, s.codeAt w (s.pc + 1) = some offset → (offset.setWidth 32).toInt ≠ -2 ^ 31

/-- A frame for the method at `m`, opened at stack pointer `sp`, lies above the
    parameters its header asks for. -/
def FrameSafe (s : Vm) (m sp : ℕ) : Prop :=
  ∀ numParams : Byte, s.codeAt 1 m = some numParams → (s.codeAt 1 (m + 1)).isSome →
    sp + 3 ≤ s.capacity → s.frames.length < maxFrameDepth → numParams.toNat ≤ sp

def CallSafe (s : Vm) (sp : ℕ) : Prop :=
  ∀ bix : Bytes 2, s.codeAt 2 (s.pc + 1) = some bix → s.FrameSafe (s.blockToAddr bix.toNat) sp

def virtualBlock (s : Vm) (methodIdx : Bytes 2) (this : Cell) : Option (Bytes 2) :=
  (s.dataAt 2 this.toNat).bind fun vtable =>
    s.codeAt 2 (s.blockToAddr vtable.toNat + methodIdx.toNat * 2)

/-- The parameter count of a native call is on the stack. -/
def NativeSafe (s : Vm) : Prop :=
  ∀ n : Byte, s.codeAt 1 (s.pc + 3) = some n → n.toNat ≤ s.sp

/-- `InitArray` over a reference area and elements that stay in `usize`: the
    first element a negative size can push over is the second or the third. -/
def InitSafe (s : Vm) (elemSize length : ℤ) (base : ℕ) : Prop :=
  0 ≤ length ∧
    let bad := if -elemSize ≤ base + length * 4 then 1 else 2
    0 ≤ elemSize ∨ length ≤ bad ∨ s.data.length < base + 4 * bad

def AssertSafe (s : Vm) (passed : Bool) : Prop :=
  (if passed then s.assertSuccesses else s.assertFailures) + 1 < 2 ^ 31

/-- The entry `Switch` selects does not lead before the code. -/
def SwitchSafe (s : Vm) (cond : Cell) : Prop :=
  ∀ num offset : Bytes 2, s.codeAt 2 (s.pc + 1) = some num → 0 ≤ cond.toInt →
    cond.toInt < num.toNat → s.codeAt 2 (s.pc + 3 + cond.toNat * 2) = some offset →
    0 ≤ (s.pc : ℤ) + offset.toInt

def SafeInstr (s : Vm) : Instr → Prop
  | .jump w => s.BranchSafe w
  | .jumpIf w c => 1 ≤ s.sp → c (s.top 1) = true → s.BranchSafe w
  | .jumpCompare w c => 2 ≤ s.sp → c (s.top 2) (s.top 1) = true → s.BranchSafe w
  | .foreach w =>
    2 ≤ s.sp ∧ if (s.top 2).sle (s.top 1 + 1) then s.BranchSafe w else 3 ≤ s.sp
  | .loadField _ w | .loadFieldWide w | .loadConstField w => 1 ≤ s.sp → s.OffsetSafe w
  | .storeField _ w => 2 ≤ s.sp → s.OffsetSafe w
  | .storeFieldWide w => 3 ≤ s.sp → s.OffsetSafe w
  | .load8BitArray => 2 ≤ s.sp → (s.top 1).toInt ≠ -2 ^ 31
  | .store8BitArray => 3 ≤ s.sp → (s.top 2).toInt ≠ -2 ^ 31
  | .loadArray _ | .loadArrayWide | .loadConstArray => 2 ≤ s.sp → 0 ≤ (s.top 1).toInt
  | .addArray n => 2 ≤ s.sp → n = 1 ∨ 0 ≤ (s.top 1).toInt
  | .storeArray _ => 3 ≤ s.sp → 0 ≤ (s.top 2).toInt
  | .storeArrayWide => 4 ≤ s.sp → 0 ≤ (s.top 3).toInt
  | .call => s.CallSafe s.sp
  | .loadParam0Call => s.sp < s.capacity → s.CallSafe (s.sp + 1)
  | .callVirtual => ∀ (methodIdx : Bytes 2) (n : Byte), s.codeAt 2 (s.pc + 1) = some methodIdx →
      s.codeAt 1 (s.pc + 3) = some n → n.toNat ≤ s.sp ∧
        ∀ bix, s.virtualBlock methodIdx (s.top n.toNat) = some bix →
          s.FrameSafe (s.blockToAddr bix.toNat) s.sp
  | .callNative | .callNativeWide | .callNativeVoid => s.NativeSafe
  | .initArray => 3 ≤ s.sp → s.InitSafe (s.top 1).toInt (s.top 2).toInt (s.top 3).toNat
  | .assert => 1 ≤ s.sp → (s.codeAt 2 (s.pc + 1)).isSome → s.AssertSafe (s.top 1 != 0)
  | .switch => 1 ≤ s.sp → s.SwitchSafe (s.top 1)
  | _ => True

def Safe (s : Vm) : Prop := ∀ op, s.opcode = some op → s.SafeInstr op.instr

end Vm

end Conditions

section Total

/-- The operations that cannot panic in a sound state. -/
def Op.Total : Op → Prop
  | .peek _ | .poke _ _ | .jump _ | .enter _ _ _ _ | .countAssert _ | .fault => False
  | .setPc n => n < isizeLimit
  | _ => True

theorem harmless_error {s : Vm} (hs : s.StackOk) (err : VmError) : Harmless (.error err) s :=
  ⟨⟨err, rfl⟩, hs⟩

theorem Vm.Sound.write {s : Vm} (hs : s.Sound) {v : Cell} (hroom : s.sp < s.capacity) :
    (s.write [v]).Sound where
  sp := hroom
  frames := hs.frames
  pc := hs.pc

theorem Vm.Sound.drop {s : Vm} (hs : s.Sound) (n : ℕ) : Vm.Sound { s with sp := s.sp - n } where
  sp := (Nat.sub_le _ _).trans hs.sp
  frames := hs.frames
  pc := hs.pc

theorem Vm.StackOk.bankBase {s : Vm} (hs : s.StackOk) (b : Bank) {e : Halt}
    (he : s.bankBase b = .error e) : e = .error .stackUnderflow := by
  unfold Vm.bankBase at he
  split at he
  · exact (Except.error.inj he).symm
  · rename_i f fs hframes
    have hf := hs.frames f (by rw [hframes]; exact List.mem_cons_self)
    cases b with
    | params =>
      simp only [if_pos hf.params] at he
      cases he
    | locals => cases he

theorem Vm.StackOk.slotIndex {s : Vm} (hs : s.StackOk) (b : Bank) (i : ℕ) {e : Halt}
    (he : s.slotIndex b i = .error e) : ∃ err, e = .error err := by
  unfold Vm.slotIndex at he
  split at he
  · rename_i e' hbase
    cases he
    exact ⟨_, hs.bankBase b hbase⟩
  · split at he
    · cases he
    · exact ⟨_, (Except.error.inj he).symm⟩

theorem post_total {o : Op} (ho : o.Total) {s : Vm} (hs : s.Sound) :
    Prog.Post Vm.handle (fun _ t => t.Sound) Harmless (Prog.perform (o : ops.Op)) s := by
  apply Prog.post_perform.2
  cases o <;> simp only [Vm.handle]
  case push v =>
    split
    · exact harmless_error hs.toStackOk _
    · exact hs.write (by omega)
  case pop =>
    have hle := hs.sp
    split
    · exact harmless_error hs.toStackOk _
    · rw [if_neg (by omega)]
      exact hs.drop 1
  case drop n =>
    split
    · exact harmless_error hs.toStackOk _
    · exact hs.drop n
  case room n =>
    split
    · exact harmless_error hs.toStackOk _
    · exact hs
  case need n =>
    split
    · exact harmless_error hs.toStackOk _
    · exact hs
  case base b =>
    split
    · rename_i e he
      exact ⟨⟨_, hs.bankBase b he⟩, hs.toStackOk⟩
    · exact hs
  case get b i =>
    split
    · rename_i e he
      exact ⟨hs.slotIndex b i he, hs.toStackOk⟩
    · exact hs
  case set b i v =>
    split
    · rename_i e he
      exact ⟨hs.slotIndex b i he, hs.toStackOk⟩
    · exact ⟨⟨hs.sp, hs.frames⟩, hs.pc⟩
  case code w addr =>
    split
    · exact harmless_error hs.toStackOk _
    · exact hs
  case load w addr =>
    split
    · exact harmless_error hs.toStackOk _
    · exact hs
  case store w addr v =>
    split
    · exact harmless_error hs.toStackOk _
    · exact ⟨⟨hs.sp, hs.frames⟩, hs.pc⟩
  case setPc n => exact ⟨⟨hs.sp, hs.frames⟩, ho⟩
  case unwind =>
    unfold Vm.unwindFrame
    split
    · exact harmless_error hs.toStackOk _
    · rename_i f fs hframes
      have hf := hs.frames f (by rw [hframes]; exact List.mem_cons_self)
      have hfs : ∀ g ∈ fs, g.Ok s.capacity := by
        intro g hg
        exact hs.frames g (by rw [hframes]; exact List.mem_cons_of_mem _ hg)
      have hsp : f.framePointer - f.numParams.toNat ≤ s.capacity := (Nat.sub_le _ _).trans hf.inside
      rw [if_pos hf.params]
      split
      · exact ⟨⟨hsp, hfs⟩, hs.pc⟩
      · exact ⟨⟨hsp, hfs⟩, hf.returnPc⟩
  case fail e => exact harmless_error hs.toStackOk _
  all_goals exact ho.elim

/-- A program of total operations keeps a sound state sound. -/
theorem post_of_total {α : Type} {p : Program α} (hp : Prog.All Op.Total (fun _ => True) p)
    {s : Vm} (hs : s.Sound) : Prog.Post Vm.handle (fun _ t => t.Sound) Harmless p s :=
  (Prog.post_of_all (fun _ ho _ hs => post_total ho hs) hp hs).mono (fun _ _ h => h.2) fun _ _ h => h

def Instr.plain : Instr → Bool
  | .nop | .literal _ | .literalWide _ | .operand _ | .poolInt | .poolWide | .poolRef
  | .loadSlot _ _ | .loadSlotU1 _ | .loadSlotWide _ | .storeSlot _ _ | .storeSlotU1 _
  | .storeSlotWide _ | .unary _ | .binary _ | .unaryWide _ | .binaryWide _ | .compareWide _
  | .shiftWide _ | .widen _ | .narrow _ | .drop _ | .loadConstStatic | .loadInlineField _
  | .loadParam0InlineField _ | .returnPop | .returnPopWide | .returnVoid | .initBlock _
  | .metaSlot | .unsupported => true
  | _ => false

variable (natives : Natives) (blockSize pc : ℕ) (opByte : Byte)

theorem all_next_total {n : ℕ} :
    Prog.All Op.Total (fun _ => True) (next n) ↔ n < isizeLimit := by
  simp [Op.Total]

theorem exec_plain_total {i : Instr} (hi : i.plain = true)
    (hlen : ∀ n, i.length = some n → pc + n < isizeLimit) :
    Prog.All Op.Total (fun _ => True) (exec natives blockSize pc opByte i) := by
  cases i <;> first
    | (cases hi; done)
    | simp [exec, Op.Total, pushRef, popRef, pushI64, popI64, getSlotWide, setSlotWide, setData,
        dataAddr]
  case returnPop => rintro v (_ | _) <;> simp [Op.Total]
  case returnPopWide => rintro v w (_ | _) <;> simp [Op.Total]
  case returnVoid => rintro (_ | _) <;> simp
  case initBlock => exact fun _ _ => hlen _ rfl
  all_goals
    first
    | exact hlen _ rfl
    | (rw [Nat.add_assoc]; exact hlen _ rfl)

/-- An address that is not computed by negating the least `i32` is total. -/
theorem dataAddr_total {base : ℕ} {offset : ℤ} {R : ℕ → Prop} (hoffset : offset ≠ -2 ^ 31)
    (hR : ∀ a, R a) : Prog.All Op.Total R (dataAddr base offset) := by
  unfold dataAddr
  split
  · split
    · exact hR _
    · exact all_fail.2 trivial
  · split
    · exact hR _
    · exact all_fail.2 trivial

theorem getData_total {w base : ℕ} {offset : ℤ} {R : Bytes w → Prop} (hoffset : offset ≠ -2 ^ 31)
    (hR : ∀ v, R v) : Prog.All Op.Total R (getData w base offset) :=
  Prog.all_bind.2 (dataAddr_total hoffset fun _ => all_load.2 ⟨trivial, hR⟩)

theorem setData_total {w base : ℕ} {offset : ℤ} {v : Bytes w} {R : Unit → Prop}
    (hoffset : offset ≠ -2 ^ 31) (hR : R ()) : Prog.All Op.Total R (setData w base offset v) :=
  Prog.all_bind.2 (dataAddr_total hoffset fun _ => all_store.2 ⟨trivial, hR⟩)

theorem checked_total {n : ℕ} {R : ℕ → Prop} (hn : n < usizeLimit) (hR : R n) :
    Prog.All Op.Total R (checked n) := by
  unfold checked
  rw [if_pos hn]
  exact hR

/-- `as usize` on `i32` keeps a number that is not negative, and else wraps. -/
theorem usize_eq (v : Cell) : (usize v : ℤ) = if 0 ≤ v.toInt then v.toInt else 2 ^ 64 + v.toInt := by
  have hsigned : (v.signExtend 64).toInt = v.toInt := BitVec.toInt_signExtend_of_le (by decide)
  have hcond := BitVec.toInt_eq_toNat_cond (v.signExtend 64)
  have hlt := (v.signExtend 64).isLt
  unfold usize
  rw [← hsigned]
  split at hcond <;> split <;> omega

theorem usize_lt {v : Cell} (hv : 0 ≤ v.toInt) : usize v < 2 ^ 31 := by
  have heq := usize_eq v
  have hlt := @BitVec.toInt_lt 32 v
  rw [if_pos hv] at heq
  omega

/-- A non-negative index scaled by at most 8 is an address. -/
theorem elemAddr_total {n base : ℕ} {idx : Cell} {R : ℕ → Prop} (hidx : 0 ≤ idx.toInt)
    (hn : n ≤ 8) (hR : ∀ a, R a) : Prog.All Op.Total R (elemAddr n base idx) := by
  have hle : usize idx * n ≤ 2 ^ 31 * 8 := Nat.mul_le_mul (usize_lt hidx).le hn
  exact Prog.all_bind.2 (checked_total (by unfold usizeLimit; omega) (hR _))

end Total

section Chains

/-- From `s`, the rest of an instruction ends soundly or with an error. -/
def Vm.Keeps (s : Vm) (p : Program StepResult) : Prop :=
  Prog.Post Vm.handle (fun _ t => t.Sound) Harmless p s

variable {s : Vm}

theorem keeps_total {p : Program StepResult} (hp : Prog.All Op.Total (fun _ => True) p)
    (hs : s.Sound) : s.Keeps p := post_of_total hp hs

theorem keeps_pop {f : Cell → Program StepResult} (hs : s.Sound)
    (hf : 1 ≤ s.sp → Vm.Keeps { s with sp := s.sp - 1 } (f (s.top 1))) : s.Keeps (pop >>= f) := by
  have hle := hs.sp
  apply Prog.post_bind.2
  rw [post_pop]
  split
  · exact harmless_error hs.toStackOk _
  · rw [if_neg (by omega)]
    exact hf (by omega)

theorem keeps_popRef {f : ℕ → Program StepResult} (hs : s.Sound)
    (hf : 1 ≤ s.sp → Vm.Keeps { s with sp := s.sp - 1 } (f (s.top 1).toNat)) :
    s.Keeps (popRef >>= f) := keeps_pop hs hf

theorem keeps_popI64 {f : BitVec 64 → Program StepResult} (hs : s.Sound)
    (hf : 2 ≤ s.sp → ∀ v, Vm.Keeps { s with sp := s.sp - 1 - 1 } (f v)) :
    s.Keeps (popI64 >>= f) := by
  have hle := hs.sp
  apply Prog.post_bind.2
  simp only [popI64, Prog.post_bind, post_need, post_pop, Prog.pure_eq, Prog.post_ret]
  split
  · exact harmless_error hs.toStackOk _
  · rw [if_neg (by omega), if_neg (by omega), if_neg (by omega), if_neg (by omega)]
    exact hf (by omega) _

theorem keeps_code {w addr : ℕ} {f : Bytes w → Program StepResult} (hs : s.Sound)
    (hf : ∀ v, s.codeAt w addr = some v → s.Keeps (f v)) : s.Keeps (code w addr >>= f) := by
  apply Prog.post_bind.2
  rw [post_code]
  split
  · exact harmless_error hs.toStackOk _
  · exact hf _ ‹_›

theorem keeps_push {v : Cell} {f : Unit → Program StepResult} (hs : s.Sound)
    (hf : s.sp < s.capacity → Vm.Keeps (s.write [v]) (f ())) : s.Keeps (push v >>= f) := by
  apply Prog.post_bind.2
  rw [post_push]
  split
  · exact harmless_error hs.toStackOk _
  · exact hf (by omega)

theorem keeps_need {n : ℕ} {f : Unit → Program StepResult} (hs : s.Sound)
    (hf : n ≤ s.sp → s.Keeps (f ())) : s.Keeps (need n >>= f) := by
  apply Prog.post_bind.2
  rw [post_need]
  split
  · exact harmless_error hs.toStackOk _
  · exact hf (by omega)

theorem keeps_room {n : ℕ} {f : Unit → Program StepResult} (hs : s.Sound)
    (hf : s.Keeps (f ())) : s.Keeps (room n >>= f) := by
  apply Prog.post_bind.2
  rw [post_room]
  split
  · exact harmless_error hs.toStackOk _
  · exact hf

theorem keeps_peek {k : ℕ} {f : Cell → Program StepResult} (hs : s.Sound) (hk : 1 ≤ k ∧ k ≤ s.sp)
    (hf : s.Keeps (f (s.top k))) : s.Keeps (peek k >>= f) :=
  Prog.post_bind.2 ((post_peek_le hk.1 hk.2 hs.sp).2 hf)

theorem keeps_poke {k : ℕ} {v : Cell} {f : Unit → Program StepResult} (hs : s.Sound)
    (hk : 1 ≤ k ∧ k ≤ s.sp) (hf : Vm.Keeps (s.setCell (s.sp - k) v) (f ())) :
    s.Keeps (poke k v >>= f) := Prog.post_bind.2 ((post_poke_le hk.1 hk.2 hs.sp).2 hf)

theorem Vm.Sound.setCell (hs : s.Sound) (i : ℕ) (v : Cell) : (s.setCell i v).Sound :=
  ⟨⟨hs.sp, hs.frames⟩, hs.pc⟩

/-- A branch that does not lead before the code. -/
theorem keeps_branch {w : ℕ} (hs : s.Sound) (hpc : s.pc < 2 ^ 32) (hw : w ≤ 2)
    (hsafe : s.BranchSafe w) : s.Keeps (branch s.pc w) := by
  apply keeps_code hs
  intro offset hoffset
  have hlow := hsafe offset hoffset
  have hhigh : offset.toInt < 2 ^ 15 := by
    have hlt := @BitVec.toInt_lt (8 * w) offset
    have hpow : (2 : ℤ) ^ (8 * w - 1) ≤ 2 ^ 15 :=
      pow_le_pow_right₀ (by norm_num) (by omega)
    omega
  refine ⟨⟨hs.sp, hs.frames⟩, ?_⟩
  change (((s.pc : ℤ) + 1 + w + offset.toInt) % usizeLimit).toNat < isizeLimit
  unfold usizeLimit isizeLimit
  omega

theorem Vm.StackOk.writeAll (hs : s.StackOk) {vs : List Cell} (hroom : s.sp + vs.length ≤ s.capacity) :
    (s.write vs).StackOk := ⟨hroom, hs.frames⟩

theorem settles_pushCells {vs : List Cell} {Q : Unit → Vm → Prop} (hs : s.StackOk)
    (hQ : s.sp + vs.length ≤ s.capacity → Q () (s.write vs)) :
    Prog.Settles Q Harmless (s.pushCells vs) := by
  rw [Vm.pushCells_eq s vs hs.sp]
  split
  · exact hQ ‹_›
  · have hle := hs.sp
    exact harmless_error (hs.writeAll (by simp; omega)) _

theorem settles_pushFrame {f : CallFrame} {Q : Unit → Vm → Prop} (hs : s.StackOk)
    (hQ : s.frames.length < maxFrameDepth → Q () { s with frames := f :: s.frames }) :
    Prog.Settles Q Harmless (s.pushFrame f) := by
  unfold Vm.pushFrame
  split
  · exact harmless_error hs _
  · exact hQ (by omega)

theorem Vm.StackOk.cons (hs : s.StackOk) {f : CallFrame} (hf : f.Ok s.capacity) :
    Vm.StackOk { s with frames := f :: s.frames } where
  sp := hs.sp
  frames g hg := by
    rcases List.mem_cons.1 hg with rfl | hg
    · exact hf
    · exact hs.frames g hg

/-- A call that finds its parameters on the stack. -/
theorem keeps_setup {m r : ℕ} {np nl : Byte} (hs : s.Sound) (hm : m + 2 < isizeLimit)
    (hr : r < isizeLimit)
    (hnp : s.sp + 3 ≤ s.capacity → s.frames.length < maxFrameDepth → np.toNat ≤ s.sp) :
    s.Keeps (setupCallFrame m np nl r >>= fun _ => pure .continue) := by
  apply Prog.post_bind.2
  apply (post_perform (.enter m np nl r)).2
  change Prog.Settles (fun _ t => t.Sound) Harmless (s.setupCallFrame m np nl r)
  unfold Vm.setupCallFrame
  rw [Vm.settles_andThen]
  apply settles_pushCells hs.toStackOk
  intro hroom
  rw [Vm.settles_andThen]
  apply settles_pushFrame (hs.toStackOk.writeAll hroom)
  intro hdepth
  rw [Vm.settles_andThen]
  have hframe : CallFrame.Ok s.capacity ⟨r, s.sp + 3 - 3, np, nl⟩ :=
    ⟨(hnp hroom hdepth).trans (by simp), by simpa using hs.sp, hr⟩
  have hok := (hs.toStackOk.writeAll hroom).cons hframe
  apply settles_pushCells hok
  intro hlocals
  have hfinal := hok.writeAll hlocals
  exact ⟨⟨hfinal.sp, hfinal.frames⟩, hm⟩

theorem keeps_nativeOperands {f : Byte × BitVec 16 × ℕ → Program StepResult} (hs : s.Sound)
    (hf : ∀ k m n, s.codeAt 1 (s.pc + 3) = some n → s.Keeps (f (k, m, n.toNat))) :
    s.Keeps (nativeOperands s.pc >>= f) := by
  apply Prog.post_bind.2
  simp only [nativeOperands, Prog.post_bind, post_code, Prog.pure_eq, Prog.post_ret]
  split
  · exact harmless_error hs.toStackOk _
  · split
    · exact harmless_error hs.toStackOk _
    · split
      · exact harmless_error hs.toStackOk _
      · exact hf _ _ _ ‹_›

theorem post_peekParams {X : Halt → Vm → Prop} {Q : List Cell → Vm → Prop} {n : ℕ} (hn : n ≤ s.sp)
    (hs : s.sp ≤ s.capacity) (hQ : ∀ vs, Q vs s) : Prog.Post Vm.handle Q X (peekParams n) s := by
  induction n generalizing Q with
  | zero => exact hQ []
  | succ n ih =>
    apply Prog.post_bind.2
    rw [post_peek_le (by omega) hn hs]
    apply Prog.post_bind.2
    exact ih (by omega) fun vs => hQ _

theorem popParams_total {n : ℕ} {R : Unit → Prop} (hR : R ()) :
    Prog.All Op.Total R (popParams n) := by
  induction n with
  | zero => exact hR
  | succ n ih => exact Prog.all_bind.2 (all_pop.2 ⟨trivial, fun _ => ih⟩)

/-- A native call whose parameters are on the stack. -/
theorem keeps_native {α : Type} {f : Byte → BitVec 16 → List Cell → Except VmError α}
    {g : α → Program StepResult} (hs : s.Sound) (hsafe : s.NativeSafe)
    (hg : ∀ a, Prog.All Op.Total (fun _ => True) (g a)) :
    s.Keeps (do
      let (kitId, methodId, numParams) ← nativeOperands s.pc
      let params ← peekParams numParams
      let result ← nativeResult (f kitId methodId params)
      popParams numParams
      g result) := by
  apply keeps_nativeOperands hs
  intro k m n hn
  apply Prog.post_bind.2
  apply post_peekParams (hsafe n hn) hs.sp
  intro params
  cases f k m params with
  | error e => exact harmless_error hs.toStackOk e
  | ok a =>
    change s.Keeps (popParams n.toNat >>= fun _ => g a)
    exact keeps_total (Prog.all_bind.2 (popParams_total (hg a))) hs

end Chains

section Instructions

def Instr.bounded : Instr → Bool
  | .jump w | .jumpIf w _ | .jumpCompare w _ | .foreach w => w ≤ 2
  | .loadArray n | .storeArray n | .addArray n => n ≤ 8
  | _ => true

theorem Opcode.bounded (op : Opcode) : op.instr.bounded = true := by
  cases op <;> rfl

variable (natives : Natives) (opByte : Byte) {s : Vm}

theorem keeps_ite {c : Prop} [Decidable c] {p q : Program StepResult} (hp : c → s.Keeps p)
    (hq : ¬c → s.Keeps q) : s.Keeps (if c then p else q) := by
  split
  · exact hp ‹_›
  · exact hq ‹_›

theorem keeps_next {n : ℕ} (hs : s.Sound) (hn : n < isizeLimit) : s.Keeps (next n) :=
  keeps_total (all_next_total.2 hn) hs

theorem foreach_keeps {w : ℕ} (hs : s.Sound) (hpc : s.pc < 2 ^ 32) (hw : w ≤ 2)
    (hsafe : s.SafeInstr (.foreach w)) :
    s.Keeps (exec natives s.blockSize.toNat s.pc opByte (.foreach w)) := by
  obtain ⟨htwo, hbranch⟩ := hsafe
  apply keeps_peek hs (by omega)
  apply keeps_poke hs (by omega)
  have hs' := hs.setCell (s.sp - 1) (s.top 1 + 1)
  apply keeps_peek hs' ⟨by omega, htwo⟩
  have htop : (s.setCell (s.sp - 1) (s.top 1 + 1)).top 2 = s.top 2 :=
    Function.update_of_ne (show s.sp - 2 ≠ s.sp - 1 by omega) _ _
  rw [htop]
  apply keeps_ite
  · intro hle
    rw [if_pos hle] at hbranch
    exact keeps_branch hs' hpc hw hbranch
  · intro hle
    rw [if_neg hle] at hbranch
    apply keeps_peek hs' ⟨by omega, hbranch⟩
    apply keeps_total _ hs'
    simp only [Prog.all_bind, all_push, all_next_total, Op.Total, true_and]
    unfold isizeLimit
    omega

theorem blockToAddr_lt (s : Vm) (bix : Bytes 2) : s.blockToAddr bix.toNat + 2 < isizeLimit := by
  have hbix : bix.toNat < 2 ^ 16 := bix.isLt
  have hblock : s.blockSize.toNat < 2 ^ 8 := s.blockSize.isLt
  have hle : bix.toNat * s.blockSize.toNat ≤ 2 ^ 16 * 2 ^ 8 := Nat.mul_le_mul hbix.le hblock.le
  unfold Vm.blockToAddr isizeLimit
  omega

theorem dataAddr_zero {base : ℕ} (hbase : base < usizeLimit) : dataAddr base 0 = pure base := by
  unfold dataAddr
  rw [if_pos le_rfl]
  exact if_pos hbase

theorem keeps_getData {w : ℕ} {this : Cell} {f : Bytes w → Program StepResult} (hs : s.Sound)
    (hf : ∀ v, s.dataAt w this.toNat = some v → s.Keeps (f v)) :
    s.Keeps (getData w this.toNat 0 >>= f) := by
  have hlt : this.toNat < usizeLimit := this.isLt.trans (by decide)
  apply Prog.post_bind.2
  apply Prog.post_bind.2
  rw [dataAddr_zero hlt, Prog.pure_eq, Prog.post_ret, post_load]
  split
  · exact harmless_error hs.toStackOk _
  · exact hf _ ‹_›

theorem header_keeps {m r : ℕ} (hs : s.Sound) (hm : m + 2 < isizeLimit) (hr : r < isizeLimit)
    (hsafe : s.FrameSafe m s.sp) :
    s.Keeps (do
      let numParams ← code 1 m
      let numLocals ← code 1 (m + 1)
      setupCallFrame m numParams numLocals r
      pure .continue) := by
  apply keeps_code hs
  intro np hnp
  apply keeps_code hs
  intro nl hnl
  apply keeps_setup hs hm hr
  exact hsafe np hnp (by rw [hnl]; rfl)

theorem doCall_keeps (hs : s.Sound) (hpc : s.pc < 2 ^ 32) (hsafe : s.CallSafe s.sp) :
    s.Keeps (doCall s.blockSize.toNat (s.pc + 1)) := by
  apply keeps_code hs
  intro bix hbix
  apply header_keeps hs (blockToAddr_lt s bix) _ (hsafe bix hbix)
  unfold isizeLimit
  omega

theorem loadParam0Call_keeps (hs : s.Sound) (hpc : s.pc < 2 ^ 32)
    (hsafe : s.SafeInstr .loadParam0Call) :
    s.Keeps (exec natives s.blockSize.toNat s.pc opByte .loadParam0Call) := by
  apply Prog.post_bind.2
  rw [post_getSlot]
  split
  · exact ⟨hs.slotIndex .params 0 ‹_›, hs.toStackOk⟩
  · apply keeps_push hs
    intro hroom
    exact doCall_keeps (hs.write hroom) hpc (hsafe hroom)

theorem callVirtual_keeps (hs : s.Sound) (hpc : s.pc < 2 ^ 32) (hsafe : s.SafeInstr .callVirtual) :
    s.Keeps (exec natives s.blockSize.toNat s.pc opByte .callVirtual) := by
  apply keeps_code hs
  intro methodIdx hmethod
  apply keeps_code hs
  intro n hn
  obtain ⟨hle, hvirtual⟩ := hsafe methodIdx n hmethod hn
  apply Prog.post_bind.2
  rw [post_peek]
  unfold Vm.peekIndex
  rw [if_neg (by omega)]
  by_cases hin : s.sp - n.toNat < s.capacity
  · rw [if_pos hin]
    apply keeps_getData hs
    intro vtable hvtable
    apply keeps_code hs
    intro bix hbix
    have hfound : s.virtualBlock methodIdx (s.top n.toNat) = some bix :=
      Option.bind_eq_some_iff.2 ⟨vtable, hvtable, hbix⟩
    apply header_keeps hs (blockToAddr_lt s bix) _ (hvirtual bix hfound)
    unfold isizeLimit
    omega
  · rw [if_neg hin]
    exact harmless_error hs.toStackOk _

/-- Fields: the value is read or written at an offset taken from the code. -/
theorem field_keeps {w : ℕ} {f : Bytes w → Program StepResult} (hs : s.Sound)
    (hsafe : s.OffsetSafe w)
    (hf : ∀ offset : Bytes w, (offset.setWidth 32).toInt ≠ -2 ^ 31 →
      Prog.All Op.Total (fun _ => True) (f offset)) : s.Keeps (code w (s.pc + 1) >>= f) := by
  apply keeps_code hs
  intro offset hoffset
  exact keeps_total (hf offset (hsafe offset hoffset)) hs

theorem loadField_keeps {n w : ℕ} (hs : s.Sound) (hlen : s.pc + 1 + w < isizeLimit)
    (hsafe : s.SafeInstr (.loadField n w)) :
    s.Keeps (exec natives s.blockSize.toNat s.pc opByte (.loadField n w)) := by
  apply keeps_popRef hs
  intro hsp
  apply field_keeps (hs.drop 1) (hsafe hsp)
  intro offset hoffset
  apply Prog.all_bind.2
  apply getData_total hoffset
  intro v
  simpa [Op.Total] using hlen

theorem loadFieldWide_keeps {w : ℕ} (hs : s.Sound) (hlen : s.pc + 1 + w < isizeLimit)
    (hsafe : s.SafeInstr (.loadFieldWide w)) :
    s.Keeps (exec natives s.blockSize.toNat s.pc opByte (.loadFieldWide w)) := by
  apply keeps_popRef hs
  intro hsp
  apply field_keeps (hs.drop 1) (hsafe hsp)
  intro offset hoffset
  apply Prog.all_bind.2
  apply getData_total hoffset
  intro v
  simpa [Op.Total, pushI64] using hlen

theorem loadConstField_keeps {w : ℕ} (hs : s.Sound) (hlen : s.pc + 1 + w < isizeLimit)
    (hsafe : s.SafeInstr (.loadConstField w)) :
    s.Keeps (exec natives s.blockSize.toNat s.pc opByte (.loadConstField w)) := by
  apply keeps_popRef hs
  intro hsp
  apply field_keeps (hs.drop 1) (hsafe hsp)
  intro offset hoffset
  apply Prog.all_bind.2
  apply getData_total hoffset
  intro bix
  simpa [Op.Total, pushRef] using hlen

theorem storeField_keeps {n w : ℕ} (hs : s.Sound) (hlen : s.pc + 1 + w < isizeLimit)
    (hsafe : s.SafeInstr (.storeField n w)) :
    s.Keeps (exec natives s.blockSize.toNat s.pc opByte (.storeField n w)) := by
  apply keeps_pop hs
  intro hsp
  apply keeps_popRef (hs.drop 1)
  intro hsp'
  apply field_keeps ((hs.drop 1).drop 1) (hsafe (by simp only at hsp'; omega))
  intro offset hoffset
  exact Prog.all_bind.2 (setData_total hoffset (all_next_total.2 hlen))

theorem storeFieldWide_keeps {w : ℕ} (hs : s.Sound) (hlen : s.pc + 1 + w < isizeLimit)
    (hsafe : s.SafeInstr (.storeFieldWide w)) :
    s.Keeps (exec natives s.blockSize.toNat s.pc opByte (.storeFieldWide w)) := by
  apply keeps_popI64 hs
  intro hsp v
  apply keeps_popRef ((hs.drop 1).drop 1)
  intro hsp'
  apply field_keeps (((hs.drop 1).drop 1).drop 1) (hsafe (by simp only at hsp'; omega))
  intro offset hoffset
  exact Prog.all_bind.2 (setData_total hoffset (all_next_total.2 hlen))

theorem load8BitArray_keeps (hs : s.Sound) (hlen : s.pc + 1 < isizeLimit)
    (hsafe : s.SafeInstr .load8BitArray) :
    s.Keeps (exec natives s.blockSize.toNat s.pc opByte .load8BitArray) := by
  apply keeps_pop hs
  intro hsp
  apply keeps_popRef (hs.drop 1)
  intro hsp'
  apply keeps_total _ ((hs.drop 1).drop 1)
  apply Prog.all_bind.2
  apply getData_total (hsafe (by simp only at hsp'; omega))
  intro v
  simpa [Op.Total] using hlen

theorem store8BitArray_keeps (hs : s.Sound) (hlen : s.pc + 1 < isizeLimit)
    (hsafe : s.SafeInstr .store8BitArray) :
    s.Keeps (exec natives s.blockSize.toNat s.pc opByte .store8BitArray) := by
  apply keeps_pop hs
  intro hsp
  apply keeps_pop (hs.drop 1)
  intro hsp'
  apply keeps_popRef ((hs.drop 1).drop 1)
  intro hsp''
  apply keeps_total _ (((hs.drop 1).drop 1).drop 1)
  exact Prog.all_bind.2 (setData_total (hsafe (by simp only at hsp''; omega)) (all_next_total.2 hlen))

theorem elem_keeps {n : ℕ} {f : ℕ → Program StepResult} (hs : s.Sound) (hn : n ≤ 8)
    (hidx : 2 ≤ s.sp → 0 ≤ (s.top 1).toInt)
    (hf : ∀ addr, Prog.All Op.Total (fun _ => True) (f addr)) :
    s.Keeps (do
      let idx ← pop
      let base ← popRef
      let addr ← elemAddr n base idx
      f addr) := by
  apply keeps_pop hs
  intro hsp
  apply keeps_popRef (hs.drop 1)
  intro hsp'
  apply keeps_total _ ((hs.drop 1).drop 1)
  exact Prog.all_bind.2 (elemAddr_total (hidx (by simp only at hsp'; omega)) hn hf)

theorem loadArray_keeps {n : ℕ} (hs : s.Sound) (hlen : s.pc + 1 < isizeLimit) (hn : n ≤ 8)
    (hsafe : s.SafeInstr (.loadArray n)) :
    s.Keeps (exec natives s.blockSize.toNat s.pc opByte (.loadArray n)) := by
  apply elem_keeps hs hn hsafe
  intro addr
  apply Prog.all_bind.2
  apply getData_total (by decide)
  intro v
  simpa [Op.Total] using hlen

theorem loadArrayWide_keeps (hs : s.Sound) (hlen : s.pc + 1 < isizeLimit)
    (hsafe : s.SafeInstr .loadArrayWide) :
    s.Keeps (exec natives s.blockSize.toNat s.pc opByte .loadArrayWide) := by
  apply elem_keeps hs le_rfl hsafe
  intro addr
  apply Prog.all_bind.2
  apply getData_total (by decide)
  intro v
  simpa [Op.Total, pushI64] using hlen

theorem loadConstArray_keeps (hs : s.Sound) (hlen : s.pc + 1 < isizeLimit)
    (hsafe : s.SafeInstr .loadConstArray) :
    s.Keeps (exec natives s.blockSize.toNat s.pc opByte .loadConstArray) := by
  apply elem_keeps hs (by decide) hsafe
  intro addr
  apply Prog.all_bind.2
  apply getData_total (by decide)
  intro bix
  simpa [Op.Total, pushRef] using hlen

theorem addArray_keeps {n : ℕ} (hs : s.Sound) (hlen : s.pc + 1 < isizeLimit) (hn : n ≤ 8)
    (hsafe : s.SafeInstr (.addArray n)) :
    s.Keeps (exec natives s.blockSize.toNat s.pc opByte (.addArray n)) := by
  have hrest : ∀ addr, Prog.All Op.Total (fun _ => True) (do
      pushRef addr
      next (s.pc + 1)) := by
    intro addr
    simpa [Op.Total, pushRef] using hlen
  by_cases hone : n = 1
  · -- an index into bytes is not scaled
    subst hone
    apply keeps_pop hs
    intro hsp
    apply keeps_popRef (hs.drop 1)
    intro hsp'
    apply keeps_total _ ((hs.drop 1).drop 1)
    have hidx : usize (s.top 1) * 1 < usizeLimit := by
      rw [Nat.mul_one]
      exact ((s.top 1).signExtend 64).isLt
    exact Prog.all_bind.2 (Prog.all_bind.2 (checked_total hidx (hrest _)))
  · apply elem_keeps hs hn _ hrest
    intro hsp
    exact (hsafe hsp).resolve_left hone

theorem storeArray_keeps {n : ℕ} (hs : s.Sound) (hlen : s.pc + 1 < isizeLimit) (hn : n ≤ 8)
    (hsafe : s.SafeInstr (.storeArray n)) :
    s.Keeps (exec natives s.blockSize.toNat s.pc opByte (.storeArray n)) := by
  apply keeps_pop hs
  intro hsp
  have hidx : 2 ≤ s.sp - 1 → 0 ≤ (s.top 2).toInt := fun h => hsafe (by omega)
  apply elem_keeps (hs.drop 1) hn hidx
  intro addr
  exact Prog.all_bind.2 (setData_total (by decide) (all_next_total.2 hlen))

theorem storeArrayWide_keeps (hs : s.Sound) (hlen : s.pc + 1 < isizeLimit)
    (hsafe : s.SafeInstr .storeArrayWide) :
    s.Keeps (exec natives s.blockSize.toNat s.pc opByte .storeArrayWide) := by
  apply keeps_popI64 hs
  intro hsp v
  have hidx : 2 ≤ s.sp - 1 - 1 → 0 ≤ (s.top 3).toInt := fun h => hsafe (by omega)
  apply elem_keeps ((hs.drop 1).drop 1) le_rfl hidx
  intro addr
  exact Prog.all_bind.2 (setData_total (by decide) (all_next_total.2 hlen))

/-- The operations of the `dup` family once `n` cells are in use. -/
def Op.Within (n : ℕ) : Op → Prop
  | .peek k | .poke k _ => 1 ≤ k ∧ k ≤ n
  | .push _ | .room _ => True
  | .setPc m => m < isizeLimit
  | _ => False

/-- A program that looks at no cell below the top `n` keeps a stack with so many. -/
theorem keeps_within {n : ℕ} {p : Program StepResult}
    (hp : Prog.All (Op.Within n) (fun _ => True) p) (hs : s.Sound) (hn : n ≤ s.sp) : s.Keeps p := by
  have hop : ∀ o, Op.Within n o → ∀ t : Vm, t.Sound ∧ n ≤ t.sp →
      Prog.Post Vm.handle (fun _ u => u.Sound ∧ n ≤ u.sp) Harmless (Prog.perform (o : ops.Op)) t := by
    intro o ho t ht
    apply Prog.post_perform.2
    cases o <;> simp only [Vm.handle]
    case push v =>
      split
      · exact harmless_error ht.1.toStackOk _
      · exact ⟨ht.1.write (by omega), Nat.le_add_right_of_le ht.2⟩
    case room k =>
      split
      · exact harmless_error ht.1.toStackOk _
      · exact ht
    case peek k =>
      rw [Vm.peekIndex_eq ho.1 (ho.2.trans ht.2) ht.1.sp]
      exact ht
    case poke k v =>
      rw [Vm.peekIndex_eq ho.1 (ho.2.trans ht.2) ht.1.sp]
      exact ⟨ht.1.setCell _ v, ht.2⟩
    case setPc m => exact ⟨⟨⟨ht.1.sp, ht.1.frames⟩, ho⟩, ht.2⟩
    all_goals exact ho.elim
  exact (Prog.post_of_all hop hp ⟨hs, hn⟩).mono (fun _ _ h => h.2.1) fun _ _ h => h

/-- The last six or seven cells are rewritten after two more have been pushed. -/
theorem pushTwo_keeps {n : ℕ} {p : Program StepResult}
    (hp : Prog.All (Op.Within (n + 2)) (fun _ => True) p) (hs : s.Sound) (hn : n ≤ s.sp) :
    s.Keeps (do
      push 0
      push 0
      p) := by
  apply keeps_push hs
  intro hroom
  apply keeps_push (hs.write hroom)
  intro hroom'
  exact keeps_within hp ((hs.write hroom).write hroom') (by simp; omega)

theorem dup_keeps (hs : s.Sound) (hlen : s.pc + 1 < isizeLimit) :
    s.Keeps (exec natives s.blockSize.toNat s.pc opByte .dup) := by
  apply keeps_need hs
  apply keeps_within _ hs
  simpa [Op.Within] using hlen

theorem dup2_keeps (hs : s.Sound) (hlen : s.pc + 1 < isizeLimit) :
    s.Keeps (exec natives s.blockSize.toNat s.pc opByte .dup2) := by
  apply keeps_need hs
  apply keeps_within _ hs
  simpa [Op.Within] using hlen

theorem dupDown2_keeps (hs : s.Sound) (hlen : s.pc + 1 < isizeLimit) :
    s.Keeps (exec natives s.blockSize.toNat s.pc opByte .dupDown2) := by
  apply keeps_need hs
  intro hsp
  apply keeps_room hs
  apply keeps_peek hs (by omega)
  apply keeps_peek hs (by omega)
  apply keeps_push hs
  intro hroom
  apply keeps_within (n := 3) _ (hs.write hroom) (by simp; omega)
  simpa [Op.Within] using hlen

theorem dupDown3_keeps (hs : s.Sound) (hlen : s.pc + 1 < isizeLimit) :
    s.Keeps (exec natives s.blockSize.toNat s.pc opByte .dupDown3) := by
  apply keeps_need hs
  intro hsp
  apply keeps_room hs
  apply keeps_peek hs (by omega)
  apply keeps_peek hs (by omega)
  apply keeps_peek hs (by omega)
  apply keeps_push hs
  intro hroom
  apply keeps_within (n := 4) _ (hs.write hroom) (by simp; omega)
  simpa [Op.Within] using hlen

theorem dup2Down2_keeps (hs : s.Sound) (hlen : s.pc + 1 < isizeLimit) :
    s.Keeps (exec natives s.blockSize.toNat s.pc opByte .dup2Down2) := by
  apply keeps_need hs
  intro hsp
  apply keeps_peek hs (by omega)
  apply keeps_peek hs (by omega)
  apply keeps_peek hs (by omega)
  apply keeps_peek hs (by omega)
  apply pushTwo_keeps (n := 4) _ hs hsp
  simpa [Op.Within] using hlen

theorem dup2Down3_keeps (hs : s.Sound) (hlen : s.pc + 1 < isizeLimit) :
    s.Keeps (exec natives s.blockSize.toNat s.pc opByte .dup2Down3) := by
  apply keeps_need hs
  intro hsp
  apply keeps_peek hs (by omega)
  apply keeps_peek hs (by omega)
  apply keeps_peek hs (by omega)
  apply keeps_peek hs (by omega)
  apply keeps_peek hs (by omega)
  apply pushTwo_keeps (n := 5) _ hs hsp
  simpa [Op.Within] using hlen

theorem assert_keeps (hs : s.Sound) (hlen : s.pc + 3 < isizeLimit) (hsafe : s.SafeInstr .assert) :
    s.Keeps (exec natives s.blockSize.toNat s.pc opByte .assert) := by
  apply keeps_pop hs
  intro hsp
  apply keeps_code (hs.drop 1)
  intro line hline
  have hcount := hsafe hsp (Option.isSome_of_eq_some hline)
  apply Prog.post_bind.2
  apply (post_perform (.countAssert (s.top 1 != 0))).2
  simp only [Vm.handle, Vm.countAssert]
  unfold Vm.AssertSafe at hcount
  rw [if_pos hcount]
  have hend : ∀ t : Vm, t.Sound → t.Keeps (next (s.pc + 3)) := fun t ht => keeps_next ht hlen
  split
  · exact hend _ ⟨⟨(hs.drop 1).sp, hs.frames⟩, hs.pc⟩
  · exact hend _ ⟨⟨(hs.drop 1).sp, hs.frames⟩, hs.pc⟩

theorem switch_keeps (hs : s.Sound) (hpc : s.pc < 2 ^ 32) (hsafe : s.SafeInstr .switch) :
    s.Keeps (exec natives s.blockSize.toNat s.pc opByte .switch) := by
  apply keeps_code hs
  intro num hnum
  have hnumLt : num.toNat < 2 ^ 16 := num.isLt
  apply keeps_pop hs
  intro hsp
  apply keeps_ite
  · intro _
    apply keeps_next (hs.drop 1)
    unfold isizeLimit
    omega
  · intro hin
    apply keeps_code (hs.drop 1)
    intro offset hoffset
    have hlow := hsafe hsp num offset hnum (by omega) (by omega) hoffset
    have hhigh := @BitVec.toInt_lt 16 offset
    refine ⟨⟨(hs.drop 1).sp, hs.frames⟩, ?_⟩
    change (((s.pc : ℤ) + offset.toInt) % usizeLimit).toNat < isizeLimit
    unfold usizeLimit isizeLimit
    omega

theorem post_checked {X : Halt → Vm → Prop} {Q : ℕ → Vm → Prop} {n : ℕ} (hn : n < usizeLimit)
    (hQ : Q n s) : Prog.Post Vm.handle Q X (checked n) s := by
  unfold checked
  rw [if_pos hn]
  exact hQ

theorem readAt_isSome {segment : List Byte} {w addr : ℕ} {v : Bytes w}
    (hread : readAt segment w addr = some v) : addr + w ≤ segment.length := by
  unfold readAt at hread
  split at hread
  · assumption
  · cases hread

/-- The loop of `InitArray` while its indices stay below `stop`: it ends there,
    or the reference before `stop` does not fit in the data. -/
theorem post_initRefs {base objs e stop : ℕ} (hbase : base + stop * 4 < usizeLimit)
    (hobjs : ∀ j < stop, j * e < usizeLimit ∧ objs + j * e < usizeLimit) :
    ∀ (n i : ℕ) (t : Vm), t.Sound →
      (i + n ≤ stop ∨ i < stop ∧ t.data.length < base + 4 * stop) →
      Prog.Post Vm.handle (fun _ u => u.Sound) Harmless (initRefs base objs e n i) t := by
  intro n
  induction n with
  | zero =>
    intro i t ht _
    exact ht
  | succ n ih =>
    intro i t ht hstop
    have hi : i < stop := by omega
    obtain ⟨hscaled, hobj⟩ := hobjs i hi
    have hoffset : i * 4 < usizeLimit := by omega
    have hfits : base + i * 4 < usizeLimit := by omega
    apply Prog.post_bind.2
    apply post_checked hoffset
    apply Prog.post_bind.2
    apply post_checked hfits
    apply Prog.post_bind.2
    apply post_checked hscaled
    apply Prog.post_bind.2
    apply post_checked hobj
    apply Prog.post_bind.2
    apply Prog.post_bind.2
    rw [dataAddr_zero hfits, Prog.pure_eq, Prog.post_ret, post_store]
    split
    · exact harmless_error ht.toStackOk _
    · have hin := readAt_isSome ‹t.dataAt 4 (base + i * 4) = some _›
      apply ih
      · exact ⟨⟨ht.sp, ht.frames⟩, ht.pc⟩
      · have hwritten : base + i * 4 + (leBytes 4 (BitVec.ofNat 32 (objs + i * e))).length ≤
            t.data.length := by rwa [leBytes_length]
        simp only [length_writeAt hwritten]
        omega

/-- Where the loop stops in time: at the length, or before the index a negative
    element size would push over. -/
theorem initSafe_stop {elem length base : Cell}
    (h : s.InitSafe elem.toInt length.toInt base.toNat) :
    ∃ stop, base.toNat + stop * 4 < usizeLimit ∧
      (∀ j < stop, j * usize elem < usizeLimit ∧
        base.toNat + usize length * 4 + j * usize elem < usizeLimit) ∧
      (0 + usize length ≤ stop ∨ 0 < stop ∧ s.data.length < base.toNat + 4 * stop) := by
  obtain ⟨hpositive, hrest⟩ := h
  have hlength := usize_eq length
  have hlengthLt := usize_lt hpositive
  rw [if_pos hpositive] at hlength
  have hbase := base.isLt
  have helem := usize_eq elem
  have helemLow := BitVec.le_toInt elem
  unfold usizeLimit
  by_cases hsize : 0 ≤ elem.toInt
  · have helemLt := usize_lt hsize
    refine ⟨usize length, by omega, ?_, Or.inl (by omega)⟩
    intro j hj
    have hle : j * usize elem ≤ 2 ^ 31 * 2 ^ 31 := Nat.mul_le_mul (by omega) helemLt.le
    omega
  · rw [if_neg hsize] at helem
    simp only [hsize, false_or] at hrest
    by_cases hfirst : -elem.toInt ≤ base.toNat + length.toInt * 4
    · rw [if_pos hfirst] at hrest
      refine ⟨1, by omega, ?_, by omega⟩
      intro j hj
      obtain rfl : j = 0 := by omega
      omega
    · rw [if_neg hfirst] at hrest
      refine ⟨2, by omega, ?_, by omega⟩
      intro j hj
      obtain rfl | rfl : j = 0 ∨ j = 1 := by omega
      · omega
      · omega

/-- `InitArray` with a length that is not negative. -/
theorem initArray_keeps (hs : s.Sound) (hlen : s.pc + 1 < isizeLimit)
    (hsafe : s.SafeInstr .initArray) :
    s.Keeps (exec natives s.blockSize.toNat s.pc opByte .initArray) := by
  apply keeps_pop hs
  intro _
  apply keeps_pop (hs.drop 1)
  intro _
  apply keeps_popRef ((hs.drop 1).drop 1)
  intro hsp
  have hs' := ((hs.drop 1).drop 1).drop 1
  obtain ⟨hpositive, hrest⟩ := hsafe (by simp only at hsp; omega)
  have hlengthLt := usize_lt hpositive
  have hbase := (s.top 3).isLt
  have hrefs : usize (s.top 2) * 4 < usizeLimit := by
    unfold usizeLimit
    omega
  have hobjs : (s.top 3).toNat + usize (s.top 2) * 4 < usizeLimit := by
    unfold usizeLimit
    omega
  apply Prog.post_bind.2
  apply post_checked hrefs
  apply Prog.post_bind.2
  apply post_checked hobjs
  apply Prog.post_bind.2
  obtain ⟨stop, hstop, hbelow, hend⟩ := initSafe_stop ⟨hpositive, hrest⟩
  apply (post_initRefs hstop hbelow _ 0 _ hs' hend).mono
  · intro _ u hu
    exact keeps_next hu hlen
  · intro _ _ h
    exact h

theorem exec_keeps {i : Instr} (hs : s.Sound) (hpc : s.pc < 2 ^ 32) (hbounded : i.bounded = true)
    (hlen : ∀ n, i.length = some n → s.pc + n < isizeLimit) (hsafe : s.SafeInstr i) :
    s.Keeps (exec natives s.blockSize.toNat s.pc opByte i) := by
  have hwide : ∀ w, i.length = some (1 + w) → s.pc + 1 + w < isizeLimit := by
    intro w hw
    rw [Nat.add_assoc]
    exact hlen _ hw
  cases i with
  | dup => exact dup_keeps natives opByte hs (hlen 1 rfl)
  | dup2 => exact dup2_keeps natives opByte hs (hlen 1 rfl)
  | dupDown2 => exact dupDown2_keeps natives opByte hs (hlen 1 rfl)
  | dupDown3 => exact dupDown3_keeps natives opByte hs (hlen 1 rfl)
  | dup2Down2 => exact dup2Down2_keeps natives opByte hs (hlen 1 rfl)
  | dup2Down3 => exact dup2Down3_keeps natives opByte hs (hlen 1 rfl)
  | jump w => exact keeps_branch hs hpc (of_decide_eq_true hbounded) hsafe
  | jumpIf w c =>
    apply keeps_pop hs
    intro hsp
    apply keeps_ite
    · exact fun hc => keeps_branch (hs.drop 1) hpc (of_decide_eq_true hbounded) (hsafe hsp hc)
    · exact fun _ => keeps_next (hs.drop 1) (hwide w rfl)
  | jumpCompare w c =>
    apply keeps_pop hs
    intro _
    apply keeps_pop (hs.drop 1)
    intro hsp
    have hs' := (hs.drop 1).drop 1
    apply keeps_ite
    · intro hc
      exact keeps_branch hs' hpc (of_decide_eq_true hbounded)
        (hsafe (by simp only at hsp; omega) hc)
    · exact fun _ => keeps_next hs' (hwide w rfl)
  | foreach w => exact foreach_keeps natives opByte hs hpc (of_decide_eq_true hbounded) hsafe
  | loadField n w => exact loadField_keeps natives opByte hs (hwide w rfl) hsafe
  | loadFieldWide w => exact loadFieldWide_keeps natives opByte hs (hwide w rfl) hsafe
  | storeField n w => exact storeField_keeps natives opByte hs (hwide w rfl) hsafe
  | storeFieldWide w => exact storeFieldWide_keeps natives opByte hs (hwide w rfl) hsafe
  | load8BitArray => exact load8BitArray_keeps natives opByte hs (hlen 1 rfl) hsafe
  | store8BitArray => exact store8BitArray_keeps natives opByte hs (hlen 1 rfl) hsafe
  | loadArray n =>
    exact loadArray_keeps natives opByte hs (hlen 1 rfl) (of_decide_eq_true hbounded) hsafe
  | loadArrayWide => exact loadArrayWide_keeps natives opByte hs (hlen 1 rfl) hsafe
  | storeArray n =>
    exact storeArray_keeps natives opByte hs (hlen 1 rfl) (of_decide_eq_true hbounded) hsafe
  | storeArrayWide => exact storeArrayWide_keeps natives opByte hs (hlen 1 rfl) hsafe
  | addArray n =>
    exact addArray_keeps natives opByte hs (hlen 1 rfl) (of_decide_eq_true hbounded) hsafe
  | loadConstField w => exact loadConstField_keeps natives opByte hs (hwide w rfl) hsafe
  | loadConstArray => exact loadConstArray_keeps natives opByte hs (hlen 1 rfl) hsafe
  | call => exact doCall_keeps hs hpc hsafe
  | loadParam0Call => exact loadParam0Call_keeps natives opByte hs hpc hsafe
  | callVirtual => exact callVirtual_keeps natives opByte hs hpc hsafe
  | callNative =>
    apply keeps_native hs hsafe
    intro v
    simpa [Op.Total] using hlen 4 rfl
  | callNativeWide =>
    apply keeps_native hs hsafe
    intro v
    simpa [Op.Total, pushI64] using hlen 4 rfl
  | callNativeVoid =>
    apply keeps_native hs hsafe
    intro v
    exact all_next_total.2 (hlen 4 rfl)
  | initArray => exact initArray_keeps natives opByte hs (hlen 1 rfl) hsafe
  | assert => exact assert_keeps natives opByte hs (hlen 3 rfl) hsafe
  | switch => exact switch_keeps natives opByte hs hpc hsafe
  | _ => exact keeps_total (exec_plain_total natives _ _ opByte rfl hlen) hs

end Instructions

section Reachable

variable (natives : Natives)

/-- A safe step from a well-formed stack ends without a panic, with its program
    counter not wrapped and the stack well-formed. -/
theorem step_settles {s : Vm} (hs : s.StackOk) (hcode : s.code.length < 2 ^ 32)
    (hsafe : s.Safe) :
    Prog.Settles (fun _ t => t.Sound) Harmless (s.step natives) := by
  cases hop : s.opcode with
  | some op =>
    obtain ⟨byte, hbyte, -, hstep⟩ := step_opcode natives hop
    have hpc : s.pc < 2 ^ 32 := by
      have := readAt_isSome hbyte
      omega
    have hsound : s.Sound := ⟨hs, hpc.trans (by decide)⟩
    rw [hstep]
    apply exec_keeps natives byte hsound hpc op.bounded _ (hsafe op hop)
    intro n hn
    have hle := Opcode.length_le hn
    unfold isizeLimit
    omega
  | none =>
    have hprogram : Prog.Post Vm.handle (fun _ t => t.Sound) Harmless
        (stepProgram natives s.blockSize.toNat s.pc) s := by
      rw [stepProgram, Prog.post_bind, post_code]
      unfold Vm.opcode at hop
      cases hbyte : s.codeAt 1 s.pc with
      | none => exact harmless_error hs _
      | some byte =>
        rw [hbyte] at hop
        have hnone : Opcode.tryFrom byte = none := hop
        simp only [hnone]
        exact harmless_error hs _
    exact hprogram

theorem pushEntry_settles {s : Vm} (hs : s.StackOk) (entryPoint : ℕ) {args : List Cell}
    {np : Byte} (nl : Byte) (hnp : np.toNat ≤ args.length) :
    Prog.Settles (fun _ t => t.StackOk) Harmless (s.pushEntry entryPoint args np nl) := by
  unfold Vm.pushEntry
  rw [Vm.settles_andThen]
  apply settles_pushCells hs
  intro hroom
  apply settles_pushFrame (hs.writeAll hroom)
  intro _
  simp only [List.length_append, List.length_cons, List.length_nil] at hroom
  apply (hs.writeAll (by simpa using hroom)).cons
  refine ⟨?_, ?_, show 0 < isizeLimit by decide⟩
  · simp only [Vm.write_sp, List.length_append, List.length_cons, List.length_nil]
    omega
  · simp only [Vm.write_sp, Vm.write_capacity, List.length_append, List.length_cons,
      List.length_nil]
    omega

/-- Entering a method never panics and keeps the stack well-formed. -/
theorem setup_settles {s : Vm} (hs : s.StackOk) (e : Entry) :
    Prog.Settles (fun _ t => t.StackOk) Harmless (e.setup s) := by
  cases e with
  | withArgs entryPoint args =>
    have hmod : (BitVec.ofNat 8 args.length).toNat ≤ args.length := by
      rw [BitVec.toNat_ofNat]
      exact Nat.mod_le _ _
    rw [Entry.setup, Vm.settles_andThen]
    apply (pushEntry_settles hs entryPoint 0 hmod).mono
    · intro _ t ht
      exact ⟨ht.sp, ht.frames⟩
    · intro _ _ h
      exact h
  | method entryPoint args =>
    rw [Entry.setup]
    split
    · exact harmless_error hs _
    · split
      · exact harmless_error hs _
      · split
        · exact harmless_error hs _
        · rename_i np _ nl _ harity
          rw [Vm.settles_andThen]
          apply (pushEntry_settles hs entryPoint nl (Decidable.not_not.1 harity).le).mono
          · intro _ t ht
            rw [Vm.settles_andThen]
            apply settles_pushCells ht
            intro hroom
            exact ⟨(ht.writeAll hroom).sp, ht.frames⟩
          · intro _ _ h
            exact h

/-- The states of an interpreter: made from an accepted image over any data,
    entered through an entry point, or left by a step that was safe. Steps are
    also counted after an outcome that ends a run. -/
inductive Reachable : Vm → Prop
  | image {file : List Byte} {image : ScodeImage} {vm : Vm} (data : List Byte)
      (hload : ScodeImage.loadFromBytes file = .ok image) (hnew : image.interpreter = .ok vm)
      (hdata : data.length = vm.data.length) : Reachable { vm with data := data }
  | entry {s : Vm} (e : Entry) (hs : Reachable s) : Reachable (e.setup s).2
  | step {s : Vm} (hs : Reachable s) (hsafe : s.Safe) : Reachable (s.step natives).2

variable {natives}

/-- The header of an accepted image gives its length, in 32 bits. -/
theorem loadFromBytes_length {file : List Byte} {image : ScodeImage}
    (hload : ScodeImage.loadFromBytes file = .ok image) : image.code.length < 2 ^ 32 := by
  unfold ScodeImage.loadFromBytes at hload
  cases hparse : ScodeHeader.parse file with
  | error e =>
    rw [hparse] at hload
    cases hload
  | ok header =>
    rw [hparse] at hload
    change (header.validateWithLength file.length >>= fun _ => .ok (ScodeImage.mk header file)) = _
      at hload
    unfold ScodeHeader.validateWithLength at hload
    cases hvalid : header.validate with
    | error e =>
      rw [hvalid] at hload
      cases hload
    | ok _ =>
      rw [hvalid] at hload
      by_cases hlength : file.length = header.imageSize.toNat
      · simp only [hlength, ne_eq, not_true_eq_false, if_false] at hload
        cases hload
        rw [hlength]
        exact header.imageSize.isLt
      · simp only [ne_eq, hlength, not_false_eq_true, if_true] at hload
        cases hload

theorem interpreter_stackOk {image : ScodeImage} {vm : Vm} (hnew : image.interpreter = .ok vm) :
    vm.StackOk ∧ vm.code = image.code := by
  unfold ScodeImage.interpreter at hnew
  split at hnew
  · cases hnew
  · cases hnew
    exact ⟨⟨Nat.zero_le _, nofun⟩, rfl⟩

theorem stackOk_of_settles {α : Type} {R : α → Vm → Prop} {o : Except Halt α × Vm}
    (ho : Prog.Settles R Harmless o) (hR : ∀ a t, R a t → t.StackOk) : o.2.StackOk := by
  rcases o with ⟨_ | a, t⟩
  · exact ho.2
  · exact hR a t ho

theorem noFault_of_settles {α : Type} {R : α → Vm → Prop} {o : Except Halt α × Vm}
    (ho : Prog.Settles R Harmless o) (f : Machine.Fault) : o.1 ≠ .error (.fault f) := by
  intro hfault
  rcases o with ⟨e | _, t⟩
  · obtain ⟨err, rfl⟩ := ho.1
    cases hfault
  · cases hfault

theorem Reachable.stackOk {s : Vm} (hs : Reachable natives s) :
    s.StackOk ∧ s.code.length < 2 ^ 32 := by
  induction hs with
  | image data hload hnew _ =>
    obtain ⟨hok, hcode⟩ := interpreter_stackOk hnew
    refine ⟨⟨hok.sp, hok.frames⟩, ?_⟩
    simp only [hcode]
    exact loadFromBytes_length hload
  | @entry s e _ ih =>
    refine ⟨stackOk_of_settles (setup_settles ih.1 e) fun _ _ h => h, ?_⟩
    rw [(s.setup_fixed e).code]
    exact ih.2
  | @step s _ hsafe ih =>
    refine ⟨stackOk_of_settles (step_settles natives ih.1 ih.2 hsafe) fun _ _ h => h.toStackOk, ?_⟩
    rw [(s.step_fixed natives).code]
    exact ih.2

/-- In every run whose steps are safe: the stack pointer stays in the vector,
    every frame lies above its parameters, entering a method does not panic, and
    a step ends with `Ok` or a `VmError`, no arithmetic having left `usize`, with
    its program counter not wrapped. -/
theorem safe_run_never_panics {s : Vm} (hs : Reachable natives s) :
    s.sp ≤ s.capacity ∧ (∀ f ∈ s.frames, f.numParams.toNat ≤ f.framePointer) ∧
    (∀ (e : Entry) (f : Machine.Fault), (e.setup s).1 ≠ .error (.fault f)) ∧
    (s.Safe → (∀ f, (s.step natives).1 ≠ .error (.fault f)) ∧
      ∀ r, (s.step natives).1 = .ok r → (s.step natives).2.pc < isizeLimit) := by
  obtain ⟨hok, hcode⟩ := hs.stackOk
  refine ⟨hok.sp, fun f hf => (hok.frames f hf).params, ?_, ?_⟩
  · intro e f
    exact noFault_of_settles (setup_settles hok e) f
  · intro hsafe
    have hstep := step_settles natives hok hcode hsafe
    refine ⟨fun f => noFault_of_settles hstep f, ?_⟩
    intro r hr
    revert hstep hr
    rcases s.step natives with ⟨_ | _, t⟩
    · intro _ hr
      cases hr
    · intro hstep _
      exact hstep.pc

/-- An accepted image of 36 bytes: `Pop3` and `Foreach` at its main method. -/
def poppedImage : List Byte :=
  [0x07, 0xBA, 0xD0, 0x5E, 1, 5, 4, 4, 36, 0, 0, 0, 4, 0, 0, 0, 8, 0, 0, 0, 0, 0, 0, 0, 0, 0, 0, 0,
    0, 0, 0, 0, 135, 145, 0, 0]

/-- The image of `poppedImage`, as loaded. -/
def poppedScode : ScodeImage where
  header := {
    magic := 0x5ED0BA07, majorVer := 1, minorVer := 5, blockSize := 4, refSize := 4
    imageSize := 36, dataSize := 4, mainMethod := 8, testsBix := 0, resumeMethod := 0 }
  code := poppedImage

/-- An accepted image of 44 bytes: the main method passes 2 to a method of one parameter, which
    returns it. -/
def callingImage : List Byte :=
  [0x07, 0xBA, 0xD0, 0x5E, 1, 5, 4, 4, 44, 0, 0, 0, 4, 0, 0, 0, 8, 0, 0, 0, 0, 0, 0, 0, 0, 0, 0, 0,
    0, 0, 0, 0, 4, 221, 10, 0, 227, 0, 0, 0, 1, 0, 29, 227]

def callingScode : ScodeImage where
  header := {
    magic := 0x5ED0BA07, majorVer := 1, minorVer := 5, blockSize := 4, refSize := 4
    imageSize := 44, dataSize := 4, mainMethod := 8, testsBix := 0, resumeMethod := 0 }
  code := callingImage

def atCall : Vm :=
  (((Entry.withArgs 32 []).setup (Vm.new callingImage [0, 0, 0, 0] 4)).2.step .stubs).2

/-- The call is safe, and opens a frame over its one parameter. -/
theorem safe_run_never_panics_call :
    Reachable .stubs atCall ∧ atCall.opcode = some .call ∧ atCall.Safe ∧
      (∀ f, (atCall.step .stubs).1 ≠ .error (.fault f)) ∧
      (atCall.step .stubs).2.pc = 42 ∧
      ∀ f ∈ (atCall.step .stubs).2.frames,
        f.numParams.toNat ≤ f.framePointer := by
  have hload : ScodeImage.loadFromBytes callingImage = .ok callingScode := by decide +kernel
  have hnew : callingScode.interpreter = .ok (Vm.new callingImage [0, 0, 0, 0] 4) := rfl
  have hentered : Reachable .stubs
      ((Entry.withArgs 32 []).setup (Vm.new callingImage [0, 0, 0, 0] 4)).2 :=
    .entry _ (.image [0, 0, 0, 0] hload hnew rfl)
  have hpush : ((Entry.withArgs 32 []).setup (Vm.new callingImage [0, 0, 0, 0] 4)).2.Safe := by
    intro op hop
    have hfirst : ((Entry.withArgs 32 []).setup (Vm.new callingImage [0, 0, 0, 0] 4)).2.opcode =
        some .loadI2 := by decide
    rw [hfirst] at hop
    cases hop
    trivial
  have hreach : Reachable .stubs atCall := .step hentered hpush
  have hcall : atCall.opcode = some .call := by decide
  have hsafe : atCall.Safe := by
    intro op hop
    rw [hcall] at hop
    cases hop
    intro bix hbix numParams hparams _ _ _
    have hoperand : atCall.codeAt 2 (atCall.pc + 1) = some 10 := by decide
    rw [hoperand] at hbix
    cases hbix
    have hheader : atCall.codeAt 1 (atCall.blockToAddr 10) = some 1 := by decide
    rw [show ((10 : Bytes 2).toNat) = 10 from rfl, hheader] at hparams
    cases hparams
    decide
  have hnext : Reachable .stubs (atCall.step .stubs).2 := .step hreach hsafe
  exact ⟨hreach, hcall, hsafe, ((safe_run_never_panics hreach).2.2.2 hsafe).1, rfl,
    (safe_run_never_panics hnext).2.1⟩

/-- `Pop3` takes the three cells of the entry frame off the stack, and `Foreach`
    then subtracts from a stack pointer of 0. -/
theorem foreach_panics :
    ScodeImage.loadFromBytes poppedImage = .ok poppedScode ∧
      poppedScode.interpreter = .ok (Vm.new poppedImage [0, 0, 0, 0] 4) ∧
      ((Vm.new poppedImage [0, 0, 0, 0] 4).execute .stubs
        (poppedScode.blockToOffset poppedScode.header.mainMethod)).1 = .error (.fault .overflow) := by
  refine ⟨by decide +kernel, rfl, by decide +kernel⟩

end Reachable

end Sandstar.Svm
