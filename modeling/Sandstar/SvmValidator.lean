import Sandstar.SvmRules

set_option autoImplicit false

/-!
# Instruction lengths in the validator and in the interpreter

The validator sweeps an image with a table of instruction lengths of its own.
Where an instruction falls through, the interpreter's next offset is the sweep's
exactly for the opcodes whose table entry is the increment of their arm.
-/
namespace Sandstar.Svm

open Sandstar.Effects

section Sweep

/-- The table of `opcode_instruction_size`. -/
def Opcode.instructionSize : Opcode → ℕ
  | .nop | .loadIM1 | .loadI0 | .loadI1 | .loadI2 | .loadI3 | .loadI4 | .loadI5 | .loadL0
  | .loadL1 | .loadF0 | .loadF1 | .loadD0 | .loadD1 | .loadNull | .loadNullBool
  | .loadNullFloat | .loadNullDouble | .loadParam0 | .loadParam1 | .loadParam2 | .loadParam3
  | .loadLocal0 | .loadLocal1 | .loadLocal2 | .loadLocal3 | .loadLocal4 | .loadLocal5
  | .loadLocal6 | .loadLocal7 | .storeLocal0 | .storeLocal1 | .storeLocal2 | .storeLocal3
  | .storeLocal4 | .storeLocal5 | .storeLocal6 | .storeLocal7 | .intEq | .intNotEq | .intGt
  | .intGtEq | .intLt | .intLtEq | .intMul | .intDiv | .intMod | .intAdd | .intSub | .intOr
  | .intXor | .intAnd | .intNot | .intNeg | .intShiftL | .intShiftR | .intInc | .intDec
  | .longEq | .longNotEq | .longGt | .longGtEq | .longLt | .longLtEq | .longMul | .longDiv
  | .longMod | .longAdd | .longSub | .longOr | .longXor | .longAnd | .longNot | .longNeg
  | .longShiftL | .longShiftR | .floatEq | .floatNotEq | .floatGt | .floatGtEq | .floatLt
  | .floatLtEq | .floatMul | .floatDiv | .floatAdd | .floatSub | .floatNeg | .doubleEq
  | .doubleNotEq | .doubleGt | .doubleGtEq | .doubleLt | .doubleLtEq | .doubleMul | .doubleDiv
  | .doubleAdd | .doubleSub | .doubleNeg | .intToFloat | .intToLong | .intToDouble | .longToInt
  | .longToFloat | .longToDouble | .floatToInt | .floatToLong | .floatToDouble | .doubleToInt
  | .doubleToLong | .doubleToFloat | .objEq | .objNotEq | .eqZero | .notEqZero | .pop | .pop2
  | .pop3 | .dup | .dup2 | .dupDown2 | .dupDown3 | .dup2Down2 | .dup2Down3 | .returnVoid
  | .returnPop | .returnPopWide | .loadDataAddr => 1
  | .loadIntU1 | .loadParam | .loadParamWide | .storeParam | .storeParamWide | .loadLocal
  | .loadLocalWide | .storeLocal | .storeLocalWide | .jump | .jumpNonZero | .jumpZero
  | .load8BitFieldU1 | .store8BitFieldU1 | .load16BitFieldU1 | .store16BitFieldU1
  | .load32BitFieldU1 | .store32BitFieldU1 | .load64BitFieldU1 | .store64BitFieldU1
  | .loadRefFieldU1 | .storeRefFieldU1 | .loadConstFieldU1 | .loadInlineFieldU1
  | .loadParam0InlineFieldU1 | .loadDataInlineFieldU1 | .load8BitArray | .store8BitArray
  | .add8BitArray | .load16BitArray | .store16BitArray | .add16BitArray | .load32BitArray
  | .store32BitArray | .add32BitArray | .load64BitArray | .store64BitArray | .add64BitArray
  | .loadRefArray | .storeRefArray | .addRefArray | .loadConstArray => 2
  | .loadIntU2 | .loadInt | .loadFloat | .loadLong | .loadDouble | .loadStr | .loadBuf
  | .loadType | .loadSlot | .loadDefine | .load8BitFieldU2 | .store8BitFieldU2
  | .load16BitFieldU2 | .store16BitFieldU2 | .load32BitFieldU2 | .store32BitFieldU2
  | .load64BitFieldU2 | .store64BitFieldU2 | .loadRefFieldU2 | .storeRefFieldU2
  | .loadConstFieldU2 | .loadInlineFieldU2 | .loadParam0InlineFieldU2 | .loadDataInlineFieldU2
  | .jumpFar | .jumpFarNonZero | .jumpFarZero | .jumpIntEq | .jumpIntNotEq | .jumpIntGt
  | .jumpIntGtEq | .jumpIntLt | .jumpIntLtEq | .call | .initVirt | .initComp | .assert
  | .metaSlot | .loadSlotId | .loadConstStatic | .loadParam0Call => 3
  | .jumpFarIntEq | .jumpFarIntNotEq | .jumpFarIntGt | .jumpFarIntGtEq | .jumpFarIntLt
  | .jumpFarIntLtEq | .callVirtual | .foreach | .foreachFar => 4
  | .callNative | .callNativeWide | .callNativeVoid => 4
  | .initArray => 4
  | .load8BitFieldU4 | .store8BitFieldU4 | .load16BitFieldU4 | .store16BitFieldU4
  | .load32BitFieldU4 | .store32BitFieldU4 | .load64BitFieldU4 | .store64BitFieldU4
  | .loadRefFieldU4 | .storeRefFieldU4 | .loadInlineFieldU4 | .loadParam0InlineFieldU4
  | .loadDataInlineFieldU4 => 5
  | .switch => 3
  | .sizeOf | .cast | .loadArrayLiteral => 1

/-- The offset the sweep of `validate_sab_bytes` goes to from `pc`, if it is not
    at the end. -/
def sweepStep (data : List Byte) (pc : ℕ) : Option ℕ :=
  match readAt data 1 pc with
  | none => none
  | some byte =>
    match Opcode.tryFrom byte with
    -- the length is unknown, skip one byte
    | none => some (pc + 1)
    | some op =>
      match op, readAt data 2 (pc + 1) with
      | .switch, some numEntries => some (pc + (3 + numEntries.toNat * 2))
      | op, _ => some (pc + op.instructionSize)

/-- The offset after `k` instructions of the sweep. -/
def sweepSteps (data : List Byte) : ℕ → ℕ → Option ℕ
  | 0, pc => some pc
  | k + 1, pc => (sweepSteps data k pc).bind (sweepStep data)

end Sweep

section FallThrough

def Op.transfers : Op → Bool
  | .jump _ | .enter _ _ _ _ | .unwind => true
  | _ => false

/-- The instruction at the program counter is executed without a transfer of
    control and leaves `t`. -/
def FallsThrough (natives : Natives) (s t : Vm) : Prop :=
  Prog.Along Vm.handle (fun o _ => o.transfers = false)
      (stepProgram natives s.blockSize.toNat s.pc) s ∧
    s.step natives = (.ok .continue, t)

/-- `k` instructions in a row fall through, each with an opcode that meets `ok`. -/
inductive FallRun (natives : Natives) (ok : Opcode → Prop) : Vm → ℕ → Vm → Prop
  | refl (s : Vm) : FallRun natives ok s 0 s
  | tail {s t u : Vm} {k : ℕ} {op : Opcode} (hrun : FallRun natives ok s k t)
      (hop : t.opcode = some op) (hok : ok op) (hstep : FallsThrough natives t u) :
      FallRun natives ok s (k + 1) u

/-- The opcodes whose length in the table is not the increment of their arm. -/
def Opcode.misSized : Opcode → Bool
  | .load8BitArray | .store8BitArray | .add8BitArray | .load16BitArray | .store16BitArray
  | .add16BitArray | .load32BitArray | .store32BitArray | .add32BitArray | .load64BitArray
  | .store64BitArray | .add64BitArray | .loadRefArray | .storeRefArray | .addRefArray
  | .loadConstArray | .jumpIntEq | .jumpIntNotEq | .jumpIntGt | .jumpIntGtEq | .jumpIntLt
  | .jumpIntLtEq | .jumpFarIntEq | .jumpFarIntNotEq | .jumpFarIntGt | .jumpFarIntGtEq
  | .jumpFarIntLt | .jumpFarIntLtEq | .foreach | .foreachFar | .initArray => true
  | _ => false

end FallThrough

section Lands

/-- Where `p` runs without a transfer of control, it leaves the program counter
    at `m`; with no `m` it does not run so. -/
def Falls (m : Option ℕ) (p : Program StepResult) : Prop :=
  ∀ s, Prog.Along Vm.handle (fun o _ => o.transfers = false) p s →
    Prog.Post Vm.handle (fun _ t => m = some t.pc) (fun _ _ => True) p s

variable {m : Option ℕ}

theorem falls_next (n : ℕ) : Falls (some n) (next n) := fun _ _ => rfl

theorem falls_fail (e : VmError) : Falls m (fail e) := fun _ _ => trivial

theorem falls_bind {α : Type} {p : Program α} {f : α → Program StepResult}
    (hf : ∀ a, Falls m (f a)) : Falls m (p >>= f) := by
  intro s halong
  rw [Prog.post_bind]
  apply (Prog.along_bind.1 halong).2.mono
  · intro a t ht
    exact hf a t ht
  · intro _ _ _
    trivial

theorem falls_transfer {o : Op} (ho : o.transfers = true) {f : o.Res → Program StepResult} :
    Falls m (perform o >>= f) := by
  intro s halong
  have hnot : o.transfers = false := (Prog.along_op.1 halong).1
  rw [ho] at hnot
  cases hnot

theorem falls_setupCallFrame {methodAddr : ℕ} {numParams numLocals : Byte} {returnPc : ℕ}
    {f : Unit → Program StepResult} :
    Falls m (setupCallFrame methodAddr numParams numLocals returnPc >>= f) := falls_transfer rfl

theorem falls_unwindFrame {f : UnwindResult → Program StepResult} : Falls m (unwindFrame >>= f) :=
  falls_transfer rfl

theorem falls_branch (pc w : ℕ) : Falls m (branch pc w) :=
  falls_bind fun _ => falls_transfer rfl

theorem falls_doCall (blockSize bixOffset : ℕ) : Falls m (doCall blockSize bixOffset) :=
  falls_bind fun _ => falls_bind fun _ => falls_bind fun _ => falls_transfer rfl

theorem falls_ite {c : Prop} [Decidable c] {p q : Program StepResult} (hp : Falls m p)
    (hq : Falls m q) : Falls m (if c then p else q) := by
  split
  · exact hp
  · exact hq

/-- Every arm but that of `Switch` falls through by its own length. -/
theorem exec_falls (natives : Natives) (blockSize pc : ℕ) (opByte : Byte) {i : Instr}
    (hi : i ≠ .switch) : Falls (i.length.map (pc + ·)) (exec natives blockSize pc opByte i) := by
  cases i <;>
    simp only [exec, Instr.length, Option.map_some, Option.map_none, ← Nat.add_assoc]
  all_goals
    repeat' with_reducible first
      | exact falls_next _
      | exact falls_fail _
      | exact falls_branch _ _
      | exact falls_doCall _ _
      | exact falls_setupCallFrame
      | exact falls_unwindFrame
      | exact absurd rfl hi
      | apply falls_ite
      | refine falls_bind fun _ => ?_

/-- The default of a `Switch` goes past its table. -/
theorem exec_switch_falls (natives : Natives) (blockSize : ℕ) (opByte : Byte) {s : Vm}
    (halong : Prog.Along Vm.handle (fun o _ => o.transfers = false)
      (exec natives blockSize s.pc opByte .switch) s) :
    Prog.Post Vm.handle
      (fun _ t => ∃ n, s.codeAt 2 (s.pc + 1) = some n ∧ t.pc = s.pc + (3 + n.toNat * 2))
      (fun _ _ => True) (exec natives blockSize s.pc opByte .switch) s := by
  have hfirst := (Prog.along_bind.1 halong).2
  rw [exec, Prog.post_bind]
  rw [post_code] at hfirst ⊢
  cases hn : s.codeAt 2 (s.pc + 1) with
  | none => trivial
  | some n =>
    rw [hn] at hfirst
    have hfalls : Falls (some (s.pc + 3 + n.toNat * 2)) (do
        let cond ← pop
        if cond.toInt < 0 ∨ (n.toNat : ℤ) ≤ cond.toInt then next (s.pc + 3 + n.toNat * 2)
        else do
          let offset ← code 2 (s.pc + 3 + cond.toNat * 2)
          jumpTo (s.pc + offset.toInt)) := by
      refine falls_bind fun _ => falls_ite (falls_next _) ?_
      exact falls_bind fun _ => falls_transfer rfl
    apply (hfalls s hfirst).mono
    · intro _ t ht
      exact ⟨n, rfl, by rw [← Option.some.inj ht, Nat.add_assoc]⟩
    · intro _ _ _
      trivial

end Lands

/-- The table agrees with the arms except on the opcodes listed. -/
theorem instructionSize_eq_iff {op : Opcode} {n : ℕ} (hswitch : op ≠ .switch)
    (hn : op.instr.length = some n) : op.instructionSize = n ↔ op.misSized = false := by
  revert hn
  cases op <;>
    simp only [Opcode.instr, Instr.length, Option.some.injEq, reduceCtorEq, false_implies] <;>
    intro hn <;> subst hn <;> decide

section Agreement

variable (natives : Natives)

theorem FallsThrough.arm {s t : Vm} {op : Opcode} (h : FallsThrough natives s t)
    (hop : s.opcode = some op) : ∃ byte,
      Prog.Along Vm.handle (fun o _ => o.transfers = false)
        (exec natives s.blockSize.toNat s.pc byte op.instr) s ∧
      Prog.run Vm.handle (exec natives s.blockSize.toNat s.pc byte op.instr) s =
        (.ok .continue, t) := by
  obtain ⟨byte, hbyte, hdecode, hstep⟩ := step_opcode natives hop
  have halong := (Prog.along_bind.1 h.1).2
  rw [post_code, hbyte] at halong
  simp only [hdecode] at halong
  exact ⟨byte, halong, hstep.symm.trans h.2⟩

theorem FallsThrough.length_eq {s t : Vm} {op : Opcode} (h : FallsThrough natives s t)
    (hop : s.opcode = some op) (hswitch : op ≠ .switch) :
    op.instr.length.map (s.pc + ·) = some t.pc := by
  obtain ⟨byte, halong, hrun⟩ := h.arm natives hop
  have hne : op.instr ≠ .switch := by
    cases op <;> first | exact absurd rfl hswitch | exact nofun
  have hfalls := exec_falls natives s.blockSize.toNat s.pc byte hne s halong
  rw [Prog.Post, hrun] at hfalls
  exact hfalls

theorem FallsThrough.switch_eq {s t : Vm} (h : FallsThrough natives s t)
    (hop : s.opcode = some .switch) :
    ∃ n, s.codeAt 2 (s.pc + 1) = some n ∧ t.pc = s.pc + (3 + n.toNat * 2) := by
  obtain ⟨byte, halong, hrun⟩ := h.arm natives hop
  have hfalls := exec_switch_falls natives s.blockSize.toNat byte halong
  change Prog.run Vm.handle (exec natives s.blockSize.toNat s.pc byte .switch) s = _ at hrun
  rw [Prog.Post, hrun] at hfalls
  exact hfalls

theorem sweepStep_of_opcode {s : Vm} {op : Opcode} (hop : s.opcode = some op)
    (hswitch : op ≠ .switch) : sweepStep s.code s.pc = some (s.pc + op.instructionSize) := by
  obtain ⟨byte, hbyte, hdecode⟩ := Option.bind_eq_some_iff.1 hop
  have hread : readAt s.code 1 s.pc = some byte := hbyte
  simp only [sweepStep, hread, hdecode]
  split
  · exact absurd rfl hswitch
  · rfl

theorem sweepStep_of_switch {s : Vm} {n : Bytes 2} (hop : s.opcode = some .switch)
    (hn : s.codeAt 2 (s.pc + 1) = some n) :
    sweepStep s.code s.pc = some (s.pc + (3 + n.toNat * 2)) := by
  obtain ⟨byte, hbyte, hdecode⟩ := Option.bind_eq_some_iff.1 hop
  have hread : readAt s.code 1 s.pc = some byte := hbyte
  have htable : readAt s.code 2 (s.pc + 1) = some n := hn
  simp only [sweepStep, hread, hdecode, htable]

theorem FallsThrough.sweepStep_iff {s t : Vm} {op : Opcode} (h : FallsThrough natives s t)
    (hop : s.opcode = some op) : sweepStep s.code s.pc = some t.pc ↔ op.misSized = false := by
  by_cases hswitch : op = .switch
  · subst hswitch
    obtain ⟨n, hn, hpc⟩ := h.switch_eq natives hop
    rw [sweepStep_of_switch hop hn, hpc]
    exact ⟨fun _ => rfl, fun _ => rfl⟩
  · have hlength := h.length_eq natives hop hswitch
    obtain ⟨n, hn, hpc⟩ := Option.map_eq_some_iff.1 hlength
    rw [sweepStep_of_opcode hop hswitch, ← instructionSize_eq_iff hswitch hn, ← hpc]
    simp only [Option.some.injEq, Nat.add_left_cancel_iff]

theorem FallsThrough.fixed {s t : Vm} (h : FallsThrough natives s t) : Vm.Fixed s t := by
  have hstep := Vm.step_fixed natives s
  rw [h.2] at hstep
  exact hstep

theorem FallRun.fixed {ok : Opcode → Prop} {s t : Vm} {k : ℕ}
    (hrun : FallRun natives ok s k t) : Vm.Fixed s t := by
  induction hrun with
  | refl => exact Vm.Fixed.refl s
  | tail _ _ _ hstep ih => exact ih.trans (hstep.fixed natives)

theorem FallRun.sweepSteps_eq {s t : Vm} {k : ℕ}
    (hrun : FallRun natives (fun op => op.misSized = false) s k t) :
    sweepSteps s.code k s.pc = some t.pc := by
  induction hrun with
  | refl => rfl
  | tail hrun hop hok hstep ih =>
    rw [sweepSteps, ih, ← (hrun.fixed natives).code]
    exact (hstep.sweepStep_iff natives hop).2 hok

/-- An instruction that falls through ends where the sweep goes on exactly when
    its opcode is not mis-sized; and along instructions that are not, the sweep
    visits the offsets the interpreter does. -/
theorem sweep_matches_fallThrough_iff :
    (∀ (s t : Vm) (op : Opcode), s.opcode = some op → FallsThrough natives s t →
      (sweepStep s.code s.pc = some t.pc ↔ op.misSized = false)) ∧
    (∀ (s t : Vm) (k : ℕ), FallRun natives (fun op => op.misSized = false) s k t →
      sweepSteps s.code k s.pc = some t.pc) := by
  constructor
  · intro s t op hop hfalls
    exact hfalls.sweepStep_iff natives hop
  · intro s t k hrun
    exact hrun.sweepSteps_eq natives

end Agreement

def branchStart : Vm := Vm.new [3, 144, 5, 0] [] 4

def atBranch : Vm := (branchStart.step .stubs).2

def pastBranch : Vm := (atBranch.step .stubs).2

/-- The branch that is not taken falls through to the offset the sweep goes to. -/
theorem sweep_matches_fallThrough_branch :
    atBranch.opcode = some .jumpZero ∧ FallsThrough .stubs atBranch pastBranch ∧
      pastBranch.pc = 3 ∧ sweepStep branchStart.code 1 = some 3 ∧
      sweepSteps branchStart.code 2 0 = some 3 := by
  have hload : branchStart.opcode = some .loadI1 := by decide
  have hjump : atBranch.opcode = some .jumpZero := by decide
  have hfirst : FallsThrough .stubs branchStart atBranch := ⟨⟨rfl, ⟨rfl, ⟨rfl, trivial⟩⟩⟩, rfl⟩
  have hsecond : FallsThrough .stubs atBranch pastBranch := ⟨⟨rfl, ⟨rfl, ⟨rfl, trivial⟩⟩⟩, rfl⟩
  have hpc : pastBranch.pc = 3 := rfl
  obtain ⟨hone, hrun⟩ := sweep_matches_fallThrough_iff .stubs
  have hsweep := (hone atBranch pastBranch .jumpZero hjump hsecond).2 rfl
  have hsweeps := hrun branchStart pastBranch 2
    (.tail (.tail (.refl _) hload rfl hfirst) hjump rfl hsecond)
  rw [hpc] at hsweep hsweeps
  exact ⟨hjump, hsecond, hpc, hsweep, hsweeps⟩

/-- Two unequal integers on the stack in front of `JumpIntEq`: the branch is not
    taken and the interpreter goes on two bytes further, the sweep three. -/
theorem sweep_misses_fallThrough :
    ∃ s t, s.opcode = some .jumpIntEq ∧ FallsThrough .stubs s t ∧ t.pc = s.pc + 2 ∧
      sweepStep s.code s.pc = some (s.pc + 3) := by
  let s : Vm := { Vm.new [150, 5, 0, 0] [] 4 with sp := 2, cells := fun i => BitVec.ofNat 32 i }
  refine ⟨s, { s with sp := 0, pc := 2 }, by decide, ⟨⟨rfl, ?_⟩, ?_⟩, rfl, by decide⟩
  · exact ⟨rfl, ⟨rfl, ⟨rfl, trivial⟩⟩⟩
  · rfl

end Sandstar.Svm
