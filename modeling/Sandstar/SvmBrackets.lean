import Sandstar.SvmCalls
import Sandstar.SvmValidator

set_option autoImplicit false

/-!
# From a call to its return

A call opens a frame over its arguments; the matching return is the first return executed with
that frame on top. In between the frames of nested calls lie one above the other, each with its
arguments among the operands of the one below, so that nothing below the arguments is written.
-/
namespace Sandstar.Svm

open Sandstar.Effects

section Nesting

/-- The calls inside the one with the frame `f`, the innermost first, up to the stack pointer:
    each lies above the frame cells of its caller, its arguments included. -/
def Nested (f : CallFrame) : List CallFrame → ℕ → Prop
  | [], sp => f.framePointer + 3 ≤ sp
  | g :: gs, sp =>
    g.framePointer + 3 ≤ sp ∧ Nested f gs (g.framePointer - g.numParams.toNat)

variable {f g : CallFrame} {gs fs below : List CallFrame} {sp sp' : ℕ}

theorem Nested.mono (h : Nested f gs sp) (hle : sp ≤ sp') : Nested f gs sp' := by
  cases gs with
  | nil => exact h.trans hle
  | cons g gs => exact ⟨h.1.trans hle, h.2⟩

/-- The stack pointer may come down to the frame cells of the running method. -/
theorem Nested.lower (h : Nested f gs sp) (hg : gs ++ f :: below = g :: fs)
    (hle : g.framePointer + 3 ≤ sp') : Nested f gs sp' := by
  cases gs with
  | nil =>
    cases hg
    exact hle
  | cons g' gs =>
    cases hg
    exact ⟨hle, h.2⟩

theorem Nested.above (h : Nested f gs sp) : f.framePointer + 3 ≤ sp := by
  induction gs generalizing sp with
  | nil => exact h
  | cons g gs ih =>
    have hbelow := ih h.2
    have hcells := h.1
    omega

/-- The arguments of the running method are not below those of the outermost call. -/
theorem Nested.floor (h : Nested f gs sp) (hg : gs ++ f :: below = g :: fs) :
    f.framePointer - f.numParams.toNat ≤ g.framePointer - g.numParams.toNat := by
  cases gs with
  | nil =>
    cases hg
    exact le_refl _
  | cons g' gs =>
    cases hg
    have hbelow := h.2.above
    omega

end Nesting

section Operations

/-- The operation takes and moves no cell below the locals of the running method. The
    arguments of a call count as taken. -/
def Op.Contained (o : Op) (s : Vm) : Prop :=
  match s.frames with
  | [] => True
  | g :: _ =>
    match o with
    | .pop => g.framePointer + 3 + 1 ≤ s.sp
    | .drop n => g.framePointer + 3 + n ≤ s.sp
    | .poke k _ => g.framePointer + 3 + k ≤ s.sp
    | .enter _ numParams _ _ => g.framePointer + 3 + numParams.toNat ≤ s.sp
    | _ => True

/-- Inside the call with the frame `f`, made from the machine `e`. -/
structure Vm.Guarded (e : Vm) (f : CallFrame) (s : Vm) : Prop where
  frames : ∃ calls, s.frames = calls ++ f :: e.frames ∧ Nested f calls s.sp
  below : ∀ i < f.framePointer - f.numParams.toNat, s.cells i = e.cells i

variable {e s t : Vm} {f : CallFrame} {o : Op}

theorem Vm.Guarded.current (h : e.Guarded f s) : ∃ g fs, s.frames = g :: fs ∧
    f.framePointer - f.numParams.toNat ≤ g.framePointer - g.numParams.toNat ∧
    g.framePointer + 3 ≤ s.sp ∧
    ∀ {c : ℕ → Cell} {sp : ℕ}, g.framePointer + 3 ≤ sp →
      (∀ i < f.framePointer - f.numParams.toNat, c i = s.cells i) →
      e.Guarded f { s with cells := c, sp := sp } := by
  obtain ⟨calls, hframes, hnested⟩ := h.frames
  obtain ⟨g, fs, hg⟩ : ∃ g fs, calls ++ f :: e.frames = g :: fs := by
    cases calls with
    | nil => exact ⟨_, _, rfl⟩
    | cons g gs => exact ⟨_, _, rfl⟩
  have hcells : g.framePointer + 3 ≤ s.sp := by
    cases calls with
    | nil =>
      cases hg
      exact hnested
    | cons g' gs =>
      cases hg
      exact hnested.1
  refine ⟨g, fs, hframes.trans hg, hnested.floor hg, hcells, ?_⟩
  intro c sp hsp hc
  exact ⟨⟨calls, hframes, hnested.lower hg hsp⟩, fun i hi => (hc i hi).trans (h.below i hi)⟩

theorem Vm.Guarded.of_eq (h : e.Guarded f s) (hframes : t.frames = s.frames) (hsp : t.sp = s.sp)
    (hcells : t.cells = s.cells) : e.Guarded f t := by
  obtain ⟨⟨calls, hcalls, hnested⟩, hbelow⟩ := h
  refine ⟨⟨calls, hframes.trans hcalls, hsp ▸ hnested⟩, ?_⟩
  rw [hcells]
  exact hbelow

theorem Vm.Guarded.write (h : e.Guarded f s) (vs : List Cell) : e.Guarded f (s.write vs) := by
  obtain ⟨⟨calls, hcalls, hnested⟩, hbelow⟩ := h
  have habove := hnested.above
  refine ⟨⟨calls, hcalls, hnested.mono (Nat.le_add_right _ _)⟩, ?_⟩
  intro i hi
  rw [Vm.write_cells_lt (by omega)]
  exact hbelow i hi

theorem Vm.Guarded.setCell {i : ℕ} {v : Cell} (h : e.Guarded f s)
    (hi : f.framePointer - f.numParams.toNat ≤ i) : e.Guarded f (s.setCell i v) := by
  refine ⟨h.frames, ?_⟩
  intro j hj
  unfold Vm.setCell
  dsimp only
  rw [Function.update_of_ne (by omega)]
  exact h.below j hj

theorem pushCells_ok {vs : List Cell} (h : s.pushCells vs = (.ok (), t)) : t = s.write vs := by
  induction vs generalizing s with
  | nil =>
    cases h
    exact (Vm.write_nil _).symm
  | cons v vs ih =>
    rw [Vm.pushCells] at h
    split at h
    · cases h
    · rw [ih h, Vm.write_cons]

theorem setupCallFrame_ok {m r : ℕ} {np nl : Byte}
    (h : s.setupCallFrame m np nl r = (.ok (), t)) :
    ∃ header : List Cell, header.length = 3 ∧ t = s.called header ⟨r, s.sp, np, nl⟩ m := by
  let header : List Cell := [BitVec.ofNat 32 r,
    BitVec.ofNat 32 ((s.frames.head?.map (·.framePointer)).getD 0), BitVec.ofNat 32 m]
  have hsp : (s.write header).sp - 3 = s.sp := Nat.add_sub_cancel ..
  refine ⟨header, rfl, ?_⟩
  unfold Vm.setupCallFrame at h
  change Vm.andThen (s.pushCells header) _ = _ at h
  rcases hpush : s.pushCells header with ⟨e | _, u⟩
  · rw [hpush] at h
    cases h
  · rw [hpush, Vm.andThen, pushCells_ok hpush, hsp] at h
    rcases hframe : (s.write header).pushFrame ⟨r, s.sp, np, nl⟩ with ⟨e | _, w⟩
    · rw [hframe] at h
      cases h
    · rw [hframe, Vm.andThen] at h
      unfold Vm.pushFrame at hframe
      split at hframe
      · cases hframe
      · cases hframe
        rcases hlocals : Vm.pushCells _ (List.replicate nl.toNat 0) with ⟨e | _, x⟩
        · rw [hlocals] at h
          cases h
        · rw [hlocals, pushCells_ok hlocals] at h
          cases h
          rfl

/-- A call made inside keeps its arguments among the operands of its caller. -/
theorem Vm.Guarded.called {header : List Cell} {r m : ℕ} {np nl : Byte} (h : e.Guarded f s)
    (hheader : header.length = 3) (hcontained : (Op.enter m np nl r).Contained s) :
    e.Guarded f (s.called header ⟨r, s.sp, np, nl⟩ m) := by
  obtain ⟨g, fs, hg, -, -, -⟩ := h.current
  obtain ⟨⟨calls, hcalls, hnested⟩, hbelow⟩ := h
  have hargs : g.framePointer + 3 + np.toNat ≤ s.sp := by
    simpa only [Op.Contained, hg] using hcontained
  have habove := hnested.above
  refine ⟨⟨⟨r, s.sp, np, nl⟩ :: calls, ?_, ?_, ?_⟩, ?_⟩
  · change _ :: s.frames = _
    rw [hcalls, List.cons_append]
  · rw [called_sp hheader]
    exact Nat.le_add_right _ _
  · exact hnested.lower (hcalls.symm.trans hg) (by dsimp only; omega)
  · intro i hi
    rw [called_cells (by omega)]
    exact hbelow i hi

theorem peekIndex_ok {k n : ℕ} (h : s.peekIndex k = .ok n) : n = s.sp - k := by
  unfold Vm.peekIndex at h
  split_ifs at h
  exact (Except.ok.inj h).symm

theorem slotIndex_ge {b : Bank} {i n : ℕ} {g : CallFrame} {fs : List CallFrame}
    (hg : s.frames = g :: fs) (h : s.slotIndex b i = .ok n) :
    g.framePointer - g.numParams.toNat ≤ n := by
  unfold Vm.slotIndex Vm.bankBase at h
  rw [hg] at h
  cases b with
  | params =>
    dsimp only at h
    split_ifs at h
    dsimp only at h
    split_ifs at h
    cases h
    omega
  | locals =>
    dsimp only at h
    split_ifs at h
    cases h
    omega

theorem handle_guarded (h : e.Guarded f s) (hcontained : o.Contained s) (ho : o ≠ .unwind) :
    Prog.Settles (fun _ t => e.Guarded f t) (fun _ _ => True) (Vm.handle o s) := by
  obtain ⟨g, fs, hg, hfloor, hcells, hupdate⟩ := h.current
  have hsame : ∀ {a : Except Halt o.Res} {t : Vm}, t.frames = s.frames → t.sp = s.sp →
      t.cells = s.cells → Prog.Settles (fun _ t => e.Guarded f t) (fun _ _ => True) (a, t) := by
    intro a t hframes hsp hc
    rcases a with _ | r
    · trivial
    · exact h.of_eq hframes hsp hc
  cases o with
  | unwind => exact absurd rfl ho
  | push v =>
    simp only [Vm.handle]
    split
    · trivial
    · exact h.write [v]
  | pop =>
    have hpop : g.framePointer + 3 + 1 ≤ s.sp := by
      simpa only [Op.Contained, hg] using hcontained
    simp only [Vm.handle]
    split_ifs
    · trivial
    · trivial
    · exact hupdate (by omega) fun _ _ => rfl
  | drop n =>
    have hdrop : g.framePointer + 3 + n ≤ s.sp := by
      simpa only [Op.Contained, hg] using hcontained
    simp only [Vm.handle]
    split_ifs
    · trivial
    · exact hupdate (by omega) fun _ _ => rfl
  | poke k v =>
    have hpoke : g.framePointer + 3 + k ≤ s.sp := by
      simpa only [Op.Contained, hg] using hcontained
    simp only [Vm.handle]
    cases hindex : s.peekIndex k with
    | error e => trivial
    | ok n =>
      have hn := peekIndex_ok hindex
      exact h.setCell (by omega)
  | set b i v =>
    simp only [Vm.handle]
    cases hindex : s.slotIndex b i with
    | error e => trivial
    | ok n => exact h.setCell (hfloor.trans (slotIndex_ge hg hindex))
  | enter m np nl r =>
    simp only [Vm.handle]
    rcases hsetup : s.setupCallFrame m np nl r with ⟨err | _, t⟩
    · trivial
    · obtain ⟨header, hheader, rfl⟩ := setupCallFrame_ok hsetup
      exact h.called hheader hcontained
  | room _ | need _ | peek _ | base _ | get _ _ | code _ _ | load _ _ | store _ _ _ =>
    simp only [Vm.handle]
    split <;> exact hsame rfl rfl rfl
  | setPc _ | jump _ => exact hsame rfl rfl rfl
  | countAssert passed =>
    simp only [Vm.handle]
    unfold Vm.countAssert
    cases passed <;> dsimp only <;> split_ifs <;> exact hsame rfl rfl rfl
  | fail _ | fault => trivial

end Operations

section Returns

def Vm.unwound (s : Vm) (g : CallFrame) (fs : List CallFrame) : Vm :=
  { s with frames := fs, sp := g.framePointer - g.numParams.toNat, pc := g.returnPc }

def Instr.isReturn : Instr → Bool
  | .returnPop | .returnPopWide | .returnVoid => true
  | _ => false

def Instr.returned (s : Vm) : Instr → List Cell
  | .returnPop => [s.top 1]
  | .returnPopWide => [s.top 2, s.top 1]
  | _ => []

variable {s : Vm} {g : CallFrame} {fs : List CallFrame} {i : Instr}

/-- A return goes on in the caller, its cells on top, unless the frame is a top-level one. -/
def Returns (s : Vm) (g : CallFrame) (fs : List CallFrame) (i : Instr) (r : StepResult) (t : Vm) :
    Prop :=
  if g.returnPc = 0 then r ≠ .continue
  else r = .continue ∧ g.numParams.toNat ≤ g.framePointer ∧
    t = (s.unwound g fs).write (i.returned s)

theorem post_unwindFrame {X : Halt → Vm → Prop} {Q : UnwindResult → Vm → Prop} :
    Prog.Post Vm.handle Q X unwindFrame s ↔ Prog.Settles Q X s.unwindFrame :=
  post_perform .unwind

/-- The end of a return, once the result has been taken from the stack. -/
theorem post_unwound {u : Vm} {r : StepResult} {q : UnwindResult → Program StepResult}
    (hframes : u.frames = g :: fs) (hu : u.unwound g fs = s.unwound g fs)
    (htop : q .topLevel = pure r) (hr : r ≠ .continue)
    (hcaller : g.numParams.toNat ≤ g.framePointer → g.returnPc ≠ 0 →
      Prog.Post Vm.handle (Returns s g fs i) (fun _ _ => True) (q .caller) (s.unwound g fs)) :
    Prog.Post Vm.handle (Returns s g fs i) (fun _ _ => True) (unwindFrame >>= q) u := by
  rw [Prog.post_bind, post_unwindFrame]
  unfold Vm.unwindFrame
  rw [hframes]
  dsimp only
  by_cases hparams : g.numParams.toNat ≤ g.framePointer
  · rw [if_pos hparams]
    by_cases hzero : g.returnPc = 0
    · rw [if_pos hzero, Prog.settles_ok, htop]
      exact (if_pos hzero).mpr hr
    · rw [if_neg hzero, Prog.settles_ok]
      change Prog.Post Vm.handle _ _ (q .caller) (u.unwound g fs)
      rw [hu]
      exact hcaller hparams hzero
  · rw [if_neg hparams]
    trivial

theorem returns_caller {t : Vm} (hparams : g.numParams.toNat ≤ g.framePointer)
    (hzero : g.returnPc ≠ 0) (ht : t = (s.unwound g fs).write (i.returned s)) :
    Returns s g fs i .continue t :=
  (if_neg hzero).mpr ⟨rfl, hparams, ht⟩

theorem exec_returns (natives : Natives) (blockSize pc : ℕ) (opByte : Byte)
    (hi : i.isReturn = true) (hframes : s.frames = g :: fs) :
    Prog.Post Vm.handle (Returns s g fs i) (fun _ _ => True)
      (exec natives blockSize pc opByte i) s := by
  cases i with
  | returnVoid =>
    refine post_unwound hframes rfl rfl StepResult.noConfusion fun hparams hzero => ?_
    exact returns_caller hparams hzero (Vm.write_nil _).symm
  | returnPop =>
    change Prog.Post Vm.handle _ _ (pop >>= _) s
    rw [Prog.post_bind, post_pop]
    split_ifs
    refine post_unwound hframes rfl rfl StepResult.noConfusion fun hparams hzero => ?_
    change Prog.Post Vm.handle _ _ (push (s.top 1) >>= _) _
    rw [Prog.post_bind, post_push]
    split_ifs
    exact returns_caller hparams hzero rfl
  | returnPopWide =>
    change Prog.Post Vm.handle _ _ (popI64 >>= _) s
    rw [Prog.post_bind, popI64, Prog.post_bind, post_need]
    split_ifs
    rw [Prog.post_bind, post_pop]
    split_ifs
    rw [Prog.post_bind, post_pop]
    split_ifs
    have hlow : ({ s with sp := s.sp - 1 } : Vm).top 1 = s.top 2 := rfl
    rw [hlow]
    refine post_unwound hframes rfl rfl StepResult.noConfusion fun hparams hzero => ?_
    change Prog.Post Vm.handle _ _ (pushI64 (s.top 1 ++ s.top 2) >>= _) _
    rw [Prog.post_bind, pushI64, Prog.post_bind, post_room]
    split_ifs
    rw [Prog.post_bind, post_push]
    split_ifs
    rw [post_push]
    split_ifs
    refine returns_caller hparams hzero ?_
    rw [Vm.write_cons, BitVec.setWidth_append_eq_right, BitVec.extractLsb'_append_eq_left]
    rfl
  | _ => cases hi

end Returns

section Calls

def Instr.isCall : Instr → Bool
  | .call | .loadParam0Call | .callVirtual => true
  | _ => false

def Vm.passing (s : Vm) : Instr → Vm
  | .loadParam0Call =>
    match s.slotIndex .params 0 with
    | .ok n => s.write [s.cells n]
    | .error _ => s
  | _ => s

def Opened (e : Vm) (back : ℕ) (f : CallFrame) (t : Vm) : Prop :=
  ∃ (header : List Cell) (m : ℕ), header.length = 3 ∧ f.framePointer = e.sp ∧
    f.returnPc = back ∧ t = e.called header f m

variable {e s : Vm}

theorem post_opened {m r : ℕ} {np nl : Byte} :
    Prog.Post Vm.handle (fun _ t => ∃ f, Opened e r f t) (fun _ _ => True)
      (setupCallFrame m np nl r) e := by
  apply (post_perform (.enter m np nl r)).2
  simp only [Vm.handle]
  rcases hsetup : e.setupCallFrame m np nl r with ⟨err | _, t⟩
  · trivial
  · obtain ⟨header, hheader, rfl⟩ := setupCallFrame_ok hsetup
    exact ⟨_, header, m, hheader, rfl, rfl, rfl⟩

theorem post_code_same {α : Type} {w a : ℕ} {Q : α → Vm → Prop} {p : Bytes w → Program α}
    (h : ∀ v, Prog.Post Vm.handle Q (fun _ _ => True) (p v) s) :
    Prog.Post Vm.handle Q (fun _ _ => True) (code w a >>= p) s := by
  rw [Prog.post_bind, post_code]
  cases s.codeAt w a with
  | none => trivial
  | some v => exact h v

theorem post_getData_same {α : Type} {w base : ℕ} {offset : ℤ} {Q : α → Vm → Prop}
    {p : Bytes w → Program α} (h : ∀ v, Prog.Post Vm.handle Q (fun _ _ => True) (p v) s) :
    Prog.Post Vm.handle Q (fun _ _ => True) (getData w base offset >>= p) s := by
  have hload : ∀ a, Prog.Post Vm.handle Q (fun _ _ => True) (load w a >>= p) s := by
    intro a
    rw [Prog.post_bind, post_load]
    cases s.dataAt w a with
    | none => trivial
    | some v => exact h v
  unfold getData dataAddr
  split_ifs
  · exact hload _
  · trivial
  · trivial
  · exact hload _
  · trivial

theorem doCall_opens (blockSize bixOffset : ℕ) :
    Prog.Post Vm.handle (fun _ t => ∃ f, Opened e (bixOffset + 2) f t) (fun _ _ => True)
      (doCall blockSize bixOffset) e := by
  refine post_code_same fun bix => post_code_same fun np => post_code_same fun nl => ?_
  rw [Prog.post_bind]
  exact post_opened

/-- The operands of the calls lie right after the opcode, and the call returns behind them. -/
theorem exec_opens (natives : Natives) (blockSize pc : ℕ) (opByte : Byte) {op : Opcode}
    (hcall : op.instr.isCall = true) :
    Prog.Post Vm.handle
      (fun _ t => ∃ f, Opened (s.passing op.instr) (pc + op.instructionSize) f t)
      (fun _ _ => True) (exec natives blockSize pc opByte op.instr) s := by
  cases op <;> cases hcall
  case call => exact doCall_opens blockSize (pc + 1)
  case loadParam0Call =>
    change Prog.Post Vm.handle _ _ (getSlot .params 0 >>= _) s
    rw [Prog.post_bind, post_getSlot]
    unfold Vm.passing Opcode.instr
    dsimp only
    cases s.slotIndex .params 0 with
    | error err => trivial
    | ok n =>
      change Prog.Post Vm.handle _ _ (push (s.cells n) >>= _) s
      rw [Prog.post_bind, post_push]
      split_ifs
      exact doCall_opens blockSize (pc + 1)
  case callVirtual =>
    refine post_code_same fun idx => post_code_same fun np => ?_
    rw [Prog.post_bind, post_peek]
    cases s.peekIndex np.toNat with
    | error err => trivial
    | ok n =>
      refine post_getData_same fun vtable => post_code_same fun method => ?_
      refine post_code_same fun mnp => post_code_same fun mnl => ?_
      rw [Prog.post_bind]
      exact post_opened

theorem Opened.guarded {back : ℕ} {f : CallFrame} {t : Vm} (h : Opened e back f t) :
    e.Guarded f t := by
  obtain ⟨header, m, hheader, hfp, -, rfl⟩ := h
  refine ⟨⟨[], rfl, ?_⟩, ?_⟩
  · unfold Nested
    rw [called_sp hheader, hfp]
    exact Nat.le_add_right _ _
  · intro i hi
    exact called_cells (by omega)

end Calls

section Brackets

variable (natives : Natives)

def Vm.Contained (s : Vm) : Prop :=
  Prog.Along Vm.handle Op.Contained (stepProgram natives s.blockSize.toNat s.pc) s

/-- From `s` inside a call made over `depth` frames to `r`, where none of the instructions in
    between is the matching return, and each is contained in its method. -/
inductive Inside (depth : ℕ) : Vm → Vm → Prop
  | here {s : Vm} : Inside depth s s
  | next {s t r : Vm} (hinner : s.AtReturn → depth + 1 < s.frames.length)
      (hcontained : s.Contained natives) (hstep : s.step natives = (.ok .continue, t))
      (hrest : Inside depth t r) : Inside depth s r

/-- A run from a calling instruction to its matching return: `before` and `start` are the
    machine before and after the call, `last` and `after` before and after the return. -/
structure Bracket (before start last after : Vm) (caller returner : Opcode) : Prop where
  caller_eq : before.opcode = some caller
  isCall : caller.instr.isCall = true
  calls : before.step natives = (.ok .continue, start)
  inside : Inside natives before.frames.length start last
  returner_eq : last.opcode = some returner
  isReturn : returner.instr.isReturn = true
  matching : last.frames.length = before.frames.length + 1
  returns : ∃ result, last.step natives = (.ok result, after)

variable {e s t r : Vm} {f : CallFrame}

theorem step_ok {op : Opcode} {result : StepResult} {Q : StepResult → Vm → Prop}
    (hop : s.opcode = some op) (hstep : s.step natives = (.ok result, t))
    (hpost : ∀ byte, Prog.Post Vm.handle Q (fun _ _ => True)
      (exec natives s.blockSize.toNat s.pc byte op.instr) s) : Q result t := by
  obtain ⟨byte, -, -, hexec⟩ := step_opcode natives hop
  have hrun := hpost byte
  unfold Prog.Post at hrun
  rw [← hexec, hstep] at hrun
  exact hrun

theorem atReturn_iff {op : Opcode} (hop : s.opcode = some op) :
    s.AtReturn ↔ op.instr.isReturn = true := by
  unfold Vm.AtReturn
  constructor
  · rintro ⟨op', hop', hcases⟩
    rw [hop] at hop'
    cases hop'
    rcases hcases with hi | hi | hi <;> rw [hi] <;> rfl
  · intro hreturn
    refine ⟨op, hop, ?_⟩
    revert hreturn
    cases op.instr <;> simp [Instr.isReturn]

/-- The return of a nested call leaves its caller's cells to its caller. -/
theorem Vm.Guarded.unwound {g : CallFrame} {gs : List CallFrame} (h : e.Guarded f s)
    (hframes : s.frames = g :: gs) (hinner : e.frames.length + 1 < s.frames.length) :
    e.Guarded f (s.unwound g gs) := by
  obtain ⟨⟨calls, hcalls, hnested⟩, hbelow⟩ := h
  cases calls with
  | nil =>
    rw [hcalls] at hinner
    exact absurd hinner (lt_irrefl _)
  | cons g' calls =>
    rw [hcalls] at hframes
    cases hframes
    exact ⟨⟨calls, rfl, hnested.2⟩, hbelow⟩

theorem step_guarded (h : e.Guarded f s) (hcontained : s.Contained natives)
    (hinner : s.AtReturn → e.frames.length + 1 < s.frames.length)
    (hstep : s.step natives = (.ok .continue, t)) : e.Guarded f t := by
  cases hop : s.opcode with
  | none =>
    rw [step_undecoded_error natives hop] at hstep
    cases hstep
  | some op =>
    by_cases hreturn : op.instr.isReturn = true
    · obtain ⟨g, gs, hframes, -, -, -⟩ := h.current
      have hreturns := step_ok natives hop hstep fun byte =>
        exec_returns natives s.blockSize.toNat s.pc byte hreturn hframes
      unfold Returns at hreturns
      split_ifs at hreturns
      · exact absurd rfl hreturns
      · rw [hreturns.2.2]
        exact (h.unwound hframes (hinner ((atReturn_iff hop).2 hreturn))).write _
    · obtain ⟨byte, -, halong, hexec⟩ := along_opcode natives hop hcontained
      have hcalm := exec_calm natives s.blockSize.toNat s.pc byte (i := op.instr) (by
        refine ⟨?_, ?_, ?_⟩ <;> intro hi <;> exact hreturn (by rw [hi]; rfl))
      have hpost : Prog.Post Vm.handle (fun _ t => e.Guarded f t) (fun _ _ => True)
          (exec natives s.blockSize.toNat s.pc byte op.instr) s := by
        refine Prog.post_of_along (I := fun t => e.Guarded f t) ?_ h (halong.and_all hcalm)
        intro o u hu ho
        refine handle_guarded hu ho.1 ?_
        rintro rfl
        exact ho.2
      unfold Prog.Post at hpost
      rw [← hexec, hstep] at hpost
      exact hpost

theorem Inside.guarded (h : Inside natives e.frames.length s r) (hs : e.Guarded f s) :
    e.Guarded f r := by
  induction h with
  | here => exact hs
  | next hinner hcontained hstep _ ih =>
    exact ih (step_guarded natives hs hcontained hinner hstep)

theorem passing_frames (s : Vm) (i : Instr) : (s.passing i).frames = s.frames := by
  unfold Vm.passing
  split
  · split <;> rfl
  · rfl

theorem instructionSize_pos {op : Opcode} (hcall : op.instr.isCall = true) :
    0 < op.instructionSize := by
  cases op <;> cases hcall <;> decide

/-- What the caller finds after a call of the method with the frame `f`, made with all arguments
    on the stack of `e`: its own cells and frames, and the cells `vs` for the arguments. -/
structure HandsBack (e : Vm) (f : CallFrame) (back : ℕ) (vs : List Cell) (t : Vm) : Prop where
  arguments : f.numParams.toNat ≤ e.sp
  frames : t.frames = e.frames
  pc : t.pc = back
  sp : t.sp = e.sp - f.numParams.toNat + vs.length
  below : ∀ i < e.sp - f.numParams.toNat, t.cells i = e.cells i
  result : ∀ i v, vs[i]? = some v → t.cells (e.sp - f.numParams.toNat + i) = v

/-- A call comes back to the next instruction of its caller with the result in place of the
    arguments and nothing else changed, whatever calls were made in between. -/
theorem call_hands_back {before start last after : Vm} {caller returner : Opcode}
    (h : Bracket natives before start last after caller returner) :
    ∃ f, start.frames = f :: before.frames ∧ HandsBack (before.passing caller.instr) f
      (before.pc + caller.instructionSize) (returner.instr.returned last) after := by
  obtain ⟨f, hopened⟩ := step_ok natives h.caller_eq h.calls fun byte =>
    exec_opens natives before.blockSize.toNat before.pc byte h.isCall
  have hframes := passing_frames before caller.instr
  have hinside := h.inside
  have hmatching := h.matching
  rw [← hframes] at hinside hmatching
  have hguarded := hinside.guarded natives hopened.guarded
  obtain ⟨header, m, hheader, hfp, hback, rfl⟩ := hopened
  obtain ⟨⟨calls, hcalls, -⟩, hbelow⟩ := hguarded
  have hnil : calls = [] := by
    rw [hcalls, List.length_append, List.length_cons] at hmatching
    exact List.length_eq_zero_iff.1 (by omega)
  rw [hnil, List.nil_append] at hcalls
  obtain ⟨result, hresult⟩ := h.returns
  have hreturns := step_ok natives h.returner_eq hresult fun byte =>
    exec_returns natives last.blockSize.toNat last.pc byte h.isReturn hcalls
  have hsize := instructionSize_pos h.isCall
  unfold Returns at hreturns
  rw [if_neg (by omega)] at hreturns
  obtain ⟨-, hparams, rfl⟩ := hreturns
  have hbase : (last.unwound f (before.passing caller.instr).frames).sp =
      (before.passing caller.instr).sp - f.numParams.toNat := by
    rw [← hfp]
    rfl
  refine ⟨f, congrArg (f :: ·) hframes, hfp ▸ hparams, rfl, hback, ?_, ?_, ?_⟩
  · rw [Vm.write_sp, hbase]
  · intro i hi
    rw [Vm.write_cells_lt (by omega)]
    exact hbelow i (by omega)
  · intro i v hv
    rw [Vm.write_cells_ge (by omega), hbase, Nat.add_sub_cancel_left, hv]
    rfl

/-- A method that returns its parameter, and at 4 another that passes it a 5. -/
def echoCode : List Byte := [1, 0, 29, 227, 7, 221, 0, 0, 227]

/-- The second method after `n` steps: about to call, called, about to return, returned. -/
def echo (n : ℕ) : Vm :=
  (fun s => (s.step .stubs).2)^[n] ((Entry.withArgs 4 []).setup (.new echoCode [] 4)).2

theorem call_hands_back_echo : ∃ f, (echo 2).frames = f :: (echo 1).frames ∧
    HandsBack (echo 1) f 8 [5] (echo 4) := by
  have hcontained : (echo 2).Contained .stubs := ⟨trivial, trivial, trivial, trivial, trivial⟩
  have hinner : (echo 2).AtReturn → (echo 1).frames.length + 1 < (echo 2).frames.length := by
    intro hat
    have hop : (echo 2).opcode = some .loadParam0 := rfl
    exact absurd ((atReturn_iff hop).1 hat) (by decide)
  have hrun : Bracket .stubs (echo 1) (echo 2) (echo 3) (echo 4) .call .returnPop :=
    ⟨rfl, rfl, rfl, .next hinner hcontained rfl .here, rfl, rfl, rfl, _, rfl⟩
  exact call_hands_back .stubs hrun

end Brackets

end Sandstar.Svm
