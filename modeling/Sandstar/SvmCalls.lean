import Sandstar.SvmFrames

set_option autoImplicit false

/-!
# One method, called in different ways

A method body sees its parameters, its locals and its operands; what lies below
them and the three cells of its frame depend on who called it. Two runs of a
body that keeps to its own cells are compared activation by activation: one from
`execute_method`, the other from a `Call` of another method. `execute` starts at
the header itself and runs its two bytes as instructions.
-/
namespace Sandstar.Svm

open Sandstar.Effects

section Activations

structure SameActivation (c c' : ℕ → Cell) (f f' : CallFrame) (sp sp' : ℕ) : Prop where
  params : f'.numParams = f.numParams
  fits : f.numParams.toNat ≤ f.framePointer
  fits' : f.numParams.toNat ≤ f'.framePointer
  above : f.framePointer + 3 ≤ sp
  height : sp' + f.framePointer = sp + f'.framePointer
  operands : ∀ k, 3 ≤ k → f.framePointer + k < sp →
    c' (f'.framePointer + k) = c (f.framePointer + k)
  args : ∀ k, 1 ≤ k → k ≤ f.numParams.toNat → c' (f'.framePointer - k) = c (f.framePointer - k)

inductive SameStack (c c' : ℕ → Cell) (entry entry' : CallFrame) :
    List CallFrame → List CallFrame → ℕ → ℕ → Prop
  | base {sp sp' : ℕ} (hact : SameActivation c c' entry entry' sp sp') :
      SameStack c c' entry entry' [entry] [entry'] sp sp'
  | call {f f' : CallFrame} {fs fs' : List CallFrame} {sp sp' : ℕ}
      (hact : SameActivation c c' f f' sp sp') (hreturn : f'.returnPc = f.returnPc)
      (hnonzero : f.returnPc ≠ 0)
      (htail : SameStack c c' entry entry' fs fs' (f.framePointer - f.numParams.toNat)
        (f'.framePointer - f.numParams.toNat)) :
      SameStack c c' entry entry' (f :: fs) (f' :: fs') sp sp'

variable {c c' d d' : ℕ → Cell} {entry entry' f f' : CallFrame} {fs fs' : List CallFrame}
  {sp sp' : ℕ}

theorem SameActivation.congr (h : SameActivation c c' f f' sp sp') (hd : ∀ i < sp, d i = c i)
    (hd' : ∀ i < sp', d' i = c' i) : SameActivation d d' f f' sp sp' := by
  obtain ⟨hparams, hfits, hfits', habove, hheight, hoperands, hargs⟩ := h
  refine ⟨hparams, hfits, hfits', habove, hheight, ?_, ?_⟩
  · intro k hk hlt
    rw [hd _ hlt, hd' _ (by omega), hoperands k hk hlt]
  · intro k hk hle
    rw [hd _ (by omega), hd' _ (by omega), hargs k hk hle]

theorem SameStack.congr (h : SameStack c c' entry entry' fs fs' sp sp')
    (hd : ∀ i < sp, d i = c i) (hd' : ∀ i < sp', d' i = c' i) :
    SameStack d d' entry entry' fs fs' sp sp' := by
  induction h with
  | base hact => exact .base (hact.congr hd hd')
  | call hact hreturn hnonzero _ ih =>
    have habove := hact.above
    have hheight := hact.height
    refine .call (hact.congr hd hd') hreturn hnonzero (ih ?_ ?_)
    · intro i hi
      exact hd i (by omega)
    · intro i hi
      exact hd' i (by omega)

theorem SameStack.activation (h : SameStack c c' entry entry' (f :: fs) (f' :: fs') sp sp') :
    SameActivation c c' f f' sp sp' := by
  cases h with
  | base hact => exact hact
  | call hact => exact hact

theorem SameStack.update {q q' : ℕ}
    (h : SameStack c c' entry entry' (f :: fs) (f' :: fs') sp sp')
    (hd : ∀ i < f.framePointer - f.numParams.toNat, d i = c i)
    (hd' : ∀ i < f'.framePointer - f.numParams.toNat, d' i = c' i)
    (hact : SameActivation d d' f f' q q') :
    SameStack d d' entry entry' (f :: fs) (f' :: fs') q q' := by
  cases h with
  | base => exact .base hact
  | call _ hreturn hnonzero htail => exact .call hact hreturn hnonzero (htail.congr hd hd')

theorem SameStack.height (h : SameStack c c' entry entry' fs fs' sp sp') :
    sp' + entry.framePointer = sp + entry'.framePointer ∧ entry.framePointer + 3 ≤ sp := by
  induction h with
  | base hact => exact ⟨hact.height, hact.above⟩
  | call hact _ _ _ ih =>
    obtain ⟨hparams, hfits, hfits', habove, hheight, -, -⟩ := hact
    omega

theorem SameStack.length (h : SameStack c c' entry entry' fs fs' sp sp') :
    fs'.length = fs.length := by
  induction h with
  | base => rfl
  | call _ _ _ _ ih => rw [List.length_cons, List.length_cons, ih]

theorem SameStack.cons (h : SameStack c c' entry entry' fs fs' sp sp') :
    ∃ f gs f' gs', fs = f :: gs ∧ fs' = f' :: gs' := by
  cases h with
  | base => exact ⟨_, _, _, _, rfl, rfl⟩
  | call => exact ⟨_, _, _, _, rfl, rfl⟩

theorem SameStack.calls (h : SameStack c c' entry entry' fs fs' sp sp') :
    ∃ calls, fs = calls ++ [entry] ∧ ∀ f ∈ calls, f.returnPc ≠ 0 := by
  induction h with
  | base => exact ⟨[], rfl, nofun⟩
  | @call f _ _ _ _ _ _ _ hnonzero _ ih =>
    obtain ⟨calls, rfl, hcalls⟩ := ih
    refine ⟨f :: calls, rfl, ?_⟩
    intro g hg
    rcases List.mem_cons.1 hg with rfl | hg
    · exact hnonzero
    · exact hcalls g hg

end Activations

section Own

/-- The operation keeps to the cells of the current activation, and the stack
    to `cells` cells and `depth` frames. -/
def Op.Own (cells depth : ℕ) (o : Op) (s : Vm) : Prop :=
  match s.frames with
  | [] => False
  | f :: _ =>
    match o with
    | .push _ => s.sp + 1 ≤ cells
    | .room n => s.sp + n ≤ cells
    | .pop => f.framePointer + 3 + 1 ≤ s.sp
    | .drop n | .need n => f.framePointer + 3 + n ≤ s.sp
    | .peek k | .poke k _ => 1 ≤ k ∧ f.framePointer + 3 + k ≤ s.sp
    | .get .params i | .set .params i _ => i < f.numParams.toNat
    | .get .locals i | .set .locals i _ => f.framePointer + 3 + i < s.sp
    | .enter _ numParams numLocals _ =>
      f.framePointer + 3 + numParams.toNat ≤ s.sp ∧ s.sp + 3 + numLocals.toNat ≤ cells ∧
        s.frames.length < depth
    | _ => True

/-- The two calls that are compared: their frames, the frames below them, and
    how far the first run may grow so that the second has room too. -/
structure TwoCalls where
  entry : CallFrame
  entry' : CallFrame
  below : List CallFrame
  below' : List CallFrame
  cells : ℕ
  depth : ℕ
  depth_le : depth ≤ maxFrameDepth
  depth_le' : depth + below'.length ≤ maxFrameDepth + below.length

structure SameRegs (s s' : Vm) : Prop where
  code : s'.code = s.code
  data : s'.data = s.data
  blockSize : s'.blockSize = s.blockSize
  pc : s'.pc = s.pc
  stopped : s'.stopped = s.stopped
  assertFailures : s'.assertFailures = s.assertFailures
  assertSuccesses : s'.assertSuccesses = s.assertSuccesses

structure Alike (x : TwoCalls) (s s' : Vm) : Prop where
  regs : SameRegs s s'
  top : s.sp ≤ x.cells
  limit : x.cells ≤ s.capacity
  limit' : x.entry'.framePointer + x.cells ≤ s'.capacity + x.entry.framePointer
  frames : ∃ fs fs', s.frames = fs ++ x.below ∧ s'.frames = fs' ++ x.below' ∧
    SameStack s.cells s'.cells x.entry x.entry' fs fs' s.sp s'.sp

variable {x : TwoCalls} {s s' : Vm}

theorem Alike.sp' (h : Alike x s s') : s'.sp + x.entry.framePointer = s.sp + x.entry'.framePointer := by
  obtain ⟨fs, fs', -, -, hstack⟩ := h.frames
  exact hstack.height.1

theorem Alike.current (h : Alike x s s') : ∃ f gs f' gs',
    s.frames = f :: gs ∧ s'.frames = f' :: gs' ∧
    SameActivation s.cells s'.cells f f' s.sp s'.sp ∧
    ∀ {c c' : ℕ → Cell} {q q' : ℕ}, q ≤ x.cells →
      (∀ i < f.framePointer - f.numParams.toNat, c i = s.cells i) →
      (∀ i < f'.framePointer - f.numParams.toNat, c' i = s'.cells i) →
      SameActivation c c' f f' q q' →
      Alike x { s with cells := c, sp := q } { s' with cells := c', sp := q' } := by
  obtain ⟨fs, fs', hframes, hframes', hstack⟩ := h.frames
  obtain ⟨f, gs, f', gs', rfl, rfl⟩ := hstack.cons
  refine ⟨f, gs ++ x.below, f', gs' ++ x.below', hframes, hframes', hstack.activation, ?_⟩
  intro c c' q q' hq hbelow hbelow' hact
  obtain ⟨hcode, hdata, hblock, hpc, hstopped, hfailures, hsuccesses⟩ := h.regs
  exact ⟨⟨hcode, hdata, hblock, hpc, hstopped, hfailures, hsuccesses⟩, hq, h.limit, h.limit',
    f :: gs, f' :: gs', hframes, hframes', hstack.update hbelow hbelow' hact⟩

theorem Alike.of_regs {t t' : Vm} (h : Alike x s s') (hregs : SameRegs t t')
    (ht : t.cells = s.cells ∧ t.sp = s.sp ∧ t.frames = s.frames ∧ t.capacity = s.capacity)
    (ht' : t'.cells = s'.cells ∧ t'.sp = s'.sp ∧ t'.frames = s'.frames ∧
      t'.capacity = s'.capacity) : Alike x t t' := by
  obtain ⟨hcells, hsp, hframes, hcapacity⟩ := ht
  obtain ⟨hcells', hsp', hframes', hcapacity'⟩ := ht'
  obtain ⟨-, htop, hlimit, hlimit', hstack⟩ := h
  refine ⟨hregs, ?_, ?_, ?_, ?_⟩
  · rw [hsp]
    exact htop
  · rw [hcapacity]
    exact hlimit
  · rw [hcapacity']
    exact hlimit'
  · rw [hcells, hcells', hsp, hsp', hframes, hframes']
    exact hstack

end Own

section Operations

variable {x : TwoCalls} {s s' : Vm} {f f' : CallFrame} {sp sp' : ℕ} {c c' : ℕ → Cell}

theorem SameActivation.drop {n : ℕ} (h : SameActivation c c' f f' sp sp')
    (hn : f.framePointer + 3 + n ≤ sp) : SameActivation c c' f f' (sp - n) (sp' - n) := by
  obtain ⟨hparams, hfits, hfits', habove, hheight, hoperands, hargs⟩ := h
  refine ⟨hparams, hfits, hfits', by omega, by omega, ?_, hargs⟩
  intro k hk hlt
  exact hoperands k hk (by omega)

theorem SameActivation.write {vs : List Cell}
    (h : SameActivation s.cells s'.cells f f' s.sp s'.sp) :
    SameActivation (s.write vs).cells (s'.write vs).cells f f' (s.sp + vs.length)
      (s'.sp + vs.length) := by
  obtain ⟨hparams, hfits, hfits', habove, hheight, hoperands, hargs⟩ := h
  refine ⟨hparams, hfits, hfits', by omega, by omega, ?_, ?_⟩
  · intro k hk hlt
    by_cases hold : f.framePointer + k < s.sp
    · rw [Vm.write_cells_lt hold, Vm.write_cells_lt (by omega), hoperands k hk hold]
    · have hindex : f'.framePointer + k - s'.sp = f.framePointer + k - s.sp := by omega
      have hsome : f.framePointer + k - s.sp < vs.length := by omega
      rw [Vm.write_cells_ge (by omega), Vm.write_cells_ge (by omega), hindex,
        List.getElem?_eq_getElem hsome]
      rfl
  · intro k hk hle
    rw [Vm.write_cells_lt (by omega), Vm.write_cells_lt (by omega), hargs k hk hle]

theorem SameActivation.setOperand {k : ℕ} {v : Cell} (h : SameActivation c c' f f' sp sp')
    (hk : 3 ≤ k) : SameActivation (Function.update c (f.framePointer + k) v)
      (Function.update c' (f'.framePointer + k) v) f f' sp sp' := by
  obtain ⟨hparams, hfits, hfits', habove, hheight, hoperands, hargs⟩ := h
  refine ⟨hparams, hfits, hfits', habove, hheight, ?_, ?_⟩
  · intro j hj hlt
    by_cases hjk : j = k
    · rw [hjk, Function.update_self, Function.update_self]
    · rw [Function.update_of_ne (by omega), Function.update_of_ne (by omega), hoperands j hj hlt]
  · intro j hj hle
    rw [Function.update_of_ne (by omega), Function.update_of_ne (by omega), hargs j hj hle]

theorem SameActivation.setArg {k : ℕ} {v : Cell} (h : SameActivation c c' f f' sp sp')
    (hk : 1 ≤ k) (hle : k ≤ f.numParams.toNat) :
    SameActivation (Function.update c (f.framePointer - k) v)
      (Function.update c' (f'.framePointer - k) v) f f' sp sp' := by
  obtain ⟨hparams, hfits, hfits', habove, hheight, hoperands, hargs⟩ := h
  refine ⟨hparams, hfits, hfits', habove, hheight, ?_, ?_⟩
  · intro j hj hlt
    rw [Function.update_of_ne (by omega), Function.update_of_ne (by omega), hoperands j hj hlt]
  · intro j hj hjle
    by_cases hjk : j = k
    · rw [hjk, Function.update_self, Function.update_self]
    · rw [Function.update_of_ne (by omega), Function.update_of_ne (by omega), hargs j hj hjle]

def Answered (x : TwoCalls) (o : Op) (s s' : Vm) : Prop :=
  (Vm.handle o s').1 = (Vm.handle o s).1 ∧ Alike x (Vm.handle o s).2 (Vm.handle o s').2

theorem answered_of_eq {o : Op} {a : Except Halt o.Res} {t t' : Vm} (h : Vm.handle o s = (a, t))
    (h' : Vm.handle o s' = (a, t')) (halike : Alike x t t') : Answered x o s s' := by
  unfold Answered
  rw [h, h']
  exact ⟨rfl, halike⟩

theorem push_answered {v : Cell} (h : Alike x s s') (hown : (Op.push v).Own x.cells x.depth s) :
    Answered x (.push v) s s' := by
  obtain ⟨f, gs, f', gs', hframes, hframes', hact, hupdate⟩ := h.current
  have hsp := h.sp'
  have hlimit := h.limit
  have hlimit' := h.limit'
  have hroom : s.sp + 1 ≤ x.cells := by
    simpa only [Op.Own, hframes] using hown
  have halike : Alike x (s.write [v]) (s'.write [v]) := by
    have habove := hact.above
    have hheight := hact.height
    apply hupdate hroom _ _ hact.write
    · intro i hi
      exact Vm.write_cells_lt (by omega)
    · intro i hi
      exact Vm.write_cells_lt (by omega)
  exact answered_of_eq (if_neg (by omega)) (if_neg (by omega)) halike

theorem drop_alike {n : ℕ} (h : Alike x s s') (hframes : ∃ gs, s.frames = f :: gs)
    (hn : f.framePointer + 3 + n ≤ s.sp) :
    Alike x { s with sp := s.sp - n } { s' with sp := s'.sp - n } := by
  obtain ⟨g, gs, g', gs', hg, hg', hact, hupdate⟩ := h.current
  obtain ⟨fs, hfs⟩ := hframes
  have htop := h.top
  rw [hg] at hfs
  cases hfs
  apply hupdate (by omega) (fun _ _ => rfl) (fun _ _ => rfl) (hact.drop hn)

theorem pop_answered (h : Alike x s s') (hown : Op.pop.Own x.cells x.depth s) :
    Answered x .pop s s' := by
  obtain ⟨f, gs, f', gs', hframes, hframes', hact, hupdate⟩ := h.current
  have hsp := h.sp'
  have htop := h.top
  have hlimit := h.limit
  have hlimit' := h.limit'
  have hheight := hact.height
  have hcell : f.framePointer + 3 + 1 ≤ s.sp := by
    simpa only [Op.Own, hframes] using hown
  have hvalue : s'.top 1 = s.top 1 := by
    have hk : s.sp - 1 = f.framePointer + (s.sp - 1 - f.framePointer) := by omega
    have hk' : s'.sp - 1 = f'.framePointer + (s.sp - 1 - f.framePointer) := by omega
    unfold Vm.top
    rw [hk', hact.operands _ (by omega) (by omega), ← hk]
  have hpop : Vm.handle .pop s = (.ok (s.top 1), { s with sp := s.sp - 1 }) := by
    simp only [Vm.handle]
    rw [if_neg (by omega), if_neg (by omega)]
  have hpop' : Vm.handle .pop s' = (.ok (s.top 1), { s' with sp := s'.sp - 1 }) := by
    simp only [Vm.handle]
    rw [if_neg (by omega), if_neg (by omega), hvalue]
  exact answered_of_eq hpop hpop' (drop_alike h ⟨gs, hframes⟩ hcell)

theorem drop_answered {n : ℕ} (h : Alike x s s') (hown : (Op.drop n).Own x.cells x.depth s) :
    Answered x (.drop n) s s' := by
  obtain ⟨f, gs, f', gs', hframes, hframes', hact, hupdate⟩ := h.current
  have hheight := hact.height
  have hcells : f.framePointer + 3 + n ≤ s.sp := by
    simpa only [Op.Own, hframes] using hown
  exact answered_of_eq (if_neg (by omega)) (if_neg (by omega))
    (drop_alike h ⟨gs, hframes⟩ hcells)

theorem need_answered {n : ℕ} (h : Alike x s s') (hown : (Op.need n).Own x.cells x.depth s) :
    Answered x (.need n) s s' := by
  obtain ⟨f, gs, f', gs', hframes, hframes', hact, hupdate⟩ := h.current
  have hheight := hact.height
  have hcells : f.framePointer + 3 + n ≤ s.sp := by
    simpa only [Op.Own, hframes] using hown
  exact answered_of_eq (if_neg (by omega)) (if_neg (by omega)) h

theorem room_answered {n : ℕ} (h : Alike x s s') (hown : (Op.room n).Own x.cells x.depth s) :
    Answered x (.room n) s s' := by
  obtain ⟨f, gs, f', gs', hframes, hframes', hact, hupdate⟩ := h.current
  have hsp := h.sp'
  have hlimit := h.limit
  have hlimit' := h.limit'
  have hroom : s.sp + n ≤ x.cells := by
    simpa only [Op.Own, hframes] using hown
  exact answered_of_eq (if_neg (by omega)) (if_neg (by omega)) h

structure SameCell (x : TwoCalls) (s s' : Vm) (i i' : ℕ) : Prop where
  read : s'.cells i' = s.cells i
  set : ∀ v, Alike x (s.setCell i v) (s'.setCell i' v)

theorem Alike.shared (h : Alike x s s') : ∃ f gs f' gs',
    s.frames = f :: gs ∧ s'.frames = f' :: gs' ∧
    SameActivation s.cells s'.cells f f' s.sp s'.sp ∧
    (∀ k, 3 ≤ k → f.framePointer + k < s.sp →
      SameCell x s s' (f.framePointer + k) (f'.framePointer + k)) ∧
    ∀ k, 1 ≤ k → k ≤ f.numParams.toNat →
      SameCell x s s' (f.framePointer - k) (f'.framePointer - k) := by
  obtain ⟨f, gs, f', gs', hframes, hframes', hact, hupdate⟩ := h.current
  have hfits := hact.fits
  have hfits' := hact.fits'
  refine ⟨f, gs, f', gs', hframes, hframes', hact, ?_, ?_⟩
  · intro k hk hlt
    refine ⟨hact.operands k hk hlt, fun v => hupdate h.top ?_ ?_ (hact.setOperand hk)⟩
    · intro i hi
      exact Function.update_of_ne (by omega) _ _
    · intro i hi
      exact Function.update_of_ne (by omega) _ _
  · intro k hk hle
    refine ⟨hact.args k hk hle, fun v => hupdate h.top ?_ ?_ (hact.setArg hk hle)⟩
    · intro i hi
      exact Function.update_of_ne (by omega) _ _
    · intro i hi
      exact Function.update_of_ne (by omega) _ _

theorem peekIndex_shared {k : ℕ} (h : Alike x s s') (hown : (Op.peek k).Own x.cells x.depth s) :
    ∃ i i', s.peekIndex k = .ok i ∧ s'.peekIndex k = .ok i' ∧ SameCell x s s' i i' := by
  obtain ⟨f, gs, f', gs', hframes, -, hact, hoperand, -⟩ := h.shared
  have hcells : 1 ≤ k ∧ f.framePointer + 3 + k ≤ s.sp := by
    simpa only [Op.Own, hframes] using hown
  have hsp := h.sp'
  have htop := h.top
  have hlimit := h.limit
  have hlimit' := h.limit'
  have hheight := hact.height
  have hcell := hoperand (s.sp - k - f.framePointer) (by omega) (by omega)
  refine ⟨_, _, ?_, ?_, hcell⟩
  · rw [Vm.peekIndex_eq hcells.1 (by omega) (by omega)]
    congr 1
    omega
  · rw [Vm.peekIndex_eq hcells.1 (by omega) (by omega)]
    congr 1
    omega

theorem slotIndex_shared {b : Bank} {i : ℕ} (h : Alike x s s')
    (hown : (Op.get b i).Own x.cells x.depth s) :
    ∃ j j', s.slotIndex b i = .ok j ∧ s'.slotIndex b i = .ok j' ∧ SameCell x s s' j j' := by
  obtain ⟨f, gs, f', gs', hframes, hframes', hact, hoperand, hargument⟩ := h.shared
  have hsp := h.sp'
  have htop := h.top
  have hlimit := h.limit
  have hlimit' := h.limit'
  obtain ⟨hparams, hfits, hfits', habove, hheight, -, -⟩ := hact
  cases b with
  | params =>
    have hi : i < f.numParams.toNat := by
      simpa only [Op.Own, hframes] using hown
    refine ⟨_, _, ?_, ?_, hargument (f.numParams.toNat - i) (by omega) (by omega)⟩
    · simp only [Vm.slotIndex, Vm.bankBase, hframes, if_pos hfits]
      rw [if_pos (by omega)]
      congr 1
      omega
    · simp only [Vm.slotIndex, Vm.bankBase, hframes', hparams, if_pos hfits']
      rw [if_pos (by omega)]
      congr 1
      omega
  | locals =>
    have hi : f.framePointer + 3 + i < s.sp := by
      simpa only [Op.Own, hframes] using hown
    refine ⟨_, _, ?_, ?_, hoperand (3 + i) (by omega) (by omega)⟩
    · simp only [Vm.slotIndex, Vm.bankBase, hframes]
      rw [if_pos (by omega), Nat.add_assoc]
    · simp only [Vm.slotIndex, Vm.bankBase, hframes']
      rw [if_pos (by omega), Nat.add_assoc]

theorem peek_answered {k : ℕ} (h : Alike x s s') (hown : (Op.peek k).Own x.cells x.depth s) :
    Answered x (.peek k) s s' := by
  obtain ⟨i, i', hindex, hindex', hcell⟩ := peekIndex_shared h hown
  apply answered_of_eq (a := .ok (s.cells i)) _ _ h
  · simp only [Vm.handle, hindex]
  · simp only [Vm.handle, hindex', hcell.read]

theorem poke_answered {k : ℕ} {v : Cell} (h : Alike x s s')
    (hown : (Op.poke k v).Own x.cells x.depth s) : Answered x (.poke k v) s s' := by
  obtain ⟨i, i', hindex, hindex', hcell⟩ := peekIndex_shared h hown
  apply answered_of_eq (a := .ok ()) _ _ (hcell.set v)
  · simp only [Vm.handle, hindex]
  · simp only [Vm.handle, hindex']

theorem base_answered {b : Bank} (h : Alike x s s') : Answered x (.base b) s s' := by
  obtain ⟨f, gs, f', gs', hframes, hframes', hact, hupdate⟩ := h.current
  have hfits := hact.fits
  have hfits' := hact.fits'
  apply answered_of_eq (a := .ok ()) _ _ h
  · cases b with
    | params => simp only [Vm.handle, Vm.bankBase, hframes, if_pos hfits]
    | locals => simp only [Vm.handle, Vm.bankBase, hframes]
  · cases b with
    | params => simp only [Vm.handle, Vm.bankBase, hframes', hact.params, if_pos hfits']
    | locals => simp only [Vm.handle, Vm.bankBase, hframes']

theorem get_answered {b : Bank} {i : ℕ} (h : Alike x s s')
    (hown : (Op.get b i).Own x.cells x.depth s) : Answered x (.get b i) s s' := by
  obtain ⟨j, j', hindex, hindex', hcell⟩ := slotIndex_shared h hown
  apply answered_of_eq (a := .ok (s.cells j)) _ _ h
  · simp only [Vm.handle, hindex]
  · simp only [Vm.handle, hindex', hcell.read]

theorem set_answered {b : Bank} {i : ℕ} {v : Cell} (h : Alike x s s')
    (hown : (Op.set b i v).Own x.cells x.depth s) : Answered x (.set b i v) s s' := by
  have hget : (Op.get b i).Own x.cells x.depth s := by
    cases b <;> exact hown
  obtain ⟨j, j', hindex, hindex', hcell⟩ := slotIndex_shared h hget
  apply answered_of_eq (a := .ok ()) _ _ (hcell.set v)
  · simp only [Vm.handle, hindex]
  · simp only [Vm.handle, hindex']

theorem memory_answered {o : Op} (h : Alike x s s')
    (ho : (∃ w a, o = .code w a) ∨ (∃ w a, o = .load w a) ∨ (∃ w a v, o = .store w a v) ∨
      (∃ n, o = .setPc n) ∨ (∃ n, o = .jump n) ∨ (∃ b, o = .countAssert b) ∨
      (∃ e, o = .fail e) ∨ o = .fault) : Answered x o s s' := by
  obtain ⟨hcode, hdata, hblock, hpc, hstopped, hfailures, hsuccesses⟩ := h.regs
  have hcodeAt : ∀ w a, s'.codeAt w a = s.codeAt w a := by
    intro w a
    unfold Vm.codeAt
    rw [hcode]
  have hdataAt : ∀ w a, s'.dataAt w a = s.dataAt w a := by
    intro w a
    unfold Vm.dataAt
    rw [hdata]
  rcases ho with ⟨w, a, rfl⟩ | ⟨w, a, rfl⟩ | ⟨w, a, v, rfl⟩ | ⟨n, rfl⟩ | ⟨n, rfl⟩ | ⟨b, rfl⟩ |
    ⟨e, rfl⟩ | rfl
  · simp only [Answered, Vm.handle, hcodeAt, hcode]
    cases s.codeAt w a with
    | none => exact ⟨rfl, h⟩
    | some v => exact ⟨rfl, h⟩
  · simp only [Answered, Vm.handle, hdataAt]
    cases s.dataAt w a with
    | none => exact ⟨rfl, h⟩
    | some v => exact ⟨rfl, h⟩
  · simp only [Answered, Vm.handle, hdataAt, hdata]
    cases s.dataAt w a with
    | none => exact ⟨rfl, h⟩
    | some _ =>
      exact ⟨rfl, h.of_regs ⟨hcode, rfl, hblock, hpc, hstopped, hfailures, hsuccesses⟩
        ⟨rfl, rfl, rfl, rfl⟩ ⟨rfl, rfl, rfl, rfl⟩⟩
  · exact ⟨rfl, h.of_regs ⟨hcode, hdata, hblock, rfl, hstopped, hfailures, hsuccesses⟩
      ⟨rfl, rfl, rfl, rfl⟩ ⟨rfl, rfl, rfl, rfl⟩⟩
  · exact ⟨rfl, h.of_regs ⟨hcode, hdata, hblock, rfl, hstopped, hfailures, hsuccesses⟩
      ⟨rfl, rfl, rfl, rfl⟩ ⟨rfl, rfl, rfl, rfl⟩⟩
  · cases b with
    | true =>
      simp only [Answered, Vm.handle, Vm.countAssert, hsuccesses, if_true]
      by_cases hn : s.assertSuccesses + 1 < 2 ^ 31
      · simp only [if_pos hn]
        exact ⟨trivial, h.of_regs ⟨hcode, hdata, hblock, hpc, hstopped, hfailures, rfl⟩
          ⟨rfl, rfl, rfl, rfl⟩ ⟨rfl, rfl, rfl, rfl⟩⟩
      · simp only [if_neg hn]
        exact ⟨trivial, h⟩
    | false =>
      simp only [Answered, Vm.handle, Vm.countAssert, hfailures, Bool.false_eq_true, if_false]
      by_cases hn : s.assertFailures + 1 < 2 ^ 31
      · simp only [if_pos hn]
        exact ⟨trivial, h.of_regs ⟨hcode, hdata, hblock, hpc, hstopped, rfl, hsuccesses⟩
          ⟨rfl, rfl, rfl, rfl⟩ ⟨rfl, rfl, rfl, rfl⟩⟩
      · simp only [if_neg hn]
        exact ⟨trivial, h⟩
  · exact ⟨rfl, h⟩
  · exact ⟨rfl, h⟩

def Vm.called (s : Vm) (header : List Cell) (frame : CallFrame) (methodAddr : ℕ) : Vm :=
  { Vm.write { s.write header with frames := frame :: s.frames }
      (List.replicate frame.numLocals.toNat 0) with pc := methodAddr + 2 }

theorem setupCallFrame_fits {m : ℕ} {np nl : Byte} {r : ℕ}
    (hroom : s.sp + 3 + nl.toNat ≤ s.capacity) (hdepth : s.frames.length < maxFrameDepth) :
    ∃ header : List Cell, header.length = 3 ∧
      s.setupCallFrame m np nl r = (.ok (), s.called header ⟨r, s.sp, np, nl⟩ m) := by
  let header : List Cell := [BitVec.ofNat 32 r,
    BitVec.ofNat 32 ((s.frames.head?.map (·.framePointer)).getD 0), BitVec.ofNat 32 m]
  have hsp : (s.write header).sp - 3 = s.sp := by
    rw [Vm.write_sp]
    exact Nat.add_sub_cancel ..
  refine ⟨header, rfl, ?_⟩
  unfold Vm.setupCallFrame
  change Vm.andThen (s.pushCells header) _ = _
  have hheader : header.length = 3 := rfl
  rw [Vm.pushCells_eq s header (by omega), if_pos (by omega), Vm.andThen, hsp,
    pushFrame_ok (s := s.write header) hdepth, Vm.andThen,
    Vm.pushCells_eq _ _ (by simp only [Vm.write_sp, Vm.write_capacity]; omega),
    if_pos (by simp only [Vm.write_sp, Vm.write_capacity, List.length_replicate]; omega)]
  rfl

theorem called_cells {header : List Cell} {g : CallFrame} {m i : ℕ} (hi : i < s.sp) :
    (s.called header g m).cells i = s.cells i := by
  let u : Vm := { s.write header with frames := g :: s.frames }
  change (Vm.write u _).cells i = _
  rw [Vm.write_cells_lt (Nat.lt_add_right _ hi)]
  exact Vm.write_cells_lt hi

theorem called_sp {header : List Cell} {g : CallFrame} {m : ℕ} (hheader : header.length = 3) :
    (s.called header g m).sp = s.sp + 3 + g.numLocals.toNat := by
  change s.sp + header.length + (List.replicate g.numLocals.toNat (0 : Cell)).length = _
  rw [hheader, List.length_replicate]

/-- A frame just opened looks the same in both runs if its arguments do. -/
theorem SameActivation.called {header header' : List Cell} {g g' : CallFrame} {m : ℕ}
    (hheader : header.length = 3) (hheader' : header'.length = 3)
    (hpointer : g.framePointer = s.sp) (hpointer' : g'.framePointer = s'.sp)
    (hparams : g'.numParams = g.numParams) (hlocals : g'.numLocals = g.numLocals)
    (hfits : g.numParams.toNat ≤ s.sp) (hfits' : g.numParams.toNat ≤ s'.sp)
    (hargs : ∀ k, 1 ≤ k → k ≤ g.numParams.toNat → s'.cells (s'.sp - k) = s.cells (s.sp - k)) :
    SameActivation (s.called header g m).cells (s'.called header' g' m).cells g g'
      (s.called header g m).sp (s'.called header' g' m).sp := by
  let u : Vm := { s.write header with frames := g :: s.frames }
  let u' : Vm := { s'.write header' with frames := g' :: s'.frames }
  have hsp : u.sp = s.sp + 3 := congrArg (s.sp + ·) hheader
  have hsp' : u'.sp = s'.sp + 3 := congrArg (s'.sp + ·) hheader'
  have hfresh : SameActivation u.cells u'.cells g g' u.sp u'.sp := by
    refine ⟨hparams, by omega, by omega, by omega, by omega, ?_, ?_⟩
    · intro k hk hlt
      omega
    · intro k hk hle
      rw [hpointer, hpointer']
      change (s'.write header').cells _ = (s.write header).cells _
      rw [Vm.write_cells_lt (by omega), Vm.write_cells_lt (by omega), hargs k hk hle]
  have hwrite := @SameActivation.write u u' g g' (List.replicate g.numLocals.toNat 0) hfresh
  unfold Vm.called
  rw [hlocals]
  exact hwrite

theorem enter_answered {m : ℕ} {np nl : Byte} {r : ℕ} (h : Alike x s s')
    (hown : (Op.enter m np nl r).Own x.cells x.depth s) (hr : r ≠ 0) :
    Answered x (.enter m np nl r) s s' := by
  obtain ⟨fs, fs', hframes, hframes', hstack⟩ := h.frames
  obtain ⟨f, gs, f', gs', rfl, rfl⟩ := hstack.cons
  have hcells : f.framePointer + 3 + np.toNat ≤ s.sp ∧ s.sp + 3 + nl.toNat ≤ x.cells ∧
      s.frames.length < x.depth := by
    simpa only [Op.Own, hframes, List.cons_append] using hown
  obtain ⟨hargs, hroom, hdepth⟩ := hcells
  have hsp := h.sp'
  have hlimit := h.limit
  have hlimit' := h.limit'
  have hmax := x.depth_le
  have hmax' := x.depth_le'
  have hlength : s'.frames.length + x.below.length = s.frames.length + x.below'.length := by
    rw [hframes, hframes', List.length_append, List.length_append, hstack.length]
    omega
  obtain ⟨hparams, hfits, hfits', habove, hheight, hoperands, -⟩ := hstack.activation
  obtain ⟨header, hheader, hsetup⟩ :=
    @setupCallFrame_fits s m np nl r (by omega) (by omega)
  obtain ⟨header', hheader', hsetup'⟩ :=
    @setupCallFrame_fits s' m np nl r (by omega) (by omega)
  have hact := @SameActivation.called s s' header header' ⟨r, s.sp, np, nl⟩ ⟨r, s'.sp, np, nl⟩ m
    hheader hheader' rfl rfl rfl rfl (by simp only; omega) (by simp only; omega) (by
      intro k hk hle
      simp only at hle
      have hindex : s.sp - k = f.framePointer + (s.sp - k - f.framePointer) := by omega
      have hindex' : s'.sp - k = f'.framePointer + (s.sp - k - f.framePointer) := by omega
      rw [hindex', hoperands _ (by omega) (by omega), ← hindex])
  have htail : SameStack (s.called header ⟨r, s.sp, np, nl⟩ m).cells
      (s'.called header' ⟨r, s'.sp, np, nl⟩ m).cells x.entry x.entry' (f :: gs) (f' :: gs')
      (s.sp - np.toNat) (s'.sp - np.toNat) := by
    apply hstack.update
    · intro i hi
      exact called_cells (by omega)
    · intro i hi
      exact called_cells (by omega)
    · apply (hstack.activation.drop hargs).congr
      · intro i hi
        exact called_cells (by omega)
      · intro i hi
        exact called_cells (by omega)
  obtain ⟨hcode, hdata, hblock, -, hstopped, hfailures, hsuccesses⟩ := h.regs
  have halike : Alike x (s.called header ⟨r, s.sp, np, nl⟩ m)
      (s'.called header' ⟨r, s'.sp, np, nl⟩ m) := by
    refine ⟨⟨hcode, hdata, hblock, rfl, hstopped, hfailures, hsuccesses⟩, ?_, hlimit, hlimit',
      ⟨r, s.sp, np, nl⟩ :: f :: gs, ⟨r, s'.sp, np, nl⟩ :: f' :: gs', ?_, ?_, ?_⟩
    · rw [called_sp hheader]
      exact hroom
    · change _ :: s.frames = _
      rw [hframes]
      rfl
    · change _ :: s'.frames = _
      rw [hframes']
      rfl
    · exact .call hact rfl hr htail
  exact answered_of_eq hsetup hsetup' halike

theorem unwind_answered (h : Alike x s s') (hinner : x.below.length + 1 < s.frames.length) :
    Answered x .unwind s s' := by
  obtain ⟨fs, fs', hframes, hframes', hstack⟩ := h.frames
  have htop := h.top
  cases hstack with
  | base =>
    rw [hframes, List.length_append, List.length_singleton] at hinner
    omega
  | @call f f' gs gs' _ _ hact hreturn hnonzero htail =>
    obtain ⟨hparams, hfits, hfits', habove, -, -, -⟩ := hact
    have hunwind : Vm.handle .unwind s = (.ok .caller, { s with
        frames := gs ++ x.below, sp := f.framePointer - f.numParams.toNat, pc := f.returnPc }) := by
      simp only [Vm.handle, Vm.unwindFrame, hframes, List.cons_append, if_pos hfits,
        if_neg hnonzero]
    have hunwind' : Vm.handle .unwind s' = (.ok .caller, { s' with
        frames := gs' ++ x.below', sp := f'.framePointer - f.numParams.toNat,
        pc := f.returnPc }) := by
      simp only [Vm.handle, Vm.unwindFrame, hframes', List.cons_append, hparams, if_pos hfits',
        hreturn, if_neg hnonzero]
    obtain ⟨hcode, hdata, hblock, -, hstopped, hfailures, hsuccesses⟩ := h.regs
    apply answered_of_eq hunwind hunwind'
    refine ⟨⟨hcode, hdata, hblock, rfl, hstopped, hfailures, hsuccesses⟩, ?_, h.limit, h.limit',
      gs, gs', rfl, rfl, htail⟩
    change f.framePointer - f.numParams.toNat ≤ x.cells
    omega

/-- Every operation of a body that keeps to its own cells, its own return apart. -/
theorem handle_alike {o : Op} (h : Alike x s s') (hown : o.Own x.cells x.depth s)
    (hcalm : o.Calm ∨ o = .unwind ∧ x.below.length + 1 < s.frames.length) :
    (Vm.handle o s').1 = (Vm.handle o s).1 ∧ Alike x (Vm.handle o s).2 (Vm.handle o s').2 := by
  change Answered x o s s'
  cases o with
  | push v => exact push_answered h hown
  | pop => exact pop_answered h hown
  | drop n => exact drop_answered h hown
  | room n => exact room_answered h hown
  | need n => exact need_answered h hown
  | peek k => exact peek_answered h hown
  | poke k v => exact poke_answered h hown
  | base b => exact base_answered h
  | get b i => exact get_answered h hown
  | set b i v => exact set_answered h hown
  | enter m np nl r => exact enter_answered h hown (hcalm.resolve_right nofun)
  | unwind => exact unwind_answered h (hcalm.resolve_left id).2
  | code w a => exact memory_answered h (by simp)
  | load w a => exact memory_answered h (by simp)
  | store w a v => exact memory_answered h (by simp)
  | setPc n => exact memory_answered h (by simp)
  | jump n => exact memory_answered h (by simp)
  | countAssert b => exact memory_answered h (by simp)
  | fail e => exact memory_answered h (by simp)
  | fault => exact memory_answered h (by simp)

end Operations

section Steps

variable (natives : Natives)

def Vm.Own (cells depth : ℕ) (s : Vm) : Prop :=
  Prog.Along Vm.handle (Op.Own cells depth) (stepProgram natives s.blockSize.toNat s.pc) s

variable {x : TwoCalls} {s s' : Vm}

theorem run_alike {α : Type} {R : α → Prop} {p : Program α} (h : Alike x s s')
    (halong : Prog.Along Vm.handle (Op.Own x.cells x.depth) p s) (hcalm : Prog.All Op.Calm R p) :
    (Prog.run Vm.handle p s').1 = (Prog.run Vm.handle p s).1 ∧
      Alike x (Prog.run Vm.handle p s).2 (Prog.run Vm.handle p s').2 :=
  Prog.run_related (fun _ _ _ ht hK => handle_alike ht hK.1 (Or.inl hK.2)) h
    (halong.and_all hcalm)

def handOver (r : StepResult) (q : Program Unit) : UnwindResult → Program StepResult
  | .topLevel => pure r
  | .caller => do
    q
    pure .continue

/-- The arms of the three returns: `p` takes the result from the stack, `q` puts
    it on the caller's. -/
def returning {α : Type} (p : Program α) (r : α → StepResult) (q : α → Program Unit) :
    Program StepResult := do
  let a ← p
  .op (Op.unwind : ops.Op) (handOver (r a) (q a))

variable {α : Type} {p : Program α} {r : α → StepResult} {q : α → Program Unit}

theorem returning_result (h : Alike x s s')
    (halong : Prog.Along Vm.handle (Op.Own x.cells x.depth) (returning p r q) s)
    (hp : Prog.All Op.Calm (fun _ => True) p) :
    (∃ e t t', Prog.run Vm.handle p s = (.error e, t) ∧ Prog.run Vm.handle p s' = (.error e, t') ∧
      Alike x t t') ∨
    (∃ a t t', Prog.run Vm.handle p s = (.ok a, t) ∧ Prog.run Vm.handle p s' = (.ok a, t') ∧
      Alike x t t' ∧ Prog.Along Vm.handle (Op.Own x.cells x.depth)
        (.op (Op.unwind : ops.Op) (handOver (r a) (q a))) t) := by
  obtain ⟨hfirst, hrest⟩ := Prog.along_bind.1 halong
  obtain ⟨hanswer, halike⟩ := run_alike h hfirst hp
  unfold Prog.Post at hrest
  revert hanswer halike hrest
  rcases Prog.run Vm.handle p s with ⟨e | a, t⟩ <;>
    rcases Prog.run Vm.handle p s' with ⟨e' | a', t'⟩
  · intro _ hanswer halike
    cases hanswer
    exact Or.inl ⟨e, t, t', rfl, rfl, halike⟩
  · intro _ hanswer
    cases hanswer
  · intro _ hanswer
    cases hanswer
  · intro hrest hanswer halike
    cases hanswer
    rw [Prog.settles_ok] at hrest
    exact Or.inr ⟨a, t, t', rfl, rfl, halike, hrest⟩

theorem returning_inner (h : Alike x s s')
    (halong : Prog.Along Vm.handle (Op.Own x.cells x.depth) (returning p r q) s)
    (hp : Prog.All Op.Calm (fun _ => True) p) (hq : ∀ a, Prog.All Op.Calm (fun _ => True) (q a))
    (hframes : (Prog.run Vm.handle p s).2.frames = s.frames)
    (hinner : x.below.length + 1 < s.frames.length) :
    (Prog.run Vm.handle (returning p r q) s').1 = (Prog.run Vm.handle (returning p r q) s).1 ∧
      Alike x (Prog.run Vm.handle (returning p r q) s).2
        (Prog.run Vm.handle (returning p r q) s').2 := by
  unfold returning
  rw [Prog.run_bind, Prog.run_bind]
  rcases returning_result h halong hp with ⟨e, t, t', hrun, hrun', halike⟩ |
    ⟨a, t, t', hrun, hrun', halike, hrest⟩
  · rw [hrun, hrun']
    exact ⟨rfl, halike⟩
  · rw [hrun] at hframes
    rw [hrun, hrun']
    have hdeep : x.below.length + 1 < t.frames.length := by
      rw [show t.frames = s.frames from hframes]
      exact hinner
    let K : Op → Vm → Prop := fun o t =>
      o.Own x.cells x.depth t ∧ (o.Calm ∨ o = .unwind ∧ x.below.length + 1 < t.frames.length)
    obtain ⟨hown, hlast⟩ := Prog.along_op.1 hrest
    have hlong : Prog.Along Vm.handle K (.op (Op.unwind : ops.Op) (handOver (r a) (q a))) t := by
      refine Prog.along_op.2 ⟨⟨hown, Or.inr ⟨rfl, hdeep⟩⟩, hlast.mono ?_ fun _ _ h => h⟩
      intro u w hw
      have hcalm : Prog.All Op.Calm (fun _ => True) (handOver (r a) (q a) u) := by
        cases u with
        | topLevel => exact trivial
        | caller => exact Prog.all_bind.2 (hq a)
      exact (hw.and_all hcalm).mono fun _ _ h => ⟨h.1, Or.inl h.2⟩
    exact Prog.run_related (fun _ _ _ ht hK => handle_alike ht hK.1 hK.2) halike hlong

/-- The body's own return: the first run ends, the second goes on in the caller. -/
theorem returning_base (h : Alike x s s')
    (halong : Prog.Along Vm.handle (Op.Own x.cells x.depth) (returning p r q) s)
    (hp : Prog.All Op.Calm (fun _ => True) p)
    (hframes : (Prog.run Vm.handle p s).2.frames = s.frames)
    (hbase : s.frames = x.entry :: x.below) (hreturn : x.entry.returnPc = 0)
    (hreturn' : x.entry'.returnPc ≠ 0) :
    (∃ e t t', Prog.run Vm.handle (returning p r q) s = (.error e, t) ∧
      Prog.run Vm.handle (returning p r q) s' = (.error e, t') ∧ t'.data = t.data) ∨
    (∃ a t t', Prog.run Vm.handle (returning p r q) s = (.ok (r a), t) ∧
      Prog.run Vm.handle (returning p r q) s' =
        Prog.run Vm.handle (q a >>= fun _ => pure .continue) t' ∧
      t'.data = t.data ∧ t'.frames = x.below' ∧ t'.pc = x.entry'.returnPc ∧
      t'.sp = x.entry'.framePointer - x.entry.numParams.toNat ∧ Vm.Fixed s' t') := by
  unfold returning
  rw [Prog.run_bind, Prog.run_bind]
  rcases returning_result h halong hp with ⟨e, t, t', hrun, hrun', halike⟩ |
    ⟨a, t, t', hrun, hrun', halike, hrest⟩
  · rw [hrun, hrun']
    exact Or.inl ⟨e, t, t', rfl, rfl, halike.regs.data⟩
  · have hfixed := Prog.run_state (I := Vm.Fixed s') (fun o t ht => ht.trans (Vm.handle_fixed o t))
      (Vm.Fixed.refl s') (p := p)
    rw [hrun'] at hfixed
    rw [hrun] at hframes
    rw [hrun, hrun']
    obtain ⟨fs, fs', ht, ht', hstack⟩ := halike.frames
    have hfs : fs ++ x.below = [x.entry] ++ x.below := ht.symm.trans (hframes.trans hbase)
    have hsingle := List.append_cancel_right hfs
    subst hsingle
    have hact : fs' = [x.entry'] ∧ SameActivation t.cells t'.cells x.entry x.entry' t.sp t'.sp := by
      cases hstack with
      | base hact => exact ⟨rfl, hact⟩
      | call _ _ _ htail =>
        cases htail
    obtain ⟨rfl, hact⟩ := hact
    let u : Vm := { t with
      frames := x.below, sp := x.entry.framePointer - x.entry.numParams.toNat }
    let u' : Vm := { t' with
      frames := x.below', sp := x.entry'.framePointer - x.entry.numParams.toNat
      pc := x.entry'.returnPc }
    refine Or.inr ⟨a, u, u', ?_, ?_, halike.regs.data, rfl, rfl, rfl, ?_⟩
    · simp only [Prog.run, Vm.handle, Vm.unwindFrame, ht, List.cons_append, List.nil_append,
        if_pos hact.fits, if_pos hreturn]
      rfl
    · simp only [Prog.run, Vm.handle, Vm.unwindFrame, ht', List.cons_append, List.nil_append,
        hact.params, if_pos hact.fits', if_neg hreturn']
      rfl
    · exact ⟨hfixed.code, hfixed.blockSize, hfixed.capacity, hfixed.stopped⟩

theorem codeAt_alike (h : Alike x s s') (w a : ℕ) : s'.codeAt w a = s.codeAt w a := by
  unfold Vm.codeAt
  rw [h.regs.code]

theorem opcode_alike (h : Alike x s s') : s'.opcode = s.opcode := by
  unfold Vm.opcode
  rw [codeAt_alike h, h.regs.pc]

theorem step_undecoded (h : Alike x s s') (hop : s.opcode = none) :
    ∃ e, s.step natives = (.error e, s) ∧ s'.step natives = (.error e, s') := by
  refine ⟨_, step_undecoded_error natives hop, ?_⟩
  rw [step_undecoded_error natives ((opcode_alike h).trans hop), codeAt_alike h, h.regs.pc,
    h.regs.code]

theorem step_exec {op : Opcode} (h : Alike x s s') (hown : s.Own natives x.cells x.depth)
    (hop : s.opcode = some op) :
    ∃ p : Program StepResult, (∃ byte, p = exec natives s.blockSize.toNat s.pc byte op.instr) ∧
      Prog.Along Vm.handle (Op.Own x.cells x.depth) p s ∧
      s.step natives = Prog.run Vm.handle p s ∧ s'.step natives = Prog.run Vm.handle p s' := by
  obtain ⟨byte, hbyte, halong, hstep⟩ := along_opcode natives hop hown
  obtain ⟨byte', hbyte', -, hstep'⟩ := step_opcode natives ((opcode_alike h).trans hop)
  rw [codeAt_alike h, h.regs.pc, hbyte] at hbyte'
  cases hbyte'
  refine ⟨_, ⟨byte, rfl⟩, halong, hstep, ?_⟩
  rw [hstep', h.regs.blockSize, h.regs.pc]

def Vm.AtReturn (s : Vm) : Prop :=
  ∃ op, s.opcode = some op ∧
    (op.instr = .returnPop ∨ op.instr = .returnPopWide ∨ op.instr = .returnVoid)

def Op.Flat (o : Op) : Prop := (∀ m np nl r, o ≠ .enter m np nl r) ∧ o ≠ .unwind

theorem run_frames {R : α → Prop} (hp : Prog.All Op.Flat R p) (s : Vm) :
    (Prog.run Vm.handle p s).2.frames = s.frames := by
  have hpost : Prog.Post Vm.handle (fun a t => R a ∧ t.frames = s.frames)
      (fun _ t => t.frames = s.frames) p s := by
    refine Prog.post_of_all (I := fun t : Vm => t.frames = s.frames) ?_ hp rfl
    intro o ho t ht
    have hframes := t.handle_frames ho.1 ho.2
    apply Prog.post_perform.2
    revert hframes
    rcases Vm.handle o t with ⟨_ | _, u⟩
    · exact fun h => h.trans ht
    · exact fun h => h.trans ht
  unfold Prog.Post at hpost
  revert hpost
  rcases Prog.run Vm.handle p s with ⟨_ | _, t⟩
  · exact id
  · exact And.right

theorem step_inside (h : Alike x s s') (hown : s.Own natives x.cells x.depth)
    (hinside : s.AtReturn → x.below.length + 1 < s.frames.length) :
    (s'.step natives).1 = (s.step natives).1 ∧
      Alike x (s.step natives).2 (s'.step natives).2 := by
  cases hop : s.opcode with
  | none =>
    obtain ⟨e, hstep, hstep'⟩ := step_undecoded natives h hop
    rw [hstep, hstep']
    exact ⟨rfl, h⟩
  | some op =>
    obtain ⟨p, ⟨byte, rfl⟩, halong, hstep, hstep'⟩ := step_exec natives h hown hop
    rw [hstep, hstep']
    by_cases hi : op.instr ≠ .returnPop ∧ op.instr ≠ .returnPopWide ∧ op.instr ≠ .returnVoid
    · exact run_alike h halong (exec_calm natives _ _ byte hi)
    · have hcases : op.instr = .returnPop ∨ op.instr = .returnPopWide ∨ op.instr = .returnVoid := by
        tauto
      have hinner := hinside ⟨op, hop, hcases⟩
      rcases hcases with hinstr | hinstr | hinstr
      · rw [hinstr] at halong ⊢
        have hpop : Prog.All Op.Flat (fun _ => True) pop := by simp [Op.Flat]
        exact returning_inner (p := pop) (q := push) h halong (by simp [Op.Calm])
          (by simp [Op.Calm]) (run_frames hpop s) hinner
      · rw [hinstr] at halong ⊢
        have hpop : Prog.All Op.Flat (fun _ => True) popI64 := by simp [popI64, Op.Flat]
        exact returning_inner (p := popI64) (q := pushI64) h halong (by simp [popI64, Op.Calm])
          (by simp [pushI64, Op.Calm]) (run_frames hpop s) hinner
      · rw [hinstr] at halong ⊢
        exact returning_inner (p := pure ()) (r := fun _ => .returnVoid) (q := fun _ => pure ()) h
          halong trivial (fun _ => trivial) rfl hinner

theorem Alike.above (h : Alike x s s') : s.Above (x.entry :: x.below) := by
  obtain ⟨fs, fs', hframes, -, hstack⟩ := h.frames
  obtain ⟨calls, rfl, hcalls⟩ := hstack.calls
  exact ⟨calls, by rw [hframes, List.append_assoc]; rfl, hcalls⟩

theorem Alike.deep (h : Alike x s s') : x.below.length < s.frames.length := by
  have hlength := h.above.length
  rwa [List.length_cons] at hlength

theorem Alike.at_base (h : Alike x s s') (hnot : ¬x.below.length + 1 < s.frames.length) :
    s.frames = x.entry :: x.below := by
  obtain ⟨calls, hframes, -⟩ := h.above
  cases calls with
  | nil => exact hframes
  | cons f fs =>
    rw [hframes] at hnot
    simp only [List.cons_append, List.length_cons, List.length_append] at hnot
    omega

def HandedOver (x : TwoCalls) (r : StepResult) (t : Vm) : Prop :=
  t.frames = x.below' ∧ t.pc = x.entry'.returnPc ∧
    match r with
    | .returnI32 v => t.sp = x.entry'.framePointer + 1 ∧ t.top 1 = v
    | .returnVoid => t.sp = x.entry'.framePointer
    | _ => False

theorem step_return (h : Alike x s s') (hown : s.Own natives x.cells x.depth)
    (hat : s.AtReturn) (hbase : s.frames = x.entry :: x.below) (hreturn : x.entry.returnPc = 0)
    (hreturn' : x.entry'.returnPc ≠ 0) (hparams : x.entry.numParams = 0) :
    (∃ e t t', s.step natives = (.error e, t) ∧ s'.step natives = (.error e, t') ∧
      t'.data = t.data) ∨
    (∃ r t t', s.step natives = (.ok r, t) ∧ s'.step natives = (.ok .continue, t') ∧
      t'.data = t.data ∧ HandedOver x r t') ∨
    ∃ v t, s.step natives = (.ok (.returnWide v), t) := by
  obtain ⟨op, hop, hcases⟩ := hat
  obtain ⟨p, ⟨byte, rfl⟩, halong, hstep, hstep'⟩ := step_exec natives h hown hop
  have htop := h.top
  have hlimit' := h.limit'
  obtain ⟨fs, fs', -, -, hstack⟩ := h.frames
  have hheight := hstack.height
  have hzero : x.entry.numParams.toNat = 0 := by
    rw [hparams]
    rfl
  rw [hstep, hstep']
  rcases hcases with hinstr | hinstr | hinstr
  · rw [hinstr] at halong ⊢
    have hpop : Prog.All Op.Flat (fun _ => True) pop := by simp [Op.Flat]
    rcases returning_base (p := pop) (r := .returnI32) (q := push) h halong (by simp [Op.Calm])
      (run_frames hpop s) hbase hreturn hreturn' with hfail | ⟨v, t, t', hrun, hrun', hdata, hrest⟩
    · exact Or.inl hfail
    · obtain ⟨hframes, hpc, hsp, hfixed⟩ := hrest
      rw [hzero, Nat.sub_zero] at hsp
      refine Or.inr (Or.inl ⟨_, t, t'.write [v], hrun, ?_, hdata, hframes, hpc, ?_, ?_⟩)
      · have hroom : ¬t'.capacity ≤ t'.sp := by
          rw [hfixed.capacity, hsp]
          omega
        apply hrun'.trans
        change Prog.run Vm.handle (.op (Op.push v : ops.Op) _) t' = _
        rw [Prog.run]
        simp only [Vm.handle, if_neg hroom]
        rfl
      · rw [Vm.write_sp, hsp]
        rfl
      · unfold Vm.top
        rw [Vm.write_sp, Vm.write_cells_ge (by simp)]
        simp
  · rw [hinstr] at halong ⊢
    have hpop : Prog.All Op.Flat (fun _ => True) popI64 := by simp [popI64, Op.Flat]
    rcases returning_base (p := popI64) (r := .returnWide) (q := pushI64) h halong
      (by simp [popI64, Op.Calm]) (run_frames hpop s) hbase hreturn hreturn' with
      hfail | ⟨v, t, t', hrun, -⟩
    · exact Or.inl hfail
    · exact Or.inr (Or.inr ⟨v, t, hrun⟩)
  · rw [hinstr] at halong ⊢
    rcases returning_base (p := pure ()) (r := fun _ => .returnVoid) (q := fun _ => pure ()) h halong
      trivial rfl hbase hreturn hreturn' with hfail | ⟨_, t, t', hrun, hrun', hdata, hrest⟩
    · exact Or.inl hfail
    · obtain ⟨hframes, hpc, hsp, -⟩ := hrest
      rw [hzero, Nat.sub_zero] at hsp
      exact Or.inr (Or.inl ⟨_, t, t', hrun, hrun', hdata, hframes, hpc, hsp⟩)

end Steps

section Bodies

variable (natives : Natives)

/-- Within `n` instructions, all of which keep to their activation, the run ends,
    and not with a wide result. -/
def Vm.Finishes (cells depth : ℕ) : ℕ → Vm → Prop
  | 0, _ => False
  | n + 1, s =>
    s.Own natives cells depth ∧
      match s.step natives with
      | (.ok .continue, t) => Finishes cells depth n t
      | (.ok (.returnWide _), _) => False
      | _ => True

/-- The value `run_loop` makes of a result. -/
def StepResult.value : StepResult → Cell
  | .returnI32 v => v
  | _ => 0

variable {x : TwoCalls} {s s' t : Vm} {n : ℕ}

theorem runLoop_of_continue (hstopped : s.stopped = false)
    (hstep : s.step natives = (.ok .continue, t)) :
    s.runLoop natives (n + 1) = t.runLoop natives n := by
  rw [Vm.runLoop, hstopped, hstep]
  rfl

theorem runLoop_of_return {r : StepResult} (hstopped : s.stopped = false)
    (hstep : s.step natives = (.ok r, t)) (hr : r ≠ .continue) :
    s.runLoop natives (n + 1) = (.ok r.value, t) := by
  rw [Vm.runLoop, hstopped, hstep]
  cases r with
  | «continue» => exact absurd rfl hr
  | returnI32 v => rfl
  | returnWide v => rfl
  | returnVoid => rfl

def EndAlike (x : TwoCalls) (n : ℕ) (s s' : Vm) : Prop :=
  (∃ j e t t', j ≤ n ∧ (∀ k, s.runLoop natives (j + k) = (.error e, t)) ∧
    (∀ k, s'.runLoop natives (j + k) = (.error e, t')) ∧ t'.data = t.data) ∨
  ∃ j r t t', j ≤ n ∧ (∀ k, s.runLoop natives (j + k) = (.ok r.value, t)) ∧
    (∀ k, s'.runLoop natives (j + k) = t'.runLoop natives k) ∧ t'.data = t.data ∧
    HandedOver x r t'

theorem EndAlike.next {u u' : Vm} (h : EndAlike natives x n u u')
    (hs : ∀ k, s.runLoop natives (k + 1) = u.runLoop natives k)
    (hs' : ∀ k, s'.runLoop natives (k + 1) = u'.runLoop natives k) :
    EndAlike natives x (n + 1) s s' := by
  have hindex : ∀ j k : ℕ, j + 1 + k = j + k + 1 := fun _ _ => by omega
  rcases h with ⟨j, e, t, t', hj, hrun, hrun', hdata⟩ | ⟨j, r, t, t', hj, hrun, hrun', hrest⟩
  · refine Or.inl ⟨j + 1, e, t, t', by omega, ?_, ?_, hdata⟩
    · intro k
      rw [hindex, hs, hrun]
    · intro k
      rw [hindex, hs', hrun']
  · refine Or.inr ⟨j + 1, r, t, t', by omega, ?_, ?_, hrest⟩
    · intro k
      rw [hindex, hs, hrun]
    · intro k
      rw [hindex, hs', hrun']

theorem EndAlike.failed {e : Halt} {t' : Vm} (hs : ∀ k, s.runLoop natives (k + 1) = (.error e, t))
    (hs' : ∀ k, s'.runLoop natives (k + 1) = (.error e, t')) (hdata : t'.data = t.data) :
    EndAlike natives x (n + 1) s s' := by
  refine Or.inl ⟨1, e, t, t', by omega, ?_, ?_, hdata⟩
  · intro k
    rw [Nat.add_comm, hs]
  · intro k
    rw [Nat.add_comm, hs']

theorem step_inside_result {r : StepResult} (h : Alike x s s') (hreturn : x.entry.returnPc = 0)
    (hparams : x.entry.numParams = 0) (hstep : s.step natives = (.ok r, t))
    (hdeep : x.below.length < t.frames.length) : r = .continue := by
  have hends := step_ends natives h.above hreturn (by rw [hparams]; exact Nat.zero_le _)
  rw [hstep, Prog.settles_ok] at hends
  rcases hends with ⟨hr, -⟩ | ⟨-, hframes, -⟩
  · exact hr
  · rw [hframes] at hdeep
    omega

theorem finishes_alike (hreturn : x.entry.returnPc = 0) (hreturn' : x.entry'.returnPc ≠ 0)
    (hparams : x.entry.numParams = 0) (h : Alike x s s') (hstopped : s.stopped = false)
    (hfinishes : s.Finishes natives x.cells x.depth n) : EndAlike natives x n s s' := by
  induction n generalizing s s' with
  | zero => exact hfinishes.elim
  | succ n ih =>
    obtain ⟨hown, hrest⟩ := hfinishes
    have hstopped' : s'.stopped = false := h.regs.stopped.trans hstopped
    by_cases hinside : s.AtReturn → x.below.length + 1 < s.frames.length
    · obtain ⟨hanswer, halike⟩ := step_inside natives h hown hinside
      have hfixed := s.step_fixed natives
      rcases hstep : s.step natives with ⟨e | r, t⟩ <;>
        rcases hstep' : s'.step natives with ⟨e' | r', t'⟩ <;>
        rw [hstep, hstep'] at hanswer halike
      · cases hanswer
        exact .failed natives (fun k => runLoop_of_error natives hstopped hstep)
          (fun k => runLoop_of_error natives hstopped' hstep') halike.regs.data
      · cases hanswer
      · cases hanswer
      · cases hanswer
        rw [hstep] at hrest hfixed
        have hr := step_inside_result natives h hreturn hparams hstep halike.deep
        subst hr
        exact (ih halike (hfixed.stopped.trans hstopped) hrest).next natives
          (fun k => runLoop_of_continue natives hstopped hstep)
          (fun k => runLoop_of_continue natives hstopped' hstep')
    · obtain ⟨hat, hbase⟩ := Classical.not_imp.1 hinside
      rcases step_return natives h hown hat (h.at_base hbase) hreturn hreturn' hparams with
        ⟨e, t, t', hstep, hstep', hdata⟩ | ⟨r, t, t', hstep, hstep', hdata, hover⟩ | ⟨v, t, hstep⟩
      · exact .failed natives (fun k => runLoop_of_error natives hstopped hstep)
          (fun k => runLoop_of_error natives hstopped' hstep') hdata
      · have hr : r ≠ .continue := by
          rintro rfl
          exact hover.2.2
        refine Or.inr ⟨1, r, t, t', by omega, ?_, ?_, hdata, hover⟩
        · intro k
          rw [Nat.add_comm, runLoop_of_return natives hstopped hstep hr]
        · intro k
          rw [Nat.add_comm, runLoop_of_continue natives hstopped' hstep']
      · rw [hstep] at hrest
        exact hrest.elim

end Bodies

section Conventions

variable (natives : Natives)

def SameOutcome (o o' : Except Halt Cell × Vm) : Prop := o.1 = o'.1 ∧ o.2.data = o'.2.data

/-- A `Call` at the program counter of `c` ends as `o` did: it fails alike, or
    the caller goes on behind it with the result on its stack. -/
def CallGives (c : Vm) (o : Except Halt Cell × Vm) : Prop :=
  match o.1 with
  | .ok v => ∃ (j : ℕ) (c' : Vm), (∀ k, c.runLoop natives (j + k) = c'.runLoop natives k) ∧
      c'.data = o.2.data ∧ c'.frames = c.frames ∧ c'.pc = c.pc + 3 ∧
      (c'.sp = c.sp + 1 ∧ c'.top 1 = v ∨ c'.sp = c.sp ∧ v = 0)
  | .error e => ∃ (j : ℕ) (c' : Vm), (∀ k, c.runLoop natives (j + k) = (.error e, c')) ∧
      c'.data = o.2.data

/-- A runner that finds the method as main or resume method of its image ends as
    `o` did. -/
def RunnerGives (s : Vm) (m : ℕ) (o : Except Halt Cell × Vm) : Prop :=
  (∀ r : Runner, r.running = true → r.resumeOffset = some m → r.interpreter = some s →
    s.stopped = false → (r.resume natives).1 = o.1 ∧
      ∃ vm, (r.resume natives).2.interpreter = some vm ∧ vm.data = o.2.data) ∧
  ∀ (r : Runner) (file : List Byte) (image : ScodeImage), r.running = false →
    ScodeImage.loadFromBytes file = .ok image → image.interpreter = .ok s →
    image.blockToOffset image.header.mainMethod = m →
    match o.1 with
    | .ok _ => (r.start natives (.ok file)).1 = .ok () ∧
        ∃ vm, (r.start natives (.ok file)).2.interpreter = some vm ∧ vm.data = o.2.data
    | .error e => (r.start natives (.ok file)).1 = .error e

/-- The method at `m`, run by `execute`, by a runner, by `execute_method` and by
    a `Call`. -/
def OneConvention (s c : Vm) (m : ℕ) : Prop :=
  SameOutcome (s.execute natives m) (s.executeMethod natives m []) ∧
    RunnerGives natives s m (s.executeMethod natives m []) ∧
    CallGives natives c (s.executeMethod natives m [])

/-- A method without parameters at `m`, and another method `c` about to call it,
    over the same code and data. -/
structure CallOf (s c : Vm) (m : ℕ) (numLocals : Byte) : Prop where
  params : s.codeAt 1 m = some 0
  locals : s.codeAt 1 (m + 1) = some numLocals
  code : c.code = s.code
  data : c.data = s.data
  blockSize : c.blockSize = s.blockSize
  stopped : c.stopped = s.stopped
  assertFailures : c.assertFailures = s.assertFailures
  assertSuccesses : c.assertSuccesses = s.assertSuccesses
  call : c.opcode = some .call
  target : ∃ bix : Bytes 2, c.codeAt 2 (c.pc + 1) = some bix ∧ c.blockToAddr bix.toNat = m

/-- The body keeps to its own cells and ends in time, and both callers have room
    for it. -/
structure BehavesIn (s c : Vm) (m n cells depth : ℕ) (numLocals : Byte) : Prop where
  running : s.stopped = false
  inTime : n + 2 ≤ maxInstructions
  finishes : ((Entry.method m []).setup s).2.Finishes natives cells depth n
  opens : s.sp + 3 + numLocals.toNat ≤ cells
  cells_le : cells ≤ s.capacity
  cells_le' : c.sp + cells ≤ c.capacity + s.sp
  depth_lt : s.frames.length < depth
  depth_le : depth ≤ maxFrameDepth
  depth_le' : depth + c.frames.length ≤ maxFrameDepth + s.frames.length

variable {s c : Vm} {m : ℕ} {numLocals : Byte}

theorem runnerGives_execute (s : Vm) (m : ℕ) :
    RunnerGives natives s m (s.execute natives m) := by
  constructor
  · intro r hrunning hoffset hinterpreter hstopped
    unfold Runner.resume
    simp only [hrunning, hoffset, hinterpreter, hstopped, Bool.not_true, Bool.false_eq_true, if_false]
    exact ⟨trivial, _, rfl, rfl⟩
  · intro r file image hrunning hload hinterpreter hmain
    unfold Runner.start
    simp only [hrunning, Bool.false_eq_true, if_false, Except.bind, hload, hinterpreter, hmain]
    rcases s.execute natives m with ⟨e | v, vm⟩
    · exact rfl
    · exact ⟨rfl, vm, rfl, rfl⟩

theorem RunnerGives.of_same {o o' : Except Halt Cell × Vm} (h : RunnerGives natives s m o)
    (hsame : SameOutcome o o') : RunnerGives natives s m o' := by
  obtain ⟨hresult, hdata⟩ := hsame
  unfold RunnerGives at h ⊢
  rw [hresult, hdata] at h
  exact h

/-- The machine in which `execute_method` begins. -/
theorem setup_method_called (hparams : s.codeAt 1 m = some 0)
    (hlocals : s.codeAt 1 (m + 1) = some numLocals)
    (hroom : s.sp + 3 + numLocals.toNat ≤ s.capacity) (hdepth : s.frames.length < maxFrameDepth) :
    (Entry.method m []).setup s =
      (.ok (), s.called [0, 0, BitVec.ofNat 32 m] ⟨0, s.sp, 0, numLocals⟩ m) := by
  rw [setup_method_eq hparams hlocals rfl,
    @pushEntry_fits s m [] 0 numLocals (by simp only [List.length_nil]; omega) hdepth, Vm.andThen,
    Vm.pushCells_eq _ _ (by simp; omega), if_pos (by simp; omega)]
  rfl

theorem run_code {α : Type} {w a : ℕ} {v : Bytes w} {f : Bytes w → Program α}
    (hv : c.codeAt w a = some v) :
    Prog.run Vm.handle (code w a >>= f) c = Prog.run Vm.handle (f v) c := by
  change Prog.run Vm.handle (.op (Op.code w a : ops.Op) _) c = _
  rw [Prog.run]
  simp only [Vm.handle, hv]
  rfl

/-- The machine in which the body called from `c` begins. -/
theorem step_call (hcall : CallOf s c m numLocals)
    (hroom : c.sp + 3 + numLocals.toNat ≤ c.capacity) (hdepth : c.frames.length < maxFrameDepth) :
    ∃ header : List Cell, header.length = 3 ∧
      c.step natives = (.ok .continue, c.called header ⟨c.pc + 3, c.sp, 0, numLocals⟩ m) := by
  obtain ⟨bix, hbix, htarget⟩ := hcall.target
  obtain ⟨byte, -, -, hstep⟩ := step_opcode natives hcall.call
  obtain ⟨header, hheader, hsetup⟩ :=
    @setupCallFrame_fits c m 0 numLocals (c.pc + 3) hroom hdepth
  have hcode : ∀ w a, c.codeAt w a = s.codeAt w a := by
    intro w a
    unfold Vm.codeAt
    rw [hcall.code]
  have haddr : bix.toNat * c.blockSize.toNat = m := htarget
  refine ⟨header, hheader, ?_⟩
  rw [hstep]
  change Prog.run Vm.handle (doCall c.blockSize.toNat (c.pc + 1)) c = _
  unfold doCall
  rw [run_code hbix, haddr, run_code (by rw [hcode]; exact hcall.params),
    run_code (by rw [hcode]; exact hcall.locals)]
  change Prog.run Vm.handle (.op (Op.enter m 0 numLocals (c.pc + 3) : ops.Op) _) c = _
  rw [Prog.run]
  simp only [Vm.handle, hsetup]
  rfl

theorem step_nop (hbyte : s.codeAt 1 s.pc = some 0) :
    s.step natives = (.ok .continue, { s with pc := s.pc + 1 }) := by
  have hop : s.opcode = some .nop := by
    unfold Vm.opcode
    rw [hbyte]
    rfl
  obtain ⟨byte, -, -, hstep⟩ := step_opcode natives hop
  exact hstep

/-- Where the two bytes of the header are `Nop`s, `execute` comes to the machine
    in which `execute_method` begins. -/
theorem execute_called (hparams : s.codeAt 1 m = some 0) (hlocals : s.codeAt 1 (m + 1) = some 0)
    (hroom : s.sp + 3 ≤ s.capacity) (hdepth : s.frames.length < maxFrameDepth)
    (hstopped : s.stopped = false) :
    s.execute natives m =
      (s.called [0, 0, BitVec.ofNat 32 m] ⟨0, s.sp, 0, 0⟩ m).runLoop natives
        (maxInstructions - 2) := by
  let t : Vm := { s.write [0, 0, BitVec.ofNat 32 m] with frames := ⟨0, s.sp, 0, 0⟩ :: s.frames }
  have hpush := @pushEntry_fits s m [] 0 0 hroom hdepth
  have hcalled : s.called [0, 0, BitVec.ofNat 32 m] ⟨0, s.sp, 0, 0⟩ m = { t with pc := m + 2 } := by
    change { Vm.write t [] with pc := m + 2 } = _
    rw [Vm.write_nil]
  have hfirst := @step_nop natives { t with pc := m } hparams
  have hsecond := @step_nop natives { t with pc := m + 1 } hlocals
  rw [hcalled]
  unfold Vm.execute Vm.executeWithArgs Vm.enter
  rw [Entry.setup]
  change Vm.andThen (Vm.andThen (s.pushEntry m [] 0 0) _) _ = _
  rw [hpush]
  change Vm.runLoop natives (9999999 + 1) { t with pc := m } = _
  rw [runLoop_of_continue natives (s := { t with pc := m }) hstopped hfirst]
  change Vm.runLoop natives (9999998 + 1) { t with pc := m + 1 } = _
  rw [runLoop_of_continue natives (s := { t with pc := m + 1 }) hstopped hsecond]
  rfl

variable {n cells depth : ℕ}

def BehavesIn.sides (h : BehavesIn natives s c m n cells depth numLocals) : TwoCalls where
  entry := ⟨0, s.sp, 0, numLocals⟩
  entry' := ⟨c.pc + 3, c.sp, 0, numLocals⟩
  below := s.frames
  below' := c.frames
  cells := cells
  depth := depth
  depth_le := h.depth_le
  depth_le' := h.depth_le'

theorem called_endAlike (hcall : CallOf s c m numLocals)
    (h : BehavesIn natives s c m n cells depth numLocals) :
    ∃ header : List Cell,
      c.step natives = (.ok .continue, c.called header ⟨c.pc + 3, c.sp, 0, numLocals⟩ m) ∧
      EndAlike natives (BehavesIn.sides natives h) n
        (s.called [0, 0, BitVec.ofNat 32 m] ⟨0, s.sp, 0, numLocals⟩ m)
        (c.called header ⟨c.pc + 3, c.sp, 0, numLocals⟩ m) := by
  obtain ⟨hrunning, -, hfinishes, hopens, hcells, hcells', hdeep, hdepth, hdepth'⟩ := h
  obtain ⟨header, hheader, hstep⟩ := step_call natives hcall (by omega) (by omega)
  refine ⟨header, hstep, ?_⟩
  rw [setup_method_called hcall.params hcall.locals (by omega) (by omega)] at hfinishes
  refine finishes_alike natives rfl (Nat.succ_ne_zero _) rfl ?_ ?_ hfinishes
  rotate_left
  · exact hrunning
  have hact := @SameActivation.called s c [0, 0, BitVec.ofNat 32 m] header ⟨0, s.sp, 0, numLocals⟩
    ⟨c.pc + 3, c.sp, 0, numLocals⟩ m rfl hheader rfl rfl rfl rfl (Nat.zero_le _) (Nat.zero_le _)
    (by
      intro k hk hle
      change k ≤ 0 at hle
      omega)
  refine ⟨⟨hcall.code, hcall.data, hcall.blockSize, rfl, hcall.stopped, hcall.assertFailures,
    hcall.assertSuccesses⟩, ?_, hcells, ?_, [_], [_], rfl, rfl, .base hact⟩
  · rw [called_sp rfl]
    exact hopens
  · change c.sp + cells ≤ c.capacity + s.sp
    exact hcells'

theorem executeMethod_called (hparams : s.codeAt 1 m = some 0)
    (hlocals : s.codeAt 1 (m + 1) = some numLocals)
    (hroom : s.sp + 3 + numLocals.toNat ≤ s.capacity) (hdepth : s.frames.length < maxFrameDepth) :
    s.executeMethod natives m [] =
      (s.called [0, 0, BitVec.ofNat 32 m] ⟨0, s.sp, 0, numLocals⟩ m).runLoop natives
        maxInstructions := by
  unfold Vm.executeMethod Vm.enter
  rw [setup_method_called hparams hlocals hroom hdepth, Vm.andThen]

/-- `execute_method` of a well-behaved method finds room. -/
theorem BehavesIn.executeMethod (hcall : CallOf s c m numLocals)
    (h : BehavesIn natives s c m n cells depth numLocals) :
    s.executeMethod natives m [] =
      (s.called [0, 0, BitVec.ofNat 32 m] ⟨0, s.sp, 0, numLocals⟩ m).runLoop natives
        maxInstructions := by
  obtain ⟨-, -, -, hopens, hcells, -, hdeep, hdepth, -⟩ := h
  exact executeMethod_called natives hcall.params hcall.locals (by omega) (by omega)

/-- A `Call` of a well-behaved method ends as `execute_method` does, whatever
    locals it declares. -/
theorem call_gives (hcall : CallOf s c m numLocals)
    (h : BehavesIn natives s c m n cells depth numLocals) :
    CallGives natives c (s.executeMethod natives m []) := by
  obtain ⟨header, hstep, hends⟩ := called_endAlike natives hcall h
  have hstopped : c.stopped = false := hcall.stopped.trans h.running
  have htime := h.inTime
  have hindex : ∀ j k : ℕ, j + 1 + k = j + k + 1 := fun _ _ => by omega
  rw [h.executeMethod natives hcall]
  rcases hends with ⟨j, e, t, t', hj, hrun, hrun', hdata⟩ | ⟨j, r, t, t', hj, hrun, hrun', hrest⟩
  · have hmax := hrun (maxInstructions - j)
    rw [Nat.add_sub_of_le (by omega)] at hmax
    rw [hmax]
    refine ⟨j + 1, t', ?_, hdata⟩
    intro k
    rw [hindex, runLoop_of_continue natives hstopped hstep, hrun']
  · have hmax := hrun (maxInstructions - j)
    rw [Nat.add_sub_of_le (by omega)] at hmax
    rw [hmax]
    obtain ⟨hdata, hframes, hpc, hresult⟩ := hrest
    refine ⟨j + 1, t', ?_, hdata, hframes, hpc, ?_⟩
    · intro k
      rw [hindex, runLoop_of_continue natives hstopped hstep, hrun']
    · cases r with
      | «continue» => exact hresult.elim
      | returnI32 v => exact Or.inl hresult
      | returnWide v => exact hresult.elim
      | returnVoid => exact Or.inr ⟨hresult, rfl⟩

/-- Without locals the header is two `Nop`s, and `execute` ends alike. -/
theorem execute_gives (hcall : CallOf s c m 0) (h : BehavesIn natives s c m n cells depth 0) :
    s.execute natives m = s.executeMethod natives m [] := by
  obtain ⟨header, -, hends⟩ := called_endAlike natives hcall h
  rw [h.executeMethod natives hcall]
  have hopens : s.sp + 3 ≤ cells := h.opens
  have hcells := h.cells_le
  have hdeep := h.depth_lt
  have hdepth := h.depth_le
  have htime := h.inTime
  rw [execute_called natives hcall.params hcall.locals (by omega) (by omega) h.running]
  rcases hends with ⟨j, e, t, t', hj, hrun, -⟩ | ⟨j, r, t, t', hj, hrun, -⟩
  · have hmax := hrun (maxInstructions - j)
    have hmax' := hrun (maxInstructions - 2 - j)
    rw [Nat.add_sub_of_le (by omega)] at hmax hmax'
    rw [hmax, hmax']
  · have hmax := hrun (maxInstructions - j)
    have hmax' := hrun (maxInstructions - 2 - j)
    rw [Nat.add_sub_of_le (by omega)] at hmax hmax'
    rw [hmax, hmax']

end Conventions

section Locals

/-- A method with the header `0, numLocals` that pushes ones, adds 5 to one of
    its locals and returns the sum. -/
def probe (numLocals : Byte) : List Byte :=
  [0, numLocals] ++ List.replicate 9 3 ++
    [if numLocals = 1 then 37 else if numLocals = 2 then 38 else 39, 7, 66, 227]

theorem probe_locals (numLocals : Byte) :
    (Vm.new (probe numLocals) [] 4).codeAt 1 1 = some numLocals := by
  change some (BitVec.ofNat 8 (numLocals.toNat + 256 * 0)) = some numLocals
  simp

/-- Run by `execute`, the second byte of the header is an instruction and the
    local is a cell of the operand stack. -/
theorem probe_differs (numLocals : Byte) (hlocals : numLocals ≠ 0) :
    ((Vm.new (probe numLocals) [] 4).executeMethod .stubs 0 []).1 = .ok 5 ∧
      ((Vm.new (probe numLocals) [] 4).execute .stubs 0).1 ≠ .ok 5 := by
  have hall : ∀ n : Fin 256, n ≠ 0 →
      (((Vm.new (probe (BitVec.ofFin n)) [] 4).called [0, 0, 0] ⟨0, 0, 0, BitVec.ofFin n⟩ 0).runLoop
          .stubs maxInstructions).1 = .ok 5 ∧
        ((Vm.new (probe (BitVec.ofFin n)) [] 4).execute .stubs 0).1 ≠ .ok 5 := by
    decide +kernel
  have hroom : 0 + 3 + numLocals.toNat ≤ 4096 := by
    have hbyte := numLocals.isLt
    omega
  rw [executeMethod_called .stubs rfl (probe_locals numLocals) hroom (Nat.succ_pos 511)]
  apply hall numLocals.toFin
  intro hzero
  exact hlocals (BitVec.eq_of_toFin_eq hzero)

/-- A well-behaved method that declares no locals has one calling convention;
    with any other number of locals a method may not. -/
theorem one_convention (natives : Natives) (numLocals : Byte) :
    (∀ (s c : Vm) (m n cells depth : ℕ), CallOf s c m 0 →
      BehavesIn natives s c m n cells depth 0 → OneConvention natives s c m) ∧
    (numLocals ≠ 0 → ∃ (s : Vm) (m : ℕ), s.codeAt 1 m = some 0 ∧
      s.codeAt 1 (m + 1) = some numLocals ∧ s.sp = 0 ∧
      (s.executeMethod .stubs m []).1 = .ok 5 ∧ ∀ c, ¬OneConvention .stubs s c m) := by
  constructor
  · intro s c m n cells depth hcall hbehaves
    have hsame : SameOutcome (s.execute natives m) (s.executeMethod natives m []) := by
      rw [execute_gives natives hcall hbehaves]
      exact ⟨rfl, rfl⟩
    exact ⟨hsame, (runnerGives_execute natives s m).of_same natives hsame,
      call_gives natives hcall hbehaves⟩
  · intro hlocals
    obtain ⟨hmethod, hexecute⟩ := probe_differs numLocals hlocals
    refine ⟨Vm.new (probe numLocals) [] 4, 0, rfl, probe_locals numLocals, rfl, hmethod, ?_⟩
    intro c hone
    exact hexecute (hone.1.1.trans hmethod)

def plainCode : List Byte := [0, 0, 3, 227, 221, 0, 0, 227]

def plainCaller : Vm := ((Entry.withArgs 4 []).setup (.new plainCode [] 4)).2

theorem one_convention_plain : OneConvention .stubs (.new plainCode [] 4) plainCaller 0 := by
  have hcall : CallOf (.new plainCode [] 4) plainCaller 0 0 :=
    ⟨rfl, rfl, rfl, rfl, rfl, rfl, rfl, rfl, rfl, 0, rfl, rfl⟩
  have hbehaves : BehavesIn .stubs (.new plainCode [] 4) plainCaller 0 2 4 1 0 := by
    refine ⟨rfl, by decide, ?_, by decide, by decide, by decide, by decide, by decide, by decide⟩
    refine ⟨⟨trivial, ?_, trivial, trivial⟩, ⟨trivial, ?_, trivial, trivial⟩, trivial⟩
    · exact le_refl 4
    · exact le_refl 4
  exact (one_convention .stubs 0).1 _ _ _ _ _ _ hcall hbehaves

/-- An image whose main and resume method, at block 8, declares a local and
    returns it, and whose method at block 9 calls it. -/
def localImage : List Byte :=
  [0x07, 0xBA, 0xD0, 0x5E, 1, 5, 4, 4, 40, 0, 0, 0, 4, 0, 0, 0, 8, 0, 0, 0, 0, 0, 0, 0, 8, 0, 0, 0,
    0, 0, 0, 0, 0, 1, 37, 227, 221, 8, 0, 227]

/-- The image of `localImage`, as loaded. -/
def localScode : ScodeImage where
  header := {
    magic := 0x5ED0BA07, majorVer := 1, minorVer := 5, blockSize := 4, refSize := 4
    imageSize := 40, dataSize := 4, mainMethod := 8, testsBix := 0, resumeMethod := 8 }
  code := localImage

/-- Its second method, about to call the first. -/
def localCaller : Vm := ((Entry.withArgs 36 []).setup (.new localImage [0, 0, 0, 0] 4)).2

/-- `execute` runs the byte 1 of the header as `LoadIM1`, so the local is -1 there
    and 0 for `execute_method`. -/
theorem local_differs :
    ScodeImage.loadFromBytes localImage = .ok localScode ∧
      localScode.interpreter = .ok (.new localImage [0, 0, 0, 0] 4) ∧
      CallOf (.new localImage [0, 0, 0, 0] 4) localCaller 32 1 ∧
      ((Vm.new localImage [0, 0, 0, 0] 4).execute .stubs 32).1 = .ok (-1) ∧
      ((Vm.new localImage [0, 0, 0, 0] 4).executeMethod .stubs 32 []).1 = .ok 0 ∧
      ¬OneConvention .stubs (.new localImage [0, 0, 0, 0] 4) localCaller 32 := by
  have hexecute : ((Vm.new localImage [0, 0, 0, 0] 4).execute .stubs 32).1 = .ok (-1) := by
    decide +kernel
  have hmethod : ((Vm.new localImage [0, 0, 0, 0] 4).executeMethod .stubs 32 []).1 = .ok 0 := by
    decide +kernel
  refine ⟨by decide +kernel, rfl, ⟨rfl, rfl, rfl, rfl, rfl, rfl, rfl, rfl, rfl, 8, rfl, rfl⟩,
    hexecute, hmethod, ?_⟩
  intro hone
  exact absurd (hexecute.symm.trans (hone.1.1.trans hmethod)) (by decide)

end Locals

end Sandstar.Svm
