import Sandstar.Runs
import Sandstar.SvmRules
import Sandstar.SvmRunner

set_option autoImplicit false

/-!
# Frames left behind by the entry points

An entry point opens a frame with return address 0. Calls made by the bytecode
have other return addresses, so the frame stays until its own return, which is
the top-level one: a run that ends in any other way leaves it on the stack.
-/
namespace Sandstar.Svm

open Sandstar.Effects

section Calm

def Op.Calm : Op → Prop
  | .unwind => False
  | .enter _ _ _ returnPc => returnPc ≠ 0
  | _ => True

variable {R : Unit → Prop}

theorem dataAddr_calm {base : ℕ} {offset : ℤ} {R : ℕ → Prop} (hR : ∀ a, R a) :
    Prog.All Op.Calm R (dataAddr base offset) := by
  simp [dataAddr, Op.Calm, hR]

theorem checked_calm {n : ℕ} {R : ℕ → Prop} (hR : ∀ a, R a) : Prog.All Op.Calm R (checked n) := by
  simp [checked, Op.Calm, hR]

theorem peekParams_calm {n : ℕ} {R : List Cell → Prop} (hR : ∀ vs, R vs) :
    Prog.All Op.Calm R (peekParams n) := by
  induction n generalizing R with
  | zero => exact hR []
  | succ n ih => exact Prog.all_bind.2 (all_peek.2 ⟨trivial, fun v => Prog.all_bind.2 (ih fun _ => hR _)⟩)

theorem popParams_calm {n : ℕ} (hR : R ()) : Prog.All Op.Calm R (popParams n) := by
  induction n with
  | zero => exact hR
  | succ n ih => exact Prog.all_bind.2 (all_pop.2 ⟨trivial, fun _ => ih⟩)

theorem nativeResult_calm {α : Type} {o : Except VmError α} {R : α → Prop} (hR : ∀ a, R a) :
    Prog.All Op.Calm R (nativeResult o) := by
  cases o with
  | ok a => exact hR a
  | error e => exact all_fail.2 trivial

theorem initRefs_calm {refs objs elemSize n i : ℕ} (hR : R ()) :
    Prog.All Op.Calm R (initRefs refs objs elemSize n i) := by
  induction n generalizing i with
  | zero => exact hR
  | succ n ih =>
    have hstore : ∀ refAddr objAddr, Prog.All Op.Calm (fun _ => Prog.All Op.Calm R
        (initRefs refs objs elemSize n (i + 1))) (setData 4 refAddr 0 (BitVec.ofNat 32 objAddr)) :=
      fun _ _ => Prog.all_bind.2 (dataAddr_calm fun _ => all_store.2 ⟨trivial, ih⟩)
    exact Prog.all_bind.2 (checked_calm fun _ => Prog.all_bind.2 (checked_calm fun _ =>
      Prog.all_bind.2 (checked_calm fun _ => Prog.all_bind.2 (checked_calm fun _ =>
        Prog.all_bind.2 (hstore _ _)))))

theorem exec_calm (natives : Natives) (blockSize pc : ℕ) (opByte : Byte) {i : Instr}
    (hi : i ≠ .returnPop ∧ i ≠ .returnPopWide ∧ i ≠ .returnVoid) :
    Prog.All Op.Calm (fun r => r = .continue) (exec natives blockSize pc opByte i) := by
  obtain ⟨hpop, hwide, hvoid⟩ := hi
  cases i <;> first
    | exact absurd rfl hpop
    | exact absurd rfl hwide
    | exact absurd rfl hvoid
    | simp [exec, Op.Calm, pushRef, popRef, pushI64, popI64, getSlotWide, setSlotWide, getData, setData,
        elemAddr, branch, doCall, nativeOperands, dataAddr_calm, checked_calm, peekParams_calm,
        popParams_calm, nativeResult_calm, initRefs_calm]

end Calm

section Above

/-- The frames of the entry point and below it are `base`; those above belong
    to calls of the bytecode. -/
def Vm.Above (base : List CallFrame) (s : Vm) : Prop :=
  ∃ calls, s.frames = calls ++ base ∧ ∀ f ∈ calls, f.returnPc ≠ 0

theorem Vm.Above.of_eq {base : List CallFrame} {s t : Vm} (hs : s.Above base)
    (hframes : t.frames = s.frames) : t.Above base := by
  obtain ⟨calls, hcalls, hreturn⟩ := hs
  exact ⟨calls, hframes.trans hcalls, hreturn⟩

theorem Vm.Above.cons {base : List CallFrame} {s t : Vm} {f : CallFrame} (hs : s.Above base)
    (hframes : t.frames = f :: s.frames) (hf : f.returnPc ≠ 0) : t.Above base := by
  obtain ⟨calls, hcalls, hreturn⟩ := hs
  refine ⟨f :: calls, by rw [hframes, hcalls, List.cons_append], ?_⟩
  intro g hg
  rcases List.mem_cons.1 hg with rfl | hg
  · exact hf
  · exact hreturn g hg

theorem Vm.Above.length {base : List CallFrame} {s : Vm} (hs : s.Above base) :
    base.length ≤ s.frames.length := by
  obtain ⟨calls, hcalls, -⟩ := hs
  rw [hcalls, List.length_append]
  exact Nat.le_add_left _ _

namespace Vm

theorem pushCells_frames (s : Vm) (vs : List Cell) : (s.pushCells vs).2.frames = s.frames := by
  induction vs generalizing s with
  | nil => rfl
  | cons v vs ih =>
    rw [pushCells]
    split
    · rfl
    · exact ih (s.write [v])

theorem pushFrame_frames (s : Vm) (f : CallFrame) :
    (s.pushFrame f).2.frames = s.frames ∨ (s.pushFrame f).2.frames = f :: s.frames := by
  unfold pushFrame
  split
  · exact Or.inl rfl
  · exact Or.inr rfl

theorem setupCallFrame_frames (s : Vm) (m : ℕ) (np nl : Byte) (r : ℕ) :
    (s.setupCallFrame m np nl r).2.frames = s.frames ∨
      ∃ f : CallFrame, f.returnPc = r ∧ (s.setupCallFrame m np nl r).2.frames = f :: s.frames := by
  let I : Vm → Prop := fun t =>
    t.frames = s.frames ∨ ∃ f : CallFrame, f.returnPc = r ∧ t.frames = f :: s.frames
  change I (s.setupCallFrame m np nl r).2
  apply andThen_state (I := fun t => t.frames = s.frames) (s.pushCells_frames _)
  · exact fun t ht => Or.inl ht
  · intro t ht
    have hframe : I (t.pushFrame ⟨r, t.sp - 3, np, nl⟩).2 := by
      have hcases := t.pushFrame_frames ⟨r, t.sp - 3, np, nl⟩
      rw [ht] at hcases
      exact hcases.imp id fun h => ⟨_, rfl, h⟩
    apply andThen_state hframe fun _ h => h
    intro u hu
    have hlocals : I (u.pushCells (List.replicate nl.toNat 0)).2 := by
      have heq := u.pushCells_frames (List.replicate nl.toNat 0)
      simp only [I, heq]
      exact hu
    exact andThen_state hlocals (fun _ h => h) fun _ h => h

theorem handle_frames {o : Op} (s : Vm) (henter : ∀ m np nl r, o ≠ .enter m np nl r)
    (hunwind : o ≠ .unwind) : (handle o s).2.frames = s.frames := by
  cases o <;> simp only [handle]
  case enter m np nl r => exact absurd rfl (henter m np nl r)
  case unwind => exact absurd rfl hunwind
  case countAssert passed =>
    unfold Vm.countAssert
    cases passed <;> simp only <;> split_ifs <;> rfl
  all_goals first | rfl | (split <;> first | rfl | (split <;> rfl))

end Vm

variable {base : List CallFrame}

theorem handle_above {o : Op} (ho : o.Calm) {s : Vm} (hs : s.Above base) :
    (Vm.handle o s).2.Above base := by
  by_cases henter : ∃ m np nl r, o = .enter m np nl r
  · obtain ⟨m, np, nl, r, rfl⟩ := henter
    rcases s.setupCallFrame_frames m np nl r with hsame | ⟨f, hf, hcons⟩
    · exact hs.of_eq hsame
    · exact hs.cons hcons (hf ▸ ho)
  · have hunwind : o ≠ .unwind := by
      rintro rfl
      exact ho
    exact hs.of_eq (s.handle_frames (fun m np nl r h => henter ⟨m, np, nl, r, h⟩) hunwind)

theorem post_calm {α : Type} {R : α → Prop} {p : Program α} (hp : Prog.All Op.Calm R p) {s : Vm}
    (hs : s.Above base) :
    Prog.Post Vm.handle (fun a t => R a ∧ t.Above base) (fun _ t => t.Above base) p s := by
  apply Prog.post_of_all _ hp hs
  intro o ho t ht
  have habove := handle_above ho ht
  apply Prog.post_perform.2
  revert habove
  rcases Vm.handle o t with ⟨_ | _, u⟩
  · exact id
  · exact id

/-- What a step does to the entry frame: it stays, unless the step is the
    top-level return, which takes it away. -/
def Vm.Ends (entry : CallFrame) (below : List CallFrame) (r : StepResult) (t : Vm) : Prop :=
  (r = .continue ∧ t.Above (entry :: below)) ∨
    (r ≠ .continue ∧ t.frames = below ∧ t.sp = entry.framePointer - entry.numParams.toNat)

variable {entry : CallFrame} {below : List CallFrame}

theorem post_unwind {s : Vm} {f : UnwindResult → Program StepResult}
    (hs : s.Above (entry :: below)) (hreturn : entry.returnPc = 0)
    (hparams : entry.numParams.toNat ≤ entry.framePointer)
    (htop : ∃ r, r ≠ .continue ∧ f .topLevel = pure r)
    (hcaller : Prog.All Op.Calm (fun r => r = .continue) (f .caller)) :
    Prog.Post Vm.handle (Vm.Ends entry below) (fun _ t => t.Above (entry :: below))
      (unwindFrame >>= f) s := by
  obtain ⟨calls, hframes, hcalls⟩ := hs
  apply Prog.post_bind.2
  apply (post_perform .unwind).2
  simp only [Vm.handle, Vm.unwindFrame]
  cases calls with
  | nil =>
    rw [List.nil_append] at hframes
    obtain ⟨r, hr, hpure⟩ := htop
    simp only [hframes, if_pos hparams, if_pos hreturn]
    apply Prog.settles_ok.2
    rw [hpure]
    exact Or.inr ⟨hr, rfl, rfl⟩
  | cons g gs =>
    rw [List.cons_append] at hframes
    have hg := hcalls g List.mem_cons_self
    have hgs : ∀ f ∈ gs, f.returnPc ≠ 0 := fun f hf => hcalls f (List.mem_cons_of_mem _ hf)
    simp only [hframes, if_neg hg]
    split
    · apply Prog.settles_ok.2
      apply (post_calm hcaller ⟨gs, rfl, hgs⟩).mono
      · intro r t ht
        exact Or.inl ht
      · intro _ _ h
        exact h
    · exact ⟨gs, rfl, hgs⟩

theorem exec_ends (natives : Natives) (blockSize pc : ℕ) (opByte : Byte) (i : Instr) {s : Vm}
    (hs : s.Above (entry :: below)) (hreturn : entry.returnPc = 0)
    (hparams : entry.numParams.toNat ≤ entry.framePointer) :
    Prog.Post Vm.handle (Vm.Ends entry below) (fun _ t => t.Above (entry :: below))
      (exec natives blockSize pc opByte i) s := by
  by_cases hi : i ≠ .returnPop ∧ i ≠ .returnPopWide ∧ i ≠ .returnVoid
  · apply (post_calm (exec_calm natives blockSize pc opByte hi) hs).mono
    · exact fun r t ht => Or.inl ht
    · exact fun _ _ h => h
  · have hcases : i = .returnPop ∨ i = .returnPopWide ∨ i = .returnVoid := by tauto
    rcases hcases with rfl | rfl | rfl
    · apply Prog.post_bind.2
      have hpop : Prog.All Op.Calm (fun _ => True) pop := by simp [Op.Calm]
      apply (post_calm hpop hs).mono _ fun _ _ h => h
      intro v t ht
      apply post_unwind ht.2 hreturn hparams ⟨.returnI32 v, nofun, rfl⟩
      simp [Op.Calm]
    · apply Prog.post_bind.2
      have hpop : Prog.All Op.Calm (fun _ => True) popI64 := by simp [popI64, Op.Calm]
      apply (post_calm hpop hs).mono _ fun _ _ h => h
      intro v t ht
      apply post_unwind ht.2 hreturn hparams ⟨.returnWide v, nofun, rfl⟩
      simp [pushI64, Op.Calm]
    · apply post_unwind hs hreturn hparams ⟨.returnVoid, nofun, rfl⟩
      exact rfl

theorem step_ends (natives : Natives) {s : Vm} (hs : s.Above (entry :: below))
    (hreturn : entry.returnPc = 0) (hparams : entry.numParams.toNat ≤ entry.framePointer) :
    Prog.Settles (Vm.Ends entry below) (fun _ t => t.Above (entry :: below)) (s.step natives) := by
  apply Prog.post_bind.2
  rw [post_code]
  split
  · exact hs
  · split
    · exact hs
    · exact exec_ends natives _ _ _ _ hs hreturn hparams

end Above

section Runs

variable (natives : Natives)

/-- Within `n` instructions the run comes to a top-level return. -/
inductive ReturnsIn : ℕ → Vm → Prop
  | here {n : ℕ} {s t : Vm} {r : StepResult} (hstep : s.step natives = (.ok r, t))
      (hr : r ≠ .continue) : ReturnsIn (n + 1) s
  | next {n : ℕ} {s t : Vm} (hstep : s.step natives = (.ok .continue, t))
      (htail : ReturnsIn n t) : ReturnsIn (n + 1) s

theorem not_returnsIn_of_error {n : ℕ} {s t : Vm} {e : Halt}
    (hstep : s.step natives = (.error e, t)) : ¬ReturnsIn natives n s := by
  intro h
  cases h with
  | here hok => exact absurd (hstep.symm.trans hok) (by simp)
  | next hok => exact absurd (hstep.symm.trans hok) (by simp)

theorem returnsIn_of_continue {n : ℕ} {s t : Vm} (hstep : s.step natives = (.ok .continue, t)) :
    ReturnsIn natives (n + 1) s ↔ ReturnsIn natives n t := by
  constructor
  · intro h
    cases h with
    | here hok hr =>
      have heq := hstep.symm.trans hok
      simp only [Prod.mk.injEq, Except.ok.injEq] at heq
      exact absurd heq.1.symm hr
    | next hok htail =>
      have heq := hstep.symm.trans hok
      simp only [Prod.mk.injEq, true_and] at heq
      exact heq ▸ htail
  · exact .next hstep

variable {entry : CallFrame} {below : List CallFrame}

def Closed (entry : CallFrame) (below : List CallFrame) (t : Vm) : Prop :=
  t.frames = below ∧ t.sp = entry.framePointer - entry.numParams.toNat

/-- A run loop that comes to the top-level return takes the entry frame away,
    one that does not leaves it. -/
theorem runLoop_ends (hreturn : entry.returnPc = 0)
    (hparams : entry.numParams.toNat ≤ entry.framePointer) (n : ℕ) {s : Vm}
    (hs : s.Above (entry :: below)) :
    (s.stopped = false ∧ ReturnsIn natives n s → Closed entry below (s.runLoop natives n).2) ∧
      (¬(s.stopped = false ∧ ReturnsIn natives n s) →
        (s.runLoop natives n).2.Above (entry :: below)) := by
  induction n generalizing s with
  | zero =>
    refine ⟨fun h => ?_, fun _ => hs⟩
    cases h.2
  | succ n ih =>
    rw [Vm.runLoop]
    cases hstopped : s.stopped with
    | true => exact ⟨fun h => absurd h.1 (by simp), fun _ => hs⟩
    | false =>
      have hends := step_ends natives hs hreturn hparams
      have hfixed := s.step_fixed natives
      simp only [Bool.false_eq_true, if_false, true_and]
      rcases hstep : s.step natives with ⟨e | r, t⟩
      · rw [hstep] at hends
        exact ⟨fun h => absurd h (not_returnsIn_of_error natives hstep), fun _ => hends⟩
      · rw [hstep] at hends hfixed
        rcases hends with ⟨rfl, habove⟩ | ⟨hr, hclosed⟩
        · have hrest := ih habove
          rw [hfixed.stopped, hstopped] at hrest
          simp only [true_and] at hrest
          rw [returnsIn_of_continue natives hstep]
          exact hrest
        · refine ⟨fun _ => ?_, fun h => absurd (.here hstep hr) h⟩
          cases r with
          | «continue» => exact absurd rfl hr
          | returnI32 v => exact hclosed
          | returnWide v => exact hclosed
          | returnVoid => exact hclosed

end Runs

section Entries

def Entry.args : Entry → List Cell
  | .withArgs _ args | .method _ args => args

/-- The entry point returns before it has pushed anything: the stack is full,
    or the header of the method is not there or asks for other arguments. -/
def Entry.Refused (s : Vm) : Entry → Prop
  | .withArgs _ _ => s.capacity ≤ s.sp
  | .method entryPoint args =>
    s.capacity ≤ s.sp ∨ s.codeAt 1 entryPoint = none ∨ s.codeAt 1 (entryPoint + 1) = none ∨
      ∃ numParams : Byte, s.codeAt 1 entryPoint = some numParams ∧ numParams.toNat ≠ args.length

/-- Arguments, frame and locals find room. -/
def Entry.Fits (s : Vm) : Entry → Prop
  | .withArgs _ args =>
    s.sp + args.length + 3 ≤ s.capacity ∧ s.frames.length < maxFrameDepth
  | .method entryPoint args =>
    (s.sp + args.length + 3 ≤ s.capacity ∧ s.frames.length < maxFrameDepth) ∧
      ∃ numParams numLocals : Byte, s.codeAt 1 entryPoint = some numParams ∧
        s.codeAt 1 (entryPoint + 1) = some numLocals ∧ numParams.toNat = args.length ∧
        s.sp + args.length + 3 + numLocals.toNat ≤ s.capacity

variable {s : Vm}

theorem pushCells_refused {v : Cell} {vs : List Cell} (hfull : s.capacity ≤ s.sp) :
    s.pushCells (v :: vs) = (.error (.error .stackOverflow), s) := by
  rw [Vm.pushCells, if_pos hfull]

theorem pushEntry_refused {entryPoint : ℕ} {args : List Cell} {np nl : Byte}
    (hfull : s.capacity ≤ s.sp) :
    s.pushEntry entryPoint args np nl = (.error (.error .stackOverflow), s) := by
  unfold Vm.pushEntry
  cases args with
  | nil =>
    rw [List.nil_append, pushCells_refused hfull]
    rfl
  | cons v vs =>
    rw [List.cons_append, pushCells_refused hfull]
    rfl

theorem pushFrame_full {f : CallFrame} (hdepth : maxFrameDepth ≤ s.frames.length) :
    s.pushFrame f = (.error (.error .stackOverflow), s) := if_pos hdepth

theorem pushFrame_ok {f : CallFrame} (hdepth : s.frames.length < maxFrameDepth) :
    s.pushFrame f = (.ok (), { s with frames := f :: s.frames }) := if_neg (by omega)

theorem pushEntry_fits {entryPoint : ℕ} {args : List Cell} {np nl : Byte}
    (hroom : s.sp + args.length + 3 ≤ s.capacity) (hdepth : s.frames.length < maxFrameDepth) :
    s.pushEntry entryPoint args np nl =
      (.ok (), { s.write (args ++ [0, 0, BitVec.ofNat 32 entryPoint]) with
        frames := ⟨0, s.sp + args.length, np, nl⟩ :: s.frames }) := by
  have hlength : (args ++ [0, 0, BitVec.ofNat 32 entryPoint]).length = args.length + 3 := by simp
  have hsp : (s.write (args ++ [0, 0, BitVec.ofNat 32 entryPoint])).sp - 3 = s.sp + args.length := by
    rw [Vm.write_sp, hlength]
    omega
  unfold Vm.pushEntry
  rw [Vm.pushCells_eq s _ (by omega), if_pos (by rw [hlength]; omega), Vm.andThen,
    pushFrame_ok (s := s.write _) hdepth, hsp, Vm.write_frames]

/-- Where there is some room but not enough, cells stay behind. -/
theorem pushEntry_overflows (entryPoint : ℕ) {args : List Cell} (np nl : Byte)
    (hsome : s.sp < s.capacity)
    (hfits : ¬(s.sp + args.length + 3 ≤ s.capacity ∧ s.frames.length < maxFrameDepth)) :
    ∃ e t, s.pushEntry entryPoint args np nl = (.error e, t) ∧ s.sp < t.sp := by
  have hlength : (args ++ [0, 0, BitVec.ofNat 32 entryPoint]).length = args.length + 3 := by simp
  unfold Vm.pushEntry
  rw [Vm.pushCells_eq s _ hsome.le, hlength]
  split
  · have hdepth : maxFrameDepth ≤ s.frames.length := by omega
    rw [Vm.andThen, pushFrame_full (s := s.write _) hdepth]
    refine ⟨_, _, rfl, ?_⟩
    rw [Vm.write_sp, hlength]
    omega
  · refine ⟨_, _, rfl, ?_⟩
    rw [Vm.write_sp, List.length_take, hlength]
    omega

theorem setup_method_eq {entryPoint : ℕ} {args : List Cell} {np nl : Byte}
    (hnp : s.codeAt 1 entryPoint = some np) (hnl : s.codeAt 1 (entryPoint + 1) = some nl)
    (harity : np.toNat = args.length) :
    (Entry.method entryPoint args).setup s =
      Vm.andThen (s.pushEntry entryPoint args np nl) fun t =>
      Vm.andThen (t.pushCells (List.replicate nl.toNat 0)) fun t =>
      (.ok (), { t with pc := entryPoint + 2 }) := by
  simp only [Entry.setup, hnp, hnl]
  exact if_neg (not_not.2 harity)

theorem setup_refused {e : Entry} (hrefused : e.Refused s) : ∃ err, e.setup s = (.error err, s) := by
  cases e with
  | withArgs entryPoint args =>
    rw [Entry.setup, pushEntry_refused hrefused]
    exact ⟨_, rfl⟩
  | method entryPoint args =>
    cases hnp : s.codeAt 1 entryPoint with
    | none =>
      simp only [Entry.setup, hnp]
      exact ⟨_, rfl⟩
    | some np =>
      cases hnl : s.codeAt 1 (entryPoint + 1) with
      | none =>
        simp only [Entry.setup, hnp, hnl]
        exact ⟨_, rfl⟩
      | some nl =>
        by_cases harity : np.toNat = args.length
        · simp only [Entry.Refused, hnp, hnl, reduceCtorEq, Option.some.injEq,
            exists_eq_left', harity, ne_eq, not_true_eq_false, or_false] at hrefused
          rw [setup_method_eq hnp hnl harity, pushEntry_refused hrefused]
          exact ⟨_, rfl⟩
        · simp only [Entry.setup, hnp, hnl]
          rw [if_pos harity]
          exact ⟨_, rfl⟩

theorem setup_fits {e : Entry} (hfits : e.Fits s) :
    ∃ t nl, e.setup s = (.ok (), t) ∧
      t.frames = ⟨0, s.sp + e.args.length, BitVec.ofNat 8 e.args.length, nl⟩ :: s.frames := by
  cases e with
  | withArgs entryPoint args =>
    rw [Entry.setup, pushEntry_fits hfits.1 hfits.2]
    exact ⟨_, 0, rfl, rfl⟩
  | method entryPoint args =>
    obtain ⟨⟨hroom, hdepth⟩, np, nl, hnp, hnl, harity, hlocals⟩ := hfits
    have hbyte : BitVec.ofNat 8 args.length = np := by
      rw [← harity]
      exact BitVec.eq_of_toNat_eq (by rw [BitVec.toNat_ofNat]; exact Nat.mod_eq_of_lt np.isLt)
    have hlength : (args ++ [0, 0, BitVec.ofNat 32 entryPoint]).length = args.length + 3 := by simp
    rw [setup_method_eq hnp hnl harity, pushEntry_fits hroom hdepth, Vm.andThen,
      Vm.pushCells_eq _ _ (by simp; omega), if_pos (by simp; omega)]
    exact ⟨_, nl, rfl, by rw [← hbyte]; rfl⟩

theorem setup_overflows {e : Entry} (hrefused : ¬e.Refused s) (hfits : ¬e.Fits s) :
    ∃ err t, e.setup s = (.error err, t) ∧
      (s.sp < t.sp ∨ s.frames.length < t.frames.length) := by
  cases e with
  | withArgs entryPoint args =>
    obtain ⟨err, t, hpush, hsp⟩ := pushEntry_overflows entryPoint
      (BitVec.ofNat 8 args.length) 0 (Nat.lt_of_not_le hrefused) hfits
    rw [Entry.setup, hpush]
    exact ⟨err, t, rfl, Or.inl hsp⟩
  | method entryPoint args =>
    simp only [Entry.Refused, not_or] at hrefused
    obtain ⟨hroom, hheader, hlocals, harity⟩ := hrefused
    obtain ⟨np, hnp⟩ := Option.ne_none_iff_exists'.1 hheader
    obtain ⟨nl, hnl⟩ := Option.ne_none_iff_exists'.1 hlocals
    have heq : np.toNat = args.length := by
      by_contra hne
      exact harity ⟨np, hnp, hne⟩
    rw [setup_method_eq hnp hnl heq]
    by_cases hframe : s.sp + args.length + 3 ≤ s.capacity ∧ s.frames.length < maxFrameDepth
    · have hfull : ¬s.sp + args.length + 3 + nl.toNat ≤ s.capacity := by
        intro h
        exact hfits ⟨hframe, np, nl, hnp, hnl, heq, h⟩
      rw [pushEntry_fits hframe.1 hframe.2, Vm.andThen, Vm.pushCells_eq _ _ (by simp; omega),
        if_neg (by simp; omega)]
      exact ⟨_, _, rfl, Or.inr (Nat.lt_succ_self _)⟩
    · obtain ⟨err, t, hpush, hsp⟩ := pushEntry_overflows entryPoint np nl
        (Nat.lt_of_not_le hroom) hframe
      rw [hpush]
      exact ⟨err, t, rfl, Or.inl hsp⟩

end Entries

section Balance

variable (natives : Natives)

/-- Stack pointer and frame depth are as they were. -/
def Balanced (s t : Vm) : Prop := t.sp = s.sp ∧ t.frames.length = s.frames.length

/-- The calls that leave the machine balanced: refused before anything is
    pushed, or with fewer than 256 arguments that find room, on a machine that
    is not stopped and whose bytecode comes to its top-level return in time. -/
def Entry.Balances (s : Vm) (e : Entry) : Prop :=
  e.Refused s ∨
    (e.Fits s ∧ e.args.length < 256 ∧ s.stopped = false ∧
      ReturnsIn natives maxInstructions (e.setup s).2)

variable {s : Vm} {e : Entry}

/-- A call that finds room is balanced exactly when it returns, and gave back
    as many cells as it took. -/
theorem balanced_iff_of_fits (hfits : e.Fits s) :
    Balanced s (s.enter natives e).2 ↔
      e.args.length < 256 ∧ s.stopped = false ∧
        ReturnsIn natives maxInstructions (e.setup s).2 := by
  obtain ⟨t, nl, hsetup, hframes⟩ := setup_fits hfits
  have hstopped : t.stopped = s.stopped := by
    have hfixed := s.setup_fixed e
    rw [hsetup] at hfixed
    exact hfixed.stopped
  have hmod : (BitVec.ofNat 8 e.args.length).toNat = e.args.length % 256 := BitVec.toNat_ofNat ..
  have hparams : (BitVec.ofNat 8 e.args.length).toNat ≤ s.sp + e.args.length := by
    rw [hmod]
    exact (Nat.mod_le _ _).trans (Nat.le_add_left _ _)
  obtain ⟨hclosed, habove⟩ := @runLoop_ends natives
    ⟨0, s.sp + e.args.length, BitVec.ofNat 8 e.args.length, nl⟩ s.frames rfl hparams
    maxInstructions t ⟨[], hframes, nofun⟩
  have henter : s.enter natives e = t.runLoop natives maxInstructions := by
    unfold Vm.enter
    rw [hsetup, Vm.andThen]
  rw [henter, hsetup, ← hstopped]
  constructor
  · intro hbalanced
    by_cases hreturns : t.stopped = false ∧ ReturnsIn natives maxInstructions t
    · have hsp : _ = s.sp + e.args.length - (BitVec.ofNat 8 e.args.length).toNat :=
        (hclosed hreturns).2
      rw [hbalanced.1, hmod] at hsp
      exact ⟨by omega, hreturns⟩
    · have hlength := (habove hreturns).length
      rw [hbalanced.2, List.length_cons] at hlength
      omega
  · rintro ⟨hargs, hreturns⟩
    obtain ⟨hbelow, hsp⟩ := hclosed hreturns
    refine ⟨?_, by rw [hbelow]⟩
    rw [hsp]
    change s.sp + e.args.length - (BitVec.ofNat 8 e.args.length).toNat = s.sp
    rw [hmod]
    omega

theorem enter_balanced_iff : Balanced s (s.enter natives e).2 ↔ e.Balances natives s := by
  by_cases hrefused : e.Refused s
  · obtain ⟨err, hsetup⟩ := setup_refused hrefused
    have henter : s.enter natives e = (.error err, s) := by
      unfold Vm.enter
      rw [hsetup, Vm.andThen]
    rw [henter]
    exact ⟨fun _ => Or.inl hrefused, fun _ => ⟨rfl, rfl⟩⟩
  · by_cases hfits : e.Fits s
    · rw [balanced_iff_of_fits natives hfits]
      exact ⟨fun h => Or.inr ⟨hfits, h⟩, fun h => (h.resolve_left hrefused).2⟩
    · obtain ⟨err, t, hsetup, hmore⟩ := setup_overflows hrefused hfits
      have henter : s.enter natives e = (.error err, t) := by
        unfold Vm.enter
        rw [hsetup, Vm.andThen]
      rw [henter]
      constructor
      · rintro ⟨hsp, hframes⟩
        simp only at hsp hframes
        omega
      · rintro (h | h)
        · exact absurd h hrefused
        · exact absurd h.1 hfits

/-- A well-behaved call of a machine with room succeeds. -/
theorem enter_ok (hfits : e.Fits s) (hstopped : s.stopped = false)
    (hreturns : ReturnsIn natives maxInstructions (e.setup s).2) :
    ∃ v, (s.enter natives e).1 = .ok v := by
  obtain ⟨t, nl, hsetup, -⟩ := setup_fits hfits
  have hfixed := s.setup_fixed e
  rw [hsetup] at hfixed hreturns
  have hrun : ∀ n (t : Vm), t.stopped = false → ReturnsIn natives n t →
      ∃ v, (t.runLoop natives n).1 = .ok v := by
    intro n t hstopped hreturns
    induction hreturns with
    | @here n s t r hstep hr =>
      rw [Vm.runLoop, hstopped, hstep]
      cases r with
      | «continue» => exact absurd rfl hr
      | returnI32 v => exact ⟨v, rfl⟩
      | returnWide v => exact ⟨0, rfl⟩
      | returnVoid => exact ⟨0, rfl⟩
    | @next n s t hstep _ ih =>
      have hlater := s.step_fixed natives
      rw [hstep] at hlater
      rw [Vm.runLoop, hstopped, hstep]
      exact ih (hlater.stopped.trans hstopped)
  unfold Vm.enter
  rw [hsetup, Vm.andThen]
  exact hrun _ t (hfixed.stopped.trans hstopped) hreturns

theorem Entry.Fits.of_balanced {t : Vm} (hfits : e.Fits s) (hfixed : Vm.Fixed s t)
    (hbalanced : Balanced s t) : e.Fits t := by
  have hcode : ∀ w a, t.codeAt w a = s.codeAt w a := by
    intro w a
    unfold Vm.codeAt
    rw [hfixed.code]
  cases e with
  | withArgs entryPoint args =>
    simp only [Entry.Fits] at hfits ⊢
    rw [hbalanced.1, hbalanced.2, hfixed.capacity]
    exact hfits
  | method entryPoint args =>
    simp only [Entry.Fits, hcode] at hfits ⊢
    rw [hbalanced.1, hbalanced.2, hfixed.capacity]
    exact hfits

theorem enter_fixed (s : Vm) (e : Entry) : Vm.Fixed s (s.enter natives e).2 := by
  have hloop : ∀ n (t : Vm), Vm.Fixed t (t.runLoop natives n).2 := by
    intro n
    induction n with
    | zero => exact fun t => Vm.Fixed.refl t
    | succ n ih =>
      intro t
      have hstep := t.step_fixed natives
      rw [Vm.runLoop]
      split
      · exact Vm.Fixed.refl t
      · revert hstep
        rcases t.step natives with ⟨_ | _ | _ | _ | _, u⟩
        · exact id
        · exact fun h => h.trans (ih u)
        · exact id
        · exact id
        · exact id
  exact Vm.andThen_fixed (s.setup_fixed e) fun t => hloop _ t

def Vm.after (s : Vm) (e : Entry) : Vm := (s.enter natives e).2

/-- A call leaves the machine balanced exactly when it is refused outright or
    comes to its top-level return; and through any number of such calls the
    machine stays balanced and a well-behaved call still succeeds. -/
theorem calls_balanced_iff :
    (∀ (s : Vm) (e : Entry), Balanced s (s.enter natives e).2 ↔ e.Balances natives s) ∧
    (∀ (s : Vm) (es : List Entry),
      Runs.Along (Vm.after natives) (fun s e => e.Balances natives s) s es →
      ∀ t ∈ Runs.states (Vm.after natives) s es, Balanced s t ∧
        ∀ e : Entry, e.Fits s → s.stopped = false →
          ReturnsIn natives maxInstructions (e.setup t).2 → ∃ v, (t.enter natives e).1 = .ok v) := by
  refine ⟨fun s e => enter_balanced_iff natives, ?_⟩
  intro s es halong t ht
  have hinvariant : ∀ u e, Balanced s u ∧ Vm.Fixed s u → e.Balances natives u →
      Balanced s (u.after natives e) ∧ Vm.Fixed s (u.after natives e) := by
    intro u e hu he
    obtain ⟨hsp, hframes⟩ := (enter_balanced_iff natives).2 he
    exact ⟨⟨hsp.trans hu.1.1, hframes.trans hu.1.2⟩, hu.2.trans (enter_fixed natives u e)⟩
  obtain ⟨hbalanced, hfixed⟩ :=
    Runs.states_invariant _ hinvariant ⟨⟨rfl, rfl⟩, Vm.Fixed.refl s⟩ halong t ht
  refine ⟨hbalanced, ?_⟩
  intro e hfits hstopped hreturns
  exact enter_ok natives (hfits.of_balanced hfixed hbalanced) (hfixed.stopped.trans hstopped) hreturns

/-- A machine whose code at 0 is no instruction, with a `ReturnVoid` at 1. -/
def faulty : Vm := .new [240, 226] [] 4

theorem calls_balanced_return :
    Balanced faulty (faulty.execute .stubs 1).2 := by
  apply ((calls_balanced_iff .stubs).1 faulty (.withArgs 1 [])).2
  refine Or.inr ⟨⟨by decide, by decide⟩, by decide, rfl, ?_⟩
  exact @ReturnsIn.here .stubs 9999999 _ _ .returnVoid rfl nofun

end Balance

section Starvation

variable {s : Vm}

theorem runLoop_of_error (natives : Natives) {n : ℕ} {e : Halt} {t : Vm} (hstopped : s.stopped = false)
    (hstep : s.step natives = (.error e, t)) : s.runLoop natives (n + 1) = (.error e, t) := by
  rw [Vm.runLoop, hstopped, hstep]
  rfl

/-- A call whose first byte is no opcode fails with its frame open. -/
theorem after_invalid (natives : Natives) {entryPoint : ℕ} {byte : Byte}
    (hbyte : s.codeAt 1 entryPoint = some byte) (hop : Opcode.tryFrom byte = none)
    (hstopped : s.stopped = false) (hroom : s.sp + 3 ≤ s.capacity)
    (hdepth : s.frames.length < maxFrameDepth) :
    (s.after natives (.withArgs entryPoint [])).sp = s.sp + 3 ∧
      (s.after natives (.withArgs entryPoint [])).frames.length = s.frames.length + 1 := by
  let t : Vm := { s.write [0, 0, BitVec.ofNat 32 entryPoint] with
    frames := ⟨0, s.sp, 0, 0⟩ :: s.frames, pc := entryPoint }
  have hsetup : (Entry.withArgs entryPoint []).setup s = (.ok (), t) := by
    have hpush := @pushEntry_fits s entryPoint [] 0 0 hroom hdepth
    rw [Entry.setup]
    change Vm.andThen (s.pushEntry entryPoint [] 0 0) _ = _
    rw [hpush]
    rfl
  have hloop : t.runLoop natives maxInstructions = (.error (.error (.invalidOpcode byte)), t) :=
    @runLoop_of_error t natives 9999999 _ _ hstopped (step_invalid natives hbyte hop)
  unfold Vm.after Vm.enter
  rw [hsetup, Vm.andThen, hloop]
  exact ⟨rfl, rfl⟩

/-- The machine after `n` calls that fail. -/
def faultyAfter (n : ℕ) : Vm := (fun s => s.after .stubs (.withArgs 0 []))^[n] faulty

theorem faultyAfter_size {n : ℕ} (hn : n ≤ maxFrameDepth) :
    Vm.Fixed faulty (faultyAfter n) ∧ (faultyAfter n).sp = 3 * n ∧
      (faultyAfter n).frames.length = n := by
  induction n with
  | zero => exact ⟨Vm.Fixed.refl _, rfl, rfl⟩
  | succ n ih =>
    obtain ⟨hfixed, hsp, hframes⟩ := ih (by omega)
    have hcode : (faultyAfter n).codeAt 1 0 = some 240 := by
      unfold Vm.codeAt
      rw [hfixed.code]
      rfl
    have hcapacity : (faultyAfter n).capacity = 4096 := hfixed.capacity
    unfold maxFrameDepth at hn
    have hnext : faultyAfter (n + 1) = (faultyAfter n).after .stubs (.withArgs 0 []) :=
      Function.iterate_succ_apply' _ _ _
    obtain ⟨hsp', hframes'⟩ := after_invalid .stubs hcode (by decide) hfixed.stopped
      (by omega) (by unfold maxFrameDepth; omega)
    rw [hnext]
    refine ⟨hfixed.trans (enter_fixed .stubs _ _), ?_, ?_⟩
    · rw [hsp', hsp]
      omega
    · rw [hframes', hframes]

theorem failed_calls_starve :
    ¬Balanced faulty (faulty.execute .stubs 0).2 ∧
      (faulty.execute .stubs 1).1 = .ok 0 ∧
      ((faultyAfter maxFrameDepth).execute .stubs 1).1 = .error (.error .stackOverflow) := by
  obtain ⟨-, hsp, hframes⟩ := @faultyAfter_size 1 (by decide)
  obtain ⟨hfixed, hspFull, hframesFull⟩ := @faultyAfter_size maxFrameDepth le_rfl
  refine ⟨?_, ?_, ?_⟩
  · intro hbalanced
    exact absurd (hsp.symm.trans hbalanced.1) (by decide)
  · decide +kernel
  · have hcapacity : (faultyAfter maxFrameDepth).capacity = 4096 := hfixed.capacity
    unfold Vm.execute Vm.executeWithArgs Vm.enter
    rw [Entry.setup, Vm.pushEntry, Vm.pushCells_eq _ _ (by rw [hspFull, hcapacity]; decide),
      if_pos (by rw [hspFull, hcapacity]; decide), Vm.andThen, pushFrame_full]
    · rfl
    · rw [Vm.write_frames, hframesFull]

end Starvation

end Sandstar.Svm
