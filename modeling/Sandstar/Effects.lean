import Mathlib

set_option autoImplicit false

/-!
# Programs over a signature of operations

A program is a finite tree of operations; a handler gives each operation its
effect on a state, or stops the program. Facts about every operation are lifted
to whole programs here: along all paths (`All`), along the path a run takes
(`Along`), as postconditions (`Post`), and between two runs of one program.
-/
namespace Sandstar.Effects

structure Signature where
  Op : Type
  /-- What an operation answers. -/
  Res : Op → Type

inductive Prog (sig : Signature) (α : Type) : Type
  | ret (a : α)
  | op (o : sig.Op) (k : sig.Res o → Prog sig α)

abbrev Handler (sig : Signature) (S E : Type) : Type :=
  (o : sig.Op) → S → Except E (sig.Res o) × S

namespace Prog

variable {sig : Signature} {α β S E : Type}

def bind : Prog sig α → (α → Prog sig β) → Prog sig β
  | .ret a, f => f a
  | .op o k, f => .op o fun r => (k r).bind f

instance : Monad (Prog sig) where
  pure := .ret
  bind := bind

def perform (o : sig.Op) : Prog sig (sig.Res o) := .op o .ret

@[simp] theorem pure_eq (a : α) : (pure a : Prog sig α) = .ret a := rfl

@[simp] theorem ret_bind (a : α) (f : α → Prog sig β) : (Prog.ret a >>= f) = f a := rfl

@[simp] theorem op_bind (o : sig.Op) (k : sig.Res o → Prog sig α) (f : α → Prog sig β) :
    (Prog.op o k >>= f) = .op o fun r => k r >>= f := rfl

/-- The answer of a program, and the state it leaves, also where it stops. -/
def run (h : Handler sig S E) : Prog sig α → S → Except E α × S
  | .ret a, s => (.ok a, s)
  | .op o k, s =>
    match h o s with
    | (.ok r, t) => run h (k r) t
    | (.error e, t) => (.error e, t)

theorem run_bind (h : Handler sig S E) (p : Prog sig α) (f : α → Prog sig β) (s : S) :
    run h (p >>= f) s =
      match run h p s with
      | (.ok a, t) => run h (f a) t
      | (.error e, t) => (.error e, t) := by
  induction p generalizing s with
  | ret a => rfl
  | op o k ih =>
    rw [op_bind, run, run]
    rcases h o s with ⟨_ | r, t⟩
    · rfl
    · exact ih r t

section Paths

variable (K : sig.Op → Prop)

/-- On every path the operations meet `K` and the answer meets `R`. -/
def All (R : α → Prop) : Prog sig α → Prop
  | .ret a => R a
  | .op o k => K o ∧ ∀ r, All R (k r)

variable {K}

@[simp] theorem all_ret {R : α → Prop} {a : α} : All K R (.ret a : Prog sig α) ↔ R a := Iff.rfl

theorem all_op {R : α → Prop} {o : sig.Op} {k : sig.Res o → Prog sig α} :
    All K R (.op o k) ↔ K o ∧ ∀ r, All K R (k r) := Iff.rfl

@[simp] theorem all_perform {o : sig.Op} {R : sig.Res o → Prop} :
    All K R (perform o) ↔ K o ∧ ∀ r, R r := Iff.rfl

@[simp] theorem all_bind {R : β → Prop} {p : Prog sig α} {f : α → Prog sig β} :
    All K R (p >>= f) ↔ All K (fun a => All K R (f a)) p := by
  induction p with
  | ret a => exact Iff.rfl
  | op o k ih =>
    rw [op_bind, all_op, all_op]
    exact and_congr_right fun _ => forall_congr' ih

end Paths

/-- An outcome meets `Q` where it is an answer and `X` where it is a stop. -/
def Settles (Q : α → S → Prop) (X : E → S → Prop) : Except E α × S → Prop
  | (.ok a, t) => Q a t
  | (.error e, t) => X e t

@[simp] theorem settles_ok {Q : α → S → Prop} {X : E → S → Prop} {a : α} {t : S} :
    Settles Q X (.ok a, t) ↔ Q a t := Iff.rfl

@[simp] theorem settles_error {Q : α → S → Prop} {X : E → S → Prop} {e : E} {t : S} :
    Settles Q X (.error e, t) ↔ X e t := Iff.rfl

theorem Settles.mono {Q Q' : α → S → Prop} {X X' : E → S → Prop} {o : Except E α × S}
    (ho : Settles Q X o) (hQ : ∀ a t, Q a t → Q' a t) (hX : ∀ e t, X e t → X' e t) :
    Settles Q' X' o := by
  rcases o with ⟨_ | _, _⟩
  · exact hX _ _ ho
  · exact hQ _ _ ho

section Posts

variable (h : Handler sig S E)

def Post (Q : α → S → Prop) (X : E → S → Prop) (p : Prog sig α) (s : S) : Prop :=
  Settles Q X (run h p s)

variable {h} {Q : α → S → Prop} {X : E → S → Prop}

@[simp] theorem post_ret {a : α} {s : S} : Post h Q X (.ret a) s ↔ Q a s := Iff.rfl

theorem post_op {o : sig.Op} {k : sig.Res o → Prog sig α} {s : S} :
    Post h Q X (.op o k) s ↔ Settles (fun r t => Post h Q X (k r) t) X (h o s) := by
  unfold Post
  rw [run]
  rcases h o s with ⟨_ | _, _⟩ <;> exact Iff.rfl

theorem post_perform {o : sig.Op} {R : sig.Res o → S → Prop} {s : S} :
    Post h R X (perform o) s ↔ Settles R X (h o s) := post_op

@[simp] theorem post_bind {R : β → S → Prop} {p : Prog sig α} {f : α → Prog sig β} {s : S} :
    Post h R X (p >>= f) s ↔ Post h (fun a t => Post h R X (f a) t) X p s := by
  induction p generalizing s with
  | ret a => exact Iff.rfl
  | op o k ih =>
    rw [op_bind, post_op, post_op]
    rcases h o s with ⟨_ | _, _⟩
    · exact Iff.rfl
    · exact ih _

theorem Post.mono {Q' : α → S → Prop} {X' : E → S → Prop} {p : Prog sig α} {s : S}
    (hp : Post h Q X p s) (hQ : ∀ a t, Q a t → Q' a t) (hX : ∀ e t, X e t → X' e t) :
    Post h Q' X' p s := Settles.mono hp hQ hX

/-- Operations that keep an invariant, and stop only as allowed, make up
    programs that do. -/
theorem post_of_all {K : sig.Op → Prop} {R : α → Prop} {I : S → Prop} {p : Prog sig α} {s : S}
    (hop : ∀ o, K o → ∀ s, I s → Post h (fun _ t => I t) X (perform o) s)
    (hp : All K R p) (hs : I s) : Post h (fun a t => R a ∧ I t) X p s := by
  induction p generalizing s with
  | ret a => exact ⟨hp, hs⟩
  | op o k ih =>
    rw [post_op]
    exact (post_perform.1 (hop o hp.1 s hs)).mono (fun r t ht => ih r (hp.2 r) ht) fun _ _ hX => hX

end Posts

theorem run_state {h : Handler sig S E} {I : S → Prop} (hop : ∀ o s, I s → I (h o s).2)
    {p : Prog sig α} {s : S} (hs : I s) : I (run h p s).2 := by
  induction p generalizing s with
  | ret a => exact hs
  | op o k ih =>
    have hstep := hop o s hs
    rw [run]
    revert hstep
    rcases h o s with ⟨_ | r, t⟩
    · exact id
    · exact fun ht => ih r ht

section Runs

variable (h : Handler sig S E)

/-- Every operation the run executes meets `K` in the state it finds. -/
def Along (K : sig.Op → S → Prop) : Prog sig α → S → Prop
  | .ret _, _ => True
  | .op o k, s => K o s ∧ Settles (fun r t => Along K (k r) t) (fun _ _ => True) (h o s)

variable {h}

theorem along_op {K : sig.Op → S → Prop} {o : sig.Op} {k : sig.Res o → Prog sig α} {s : S} :
    Along h K (.op o k) s ↔
      K o s ∧ Settles (fun r t => Along h K (k r) t) (fun _ _ => True) (h o s) := by
  rw [Along]

theorem along_bind {K : sig.Op → S → Prop} {p : Prog sig α} {f : α → Prog sig β} {s : S} :
    Along h K (p >>= f) s ↔
      Along h K p s ∧ Post h (fun a t => Along h K (f a) t) (fun _ _ => True) p s := by
  induction p generalizing s with
  | ret a => simp [Along]
  | op o k ih =>
    rw [op_bind, along_op, along_op, post_op, and_assoc]
    rcases h o s with ⟨_ | _, _⟩
    · simp [Settles]
    · exact and_congr_right fun _ => ih _

theorem Along.mono {K K' : sig.Op → S → Prop} {p : Prog sig α} {s : S} (halong : Along h K p s)
    (hK : ∀ o t, K o t → K' o t) : Along h K' p s := by
  induction p generalizing s with
  | ret a => exact trivial
  | op o k ih =>
    rw [along_op] at halong ⊢
    exact ⟨hK o s halong.1, halong.2.mono (fun r t ht => ih r ht) fun _ _ h => h⟩

theorem Along.and_all {K : sig.Op → S → Prop} {K' : sig.Op → Prop} {R : α → Prop}
    {p : Prog sig α} {s : S} (halong : Along h K p s) (hall : All K' R p) :
    Along h (fun o t => K o t ∧ K' o) p s := by
  induction p generalizing s with
  | ret a => exact trivial
  | op o k ih =>
    rw [along_op] at halong ⊢
    refine ⟨⟨halong.1, hall.1⟩, ?_⟩
    exact halong.2.mono (fun r t ht => ih r ht (hall.2 r)) fun _ _ h => h

/-- An invariant of the operations that meet `K` holds after a run of such operations. -/
theorem post_of_along {K : sig.Op → S → Prop} {I : S → Prop} {X : E → S → Prop}
    {p : Prog sig α} {s : S} (hop : ∀ o s, I s → K o s → Settles (fun _ t => I t) X (h o s))
    (hs : I s) (halong : Along h K p s) : Post h (fun _ t => I t) X p s := by
  induction p generalizing s with
  | ret a => exact hs
  | op o k ih =>
    rw [along_op] at halong
    have hstep := hop o s hs halong.1
    have hrest := halong.2
    rw [post_op]
    revert hstep hrest
    rcases h o s with ⟨e | r, t⟩
    · exact fun hX _ => hX
    · exact fun ht hrest => ih r ht hrest

/-- Two runs of one program: where each operation the first run executes is
    answered alike from related states, so is the program. -/
theorem run_related {S' : Type} {h' : Handler sig S' E} {R : S → S' → Prop}
    {K : sig.Op → S → Prop}
    (hop : ∀ o s s', R s s' → K o s → (h' o s').1 = (h o s).1 ∧ R (h o s).2 (h' o s').2)
    {p : Prog sig α} {s : S} {s' : S'} (hR : R s s') (halong : Along h K p s) :
    (run h' p s').1 = (run h p s).1 ∧ R (run h p s).2 (run h' p s').2 := by
  induction p generalizing s s' with
  | ret b => exact ⟨rfl, hR⟩
  | op o k ih =>
    rw [along_op] at halong
    obtain ⟨hanswer, hstates⟩ := hop o s s' hR halong.1
    have hrest := halong.2
    rw [run, run]
    revert hanswer hstates hrest
    rcases h o s with ⟨e | r, t⟩ <;> rcases h' o s' with ⟨e' | r', t'⟩
    · intro hanswer hstates _
      cases hanswer
      exact ⟨rfl, hstates⟩
    · intro hanswer
      cases hanswer
    · intro hanswer
      cases hanswer
    · intro hanswer hstates hrest
      cases hanswer
      exact ih r hstates hrest

end Runs

end Prog

end Sandstar.Effects
