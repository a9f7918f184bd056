import Mathlib

set_option autoImplicit false

/-!
# Reading back what was written

A reader takes a value off the front of a list of tokens or fails. `Reads p ts a` says
that `p` takes exactly the tokens `ts` and makes `a` of them, whatever comes after; it
is built up along a writer that appends its parts one after the other.
-/
namespace Sandstar.Reading

abbrev Reader (T α : Type) : Type := StateT (List T) Option α

variable {T α β : Type}

def Reads (p : Reader T α) (ts : List T) (a : α) : Prop :=
  ∀ rest, p.run (ts ++ rest) = some (a, rest)

theorem reads_pure (a : α) : Reads (pure a : Reader T α) [] a := fun _ => rfl

theorem Reads.bind {p : Reader T α} {q : α → Reader T β} {ts us : List T} {a : α} {b : β}
    (hp : Reads p ts a) (hq : Reads (q a) us b) : Reads (p >>= q) (ts ++ us) b := by
  intro rest
  rw [StateT.run_bind, List.append_assoc, hp]
  exact hq rest

theorem Reads.map {p : Reader T α} {ts : List T} {a : α} (hp : Reads p ts a) (f : α → β) :
    Reads (f <$> p) ts (f a) := by
  intro rest
  rw [StateT.run_map, hp]
  rfl

/-- All tokens are taken. -/
theorem Reads.whole {p : Reader T α} {ts : List T} {a : α} (hp : Reads p ts a) :
    p.run ts = some (a, []) := by
  have h := hp []
  rwa [List.append_nil] at h

def many (p : Reader T α) : ℕ → Reader T (List α)
  | 0 => pure []
  | n + 1 => do
    let a ← p
    (a :: ·) <$> many p n

/-- A list up to the item that reads as its end, of fewer than the given number of items. -/
def manyUntil (p : Reader T (Option α)) : ℕ → Reader T (List α)
  | 0 => failure
  | n + 1 => do
    match ← p with
    | none => pure []
    | some a => (a :: ·) <$> manyUntil p n

theorem reads_many {p : Reader T α} {write : α → List T} (as : List α)
    (h : ∀ a ∈ as, Reads p (write a) a) : Reads (many p as.length) (as.flatMap write) as := by
  induction as with
  | nil => exact reads_pure []
  | cons a as ih =>
    have hrest := (ih fun b hb => h b (List.mem_cons_of_mem _ hb)).map fun bs => a :: bs
    have hall := (h a List.mem_cons_self).bind (q := fun a => (a :: ·) <$> many p as.length) hrest
    exact hall

theorem reads_manyUntil {p : Reader T (Option α)} {write : α → List T} {stop : List T}
    (as : List α) (h : ∀ a ∈ as, Reads p (write a) (some a)) (hstop : Reads p stop none) {n : ℕ}
    (hn : as.length < n) : Reads (manyUntil p n) (as.flatMap write ++ stop) as := by
  induction as generalizing n with
  | nil =>
    obtain ⟨n, rfl⟩ : ∃ k, n = k + 1 := ⟨n - 1, by simp at hn; omega⟩
    have hall := hstop.bind (q := fun o => match o with
      | none => (pure [] : Reader T (List α))
      | some a => (a :: ·) <$> manyUntil p n) (reads_pure [])
    rw [List.append_nil] at hall
    exact hall
  | cons a as ih =>
    rw [List.length_cons] at hn
    obtain ⟨n, rfl⟩ : ∃ k, n = k + 1 := ⟨n - 1, by omega⟩
    have hrest := (ih (fun b hb => h b (List.mem_cons_of_mem _ hb)) (n := n) (by omega)).map
      (fun bs => a :: bs)
    have hall := (h a List.mem_cons_self).bind (q := fun o => match o with
      | none => (pure [] : Reader T (List α))
      | some a => (a :: ·) <$> manyUntil p n) hrest
    rw [List.flatMap_cons, List.append_assoc]
    exact hall

end Sandstar.Reading
