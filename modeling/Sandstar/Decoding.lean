import Mathlib

set_option autoImplicit false

/-!
# Decoders over byte positions

A decoder returns a value, rejects its input, or ends in a way no decoder should:
an index or a slice outside the data, or a loop that is not done when its rounds
are used up. `Safe` is the postcondition of a decoder that never does; its rules
follow the constructs a decoder is made of. `At` names what is left of the data at
a position, for reading back what an encoder wrote.
-/
namespace Sandstar.Decoding

inductive Halt (E : Type)
  | reject (e : E)
  | panic
  | unfinished

abbrev Decoder (E α : Type) : Type := Except (Halt E) α

variable {E α β S : Type}

/-- `data[i]`. -/
def index (data : List α) (i : ℕ) : Decoder E α :=
  match data[i]? with
  | some a => .ok a
  | none => .error .panic

def suffix (data : List α) (i : ℕ) : Decoder E (List α) :=
  if i ≤ data.length then .ok (data.drop i) else .error .panic

/-- `&data[i..j]`. -/
def range (data : List α) (i j : ℕ) : Decoder E (List α) :=
  if i ≤ j ∧ j ≤ data.length then .ok ((data.drop i).take (j - i)) else .error .panic

def whileLoop (cond : S → Bool) (body : S → Decoder E S) : ℕ → S → Decoder E S
  | 0, s => if cond s then .error .unfinished else .ok s
  | rounds + 1, s => if cond s then body s >>= whileLoop cond body rounds else .ok s

@[simp] theorem ok_bind (a : α) (f : α → Decoder E β) : ((.ok a : Decoder E α) >>= f) = f a := rfl

/-- The decoder returns a value with the postcondition or rejects its input. -/
def Safe (x : Decoder E α) (post : α → Prop) : Prop :=
  match x with
  | .ok a => post a
  | .error (.reject _) => True
  | .error _ => False

section Rules

variable {x : Decoder E α} {post : α → Prop} {data : List α} {i j : ℕ}

theorem safe_reject {e : E} : Safe (.error (.reject e)) post := trivial

theorem Safe.mono {post' : α → Prop} (h : Safe x post) (himp : ∀ a, post a → post' a) :
    Safe x post' := by
  cases x with
  | ok a => exact himp a h
  | error e =>
    cases e with
    | reject e => trivial
    | panic => exact h
    | unfinished => exact h

theorem safe_bind {f : α → Decoder E β} {post' : β → Prop} (h : Safe x post)
    (hf : ∀ a, post a → Safe (f a) post') : Safe (x >>= f) post' := by
  cases x with
  | ok a => exact hf a h
  | error e =>
    cases e with
    | reject e => trivial
    | panic => exact h
    | unfinished => exact h

theorem safe_ite {c : Prop} [Decidable c] {y : Decoder E α} (hx : c → Safe x post)
    (hy : ¬c → Safe y post) : Safe (if c then x else y) post := by
  split
  · exact hx ‹_›
  · exact hy ‹_›

theorem safe_index (h : i < data.length) :
    Safe (E := E) (index data i) fun a => data[i]? = some a := by
  unfold index
  rw [List.getElem?_eq_getElem h]
  exact rfl

theorem safe_suffix (h : i ≤ data.length) :
    Safe (E := E) (suffix data i) fun rest => rest = data.drop i := by
  unfold suffix
  rw [if_pos h]
  exact rfl

theorem safe_range (hij : i ≤ j) (hj : j ≤ data.length) :
    Safe (E := E) (range data i j) fun part => part = (data.drop i).take (j - i) := by
  unfold range
  rw [if_pos ⟨hij, hj⟩]
  exact rfl

/-- A loop whose every round lowers a measure ends before its rounds are used up. -/
theorem safe_whileLoop {cond : S → Bool} {body : S → Decoder E S} (inv : S → Prop) (size : S → ℕ)
    (hbody : ∀ s, inv s → cond s = true → Safe (body s) fun s' => inv s' ∧ size s' < size s)
    {rounds : ℕ} {s : S} (hs : inv s) (hrounds : size s < rounds) :
    Safe (whileLoop cond body rounds s) fun s' => inv s' ∧ cond s' = false := by
  induction rounds generalizing s with
  | zero => exact absurd hrounds (Nat.not_lt_zero _)
  | succ rounds ih =>
    unfold whileLoop
    split
    · refine safe_bind (hbody s hs ‹_›) ?_
      rintro s' ⟨hs', hlt⟩
      exact ih hs' (by omega)
    · exact ⟨hs, by simpa using ‹¬cond s = true›⟩

theorem whileLoop_step {cond : S → Bool} {body : S → Decoder E S} {rounds : ℕ} {s s' : S}
    (hcond : cond s = true) (hbody : body s = .ok s') :
    whileLoop cond body (rounds + 1) s = whileLoop cond body rounds s' := by
  conv_lhs => unfold whileLoop
  rw [if_pos hcond, hbody]
  rfl

theorem whileLoop_done {cond : S → Bool} {body : S → Decoder E S} {rounds : ℕ} {s : S}
    (hcond : cond s = false) : whileLoop cond body rounds s = .ok s := by
  cases rounds with
  | zero => simp [whileLoop, hcond]
  | succ rounds => simp [whileLoop, hcond]

end Rules

def At (data : List α) (pos : ℕ) (rest : List α) : Prop := pos ≤ data.length ∧ data.drop pos = rest

section Reading

variable {data rest : List α} {pos : ℕ} {a : α}

theorem at_zero (data : List α) : At data 0 data := ⟨Nat.zero_le _, rfl⟩

theorem At.length (h : At data pos rest) : data.length = pos + rest.length := by
  obtain ⟨hpos, rfl⟩ := h
  rw [List.length_drop]
  omega

theorem At.skip {part : List α} (h : At data pos (part ++ rest)) :
    At data (pos + part.length) rest := by
  have hlength := h.length
  refine ⟨?_, ?_⟩
  · rw [hlength, List.length_append]
    omega
  · rw [← List.drop_drop, h.2, List.drop_left]

theorem At.next (h : At data pos (a :: rest)) : At data (pos + 1) rest := by
  have hskip : At data pos ([a] ++ rest) := h
  exact hskip.skip

theorem At.get? (h : At data pos rest) (i : ℕ) : data[pos + i]? = rest[i]? := by
  rw [← h.2, List.getElem?_drop]

theorem At.head? (h : At data pos (a :: rest)) : data[pos]? = some a := h.get? 0

theorem At.end? (h : At data pos []) : data[pos]? = none := h.get? 0

theorem At.index (h : At data pos rest) {i : ℕ} (ha : rest[i]? = some a) :
    Decoding.index (E := E) data (pos + i) = .ok a := by
  unfold Decoding.index
  rw [h.get? i, ha]

theorem At.suffix (h : At data pos rest) : Decoding.suffix (E := E) data pos = .ok rest := by
  unfold Decoding.suffix
  rw [if_pos h.1, h.2]

theorem At.range {part : List α} {i : ℕ} (h : At data pos (part ++ rest)) (hi : i = pos + part.length) :
    Decoding.range (E := E) data pos i = .ok part := by
  have hlength := h.length
  rw [List.length_append] at hlength
  unfold Decoding.range
  rw [if_pos ⟨by omega, by omega⟩, h.2, hi, Nat.add_sub_cancel_left, List.take_left]

/-- A loop that collects what a list of entries was written for. Each entry is
    followed by another one or by the tail, and the loop stops at the tail. -/
theorem whileLoop_entries {R T : Type} {data : List α} {cond : ℕ × List T → Bool}
    {body : ℕ × List T → Decoder E (ℕ × List T)} {enc : R → List α} {back : R → List T}
    (next : List α → Prop) (entries : List R)
    (hbody : ∀ r ∈ entries, ∀ pos acc rest, At data pos (enc r ++ rest) → next rest →
      cond (pos, acc) = true ∧ body (pos, acc) = .ok (pos + (enc r).length, acc ++ back r))
    (hnext : ∀ r ∈ entries, ∀ rest, next (enc r ++ rest)) {tail : List α} (htail : next tail)
    (hstop : ∀ pos acc, At data pos tail → cond (pos, acc) = false) {pos rounds : ℕ} {acc : List T}
    (hat : At data pos (entries.flatMap enc ++ tail)) (hrounds : entries.length ≤ rounds) :
    whileLoop cond body rounds (pos, acc) =
      .ok (pos + (entries.flatMap enc).length, acc ++ entries.flatMap back) := by
  induction entries generalizing pos acc rounds with
  | nil =>
    rw [whileLoop_done (hstop pos acc hat)]
    simp
  | cons r entries ih =>
    obtain ⟨k, rfl⟩ : ∃ k, rounds = k + 1 := ⟨rounds - 1, by simp at hrounds; omega⟩
    rw [List.flatMap_cons, List.append_assoc] at hat
    have hfollows : next (entries.flatMap enc ++ tail) := by
      cases entries with
      | nil => exact htail
      | cons r' entries =>
        rw [List.flatMap_cons, List.append_assoc]
        exact hnext r' (List.mem_cons_of_mem _ List.mem_cons_self) _
    obtain ⟨hcond, hround⟩ := hbody r List.mem_cons_self pos acc _ hat hfollows
    rw [whileLoop_step hcond hround,
      ih (fun r' hr' => hbody r' (List.mem_cons_of_mem _ hr'))
        (fun r' hr' => hnext r' (List.mem_cons_of_mem _ hr')) hat.skip (by simpa using hrounds)]
    simp [Nat.add_assoc]

end Reading

end Sandstar.Decoding
