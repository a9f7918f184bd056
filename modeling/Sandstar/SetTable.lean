import Sandstar.Table

set_option autoImplicit false

/-!
# Tables of sets

A map from keys to sets that drops a key with its last element. The pair of such
a table and the table of the converse relation is kept by adding to and dropping
from both.
-/
namespace Sandstar.SetTable

variable {A B : Type} [DecidableEq A]

def members (m : Table A (Finset B)) (a : A) : Finset B := (m.get a).getD ∅

def NoEmpty (m : Table A (Finset B)) : Prop := ∀ a s, m.get a = some s → s ≠ ∅

@[simp] theorem members_empty (a : A) : members (Table.empty : Table A (Finset B)) a = ∅ := rfl

theorem noEmpty_empty : NoEmpty (Table.empty : Table A (Finset B)) := by
  intro a s h
  cases h

theorem noEmpty_erase {m : Table A (Finset B)} (h : NoEmpty m) (a : A) : NoEmpty (m.erase a) := by
  intro a' s hs
  rw [Table.get_erase] at hs
  split_ifs at hs
  exact h a' s hs

/-- Without empty sets, a key is present exactly when it has a member. -/
theorem get_eq_none_iff {m : Table A (Finset B)} (h : NoEmpty m) (a : A) :
    m.get a = none ↔ members m a = ∅ := by
  unfold members
  cases hm : m.get a with
  | none => exact ⟨fun _ => rfl, fun _ => rfl⟩
  | some s =>
    constructor
    · intro hn
      cases hn
    · intro hs
      exact absurd hs (h a s hm)

theorem members_insert_members (m : Table A (Finset B)) (a a' : A) :
    members (m.insert a (members m a)) a' = members m a' := by
  unfold members
  rw [Table.get_insert]
  split_ifs with h
  · rw [h]
    rfl
  · rfl

variable [DecidableEq B]

def addTo (m : Table A (Finset B)) (a : A) (b : B) : Table A (Finset B) :=
  m.insert a (insert b (members m a))

def dropFrom (m : Table A (Finset B)) (a : A) (b : B) : Table A (Finset B) :=
  match m.get a with
  | none => m
  | some s => if s.erase b = ∅ then m.erase a else m.insert a (s.erase b)

/-- The two tables hold one relation, and no empty sets. -/
structure Converse (m : Table A (Finset B)) (m' : Table B (Finset A)) : Prop where
  mem_iff : ∀ a b, b ∈ members m a ↔ a ∈ members m' b
  noEmpty_left : NoEmpty m
  noEmpty_right : NoEmpty m'

theorem members_addTo (m : Table A (Finset B)) (a a' : A) (b : B) :
    members (addTo m a b) a' = if a' = a then insert b (members m a) else members m a' := by
  unfold members addTo
  rw [Table.get_insert]
  split_ifs with h
  · rfl
  · rfl

theorem mem_addTo (m : Table A (Finset B)) (a a' : A) (b b' : B) :
    b' ∈ members (addTo m a b) a' ↔ b' ∈ members m a' ∨ (a' = a ∧ b' = b) := by
  rw [members_addTo]
  split_ifs with h
  · subst h
    simp [or_comm]
  · simp [h]

theorem members_dropFrom (m : Table A (Finset B)) (a a' : A) (b : B) :
    members (dropFrom m a b) a' = if a' = a then (members m a).erase b else members m a' := by
  unfold dropFrom
  cases hm : m.get a with
  | none =>
    dsimp only
    split_ifs with h
    · subst h
      unfold members
      rw [hm]
      rfl
    · rfl
  | some s =>
    have hs : members m a = s := by
      unfold members
      rw [hm]
      rfl
    dsimp only
    rw [hs]
    split_ifs with hempty h h
    · subst h
      unfold members
      rw [Table.get_erase, if_pos rfl, hempty]
      rfl
    · unfold members
      rw [Table.get_erase, if_neg h]
    · subst h
      unfold members
      rw [Table.get_insert, if_pos rfl]
      rfl
    · unfold members
      rw [Table.get_insert, if_neg h]

theorem noEmpty_addTo {m : Table A (Finset B)} (h : NoEmpty m) (a : A) (b : B) :
    NoEmpty (addTo m a b) := by
  intro a' s hs
  unfold addTo at hs
  rw [Table.get_insert] at hs
  split_ifs at hs with ha
  · cases hs
    exact Finset.insert_ne_empty _ _
  · exact h a' s hs

theorem noEmpty_dropFrom {m : Table A (Finset B)} (h : NoEmpty m) (a : A) (b : B) :
    NoEmpty (dropFrom m a b) := by
  unfold dropFrom
  cases hm : m.get a with
  | none => exact h
  | some s =>
    dsimp only
    split_ifs with hempty
    · exact noEmpty_erase h a
    · intro a' s' hs'
      rw [Table.get_insert] at hs'
      split_ifs at hs' with ha
      · cases hs'
        exact hempty
      · exact h a' s' hs'

theorem converse_empty :
    Converse (Table.empty : Table A (Finset B)) (Table.empty : Table B (Finset A)) where
  mem_iff _ _ := by simp
  noEmpty_left := noEmpty_empty
  noEmpty_right := noEmpty_empty

theorem converse_addTo {m : Table A (Finset B)} {m' : Table B (Finset A)} (h : Converse m m')
    (a : A) (b : B) : Converse (addTo m a b) (addTo m' b a) where
  mem_iff a' b' := by
    have hm := h.mem_iff a' b'
    rw [members_addTo, members_addTo]
    split_ifs with ha hb hb
    · subst ha hb
      simp
    · subst ha
      rw [Finset.mem_insert, ← hm]
      exact or_iff_right hb
    · subst hb
      rw [Finset.mem_insert, ← hm]
      exact (or_iff_right ha).symm
    · exact hm
  noEmpty_left := noEmpty_addTo h.noEmpty_left a b
  noEmpty_right := noEmpty_addTo h.noEmpty_right b a

theorem converse_dropFrom {m : Table A (Finset B)} {m' : Table B (Finset A)} (h : Converse m m')
    (a : A) (b : B) : Converse (dropFrom m a b) (dropFrom m' b a) where
  mem_iff a' b' := by
    have hm := h.mem_iff a' b'
    rw [members_dropFrom, members_dropFrom]
    split_ifs with ha hb hb
    · subst ha hb
      simp
    · subst ha
      rw [Finset.mem_erase, ← hm]
      exact and_iff_right hb
    · subst hb
      rw [Finset.mem_erase, ← hm]
      exact (and_iff_right ha).symm
    · exact hm
  noEmpty_left := noEmpty_dropFrom h.noEmpty_left a b
  noEmpty_right := noEmpty_dropFrom h.noEmpty_right b a

theorem members_dropAll (as : List A) (m : Table A (Finset B)) (b : B) (a : A) :
    members (as.foldl (fun m a => dropFrom m a b) m) a =
      if a ∈ as then (members m a).erase b else members m a := by
  induction as generalizing m with
  | nil => rfl
  | cons a' as ih =>
    rw [List.foldl_cons, ih, members_dropFrom]
    by_cases ha : a = a'
    · subst ha
      simp
    · simp [ha]

theorem mem_dropAll (as : List A) (m : Table A (Finset B)) (b b' : B) (a : A) :
    b' ∈ members (as.foldl (fun m a => dropFrom m a b) m) a ↔
      b' ∈ members m a ∧ ¬(b' = b ∧ a ∈ as) := by
  rw [members_dropAll]
  split_ifs with h
  · rw [Finset.mem_erase]
    tauto
  · tauto

theorem noEmpty_dropAll (as : List A) {m : Table A (Finset B)} (h : NoEmpty m) (b : B) :
    NoEmpty (as.foldl (fun m a => dropFrom m a b) m) := by
  induction as generalizing m with
  | nil => exact h
  | cons a as ih => exact ih (noEmpty_dropFrom h a b)

end Sandstar.SetTable
