import Sandstar.Machine

set_option autoImplicit false

namespace Sandstar.Pieces
open Machine

variable {α : Type}

def piece (xs : List α) (size n : ℕ) : List α := (xs.drop (n * size)).take size

def pieceCount (length size : ℕ) : ℕ := (length + size - 1) / size

theorem length_piece (xs : List α) (size n : ℕ) :
    (piece xs size n).length = min size (xs.length - n * size) := by
  unfold piece
  rw [List.length_take, List.length_drop]

theorem length_piece_le (xs : List α) (size n : ℕ) : (piece xs size n).length ≤ size := by
  rw [length_piece]
  exact Nat.min_le_left _ _

theorem piece_start_lt {length size n : ℕ} (h : n < pieceCount length size) :
    n * size < length := by
  unfold pieceCount at h
  rcases Nat.eq_zero_or_pos size with rfl | hpos
  · simp only [Nat.div_zero, Nat.not_lt_zero] at h
  · have hmul := (Nat.le_div_iff_mul_le hpos).1 h
    rw [Nat.succ_mul] at hmul
    omega

theorem piece_end_le {xs : List α} {size n : ℕ} (h : n * size ≤ xs.length) :
    n * size + (piece xs size n).length ≤ xs.length := by
  rw [length_piece]
  omega

theorem place_lt_pieceCount {length size i : ℕ} (hpos : 0 < size) (h : i < length) :
    i / size < pieceCount length size := by
  unfold pieceCount
  rw [Nat.div_lt_iff_lt_mul hpos]
  have hmod := Nat.div_add_mod (length + size - 1) size
  have hlt := Nat.mod_lt (length + size - 1) hpos
  rw [Nat.mul_comm] at hmod
  omega

theorem getElem?_piece {xs : List α} {size n i : ℕ} (h : i < (piece xs size n).length) :
    (piece xs size n)[i]? = xs[n * size + i]? := by
  have hlt : i < size := Nat.lt_of_lt_of_le h (length_piece_le xs size n)
  unfold piece
  rw [List.getElem?_take_of_lt hlt, List.getElem?_drop]

theorem take_eq_flatMap_piece (xs : List α) (size count : ℕ) :
    xs.take (count * size) = (List.range count).flatMap (piece xs size) := by
  induction count with
  | zero => rw [Nat.zero_mul, List.take_zero, List.range_zero, List.flatMap_nil]
  | succ count ih =>
    calc
      xs.take ((count + 1) * size) = xs.take (count * size) ++ piece xs size count := by
        rw [Nat.add_mul, Nat.one_mul, List.take_add]
        rfl
      _ = (List.range (count + 1)).flatMap (piece xs size) := by
        rw [ih, List.range_succ, List.flatMap_append, List.flatMap_singleton]

theorem flatMap_piece (xs : List α) {size : ℕ} (hpos : 0 < size) :
    (List.range (pieceCount xs.length size)).flatMap (piece xs size) = xs := by
  rw [← take_eq_flatMap_piece]
  apply List.take_of_length_le
  unfold pieceCount
  have hmod := Nat.div_add_mod (xs.length + size - 1) size
  have hlt := Nat.mod_lt (xs.length + size - 1) hpos
  rw [Nat.mul_comm] at hmod
  omega

/-- The buffer agrees with the list at the places of the pieces in `D`. -/
structure Agrees (xs : List α) (size : ℕ) (D : Set ℕ) (buffer : List α) : Prop where
  length_eq : buffer.length = xs.length
  place_eq : ∀ i, i / size ∈ D → buffer[i]? = xs[i]?

theorem agrees_start {xs buffer : List α} (size : ℕ) (h : buffer.length = xs.length) :
    Agrees xs size ∅ buffer :=
  ⟨h, fun _ hi => absurd hi (Set.notMem_empty _)⟩

theorem agrees_overwrite {xs buffer : List α} {size n : ℕ} {D : Set ℕ} (hpos : 0 < size)
    (hn : n * size ≤ xs.length) (h : Agrees xs size D buffer) :
    Agrees xs size (insert n D) (overwrite buffer (n * size) (piece xs size n)) := by
  have hfit : n * size + (piece xs size n).length ≤ buffer.length := by
    rw [h.length_eq]
    exact piece_end_le hn
  refine ⟨(length_overwrite hfit).trans h.length_eq, ?_⟩
  intro i hi
  rw [getElem?_overwrite hfit]
  split_ifs with hin
  · rw [getElem?_piece (by omega)]
    congr 1
    omega
  · rcases Set.mem_insert_iff.1 hi with hin' | hD
    · -- a place of this piece that was not written lies past the end
      have hplace := (Nat.div_eq_iff hpos).1 hin'
      have hlen := length_piece xs size n
      have hout : xs.length ≤ i := by omega
      rw [List.getElem?_eq_none hout, List.getElem?_eq_none (h.length_eq ▸ hout)]
    · exact h.place_eq i hD

/-- Once every piece has come, the buffer is the list. -/
theorem agrees_all {xs buffer : List α} {size : ℕ} {D : Set ℕ} (hpos : 0 < size)
    (h : Agrees xs size D buffer) (hall : ∀ n < pieceCount xs.length size, n ∈ D) :
    buffer = xs := by
  apply List.ext_getElem?
  intro i
  by_cases hi : i < xs.length
  · exact h.place_eq i (hall _ (place_lt_pieceCount hpos hi))
  · rw [List.getElem?_eq_none (Nat.le_of_not_lt hi),
      List.getElem?_eq_none (h.length_eq ▸ Nat.le_of_not_lt hi)]

end Sandstar.Pieces
