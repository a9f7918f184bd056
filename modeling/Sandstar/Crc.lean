import Mathlib

set_option autoImplicit false

/-!
# Cyclic redundancy checks

A register of any width that is shifted bit by bit. The check is linear: what an error does to it
does not depend on what was sent. A generator with an even number of terms keeps the parity.
-/
namespace Sandstar.Crc

variable {w : ℕ} (poly : BitVec w)

def shiftBit (crc : BitVec w) : BitVec w :=
  (crc <<< 1) ^^^ (if crc.msb then poly else 0#w)

def shiftBits (n : ℕ) (crc : BitVec w) : BitVec w := (shiftBit poly)^[n] crc

def feed (n : ℕ) (crc word : BitVec w) : BitVec w := shiftBits poly n (crc ^^^ word)

def check (n : ℕ) (init : BitVec w) (data : List (BitVec w)) : BitVec w := data.foldl (feed poly n) init

section Linear

theorem xor_exchange (a b c d : BitVec w) : (a ^^^ b) ^^^ (c ^^^ d) = (a ^^^ c) ^^^ (b ^^^ d) := by
  ac_rfl

theorem shiftBit_xor (a b : BitVec w) :
    shiftBit poly (a ^^^ b) = shiftBit poly a ^^^ shiftBit poly b := by
  have hpoly : (if a.msb ^^ b.msb then poly else 0#w) =
      (if a.msb then poly else 0#w) ^^^ (if b.msb then poly else 0#w) := by
    cases a.msb <;> cases b.msb <;> simp
  unfold shiftBit
  rw [BitVec.shiftLeft_xor_distrib, BitVec.msb_xor, hpoly, xor_exchange]

theorem shiftBits_xor (n : ℕ) (a b : BitVec w) :
    shiftBits poly n (a ^^^ b) = shiftBits poly n a ^^^ shiftBits poly n b := by
  unfold shiftBits
  induction n generalizing a b with
  | zero => rfl
  | succ n ih =>
    rw [Function.iterate_succ_apply, Function.iterate_succ_apply, Function.iterate_succ_apply,
      shiftBit_xor, ih]

/-- The check of data with errors is the check of the data, changed by that of the errors. -/
theorem check_xor (n : ℕ) (init init' : BitVec w) {data errors : List (BitVec w)}
    (h : data.length = errors.length) :
    check poly n (init ^^^ init') (data.zipWith (· ^^^ ·) errors) =
      check poly n init data ^^^ check poly n init' errors := by
  induction data generalizing errors init init' with
  | nil =>
    obtain rfl := List.length_eq_zero_iff.1 h.symm
    rfl
  | cons a data ih =>
    cases errors with
    | nil => cases h
    | cons e errors =>
      have hfeed : feed poly n (init ^^^ init') (a ^^^ e) =
          feed poly n init a ^^^ feed poly n init' e := by
        unfold feed
        rw [xor_exchange, shiftBits_xor]
      change check poly n (feed poly n (init ^^^ init') (a ^^^ e)) (data.zipWith (· ^^^ ·) errors) = _
      rw [hfeed]
      exact ih _ _ (Nat.succ.inj h)

/-- Whether errors go unnoticed does not depend on the data. -/
theorem check_errors (n : ℕ) (init : BitVec w) {data errors : List (BitVec w)} (e : BitVec w)
    (h : data.length = errors.length) :
    check poly n init (data.zipWith (· ^^^ ·) errors) = check poly n init data ^^^ e ↔
      check poly n 0#w errors = e := by
  have hsplit := check_xor poly n init 0#w h
  rw [BitVec.xor_zero] at hsplit
  rw [hsplit]
  exact BitVec.xor_right_inj _

end Linear

section Parity

def xorAll (bits : List Bool) : Bool := bits.foldr xor false

theorem xorAll_append (a b : List Bool) : xorAll (a ++ b) = (xorAll a ^^ xorAll b) := by
  induction a with
  | nil => exact (Bool.false_xor _).symm
  | cons x a ih =>
    change (x ^^ xorAll (a ++ b)) = ((x ^^ xorAll a) ^^ xorAll b)
    rw [ih, Bool.xor_assoc]

def parity (b : BitVec w) : Bool := xorAll ((List.range w).map b.getLsbD)

theorem parity_xor (a b : BitVec w) : parity (a ^^^ b) = (parity a ^^ parity b) := by
  unfold parity
  induction List.range w with
  | nil => rfl
  | cons i is ih =>
    change ((a ^^^ b).getLsbD i ^^ xorAll (is.map _)) =
      ((a.getLsbD i ^^ xorAll (is.map _)) ^^ (b.getLsbD i ^^ xorAll (is.map _)))
    rw [ih, BitVec.getLsbD_xor]
    simp only [Bool.xor_assoc, Bool.xor_left_comm]

theorem parity_append {v : ℕ} (a : BitVec w) (b : BitVec v) :
    parity (a ++ b) = (parity a ^^ parity b) := by
  have hlow : (List.range v).map (a ++ b).getLsbD = (List.range v).map b.getLsbD := by
    refine List.map_congr_left fun i hi => ?_
    rw [BitVec.getLsbD_append, if_pos (by simpa using hi)]
  have hhigh : ((List.range w).map (v + ·)).map (a ++ b).getLsbD = (List.range w).map a.getLsbD := by
    rw [List.map_map]
    refine List.map_congr_left fun i _ => ?_
    rw [Function.comp_apply, BitVec.getLsbD_append, if_neg (by simp), Nat.add_sub_cancel_left]
  have hrange : List.range (w + v) = List.range v ++ (List.range w).map (v + ·) := by
    rw [Nat.add_comm, List.range_add]
  unfold parity
  rw [hrange, List.map_append, xorAll_append, hlow, hhigh, Bool.xor_comm]

def parities (words : List (BitVec w)) : Bool := words.foldr (fun a p => parity a ^^ p) false

/-- A generator that leaves the parity of a register alone leaves it to the data. -/
theorem parity_check (hpoly : ∀ b, parity (shiftBit poly b) = parity b) (n : ℕ) (init : BitVec w)
    (data : List (BitVec w)) : parity (check poly n init data) = (parity init ^^ parities data) := by
  have hshift : ∀ m b, parity (shiftBits poly m b) = parity b := by
    intro m
    induction m with
    | zero => exact fun b => rfl
    | succ m ih =>
      intro b
      unfold shiftBits at ih ⊢
      rw [Function.iterate_succ_apply, ih, hpoly]
  induction data generalizing init with
  | nil => exact (Bool.xor_false _).symm
  | cons a data ih =>
    change parity (check poly n (feed poly n init a) data) = (parity init ^^ (parity a ^^ parities data))
    rw [ih, feed, hshift, parity_xor, Bool.xor_assoc]

end Parity

end Sandstar.Crc
