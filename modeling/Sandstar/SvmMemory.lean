import Sandstar.SvmInterpreter

set_option autoImplicit false

namespace Sandstar.Svm

open Sandstar.Effects

section Accessors

variable (base : ℕ) (offset : ℤ)

def getByte : Program (Bytes 1) := getData 1 base offset

def getShort : Program (Bytes 2) := getData 2 base offset

def getInt : Program (Bytes 4) := getData 4 base offset

def getFloat : Program (Bytes 4) := getData 4 base offset

def getWide : Program (Bytes 8) := getData 8 base offset

def getRef : Program ℕ := do
  let v ← getData 4 base offset
  pure v.toNat

def setByte (v : Bytes 1) : Program Unit := setData 1 base offset v

def setShort (v : Bytes 2) : Program Unit := setData 2 base offset v

def setInt (v : Bytes 4) : Program Unit := setData 4 base offset v

def setFloat (v : Bytes 4) : Program Unit := setData 4 base offset v

def setWide (v : Bytes 8) : Program Unit := setData 8 base offset v

/-- A reference is a `usize` stored as a `u32`. -/
def setRef (val : ℕ) : Program Unit := setData 4 base offset (BitVec.ofNat 32 val)

end Accessors

section Bytes

theorem leValue_append (bs : List Byte) (b : Byte) :
    leValue (bs ++ [b]) = leValue bs + 2 ^ (8 * bs.length) * b.toNat := by
  induction bs with
  | nil => simp [leValue]
  | cons c bs ih =>
    rw [List.cons_append, leValue, leValue, ih, List.length_cons, Nat.mul_succ, pow_add]
    ring

theorem leBytes_length {w : ℕ} (v : Bytes w) : (leBytes w v).length = w := by
  unfold leBytes
  rw [List.length_map, List.length_range]

theorem leBytes_getElem? {w : ℕ} (v : Bytes w) (i : ℕ) :
    (leBytes w v)[i]? = if i < w then some (v.extractLsb' (8 * i) 8) else none := by
  unfold leBytes
  rw [List.getElem?_map]
  by_cases hi : i < w
  · rw [List.getElem?_range hi, if_pos hi, Option.map_some]
  · rw [List.getElem?_eq_none (by simpa using hi), if_neg hi, Option.map_none]

theorem leValue_take {w : ℕ} (v : Bytes w) (n : ℕ) :
    leValue ((List.range n).map fun i => v.extractLsb' (8 * i) 8) = v.toNat % 2 ^ (8 * n) := by
  induction n with
  | zero => simp [leValue, Nat.mod_one]
  | succ n ih =>
    rw [List.range_succ, List.map_append, List.map_singleton, leValue_append, ih, List.length_map,
      List.length_range, BitVec.extractLsb'_toNat, Nat.shiftRight_eq_div_pow, Nat.mul_succ, pow_add,
      Nat.mod_mul]

theorem leValue_leBytes {w : ℕ} (v : Bytes w) : leValue (leBytes w v) = v.toNat := by
  unfold leBytes
  rw [leValue_take, Nat.mod_eq_of_lt v.isLt]

theorem leBytes_part {w j n : ℕ} (v : Bytes w) (hj : j + n ≤ w) :
    ((leBytes w v).drop j).take n = leBytes n (v.extractLsb' (8 * j) (8 * n)) := by
  apply List.ext_getElem?
  intro i
  rw [leBytes_getElem?, List.getElem?_take, List.getElem?_drop, leBytes_getElem?]
  by_cases hi : i < n
  · have hin : j + i < w := by omega
    rw [if_pos hi, if_pos hi, if_pos hin]
    congr 1
    apply BitVec.eq_of_getLsbD_eq
    intro k hk
    have hbit : 8 * i + k < 8 * n := by omega
    simp only [BitVec.getLsbD_extractLsb', hk, hbit, decide_true, Bool.true_and, Nat.mul_add,
      Nat.add_assoc]
  · rw [if_neg hi, if_neg hi]

end Bytes

section Segments

variable {segment : List Byte} {w addr : ℕ} {v : Bytes w}

theorem getElem?_writeAt {bytes : List Byte} (hin : addr + bytes.length ≤ segment.length) (i : ℕ) :
    (writeAt segment addr bytes)[i]? =
      if addr ≤ i ∧ i < addr + bytes.length then bytes[i - addr]? else segment[i]? := by
  have hleft : (segment.take addr).length = addr := List.length_take_of_le (by omega)
  unfold writeAt
  rw [List.append_assoc, List.getElem?_append, hleft, List.getElem?_append, List.getElem?_take,
    List.getElem?_drop]
  by_cases hbefore : i < addr
  · rw [if_pos hbefore, if_pos hbefore, if_neg (by omega)]
  · by_cases hinside : i - addr < bytes.length
    · rw [if_neg hbefore, if_pos hinside, if_pos (by omega)]
    · rw [if_neg hbefore, if_neg hinside, if_neg (by omega)]
      congr 1
      omega

theorem length_writeAt {bytes : List Byte} (hin : addr + bytes.length ≤ segment.length) :
    (writeAt segment addr bytes).length = segment.length := by
  unfold writeAt
  simp only [List.length_append, List.length_take, List.length_drop]
  omega

/-- A read inside what was written gives the part of the value that lies there. -/
theorem readAt_writeAt {j n : ℕ} (hin : addr + w ≤ segment.length) (hj : j + n ≤ w) :
    readAt (writeAt segment addr (leBytes w v)) n (addr + j) =
      some (v.extractLsb' (8 * j) (8 * n)) := by
  have hbytes : addr + (leBytes w v).length ≤ segment.length := by rwa [leBytes_length]
  have hslice : ((writeAt segment addr (leBytes w v)).drop (addr + j)).take n =
      leBytes n (v.extractLsb' (8 * j) (8 * n)) := by
    rw [← leBytes_part v hj]
    apply List.ext_getElem?
    intro i
    rw [List.getElem?_take, List.getElem?_take, List.getElem?_drop, List.getElem?_drop,
      getElem?_writeAt hbytes, leBytes_length]
    by_cases hi : i < n
    · rw [if_pos hi, if_pos hi, if_pos (by omega), show addr + j + i - addr = j + i by omega]
    · rw [if_neg hi, if_neg hi]
  unfold readAt
  rw [length_writeAt hbytes, if_pos (by omega), hslice, leValue_leBytes, BitVec.ofNat_toNat,
    BitVec.setWidth_eq]

end Segments

section Runs

variable {s : Vm} {base : ℕ} {offset : ℤ} {w : ℕ}

/-- The `w` bytes from `base + offset` on lie in the data segment. -/
def Vm.InSegment (s : Vm) (base : ℕ) (offset : ℤ) (w : ℕ) : Prop :=
  0 ≤ base + offset ∧ base + offset + w ≤ s.data.length

instance : Decidable (s.InSegment base offset w) := inferInstanceAs (Decidable (_ ∧ _))

/-- What `data_addr` gives is the sum, and it refuses the sums outside `usize` only. -/
theorem dataAddr_exact (hoffset : offset ≠ -2 ^ 31) :
    (∃ addr : ℕ, (addr : ℤ) = base + offset ∧ dataAddr base offset = pure addr) ∨
    (base + offset < 0 ∨ (usizeLimit : ℤ) ≤ base + offset) ∧
      dataAddr base offset = fail .nullPointer := by
  unfold dataAddr
  by_cases hsign : 0 ≤ offset
  · rw [if_pos hsign]
    by_cases hlimit : base + offset.toNat < usizeLimit
    · exact Or.inl ⟨_, by omega, if_pos hlimit⟩
    · exact Or.inr ⟨by omega, if_neg hlimit⟩
  · rw [if_neg hsign, if_neg hoffset]
    by_cases hbase : offset.natAbs ≤ base
    · exact Or.inl ⟨_, by omega, if_pos hbase⟩
    · exact Or.inr ⟨by omega, if_neg hbase⟩

/-- An access goes to the sum of base and offset, or fails where that is not in the segment. -/
theorem run_access {α : Type} (hdata : s.data.length < usizeLimit) (hoffset : offset ≠ -2 ^ 31)
    {access : ℕ → Program α}
    (hout : ∀ addr, s.data.length < addr + w →
      Prog.run Vm.handle (access addr) s = (.error (.error .nullPointer), s)) :
    Prog.run Vm.handle (dataAddr base offset >>= access) s =
      if s.InSegment base offset w then Prog.run Vm.handle (access (base + offset).toNat) s
      else (.error (.error .nullPointer), s) := by
  rcases @dataAddr_exact base offset hoffset with ⟨addr, hsum, haddr⟩ | ⟨hsum, hfail⟩
  · rw [haddr, Prog.pure_eq, Prog.ret_bind]
    by_cases hin : s.InSegment base offset w
    · rw [if_pos hin, ← hsum, Int.toNat_natCast]
    · rw [if_neg hin]
      apply hout
      unfold Vm.InSegment at hin
      omega
  · have hin : ¬s.InSegment base offset w := by
      unfold Vm.InSegment
      omega
    rw [hfail, if_neg hin]
    rfl

theorem run_getData (hdata : s.data.length < usizeLimit) (hoffset : offset ≠ -2 ^ 31) :
    Prog.run Vm.handle (getData w base offset) s =
      if s.InSegment base offset w then Prog.run Vm.handle (load w (base + offset).toNat) s
      else (.error (.error .nullPointer), s) := by
  apply run_access hdata hoffset
  intro addr hout
  have hnone : s.dataAt w addr = none := if_neg (by omega)
  simp only [load, perform, Prog.perform, Prog.run, Vm.handle, hnone]

theorem run_setData (hdata : s.data.length < usizeLimit) (hoffset : offset ≠ -2 ^ 31)
    (v : Bytes w) :
    Prog.run Vm.handle (setData w base offset v) s =
      if s.InSegment base offset w then
        (.ok (), { s with data := writeAt s.data (base + offset).toNat (leBytes w v) })
      else (.error (.error .nullPointer), s) := by
  unfold setData
  rw [run_access (w := w) hdata hoffset]
  · by_cases hin : s.InSegment base offset w
    · have hfits : (base + offset).toNat + w ≤ s.data.length := by
        unfold Vm.InSegment at hin
        omega
      have hsome : s.dataAt w (base + offset).toNat = some _ := if_pos hfits
      rw [if_pos hin, if_pos hin]
      simp only [store, perform, Prog.perform, Prog.run, Vm.handle, hsome]
    · rw [if_neg hin, if_neg hin]
  · intro addr hout
    have hnone : s.dataAt w addr = none := if_neg (by omega)
    simp only [store, perform, Prog.perform, Prog.run, Vm.handle, hnone]

/-- A read inside a written range, at whatever base and offset it is reached. -/
theorem run_getData_written (hdata : s.data.length < usizeLimit) {v : Bytes w}
    (hin : s.InSegment base offset w) {base' : ℕ} {offset' : ℤ} {j n : ℕ}
    (hoffset : offset' ≠ -2 ^ 31) (hat : base' + offset' = base + offset + j) (hj : j + n ≤ w) :
    let t : Vm := { s with data := writeAt s.data (base + offset).toNat (leBytes w v) }
    Prog.run Vm.handle (getData n base' offset') t =
      (.ok (v.extractLsb' (8 * j) (8 * n)), t) := by
  intro t
  have hfits : (base + offset).toNat + w ≤ s.data.length := by
    unfold Vm.InSegment at hin
    omega
  have hlength : t.data.length = s.data.length :=
    length_writeAt (by rw [leBytes_length]; exact hfits)
  have hin' : t.InSegment base' offset' n := by
    unfold Vm.InSegment at hin ⊢
    omega
  have haddr : (base' + offset').toNat = (base + offset).toNat + j := by
    unfold Vm.InSegment at hin
    omega
  have hread : t.dataAt n (base' + offset').toNat = some (v.extractLsb' (8 * j) (8 * n)) := by
    rw [haddr]
    exact readAt_writeAt hfits hj
  rw [run_getData (hlength ▸ hdata) hoffset, if_pos hin']
  simp only [load, perform, Prog.perform, Prog.run, Vm.handle, hread]

end Runs

section Store

/-- A setter and a getter of `w` bytes keep a little-endian byte store: the setter succeeds
    exactly in the segment; then the getter returns the value, no other byte has changed and
    narrower reads see the bytes of the value, the lowest first; else nothing has changed. -/
def Stores {w : ℕ} (s : Vm) (base : ℕ) (offset : ℤ) (set : Bytes w → Program Unit)
    (get : Program (Bytes w)) : Prop :=
  ∀ v : Bytes w, ∃ t,
    (s.InSegment base offset w → Prog.run Vm.handle (set v) s = (.ok (), t) ∧
      t = { s with data := t.data } ∧ t.data.length = s.data.length ∧
      (∀ i : ℕ, i < base + offset ∨ base + offset + w ≤ i → t.data[i]? = s.data[i]?) ∧
      Prog.run Vm.handle get t = (.ok v, t) ∧
      ∀ (base' : ℕ) (offset' : ℤ) (j n : ℕ), offset' ≠ -2 ^ 31 →
        base' + offset' = base + offset + j → j + n ≤ w →
        Prog.run Vm.handle (getData n base' offset') t =
          (.ok (v.extractLsb' (8 * j) (8 * n)), t)) ∧
    (¬s.InSegment base offset w →
      Prog.run Vm.handle (set v) s = (.error (.error .nullPointer), s))

variable (s : Vm) (hdata : s.data.length < usizeLimit) (base : ℕ) (offset : ℤ)
  (hoffset : offset ≠ -2 ^ 31)

include hdata hoffset

theorem stores_data (w : ℕ) :
    Stores s base offset (setData w base offset) (getData w base offset) := by
  intro v
  refine ⟨{ s with data := writeAt s.data (base + offset).toNat (leBytes w v) }, ?_, ?_⟩
  · intro hin
    have hfits : (base + offset).toNat + (leBytes w v).length ≤ s.data.length := by
      unfold Vm.InSegment at hin
      rw [leBytes_length]
      omega
    have hread := @run_getData_written s base offset w hdata v hin base offset 0 w hoffset
      (by simp) (by simp)
    refine ⟨?_, rfl, length_writeAt hfits, ?_, ?_, ?_⟩
    · rw [run_setData hdata hoffset, if_pos hin]
    · intro i hi
      have hstart := hin.1
      rw [getElem?_writeAt hfits, if_neg]
      rw [leBytes_length]
      omega
    · simpa using hread
    · intro base' offset' j n hoffset' hat hj
      exact run_getData_written hdata hin hoffset' hat hj
  · intro hin
    rw [run_setData hdata hoffset, if_neg hin]

/-- The accessors of every width keep a little-endian byte store. A reference that does not
    fit 32 bits is stored modulo 2^32. -/
theorem memory_little_endian :
    Stores s base offset (setByte base offset) (getByte base offset) ∧
    Stores s base offset (setShort base offset) (getShort base offset) ∧
    Stores s base offset (setInt base offset) (getInt base offset) ∧
    Stores s base offset (setFloat base offset) (getFloat base offset) ∧
    Stores s base offset (setWide base offset) (getWide base offset) ∧
    Stores s base offset (fun v => setRef base offset v.toNat) (getInt base offset) ∧
    ∀ val, s.InSegment base offset 4 → ∃ t,
      Prog.run Vm.handle (setRef base offset val) s = (.ok (), t) ∧
      Prog.run Vm.handle (getRef base offset) t = (.ok (val % 2 ^ 32), t) := by
  have hstores : ∀ w, Stores s base offset (setData w base offset) (getData w base offset) :=
    stores_data s hdata base offset hoffset
  have href : (fun v : Bytes 4 => setRef base offset v.toNat) = setData 4 base offset := by
    funext v
    unfold setRef
    rw [BitVec.ofNat_toNat, BitVec.setWidth_eq]
  refine ⟨hstores 1, hstores 2, hstores 4, hstores 4, hstores 8, href ▸ hstores 4, ?_⟩
  intro val hin
  obtain ⟨t, ht, -⟩ := hstores 4 (BitVec.ofNat 32 val)
  obtain ⟨hset, -, -, -, hget, -⟩ := ht hin
  refine ⟨t, hset, ?_⟩
  unfold getRef
  rw [Prog.run_bind, hget]
  simp only [Prog.pure_eq, Prog.run, BitVec.toNat_ofNat]

end Store

def eightBytes : Vm where
  code := []
  data := List.replicate 8 0
  blockSize := 4
  cells := fun _ => 0
  capacity := 0
  sp := 0
  frames := []
  pc := 0
  stopped := false
  assertFailures := 0
  assertSuccesses := 0

/-- The last four bytes, reached by a negative offset; one more byte does not fit. -/
theorem memory_little_endian_last :
    (∃ t, Prog.run Vm.handle (setInt 8 (-4) 0x11223344) eightBytes = (.ok (), t) ∧
      Prog.run Vm.handle (getInt 8 (-4)) t = (.ok 0x11223344, t) ∧
      Prog.run Vm.handle (getShort 6 0) t = (.ok 0x1122, t)) ∧
    Prog.run Vm.handle (setInt 8 (-3) 0x11223344) eightBytes =
      (.error (.error .nullPointer), eightBytes) := by
  have hlast := (memory_little_endian eightBytes (by decide) 8 (-4) (by decide)).2.2.1 0x11223344
  have hpast := (memory_little_endian eightBytes (by decide) 8 (-3) (by decide)).2.2.1 0x11223344
  obtain ⟨t, hin, -⟩ := hlast
  obtain ⟨hset, -, -, -, hget, hpart⟩ := hin (by decide)
  refine ⟨⟨t, hset, hget, ?_⟩, ?_⟩
  · exact hpart 6 0 2 2 (by decide) (by decide) (by decide)
  · obtain ⟨-, -, hout⟩ := hpast
    exact hout (by decide)

end Sandstar.Svm
