import Mathlib

set_option autoImplicit false

namespace Sandstar

abbrev Table (K V : Type) := Finmap fun _ : K => V

namespace Table

variable {K V : Type}

def empty : Table K V := ∅

variable [DecidableEq K]

def get (m : Table K V) (k : K) : Option V := Finmap.lookup k m

def insert (m : Table K V) (k : K) (v : V) : Table K V := Finmap.insert k v m

def erase (m : Table K V) (k : K) : Table K V := Finmap.erase k m

def modify (m : Table K V) (k : K) (f : V → V) : Table K V :=
  match m.get k with
  | some v => m.insert k (f v)
  | none => m

def retain (m : Table K V) (p : K → V → Bool) : Table K V :=
  ⟨m.entries.filter fun e => p e.1 e.2, by
    obtain ⟨⟨l⟩, hl⟩ := m
    exact List.NodupKeys.sublist List.filter_sublist hl⟩

def mapValues {W : Type} (m : Table K V) (f : V → W) : Table K W :=
  ⟨m.entries.map fun e => ⟨e.1, f e.2⟩, by
    obtain ⟨⟨l⟩, hl⟩ := m
    have hkeys : (l.map fun e => (⟨e.1, f e.2⟩ : Sigma fun _ : K => W)).keys = l.keys := by
      simp [List.keys]
    exact (congrArg List.Nodup hkeys).mpr hl⟩

def size (m : Table K V) : ℕ := m.keys.card

def tryMapValues (m : Table K V) (f : V → Option V) : Option (Table K V) :=
  if (m.retain fun _ v => (f v).isNone).size = 0 then
    some (m.mapValues fun v => (f v).getD v)
  else none

/-- The order in which a walk over a table meets its keys. -/
structure KeyOrder (K V : Type) [DecidableEq K] where
  walk : Table K V → List K
  nodup : ∀ m, (walk m).Nodup
  mem : ∀ m k, k ∈ walk m ↔ k ∈ m.keys

section Ascending

variable (K V : Type) [LE K] [DecidableLE K] [IsTrans K (· ≤ ·)] [@Std.Antisymm K (· ≤ ·)]
  [@Std.Total K (· ≤ ·)]

def ascending (keys : Finset K) : List K := keys.sort (· ≤ ·)

theorem ascending_nodup (keys : Finset K) : (ascending K keys).Nodup := Finset.sort_nodup _ _

theorem mem_ascending (keys : Finset K) (k : K) : k ∈ ascending K keys ↔ k ∈ keys :=
  Finset.mem_sort _

/-- The walk in the order of the keys. -/
def KeyOrder.ascending [DecidableEq K] : KeyOrder K V :=
  ⟨fun m => Table.ascending K m.keys, fun _ => ascending_nodup K _, fun _ => mem_ascending K _⟩

end Ascending

instance string_le_trans : IsTrans String (· ≤ ·) := ⟨fun _ _ _ => le_trans⟩

instance string_le_antisymm : @Std.Antisymm String (· ≤ ·) := ⟨fun _ _ => le_antisymm⟩

instance uInt16_le_trans : IsTrans UInt16 (· ≤ ·) := ⟨fun _ _ _ => UInt16.le_trans⟩

instance uInt32_le_trans : IsTrans UInt32 (· ≤ ·) := ⟨fun _ _ _ => UInt32.le_trans⟩

@[simp] theorem get_empty (a : K) : (empty : Table K V).get a = none := rfl

theorem get_insert (m : Table K V) (k a : K) (v : V) :
    (m.insert k v).get a = if a = k then some v else m.get a := by
  by_cases h : a = k
  · subst a
    simp [get, insert]
  · simp [get, insert, h, Finmap.lookup_insert_of_ne m h]

@[simp] theorem get_insert_self (m : Table K V) (k : K) (v : V) :
    (m.insert k v).get k = some v := by
  simp [get_insert]

theorem get_insert_ne (m : Table K V) {k a : K} (v : V) (h : a ≠ k) :
    (m.insert k v).get a = m.get a := by
  simp [get_insert, h]

theorem get_erase (m : Table K V) (k a : K) :
    (m.erase k).get a = if a = k then none else m.get a := by
  by_cases h : a = k
  · subst a
    simp [get, erase]
  · simp [get, erase, h, Finmap.lookup_erase_ne h]

@[simp] theorem get_erase_self (m : Table K V) (k : K) : (m.erase k).get k = none := by
  simp [get_erase]

theorem get_erase_ne (m : Table K V) {k a : K} (h : a ≠ k) : (m.erase k).get a = m.get a := by
  simp [get_erase, h]

theorem get_modify (m : Table K V) (k a : K) (f : V → V) :
    (m.modify k f).get a = if a = k then (m.get a).map f else m.get a := by
  unfold modify
  cases h : m.get k with
  | none =>
    by_cases ha : a = k
    · subst a
      simp [h]
    · simp [ha]
  | some v =>
    rw [get_insert]
    by_cases ha : a = k
    · subst a
      simp [h]
    · simp [ha]

theorem get_modify_ne (m : Table K V) {k a : K} (f : V → V) (h : a ≠ k) :
    (m.modify k f).get a = m.get a := by
  simp [get_modify, h]

theorem modify_absent (m : Table K V) {k : K} (f : V → V) (h : m.get k = none) :
    m.modify k f = m := by
  simp [modify, h]

theorem get_retain (m : Table K V) (p : K → V → Bool) (k : K) :
    (m.retain p).get k = (m.get k).filter (p k) := by
  apply Option.ext
  intro v
  have hmem : (m.retain p).get k = some v ↔ (⟨k, v⟩ : Sigma fun _ : K => V) ∈
      m.entries.filter fun e => p e.1 e.2 := Finmap.mem_lookup_iff
  rw [hmem, Multiset.mem_filter, Option.filter_eq_some_iff]
  exact and_congr Finmap.mem_lookup_iff.symm Iff.rfl

theorem get_mapValues {W : Type} (m : Table K V) (f : V → W) (k : K) :
    (m.mapValues f).get k = (m.get k).map f := by
  apply Option.ext
  intro v
  have hmem : (m.mapValues f).get k = some v ↔ (⟨k, v⟩ : Sigma fun _ : K => W) ∈
      m.entries.map fun e => ⟨e.1, f e.2⟩ := Finmap.mem_lookup_iff
  rw [hmem, Multiset.mem_map, Option.map_eq_some_iff]
  constructor
  · rintro ⟨e, he, heq⟩
    cases heq
    exact ⟨e.2, Finmap.mem_lookup_iff.2 he, rfl⟩
  · rintro ⟨a, ha, rfl⟩
    exact ⟨⟨k, a⟩, Finmap.mem_lookup_iff.1 ha, rfl⟩

@[ext] theorem ext {m n : Table K V} (h : ∀ a, m.get a = n.get a) : m = n :=
  Finmap.ext_lookup h

theorem insert_present {m : Table K V} {k : K} {v : V} (h : m.get k = some v) :
    m.insert k v = m := by
  apply ext
  intro a
  rw [get_insert]
  split_ifs with ha
  · rw [ha, h]
  · rfl

theorem insert_insert (m : Table K V) (k : K) (v w : V) :
    (m.insert k v).insert k w = m.insert k w := by
  apply ext
  intro a
  simp only [get_insert]
  split_ifs <;> rfl

theorem mem_keys (m : Table K V) (k : K) : k ∈ m.keys ↔ ∃ v, m.get k = some v :=
  Finmap.mem_keys.trans Finmap.mem_iff

theorem keys_insert (m : Table K V) (k : K) (v : V) :
    (m.insert k v).keys = Insert.insert k m.keys := by
  ext a
  simp [insert, Finmap.mem_keys]

theorem keys_erase (m : Table K V) (k : K) : (m.erase k).keys = m.keys.erase k := by
  ext a
  simp [erase, Finmap.mem_keys]

theorem get_eq_none_iff (m : Table K V) (k : K) : m.get k = none ↔ k ∉ m.keys := by
  rw [mem_keys]
  cases m.get k with
  | none => simp
  | some v => simp

theorem size_insert_present {m : Table K V} {k : K} {w : V} (h : m.get k = some w) (v : V) :
    (m.insert k v).size = m.size := by
  have hk : k ∈ m.keys := (mem_keys m k).2 ⟨w, h⟩
  unfold size
  rw [keys_insert, Finset.insert_eq_of_mem hk]

theorem size_insert_absent {m : Table K V} {k : K} (h : m.get k = none) (v : V) :
    (m.insert k v).size = m.size + 1 := by
  unfold size
  rw [keys_insert, Finset.card_insert_of_notMem ((get_eq_none_iff m k).1 h)]

theorem size_erase_present {m : Table K V} {k : K} {v : V} (h : m.get k = some v) :
    (m.erase k).size + 1 = m.size := by
  have hk : k ∈ m.keys := (mem_keys m k).2 ⟨v, h⟩
  unfold size
  rw [keys_erase, Finset.card_erase_add_one hk]

theorem size_erase_le (m : Table K V) (k : K) : (m.erase k).size ≤ m.size := by
  unfold size erase
  rw [Finmap.keys_erase]
  exact Finset.card_erase_le

theorem size_insert_le (m : Table K V) (k : K) (v : V) :
    (m.insert k v).size ≤ m.size + 1 := by
  unfold size
  rw [keys_insert]
  exact Finset.card_insert_le k m.keys

theorem keys_retain_subset (m : Table K V) (p : K → V → Bool) : (m.retain p).keys ⊆ m.keys := by
  intro k hk
  obtain ⟨v, hv⟩ := (mem_keys _ k).1 hk
  rw [get_retain] at hv
  exact (mem_keys m k).2 ⟨v, (Option.filter_eq_some_iff.1 hv).1⟩

theorem size_retain_le (m : Table K V) (p : K → V → Bool) : (m.retain p).size ≤ m.size :=
  Finset.card_le_card (keys_retain_subset m p)

theorem tryMapValues_self {m : Table K V} {f : V → Option V}
    (h : ∀ k v, m.get k = some v → f v = some v) : m.tryMapValues f = some m := by
  have hnone : (m.retain fun _ v => (f v).isNone).size = 0 := by
    refine Finset.card_eq_zero.2 (Finset.eq_empty_of_forall_notMem fun k hk => ?_)
    obtain ⟨v, hv⟩ := (mem_keys _ k).1 hk
    rw [get_retain, Option.filter_eq_some_iff] at hv
    rw [h k v hv.1] at hv
    cases hv.2
  unfold tryMapValues
  rw [if_pos hnone]
  congr 1
  apply ext
  intro k
  rw [get_mapValues]
  cases hk : m.get k with
  | none => rfl
  | some v => simp [h k v hk]

theorem keys_modify (m : Table K V) (k : K) (f : V → V) : (m.modify k f).keys = m.keys := by
  ext a
  rw [mem_keys, mem_keys, get_modify]
  split_ifs <;> simp

def weigh (m : Table K V) (f : V → ℕ) : ℕ := ∑ k ∈ m.keys, ((m.get k).map f).getD 0

theorem weigh_split (m : Table K V) (f : V → ℕ) (k : K) :
    m.weigh f = ((m.get k).map f).getD 0 + ∑ a ∈ m.keys.erase k, ((m.get a).map f).getD 0 := by
  unfold weigh
  by_cases hk : k ∈ m.keys
  · exact (Finset.add_sum_erase m.keys (fun a => ((m.get a).map f).getD 0) hk).symm
  · rw [Finset.erase_eq_of_notMem hk, (get_eq_none_iff m k).2 hk]
    simp

theorem weigh_insert (m : Table K V) (f : V → ℕ) (k : K) (v : V) :
    (m.insert k v).weigh f + ((m.get k).map f).getD 0 = m.weigh f + f v := by
  have hothers : ∑ a ∈ (m.insert k v).keys.erase k, (((m.insert k v).get a).map f).getD 0 =
      ∑ a ∈ m.keys.erase k, ((m.get a).map f).getD 0 := by
    rw [keys_insert, Finset.erase_insert_eq_erase]
    apply Finset.sum_congr rfl
    intro a ha
    rw [get_insert_ne m v (Finset.ne_of_mem_erase ha)]
  rw [weigh_split (m.insert k v) f k, weigh_split m f k, hothers, get_insert_self]
  simp only [Option.map_some, Option.getD_some]
  omega

theorem weigh_erase (m : Table K V) (f : V → ℕ) (k : K) :
    (m.erase k).weigh f + ((m.get k).map f).getD 0 = m.weigh f := by
  have hothers : ∑ a ∈ (m.erase k).keys.erase k, (((m.erase k).get a).map f).getD 0 =
      ∑ a ∈ m.keys.erase k, ((m.get a).map f).getD 0 := by
    rw [keys_erase, Finset.erase_idem]
    apply Finset.sum_congr rfl
    intro a ha
    rw [get_erase_ne m (Finset.ne_of_mem_erase ha)]
  rw [weigh_split (m.erase k) f k, weigh_split m f k, hothers, get_erase_self]
  simp only [Option.map_none, Option.getD_none]
  omega

end Table
end Sandstar
