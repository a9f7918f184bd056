import Sandstar.Rekeying
import Sandstar.Trio
import Sandstar.Decimals
import Sandstar.Runs

set_option autoImplicit false

/-!
# The string table of roxWarp

Names with their one-byte indices, and dictionaries whose keys are replaced by references to
the table. Values are not looked into. What MessagePack makes of a dictionary is a parameter.
-/
namespace Sandstar.StringTables

open Rekeying Trio

def defaultTable : List String :=
  ["type", "nodeId", "version", "versions", "fromVersion", "toVersion", "points", "channel",
    "value", "unit", "status", "timestamp", "capabilities", "load", "wantFrom", "address"]

structure StringTable where
  byIndex : List String
  byName : Table String UInt8

namespace StringTable

def add (t : StringTable) (name : String) : Option UInt8 × StringTable :=
  match t.byName.get name with
  | some idx => (some idx, t)
  | none =>
    if 256 ≤ t.byIndex.length then (none, t)
    else
      let idx := UInt8.ofNat t.byIndex.length
      (some idx, ⟨t.byIndex ++ [name], t.byName.insert name idx⟩)

def new : StringTable := defaultTable.foldl (fun t name => (t.add name).2) ⟨[], Table.empty⟩

def encode (t : StringTable) (name : String) : Option UInt8 := t.byName.get name

def decode (t : StringTable) (idx : UInt8) : Option String := t.byIndex[idx.toNat]?

def merge (t : StringTable) (peerEntries : List String) : ℕ × StringTable :=
  peerEntries.foldl (fun (added, t) entry =>
    if (t.byName.get entry).isSome then (added, t)
    else match t.add entry with
      | (some _, t) => (added + 1, t)
      | (none, t) => (added, t)) (0, t)

def deserialized (byIndex : List String) : StringTable := ⟨byIndex, Table.empty⟩

def rebuildIndex (t : StringTable) : StringTable :=
  { t with byName := t.byIndex.zipIdx.foldl (fun m e => m.insert e.1 (UInt8.ofNat e.2)) Table.empty }

/-- The key that `encode_with_table` writes for a key. -/
def compactKey (t : StringTable) (key : String) : String :=
  match t.encode key with
  | some idx => String.ofList ('~' :: (toString idx.toNat).toList)
  | none => key

def referent (t : StringTable) (key : String) : Option String :=
  match key.toList with
  | '~' :: idxStr => (parseUnsigned (2 ^ 8) idxStr).bind fun idx => t.decode (UInt8.ofNat idx)
  | _ => none

/-- The key that `decode_with_table` reads a key as. -/
def expandKey (t : StringTable) (key : String) : String := (t.referent key).getD key

end StringTable

section Coding

structure Rmp (V Bytes : Type) where
  toVec : Table String V → Except String Bytes
  fromSlice : Bytes → Except String (Table String V)

inductive RoxWarpError
  | encode (message : String)
  | decode (message : String)

variable {V Bytes : Type} (rmp : Rmp V Bytes)

def encodeWithTable (order : Table.KeyOrder String V) (dict : Table String V) (t : StringTable) :
    Except RoxWarpError Bytes :=
  (rmp.toVec (rekey t.compactKey (order.walk dict) dict)).mapError .encode

def decodeWithTable (order : Table.KeyOrder String V) (bytes : Bytes) (t : StringTable) :
    Except RoxWarpError (Table String V) :=
  match rmp.fromSlice bytes with
  | .error message => .error (.decode message)
  | .ok raw => .ok (rekey t.expandKey (order.walk raw) raw)

def Rmp.Lossless : Prop :=
  ∀ dict, ∃ bytes, rmp.toVec dict = .ok bytes ∧ rmp.fromSlice bytes = .ok dict

/-- A dictionary is written and comes back the same. The two walks are those of the map that
    is written and of the map that is read. -/
def RoundTrip (order order' : Table.KeyOrder String V) (t : StringTable) (dict : Table String V) :
    Prop :=
  ∃ bytes, encodeWithTable rmp order dict t = .ok bytes ∧
    ∃ dict', decodeWithTable rmp order' bytes t = .ok dict' ∧ dict' = dict

end Coding

section Tables

variable {t : StringTable}

/-- The names and the indices of a table agree. -/
structure StringTable.Bidirectional (t : StringTable) : Prop where
  length : t.byIndex.length ≤ 256
  agree : ∀ name idx, t.encode name = some idx ↔ t.decode idx = some name

theorem bidirectional_empty : StringTable.Bidirectional ⟨[], Table.empty⟩ :=
  ⟨Nat.zero_le _, fun _ _ => iff_of_false nofun nofun⟩

theorem bidirectional_add (h : t.Bidirectional) (name : String) : (t.add name).2.Bidirectional := by
  unfold StringTable.add
  cases hname : t.byName.get name with
  | some idx => exact h
  | none =>
    dsimp only
    split
    · exact h
    · rename_i hroom
      have hidx : (UInt8.ofNat t.byIndex.length).toNat = t.byIndex.length := by
        rw [UInt8.toNat_ofNat']
        omega
      refine ⟨by rw [List.length_append, List.length_singleton]; omega, fun name' idx => ?_⟩
      have hagree := h.agree name' idx
      simp only [StringTable.encode, StringTable.decode] at hagree ⊢
      rw [Table.get_insert, List.getElem?_append]
      by_cases hlt : idx.toNat < t.byIndex.length
      · rw [if_pos hlt, ← hagree]
        by_cases hsame : name' = name
        · have hne : UInt8.ofNat t.byIndex.length ≠ idx := by
            rintro rfl
            omega
          rw [if_pos hsame, hsame, hname]
          exact iff_of_false (fun heq => hne (Option.some.inj heq)) (Option.some_ne_none idx).symm
        · rw [if_neg hsame]
      · have hnone : t.byName.get name' ≠ some idx := by
          rw [Ne, hagree, List.getElem?_eq_none (not_lt.1 hlt)]
          exact (Option.some_ne_none name').symm
        rw [if_neg hlt]
        by_cases hsame : name' = name
        · rw [if_pos hsame, hsame]
          constructor
          · rintro heq
            rw [← Option.some.inj heq, hidx, Nat.sub_self]
            rfl
          · intro heq
            have hzero : idx.toNat - t.byIndex.length = 0 := by
              have hin := (List.getElem?_eq_some_iff.1 heq).1
              simpa using hin
            have hval : UInt8.ofNat t.byIndex.length = idx :=
              UInt8.toNat_inj.1 (by omega)
            rw [hval]
        · rw [if_neg hsame]
          refine iff_of_false hnone fun heq => hsame ?_
          obtain ⟨hin, heq⟩ := List.getElem?_eq_some_iff.1 heq
          rw [List.getElem_singleton] at heq
          exact heq.symm

theorem bidirectional_adds (names : List String) (h : t.Bidirectional) :
    (names.foldl (fun t name => (t.add name).2) t).Bidirectional := by
  induction names generalizing t with
  | nil => exact h
  | cons name names ih => exact ih (bidirectional_add h name)

theorem bidirectional_new : StringTable.new.Bidirectional :=
  bidirectional_adds defaultTable bidirectional_empty

theorem bidirectional_merge (h : t.Bidirectional) (entries : List String) :
    (t.merge entries).2.Bidirectional := by
  suffices hloop : ∀ (added : ℕ) (t : StringTable), t.Bidirectional →
      (entries.foldl (fun (added, t) entry =>
        if (t.byName.get entry).isSome then (added, t)
        else match t.add entry with
          | (some _, t) => (added + 1, t)
          | (none, t) => (added, t)) (added, t)).2.Bidirectional from hloop 0 t h
  induction entries with
  | nil => exact fun _ _ h => h
  | cons entry entries ih =>
    intro added t h
    have hadd := bidirectional_add h entry
    rw [List.foldl_cons]
    dsimp only
    split
    · exact ih added t h
    · rcases hres : t.add entry with ⟨_ | idx, t'⟩
      · rw [hres] at hadd
        exact ih added t' hadd
      · rw [hres] at hadd
        exact ih (added + 1) t' hadd

/-- The names of a list under their positions, counted from `start`. -/
theorem get_foldl_zipIdx {names : List String} (hnodup : names.Nodup) (start : ℕ)
    (m : Table String UInt8) (name : String) :
    ((names.zipIdx start).foldl (fun m e => m.insert e.1 (UInt8.ofNat e.2)) m).get name =
      if name ∈ names then some (UInt8.ofNat (start + names.idxOf name)) else m.get name := by
  induction names generalizing start m with
  | nil => rfl
  | cons first names ih =>
    obtain ⟨hnew, hrest⟩ := List.nodup_cons.1 hnodup
    rw [List.zipIdx_cons, List.foldl_cons, ih hrest]
    by_cases hsame : name = first
    · rw [if_neg (hsame ▸ hnew), if_pos (hsame ▸ List.mem_cons_self), hsame, Table.get_insert_self,
        List.idxOf_cons_self, Nat.add_zero]
    · have hmem : name ∈ first :: names ↔ name ∈ names := by simp [hsame]
      have hidx : (first :: names).idxOf name = names.idxOf name + 1 :=
        List.idxOf_cons_ne names (Ne.symm hsame)
      simp only [hmem, hidx, Table.get_insert_ne m _ hsame, Nat.add_assoc, Nat.add_comm 1]

/-- A table that is read back and rebuilt agrees with itself if its names differ and fit. -/
theorem bidirectional_rebuild {byIndex : List String} (hnodup : byIndex.Nodup)
    (hlength : byIndex.length ≤ 256) :
    (StringTable.deserialized byIndex).rebuildIndex.Bidirectional := by
  refine ⟨hlength, fun name idx => ?_⟩
  change ((byIndex.zipIdx 0).foldl (fun m e => m.insert e.1 (UInt8.ofNat e.2)) Table.empty).get
    name = some idx ↔ byIndex[idx.toNat]? = some name
  rw [get_foldl_zipIdx hnodup]
  by_cases hname : name ∈ byIndex
  · have hlt : byIndex.idxOf name < byIndex.length := List.idxOf_lt_length_iff.2 hname
    rw [if_pos hname, Nat.zero_add]
    constructor
    · intro heq
      have hval : idx.toNat = byIndex.idxOf name := by
        rw [← Option.some.inj heq, UInt8.toNat_ofNat']
        omega
      rw [hval, List.getElem?_eq_getElem hlt, List.getElem_idxOf hlt]
    · intro heq
      obtain ⟨hin, heq⟩ := List.getElem?_eq_some_iff.1 heq
      have hval : byIndex.idxOf name = idx.toNat := by
        rw [← heq, hnodup.idxOf_getElem]
      rw [hval, UInt8.ofNat_toNat]
  · rw [if_neg hname]
    refine iff_of_false nofun fun heq => hname ?_
    exact List.mem_of_getElem? heq

theorem StringTable.Bidirectional.nodup (h : t.Bidirectional) : t.byIndex.Nodup := by
  have hencode : ∀ (i : ℕ) (hi : i < t.byIndex.length),
      t.encode t.byIndex[i] = some (UInt8.ofNat i) := by
    intro i hi
    have hlength := h.length
    have hval : (UInt8.ofNat i).toNat = i := by
      rw [UInt8.toNat_ofNat']
      omega
    rw [h.agree]
    unfold StringTable.decode
    rw [hval, List.getElem?_eq_getElem hi]
  rw [List.nodup_iff_pairwise_ne, List.pairwise_iff_getElem]
  intro i j hi hj hij heq
  have hsame := (hencode i hi).symm.trans ((congrArg t.encode heq).trans (hencode j hj))
  have hval := congrArg UInt8.toNat (Option.some.inj hsame)
  have hlength := h.length
  rw [UInt8.toNat_ofNat', UInt8.toNat_ofNat'] at hval
  omega

/-- What a table goes through; `exchange` serializes it, reads it back and rebuilds its index. -/
inductive TableEvent
  | add (name : String)
  | merge (peerEntries : List String)
  | exchange

def TableEvent.apply (t : StringTable) : TableEvent → StringTable
  | .add name => (t.add name).2
  | .merge peerEntries => (t.merge peerEntries).2
  | .exchange => (StringTable.deserialized t.byIndex).rebuildIndex

theorem bidirectional_apply (t : StringTable) (e : TableEvent) (h : t.Bidirectional) :
    (TableEvent.apply t e).Bidirectional := by
  cases e with
  | add name => exact bidirectional_add h name
  | merge peerEntries => exact bidirectional_merge h peerEntries
  | exchange => exact bidirectional_rebuild h.nodup h.length

theorem bidirectional_history (events : List TableEvent) :
    ∀ t ∈ Runs.states TableEvent.apply .new events, t.Bidirectional :=
  Runs.states_always TableEvent.apply bidirectional_apply bidirectional_new events

end Tables

section Keys

variable {t : StringTable}

theorem parse_toString {n limit : ℕ} (hn : n < limit) :
    parseUnsigned limit (toString n).toList = some n := by
  have hdigits : (Nat.toDigits 10 n).isEmpty = false :=
    List.isEmpty_eq_false_iff.2 Nat.toDigits_ne_nil
  have hplus : (Nat.toDigits 10 n).head? ≠ some '+' := Decimals.head_ne (by decide) n
  unfold parseUnsigned
  simp only [Decimals.toList_nat, if_neg hplus, hdigits, Decimals.all_isDigit,
    Decimals.sum_digits, Bool.not_true, Bool.or_self, Bool.false_eq_true, if_false, hn, if_true]

theorem referent_compactKey {key : String} {idx : UInt8} (h : t.encode key = some idx) :
    t.referent (t.compactKey key) = t.decode idx := by
  unfold StringTable.referent StringTable.compactKey
  rw [h]
  simp only [String.toList_ofList]
  rw [parse_toString idx.toNat_lt, Option.bind_some, UInt8.ofNat_toNat]

theorem referent_entry {key name : String} (h : t.referent key = some name) :
    ∃ idx, t.decode idx = some name := by
  unfold StringTable.referent at h
  split at h
  · obtain ⟨idx, -, hidx⟩ := Option.bind_eq_some_iff.1 h
    exact ⟨_, hidx⟩
  · cases h

theorem expandKey_compactKey (h : t.Bidirectional) (key : String) :
    t.expandKey (t.compactKey key) =
      if (t.encode key).isSome then key else (t.referent key).getD key := by
  unfold StringTable.expandKey
  cases hkey : t.encode key with
  | some idx =>
    rw [referent_compactKey hkey, (h.agree key idx).1 hkey]
    rfl
  | none =>
    unfold StringTable.compactKey
    rw [hkey]
    rfl

end Keys

section RoundTrips

variable {V Bytes : Type} {rmp : Rmp V Bytes} {order order' : Table.KeyOrder String V}
  {t : StringTable} {dict : Table String V}

/-- No two keys come back as one, and each comes back as a key with its value. -/
def KeysReturn (t : StringTable) (dict : Table String V) : Prop :=
  Set.InjOn (t.expandKey ∘ t.compactKey) dict.keys ∧
    ∀ key ∈ dict.keys, dict.get (t.expandKey (t.compactKey key)) = dict.get key

/-- No key outside the table is a reference to an entry. -/
def NoReferences (t : StringTable) (dict : Table String V) : Prop :=
  ∀ key ∈ dict.keys, t.encode key = none → t.referent key = none

theorem roundTrip_iff_keysReturn (hrmp : rmp.Lossless) :
    RoundTrip rmp order order' t dict ↔ KeysReturn t dict := by
  obtain ⟨bytes, hto, hfrom⟩ := hrmp (rekey t.compactKey (order.walk dict) dict)
  have hback := rekey_rekey_eq_iff (f := t.compactKey) (g := t.expandKey) (order.mem dict)
    (order.nodup dict) (order'.nodup _) (order'.mem (rekey t.compactKey (order.walk dict) dict))
  unfold RoundTrip encodeWithTable decodeWithTable KeysReturn
  rw [← hback, hto]
  constructor
  · rintro ⟨bytes', hbytes, dict', hdict, heq⟩
    cases hbytes
    rw [hfrom] at hdict
    cases hdict
    exact heq
  · intro heq
    refine ⟨bytes, rfl, _, ?_, heq⟩
    rw [hfrom]

theorem keysReturn_iff (h : t.Bidirectional) : KeysReturn t dict ↔ NoReferences t dict := by
  constructor
  · rintro ⟨hinj, hvalues⟩ key hkey hnone
    by_contra href
    obtain ⟨name, hname⟩ := Option.ne_none_iff_exists'.1 href
    have hback : t.expandKey (t.compactKey key) = name := by
      rw [expandKey_compactKey h, hnone, hname]
      rfl
    -- the entry is in the table, so it comes back as itself and meets the key
    obtain ⟨idx, hidx⟩ := referent_entry hname
    have hentry : t.encode name = some idx := (h.agree name idx).2 hidx
    have hname' : name ∈ dict.keys := by
      obtain ⟨v, hv⟩ := (Table.mem_keys dict key).1 hkey
      exact (Table.mem_keys dict name).2 ⟨v, by rw [← hback, hvalues key hkey, hv]⟩
    have hsame : key = name := by
      apply hinj hkey hname'
      change t.expandKey (t.compactKey key) = t.expandKey (t.compactKey name)
      rw [hback, expandKey_compactKey h, hentry]
      rfl
    rw [hsame, hentry] at hnone
    cases hnone
  · intro hno
    have hsame : ∀ key ∈ dict.keys, t.expandKey (t.compactKey key) = key := by
      intro key hkey
      rw [expandKey_compactKey h]
      cases hentry : t.encode key with
      | some idx => rfl
      | none =>
        rw [hno key hkey hentry]
        rfl
    constructor
    · intro a ha b hb heq
      exact (hsame a ha).symm.trans (heq.trans (hsame b hb))
    · intro key hkey
      rw [hsame key hkey]

/-- Whatever the table, a dictionary comes back the same exactly if its keys return; and where
    the two directions of the table agree, exactly if no key outside it is a reference. -/
theorem tableRoundTrip_iff (hrmp : rmp.Lossless) (order order' : Table.KeyOrder String V)
    (t : StringTable) (dict : Table String V) :
    (RoundTrip rmp order order' t dict ↔ KeysReturn t dict) ∧
    (t.Bidirectional → (RoundTrip rmp order order' t dict ↔ NoReferences t dict)) := by
  have hiff : RoundTrip rmp order order' t dict ↔ KeysReturn t dict := roundTrip_iff_keysReturn hrmp
  exact ⟨hiff, fun h => hiff.trans (keysReturn_iff h)⟩

end RoundTrips

section Examples

def plainRmp (V : Type) : Rmp V (Table String V) := ⟨.ok, .ok⟩

theorem plainRmp_lossless (V : Type) : (plainRmp V).Lossless := fun dict => ⟨dict, rfl, rfl⟩

/-- A message with two keys of the table and one of its own comes back. -/
theorem roundTrip_message :
    RoundTrip (plainRmp String) (.ascending String String) (.ascending String String) .new
      (((Table.empty.insert "type" "cov").insert "value" "73.2").insert "custom_tag" "hello") := by
  refine ((tableRoundTrip_iff (plainRmp_lossless String) _ _ _ _).2 bidirectional_new).2 ?_
  intro key hkey hnone
  simp only [Table.keys_insert, Finset.mem_insert] at hkey
  rcases hkey with rfl | rfl | rfl | hkey
  · decide
  · exact absurd hnone (by decide)
  · exact absurd hnone (by decide)
  · exact absurd hkey (Finset.notMem_empty key)

/-- A key that looks like a reference comes back as the name of the entry. -/
theorem reference_not_roundTrip :
    StringTable.new.Bidirectional ∧ (plainRmp String).Lossless ∧
    StringTable.new.expandKey (StringTable.new.compactKey "~0") = "type" ∧
    ¬RoundTrip (plainRmp String) (.ascending String String) (.ascending String String) .new
      (Table.empty.insert "~0" "x") := by
  refine ⟨bidirectional_new, plainRmp_lossless String, by decide, ?_⟩
  rw [roundTrip_iff_keysReturn (plainRmp_lossless String), keysReturn_iff bidirectional_new]
  intro hno
  have hnone := hno "~0" (by simp [Table.keys_insert]) (by decide)
  have hsome : StringTable.new.referent "~0" = some "type" := by decide
  rw [hsome] at hnone
  cases hnone

end Examples

end Sandstar.StringTables
