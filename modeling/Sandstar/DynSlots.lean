import Sandstar.Table
import Sandstar.Runs

set_option autoImplicit false

/-!
# Dynamic tags

The side-car store of tags by component, with its limits and its running total.
Translated from `dyn_slots.rs`. A subtraction below zero is a fault of its own,
so that a run that never faults never underflows a counter.
-/
namespace Sandstar
open Runs

/-- `DynValue`, with a float by its bit pattern. -/
inductive DynValue
  | null
  | marker
  | bool (b : Bool)
  | int (i : Int64)
  | float (bits : UInt64)
  | str (s : String)
  | ref (r : String)
deriving DecidableEq

inductive NumericOp
  | add
  | sub
  | mul
  | div
deriving DecidableEq

inductive ComputedFormula
  | constant (value : DynValue)
  | copyTag (tag : String)
  | concat (tags : List String)
  | numericOp (left : String) (op : NumericOp) (right : String)
  | tagExists (tag : String) (trueVal falseVal : DynValue)
deriving DecidableEq

structure ComputedSlot where
  name : String
  formula : ComputedFormula
deriving DecidableEq

structure TagNameInterner where
  names : List String
  lookup : Table String UInt16

namespace TagNameInterner

/-- The id of a name; a new one takes the number of names, cut to sixteen bits. -/
def intern (t : TagNameInterner) (name : String) : TagNameInterner × UInt16 :=
  match t.lookup.get name with
  | some id => (t, id)
  | none =>
    let id := UInt16.ofNat t.names.length
    (⟨t.names ++ [name], t.lookup.insert name id⟩, id)

def internAll (t : TagNameInterner) (names : List String) : TagNameInterner :=
  names.foldl (fun t name => (t.intern name).1) t

def commonTagNames : List String :=
  ["dis", "navName", "unit", "kind", "point", "sensor", "cmd", "equip", "site", "geoAddr",
    "geoCoord", "tz", "modbusAddr", "modbusReg", "modbusType", "modbusScale", "bacnetObj",
    "bacnetType", "bacnetProp", "devEUI", "appEUI", "devAddr", "mqttTopic", "mqttQos", "channel",
    "direction", "enabled", "status"]

def new : TagNameInterner := internAll ⟨[], Table.empty⟩ commonTagNames

end TagNameInterner

abbrev Tags := Table String DynValue

structure DynSlotStore where
  slots : Table UInt16 Tags
  maxPerComp : ℕ
  maxTotal : ℕ
  total : ℕ
  dirty : Bool
  interner : TagNameInterner
  computed : Table UInt16 (List ComputedSlot)

/-- What `load` finds at its path. The tag names come in the order of the file's maps. -/
inductive PersistFile
  | missing
  | unreadable (message : String)
  | corrupt
  | data (slots : Table UInt16 Tags) (names : List String)

def checkedSub (a b : ℕ) : Option ℕ := if b ≤ a then some (a - b) else none

namespace DynSlotStore

def new (maxPerComp maxTotal : ℕ) : DynSlotStore :=
  ⟨Table.empty, maxPerComp, maxTotal, 0, false, TagNameInterner.new, Table.empty⟩

def withDefaults : DynSlotStore := new 64 10000

def tagCount (s : DynSlotStore) (compId : UInt16) : ℕ :=
  ((s.slots.get compId).map Table.size).getD 0

def totalCount (s : DynSlotStore) : ℕ := s.total

/-- `set`: the component's entry is made before the limits are checked. -/
def set (s : DynSlotStore) (compId : UInt16) (key : String) (value : DynValue) :
    DynSlotStore × Except String (Option DynValue) :=
  let s := { s with interner := (s.interner.intern key).1 }
  let tags := (s.slots.get compId).getD Table.empty
  let s := { s with slots := s.slots.insert compId tags }
  match tags.get key with
  | some prev =>
    ({ s with slots := s.slots.insert compId (tags.insert key value), dirty := true },
      .ok (some prev))
  | none =>
    if s.maxPerComp ≤ tags.size then
      (s, .error ("component " ++ toString compId.toNat ++ " has " ++ toString tags.size ++
        " tags (max " ++ toString s.maxPerComp ++ ")"))
    else if s.maxTotal ≤ s.total then
      (s, .error ("total tag count " ++ toString s.total ++ " reached limit " ++
        toString s.maxTotal))
    else
      ({ s with
          slots := s.slots.insert compId (tags.insert key value),
          total := s.total + 1, dirty := true }, .ok none)

/-- `remove`; `none` where the total would go below zero. -/
def remove (s : DynSlotStore) (compId : UInt16) (key : String) :
    Option (DynSlotStore × Option DynValue) :=
  match s.slots.get compId with
  | none => some (s, none)
  | some tags => match tags.get key with
    | none => some (s, none)
    | some removed => match checkedSub s.total 1 with
      | none => none
      | some total =>
        let tags := tags.erase key
        let slots := s.slots.insert compId tags
        let slots := if tags.size = 0 then slots.erase compId else slots
        some ({ s with slots := slots, total := total, dirty := true }, some removed)

/-- `set_all` with the given tags, whose names come in the order of their map. -/
def setAll (s : DynSlotStore) (compId : UInt16) (tags : Tags) (names : List String) :
    Option (DynSlotStore × Except String Unit) :=
  if s.maxPerComp < tags.size then
    some (s, .error ("tag count " ++ toString tags.size ++ " exceeds per-component limit " ++
      toString s.maxPerComp))
  else match checkedSub s.total (s.tagCount compId) with
    | none => none
    | some others =>
      let newTotal := others + tags.size
      if s.maxTotal < newTotal then
        some (s, .error ("new total " ++ toString newTotal ++ " would exceed limit " ++
          toString s.maxTotal))
      else
        let slots := if tags.size = 0 then s.slots.erase compId else s.slots.insert compId tags
        some ({ s with
          slots := slots, interner := s.interner.internAll names, total := newTotal,
          dirty := true }, .ok ())

def removeAll (s : DynSlotStore) (compId : UInt16) : Option DynSlotStore :=
  match s.slots.get compId with
  | none => some { s with computed := s.computed.erase compId }
  | some tags => match checkedSub s.total tags.size with
    | none => none
    | some total =>
      some { s with
        slots := s.slots.erase compId, total := total, dirty := true,
        computed := s.computed.erase compId }

/-- `load`: the file's maps are taken as they are, and counted. -/
def load (s : DynSlotStore) (path : String) : PersistFile → DynSlotStore × Except String ℕ
  | .missing => (s, .ok 0)
  | .unreadable message => (s, .error ("read " ++ path ++ ": " ++ message))
  | .corrupt => (s, .ok 0)
  | .data slots names =>
    let total := slots.weigh Table.size
    ({ s with
        slots := slots, interner := s.interner.internAll names, total := total, dirty := false },
      .ok total)

inductive Op
  | set (compId : UInt16) (key : String) (value : DynValue)
  | remove (compId : UInt16) (key : String)
  | setAll (compId : UInt16) (tags : Tags) (names : List String)
  | removeAll (compId : UInt16)
  | load (path : String) (file : PersistFile)

/-- The store after a call; `none` once a counter has underflowed. -/
def step (s : Option DynSlotStore) (op : Op) : Option DynSlotStore :=
  match s with
  | none => none
  | some s => match op with
    | .set compId key value => some (s.set compId key value).1
    | .remove compId key => (s.remove compId key).map Prod.fst
    | .setAll compId tags names => (s.setAll compId tags names).map Prod.fst
    | .removeAll compId => s.removeAll compId
    | .load path file => some (s.load path file).1

section Accounting

/-- The running total is the number of tags, within both limits, and no
    component keeps an empty map. -/
structure Accounted (s : DynSlotStore) : Prop where
  total : s.totalCount = s.slots.weigh Table.size
  perComp : ∀ c tags, s.slots.get c = some tags → tags.size ≤ s.maxPerComp
  bounded : s.totalCount ≤ s.maxTotal
  nonempty : ∀ c tags, s.slots.get c = some tags → 0 < tags.size

theorem new_accounted (maxPerComp maxTotal : ℕ) : Accounted (new maxPerComp maxTotal) where
  total := rfl
  perComp c tags h := by
    rw [show (new maxPerComp maxTotal).slots.get c = none from rfl] at h
    cases h
  bounded := Nat.zero_le _
  nonempty c tags h := by
    rw [show (new maxPerComp maxTotal).slots.get c = none from rfl] at h
    cases h

theorem Accounted.tagCount_le {s : DynSlotStore} (h : Accounted s) (c : UInt16) :
    s.tagCount c ≤ s.total := by
  have hsplit := Table.weigh_split s.slots Table.size c
  have htotal : s.total = s.slots.weigh Table.size := h.total
  unfold tagCount
  omega

theorem checkedSub_of_le {a b : ℕ} (h : b ≤ a) : checkedSub a b = some (a - b) := if_pos h

/-- Replacing one component's tags: the new total follows the difference, and
    the limits have to be met by the new map alone. -/
theorem Accounted.replace {s : DynSlotStore} (h : Accounted s) {c : UInt16} {tags : Tags}
    {total : ℕ} (htotal : total + s.tagCount c = s.total + tags.size)
    (hpos : 0 < tags.size) (hper : tags.size ≤ s.maxPerComp) (hmax : total ≤ s.maxTotal)
    (dirty : Bool) (interner : TagNameInterner) :
    Accounted { s with
      slots := s.slots.insert c tags, total := total, dirty := dirty, interner := interner } where
  total := by
    have hweigh := Table.weigh_insert s.slots Table.size c tags
    have hsum : s.total = s.slots.weigh Table.size := h.total
    change total = _
    unfold tagCount at htotal
    change total = (s.slots.insert c tags).weigh Table.size
    omega
  perComp a t ha := by
    change (s.slots.insert c tags).get a = some t at ha
    rw [Table.get_insert] at ha
    split_ifs at ha with hac
    · cases ha
      exact hper
    · exact h.perComp a t ha
  bounded := hmax
  nonempty a t ha := by
    change (s.slots.insert c tags).get a = some t at ha
    rw [Table.get_insert] at ha
    split_ifs at ha with hac
    · cases ha
      exact hpos
    · exact h.nonempty a t ha

theorem Accounted.drop {s : DynSlotStore} (h : Accounted s) {c : UInt16} {total : ℕ}
    (htotal : total + s.tagCount c = s.total) (dirty : Bool) (interner : TagNameInterner)
    (computed : Table UInt16 (List ComputedSlot)) :
    Accounted { s with
      slots := s.slots.erase c, total := total, dirty := dirty, interner := interner,
      computed := computed } where
  total := by
    have hweigh := Table.weigh_erase s.slots Table.size c
    have hsum : s.total = s.slots.weigh Table.size := h.total
    unfold tagCount at htotal
    change total = (s.slots.erase c).weigh Table.size
    omega
  perComp a t ha := by
    change (s.slots.erase c).get a = some t at ha
    rw [Table.get_erase] at ha
    split_ifs at ha
    exact h.perComp a t ha
  bounded := by
    have hmax : s.total ≤ s.maxTotal := h.bounded
    change total ≤ s.maxTotal
    omega
  nonempty a t ha := by
    change (s.slots.erase c).get a = some t at ha
    rw [Table.get_erase] at ha
    split_ifs at ha
    exact h.nonempty a t ha

theorem size_empty : (Table.empty : Tags).size = 0 := rfl

theorem Accounted.interned {s : DynSlotStore} (h : Accounted s) (interner : TagNameInterner) :
    Accounted { s with interner := interner } := ⟨h.total, h.perComp, h.bounded, h.nonempty⟩

/-- `set` keeps the accounts unless it makes an entry for a tagless component
    and then fails. -/
theorem set_accounted {s : DynSlotStore} (h : Accounted s) {c : UInt16}
    (hroom : s.slots.get c = none → 0 < s.maxPerComp ∧ s.total < s.maxTotal)
    (key : String) (value : DynValue) : Accounted (s.set c key value).1 := by
  unfold set
  dsimp only
  cases hc : s.slots.get c with
  | none =>
    obtain ⟨hper, hmax⟩ := hroom hc
    have hcount : s.tagCount c = 0 := by simp [tagCount, hc]
    have hone : ((Table.empty : Tags).insert key value).size = 1 :=
      Table.size_insert_absent (Table.get_empty key) value
    simp only [Option.getD_none, Table.get_empty, Table.insert_insert, size_empty]
    rw [if_neg (by omega), if_neg (by omega)]
    exact h.replace (by omega) (by omega) (by omega) (by omega) true _
  | some tags =>
    have hcount : s.tagCount c = tags.size := by simp [tagCount, hc]
    simp only [Option.getD_some, Table.insert_present hc]
    cases hk : tags.get key with
    | some prev =>
      have hsize := Table.size_insert_present hk value
      refine h.replace ?_ ?_ ?_ h.bounded true _
      · change s.total + s.tagCount c = s.total + _
        omega
      · rw [hsize]
        exact h.nonempty c tags hc
      · rw [hsize]
        exact h.perComp c tags hc
    | none =>
      have hsize := Table.size_insert_absent hk value
      dsimp only
      split_ifs with hper hmax
      · exact h.interned _
      · exact h.interned _
      · exact h.replace (by omega) (by omega) (by omega) (by omega) true _

theorem set_full {s : DynSlotStore} {c : UInt16} (hc : s.slots.get c = none)
    (hfull : ¬ (0 < s.maxPerComp ∧ s.total < s.maxTotal)) (key : String) (value : DynValue) :
    (s.set c key value).1.slots.get c = some Table.empty := by
  unfold set
  simp only [hc, Option.getD_none, Table.get_empty, size_empty]
  split_ifs with hper hmax
  · exact Table.get_insert_self _ _ _
  · exact Table.get_insert_self _ _ _
  · exact absurd ⟨by omega, by omega⟩ hfull

theorem remove_accounted {s : DynSlotStore} (h : Accounted s) (c : UInt16) (key : String) :
    ∃ r, s.remove c key = some r ∧ Accounted r.1 := by
  unfold remove
  cases hc : s.slots.get c with
  | none => exact ⟨_, rfl, h⟩
  | some tags =>
    dsimp only
    cases hk : tags.get key with
    | none => exact ⟨_, rfl, h⟩
    | some removed =>
      have hle := h.tagCount_le c
      have hcount : s.tagCount c = tags.size := by simp [tagCount, hc]
      have hsize := Table.size_erase_present hk
      have hper := h.perComp c tags hc
      have hmax : s.total ≤ s.maxTotal := h.bounded
      rw [checkedSub_of_le (by omega)]
      refine ⟨_, rfl, ?_⟩
      by_cases hzero : (tags.erase key).size = 0
      · have herase : (s.slots.insert c (tags.erase key)).erase c = s.slots.erase c := by
          apply Table.ext
          intro a
          simp only [Table.get_erase, Table.get_insert]
          split_ifs <;> rfl
        simp only [hzero, if_true, herase]
        exact h.drop (by omega) true s.interner s.computed
      · simp only [hzero, if_false]
        exact h.replace (by omega) (by omega) (by omega) (by omega) true s.interner

theorem setAll_accounted {s : DynSlotStore} (h : Accounted s) (c : UInt16) (tags : Tags)
    (names : List String) : ∃ r, s.setAll c tags names = some r ∧ Accounted r.1 := by
  unfold setAll
  by_cases hper : s.maxPerComp < tags.size
  · rw [if_pos hper]
    exact ⟨_, rfl, h⟩
  · rw [if_neg hper, checkedSub_of_le (h.tagCount_le c)]
    dsimp only
    have hle := h.tagCount_le c
    by_cases hmax : s.maxTotal < s.total - s.tagCount c + tags.size
    · rw [if_pos hmax]
      exact ⟨_, rfl, h⟩
    · rw [if_neg hmax]
      refine ⟨_, rfl, ?_⟩
      by_cases hzero : tags.size = 0
      · simp only [hzero, if_true]
        exact h.drop (by omega) true _ s.computed
      · simp only [hzero, if_false]
        exact h.replace (by omega) (by omega) (by omega) (by omega) true _

theorem removeAll_accounted {s : DynSlotStore} (h : Accounted s) (c : UInt16) :
    ∃ t, s.removeAll c = some t ∧ Accounted t := by
  unfold removeAll
  cases hc : s.slots.get c with
  | none => exact ⟨_, rfl, ⟨h.total, h.perComp, h.bounded, h.nonempty⟩⟩
  | some tags =>
    have hle := h.tagCount_le c
    have hcount : s.tagCount c = tags.size := by simp [tagCount, hc]
    dsimp only
    rw [checkedSub_of_le (by omega)]
    exact ⟨_, rfl, h.drop (by omega) true s.interner _⟩

/-- What a file has to hold to be taken over as it stands. -/
def Loadable (s : DynSlotStore) (slots : Table UInt16 Tags) : Prop :=
  (∀ c tags, slots.get c = some tags → 0 < tags.size ∧ tags.size ≤ s.maxPerComp) ∧
    slots.weigh Table.size ≤ s.maxTotal

theorem load_accounted_iff (s : DynSlotStore) (path : String) (slots : Table UInt16 Tags)
    (names : List String) :
    Accounted (s.load path (.data slots names)).1 ↔ s.Loadable slots := by
  constructor
  · intro h
    exact ⟨fun c tags hc => ⟨h.nonempty c tags hc, h.perComp c tags hc⟩, h.bounded⟩
  · intro h
    exact ⟨rfl, fun c tags hc => (h.1 c tags hc).2, h.2, fun c tags hc => (h.1 c tags hc).1⟩

/-- The calls that keep the accounts: a `set` on a tagless component finds room
    for a tag, and a file read back holds only what the limits allow. -/
def Admitted : Option DynSlotStore → Op → Prop
  | some s, .set c _ _ => s.slots.get c = none → 0 < s.maxPerComp ∧ s.total < s.maxTotal
  | some s, .load _ (.data slots _) => s.Loadable slots
  | _, _ => True

/-- No counter has underflowed, and the accounts are right. -/
def Sound (s : Option DynSlotStore) : Prop := ∃ t, s = some t ∧ Accounted t

theorem step_sound {s : Option DynSlotStore} (h : Sound s) {op : Op} (hop : Admitted s op) :
    Sound (step s op) := by
  obtain ⟨t, rfl, ht⟩ := h
  cases op with
  | set c key value => exact ⟨_, rfl, set_accounted ht hop key value⟩
  | remove c key =>
    obtain ⟨r, hr, hacc⟩ := remove_accounted ht c key
    exact ⟨r.1, by simp [step, hr], hacc⟩
  | setAll c tags names =>
    obtain ⟨r, hr, hacc⟩ := setAll_accounted ht c tags names
    exact ⟨r.1, by simp [step, hr], hacc⟩
  | removeAll c => exact removeAll_accounted ht c
  | load path file =>
    refine ⟨_, rfl, ?_⟩
    cases file with
    | missing => exact ht
    | unreadable message => exact ht
    | corrupt => exact ht
    | data slots names => exact (load_accounted_iff t path slots names).2 hop

theorem step_unsound {s : Option DynSlotStore} (h : Sound s) {op : Op} (hop : ¬ Admitted s op) :
    ¬ Sound (step s op) := by
  obtain ⟨t, rfl, ht⟩ := h
  rintro ⟨u, hu, hacc⟩
  cases op with
  | set c key value =>
    obtain ⟨hnone, hfull⟩ := Classical.not_imp.1 hop
    cases hu
    have hpos := hacc.nonempty c _ (set_full hnone hfull key value)
    rw [size_empty] at hpos
    omega
  | load path file =>
    cases file with
    | data slots names =>
      cases hu
      exact hop ((load_accounted_iff t path slots names).1 hacc)
    | missing => exact hop trivial
    | unreadable message => exact hop trivial
    | corrupt => exact hop trivial
  | remove c key => exact hop trivial
  | setAll c tags names => exact hop trivial
  | removeAll c => exact hop trivial

/-- Over any history of calls on a new store, the accounts are right throughout
    exactly when every call of the history is admitted. -/
theorem accounted_iff_admitted (maxPerComp maxTotal : ℕ) (ops : List Op) :
    (∀ s ∈ states step (some (new maxPerComp maxTotal)) ops, Sound s) ↔
      Along step Admitted (some (new maxPerComp maxTotal)) ops :=
  states_iff_along step (fun _ h => h) (fun _ _ h hop => step_sound h hop)
    (fun _ _ h hop => step_unsound h hop) ⟨_, rfl, new_accounted maxPerComp maxTotal⟩

/-- A store for one tag: the second component is refused its tag and keeps an
    empty map. -/
theorem refused_set_leaves_empty_map :
    ¬ ∀ (maxPerComp maxTotal : ℕ) (ops : List Op),
      ∀ s ∈ states step (some (new maxPerComp maxTotal)) ops, Sound s := by
  intro h
  have hrun := h 64 1 [.set 1 "dis" .marker, .set 2 "unit" .marker] _ (run_mem_states step _ _)
  obtain ⟨t, ht, hacc⟩ := hrun
  have hempty : (t.slots.get 2).map Table.size = some 0 := by
    rw [← Option.some.inj ht]
    decide +kernel
  obtain ⟨tags, htags, hsize⟩ := Option.map_eq_some_iff.1 hempty
  have hpos := hacc.nonempty 2 tags htags
  omega

end Accounting

end DynSlotStore
end Sandstar
