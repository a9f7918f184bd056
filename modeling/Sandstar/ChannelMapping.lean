import Sandstar.ChannelOwners
import Sandstar.FilterEval

set_option autoImplicit false

/-!
# Which component a listed channel meets

The refresh of the tree and the read by filter both take the place of a channel in the
list for the place it had when the tree was built. The engine lists a hash map, so an
insertion, a removal or another order moves channels to other components.
-/
namespace Sandstar.ChannelMapping
open SoxProtocol SoxSlots ComponentTree ChannelOwners Runs

section Reads

variable (text : Filter.TextOps)

def listedTags (store : Option DynSlotStore) (all : List ChannelInfo) :
    List (ChannelInfo × Option Tags) :=
  all.zipIdx.map fun (ch, i) => (ch, store.bind fun ds => ds.slots.get (channelCompId i))

def matchesSimple (ch : ChannelInfo) (filter : String) : Bool :=
  let f := text.toLowercase filter
  Filter.containsText (text.toLowercase ch.label) f ||
    Filter.containsText (text.toLowercase ch.channelType) f ||
    Filter.containsText (text.toLowercase ch.direction) f

def readFilter (store : Option DynSlotStore) (all : List ChannelInfo) (filter : String)
    (expr : Option Filter.Expr) (limit : ℕ) : List ChannelInfo :=
  (((listedTags store all).filter fun (ch, tags) => match expr with
    | some e => Filter.matchesInner text ⟨ch, tags, none⟩ e
    | none => matchesSimple text ch filter).map Prod.fst).take limit

end Reads

section Property

def turns (t : ComponentTree) (now : List ChannelInfo) (i : ℕ) : Refresh :=
  (now.zipIdx.take i).foldl refreshChannel ⟨t, [], []⟩

/-- Every turn that reports a component has put the state of that component's own channel
    into it, and a channel is read with the tags of its own component. -/
structure Attributed (s : World) (now : List ChannelInfo) (store : DynSlotStore) : Prop where
  refreshed : ∀ i ch id, now[i]? = some ch →
    (refreshChannel (turns s.tree now i) (ch, i)).changed = (turns s.tree now i).changed ++ [id] →
      s.origin id = some ch.id
  consulted : ∀ i ch, now[i]? = some ch → (store.slots.get (channelCompId i)).isSome = true →
    s.origin (channelCompId i) = some ch.id
  stored : ∀ i ch id, now[i]? = some ch → s.origin id = some ch.id →
    (store.slots.get id).isSome = true → id = channelCompId i

/-- A channel stands at the place of its own component, unless nothing depends on it: no
    component is there, or one that shows the channel's state already; no tags are there
    and none at its component. -/
structure Placed (s : World) (now : List ChannelInfo) (store : DynSlotStore) : Prop where
  components : ∀ i ch comp, now[i]? = some ch → s.tree.get (channelCompId i) = some comp →
    (slotsDiffer comp.slots (refreshedSlots comp.slots ch) = true ∨
      ∃ j < i, channelCompId j = channelCompId i) → s.origin (channelCompId i) = some ch.id
  tags : ∀ i ch, now[i]? = some ch → s.origin (channelCompId i) = some ch.id ∨
    (store.slots.get (channelCompId i) = none ∧
      ∀ id, s.origin id = some ch.id → store.slots.get id = none)

end Property

section Turns

variable {t : ComponentTree} {now : List ChannelInfo} {i : ℕ} {ch : ChannelInfo}

theorem turns_succ (h : now[i]? = some ch) :
    turns t now (i + 1) = refreshChannel (turns t now i) (ch, i) := by
  have hentry : now.zipIdx[i]? = some (ch, i) := by simp [List.getElem?_zipIdx, h]
  unfold turns
  rw [List.take_add_one, hentry, Option.toList_some, List.foldl_append]
  rfl

theorem refreshChannel_absent {r : Refresh} (h : r.tree.get (channelCompId i) = none) :
    refreshChannel r (ch, i) = r := by
  simp only [refreshChannel, h]

theorem refreshChannel_equal {r : Refresh} {comp : VirtualComponent}
    (h : r.tree.get (channelCompId i) = some comp)
    (hequal : slotsDiffer comp.slots (refreshedSlots comp.slots ch) = false) :
    refreshChannel r (ch, i) = r := by
  simp only [refreshChannel, h, hequal, Bool.false_eq_true, if_false]

theorem refreshChannel_differ {r : Refresh} {comp : VirtualComponent}
    (h : r.tree.get (channelCompId i) = some comp)
    (hdiffer : slotsDiffer comp.slots (refreshedSlots comp.slots ch) = true) :
    (refreshChannel r (ch, i)).tree.get (channelCompId i) =
        some { comp with slots := refreshedSlots comp.slots ch } ∧
      (refreshChannel r (ch, i)).changed = r.changed ++ [channelCompId i] := by
  simp only [refreshChannel, h, hdiffer, if_true, get_modify, Option.map_some, and_self]

/-- A turn reports its own component, where the slots differ. -/
theorem refreshChannel_reports (r : Refresh) (ch : ChannelInfo) (i : ℕ) (id : UInt16) :
    (refreshChannel r (ch, i)).changed = r.changed ++ [id] ↔
      id = channelCompId i ∧ ∃ comp, r.tree.get (channelCompId i) = some comp ∧
        slotsDiffer comp.slots (refreshedSlots comp.slots ch) = true := by
  cases hget : r.tree.get (channelCompId i) with
  | none => simp [refreshChannel_absent hget]
  | some comp =>
    cases hdiffer : slotsDiffer comp.slots (refreshedSlots comp.slots ch) with
    | false => simp [refreshChannel_equal hget hdiffer, hdiffer]
    | true =>
      rw [(refreshChannel_differ hget hdiffer).2, List.append_cancel_left_eq]
      simp only [List.cons.injEq, and_true, Option.some.injEq, exists_eq_left', hdiffer]
      exact eq_comm

theorem refreshChannel_frame (r : Refresh) (entry : ChannelInfo × ℕ) {id : UInt16}
    (h : id ≠ channelCompId entry.2) : (refreshChannel r entry).tree.get id = r.tree.get id := by
  rcases refreshChannel_cases r entry with heq | ⟨comp, -, heq⟩
  · rw [heq]
  · rw [heq, get_modify, if_neg h]

theorem slotValueEq_int {v : SlotValue} {n : Int32} (h : slotValueEq v (.int n) = true) :
    v = .int n := by
  cases v <;> simp [slotValueEq] at h ⊢
  exact h

theorem slotsDiffer_two {a b : List VirtualSlot} {n : Int32} (h : slotsDiffer a b = false)
    (hb : b[2]?.map VirtualSlot.value = some (.int n)) :
    a[2]?.map VirtualSlot.value = some (.int n) := by
  simp only [slotsDiffer, Bool.or_eq_false_iff, decide_eq_false_iff_not, not_not,
    List.any_eq_false, Bool.not_eq_true', Bool.not_eq_false] at h
  obtain ⟨hlength, hall⟩ := h
  obtain ⟨sb, hsb, hv⟩ := Option.map_eq_some_iff.1 hb
  obtain ⟨hlt, -⟩ := List.getElem?_eq_some_iff.1 hsb
  have hlong : 2 < a.length := by omega
  obtain ⟨sa, hsa⟩ : ∃ sa, a[2]? = some sa := ⟨_, List.getElem?_eq_getElem hlong⟩
  have hzip : (a.zip b)[2]? = some (sa, sb) := List.getElem?_zip_eq_some.2 ⟨hsa, hsb⟩
  have heq := hall _ (List.mem_of_getElem? hzip)
  rw [hv] at heq
  rw [hsa, Option.map_some, slotValueEq_int heq]

/-- Equal or refreshed, a component that has had its turn holds the channel's number. -/
theorem refreshChannel_number (r : Refresh) (ch : ChannelInfo) (i : ℕ) {comp : VirtualComponent}
    (h : (refreshChannel r (ch, i)).tree.get (channelCompId i) = some comp) :
    slotValue 2 comp = some (.int ch.id.toInt32) := by
  cases hget : r.tree.get (channelCompId i) with
  | none =>
    rw [refreshChannel_absent hget, hget] at h
    cases h
  | some old =>
    cases hdiffer : slotsDiffer old.slots (refreshedSlots old.slots ch) with
    | true =>
      rw [(refreshChannel_differ hget hdiffer).1, Option.some.injEq] at h
      subst h
      exact slotValue_refreshedSlots _ _ _
    | false =>
      rw [refreshChannel_equal hget hdiffer, hget, Option.some.injEq] at h
      subst h
      exact slotsDiffer_two hdiffer (slotValue_refreshedSlots old.slots ch old)

/-- Before its turn comes, a component is as it was, or has been taken for another
    channel's that stands earlier in the list. -/
structure Before (t : ComponentTree) (now : List ChannelInfo) (i : ℕ) (id : UInt16) : Prop where
  exists_iff : ((turns t now i).tree.get id).isSome = (t.get id).isSome
  found : (turns t now i).tree.get id = t.get id ∧ (∀ j < i, channelCompId j ≠ id) ∨
    ∃ j c, j < i ∧ now[j]? = some c ∧ channelCompId j = id ∧
      ∀ comp, (turns t now i).tree.get id = some comp → slotValue 2 comp = some (.int c.id.toInt32)

theorem before_turn (t : ComponentTree) (now : List ChannelInfo) (id : UInt16) :
    i ≤ now.length → Before t now i id := by
  induction i with
  | zero => exact fun _ => ⟨rfl, .inl ⟨rfl, fun j hj => by omega⟩⟩
  | succ i ih =>
    intro hi
    have hprev := ih (by omega)
    have hch : now[i]? = some now[i] := List.getElem?_eq_getElem (by omega)
    have hturn : turns t now (i + 1) = _ := turns_succ hch
    refine ⟨?_, ?_⟩
    · rw [hturn, refreshChannel_isSome, hprev.exists_iff]
    · by_cases hid : id = channelCompId i
      · refine .inr ⟨i, now[i], by omega, hch, hid.symm, fun comp hcomp => ?_⟩
        rw [hturn, hid] at hcomp
        exact refreshChannel_number _ _ _ hcomp
      · have hframe := refreshChannel_frame (turns t now i) (now[i], i) hid
        rw [hturn, hframe]
        rcases hprev.found with ⟨hsame, hnone⟩ | ⟨j, c, hj, hc, hjid, hnum⟩
        · refine .inl ⟨hsame, fun j hj => ?_⟩
          by_cases heq : j = i
          · rw [heq]
            exact Ne.symm hid
          · exact hnone j (by omega)
        · exact .inr ⟨j, c, by omega, hc, hjid, hnum⟩

theorem listed_inj (h : (now.map ChannelInfo.id).Nodup) {i j : ℕ} {c d : ChannelInfo}
    (hi : now[i]? = some c) (hj : now[j]? = some d) (hid : c.id = d.id) : i = j := by
  refine (List.getElem?_inj ?_ h).1 ?_
  · rw [List.length_map]
    exact (List.getElem?_eq_some_iff.1 hi).1
  · rw [List.getElem?_map, List.getElem?_map, hi, hj, Option.map_some, Option.map_some, hid]

end Turns

section Origins

variable {s : World} {id : UInt16} {c : UInt32}

theorem forget_eq_some {origin : UInt16 → Option UInt32} {a : UInt16}
    (h : forget origin a id = some c) : origin id = some c := by
  by_cases heq : id = a
  · rw [heq, forget, Function.update_self] at h
    cases h
  · rwa [forget_of_ne heq] at h

theorem stepOrigin_eq_some {e : ServerStep} (h : stepOrigin s e id = some c) :
    s.origin id = some c := by
  cases e with
  | request op =>
    change editOrigin s.origin (TreeEdits.edit s.tree op) id = some c at h
    cases hedit : TreeEdits.edit s.tree op <;> rw [hedit] at h
    all_goals first
      | exact forget_eq_some h
      | exact h
  | load data =>
    have hfold : ∀ (comps : List VirtualComponent) (origin : UInt16 → Option UInt32),
        comps.foldl (fun origin comp => forget origin comp.compId) origin id = some c →
          origin id = some c := by
      intro comps
      induction comps with
      | nil => exact fun _ h => h
      | cons comp comps ih => exact fun origin h => forget_eq_some (ih _ h)
    exact hfold _ _ h
  | refresh channels => exact h
  | links order => exact h
  | components order => exact h

/-- No step of the server makes a component a channel's. -/
theorem origin_run {steps : List ServerStep} (h : (run step s steps).origin id = some c) :
    s.origin id = some c := by
  induction steps generalizing s with
  | nil => exact h
  | cons e steps ih => exact stepOrigin_eq_some (ih h)

theorem start_origin {built : List ChannelInfo} {db : ManifestDb}
    (h : (start built db).origin id = some c) :
    ∃ i ch, built[i]? = some ch ∧ ch.id = c ∧ channelCompId i = id := by
  have hfold : ∀ (entries : List (ChannelInfo × ℕ)) (origin : UInt16 → Option UInt32),
      entries.foldl (fun origin entry =>
        Function.update origin (channelCompId entry.2) (some entry.1.id)) origin id = some c →
      origin id = some c ∨ ∃ entry ∈ entries, entry.1.id = c ∧ channelCompId entry.2 = id := by
    intro entries
    induction entries with
    | nil => exact fun _ h => .inl h
    | cons entry entries ih =>
      intro origin h
      rcases ih _ h with hhead | ⟨e, he, hid⟩
      · dsimp only at hhead
        by_cases heq : id = channelCompId entry.2
        · rw [heq, Function.update_self, Option.some.injEq] at hhead
          exact .inr ⟨entry, List.mem_cons_self, hhead, heq.symm⟩
        · rw [Function.update_of_ne heq] at hhead
          exact .inl hhead
      · exact .inr ⟨e, List.mem_cons_of_mem _ he, hid⟩
  rcases hfold built.zipIdx _ h with hnone | ⟨⟨ch, i⟩, hmem, hc, hid⟩
  · cases hnone
  · exact ⟨i, ch, List.mem_zipIdx_iff_getElem?.1 hmem, hc, hid⟩

theorem origin_unique {built : List ChannelInfo} {db : ManifestDb} {steps : List ServerStep}
    {a b : UInt16} (hdistinct : (built.map ChannelInfo.id).Nodup)
    (ha : (run step (start built db) steps).origin a = some c)
    (hb : (run step (start built db) steps).origin b = some c) : a = b := by
  obtain ⟨i, chi, hi, hci, hia⟩ := start_origin (origin_run ha)
  obtain ⟨j, chj, hj, hcj, hjb⟩ := start_origin (origin_run hb)
  rw [← hia, ← hjb, listed_inj hdistinct hi hj (hci.trans hcj.symm)]

end Origins

section Main

variable {now : List ChannelInfo}

/-- A turn reports the component at the place, if it did not show the channel's state
    before and unless it has been taken for another channel's since. -/
theorem reports_iff {t : ComponentTree} (h : (now.map ChannelInfo.id).Nodup) {i : ℕ}
    {ch : ChannelInfo} (hi : now[i]? = some ch) :
    (∃ comp, (turns t now i).tree.get (channelCompId i) = some comp ∧
      slotsDiffer comp.slots (refreshedSlots comp.slots ch) = true) ↔
    ∃ comp, t.get (channelCompId i) = some comp ∧
      (slotsDiffer comp.slots (refreshedSlots comp.slots ch) = true ∨
        ∃ j < i, channelCompId j = channelCompId i) := by
  have hlt : i < now.length := (List.getElem?_eq_some_iff.1 hi).1
  have hbefore := before_turn t now (channelCompId i) hlt.le
  rcases hbefore.found with ⟨hsame, hnone⟩ | ⟨j, c, hj, hc, hjid, hnum⟩
  · rw [hsame]
    constructor
    · rintro ⟨comp, hcomp, hdiffer⟩
      exact ⟨comp, hcomp, .inl hdiffer⟩
    · rintro ⟨comp, hcomp, hdiffer | ⟨j, hj, hjid⟩⟩
      · exact ⟨comp, hcomp, hdiffer⟩
      · exact absurd hjid (hnone j hj)
  · constructor
    · rintro ⟨comp, hcomp, -⟩
      have hsome := hbefore.exists_iff
      rw [hcomp, Option.isSome_some] at hsome
      obtain ⟨comp', hcomp'⟩ := Option.isSome_iff_exists.1 hsome.symm
      exact ⟨comp', hcomp', .inr ⟨j, hj, hjid⟩⟩
    · rintro ⟨comp', hcomp', -⟩
      have hsome := hbefore.exists_iff
      rw [hcomp', Option.isSome_some] at hsome
      obtain ⟨comp, hcomp⟩ := Option.isSome_iff_exists.1 hsome
      refine ⟨comp, hcomp, ?_⟩
      by_contra hequal
      have hown := slotsDiffer_two (by simpa using hequal)
        (slotValue_refreshedSlots comp.slots ch comp)
      have hother := (hnum comp hcomp).symm.trans hown
      simp only [Option.some.injEq, SlotValue.int.injEq] at hother
      have hid : c.id = ch.id := by simpa using congrArg Int32.toUInt32 hother
      have hij := listed_inj h hc hi hid
      omega

/-- In any state of the server, whatever lists the tree was built from and is refreshed from:
    states and tags go to the right components exactly where the list has each channel at
    the place of its component. -/
theorem attributed_iff (built now : List ChannelInfo) (db : ManifestDb) (steps : List ServerStep)
    (store : DynSlotStore) (hbuilt : (built.map ChannelInfo.id).Nodup)
    (hnow : (now.map ChannelInfo.id).Nodup) :
    Attributed (run step (start built db) steps) now store ↔
      Placed (run step (start built db) steps) now store := by
  set s := run step (start built db) steps with hs
  constructor
  · intro h
    refine ⟨fun i ch comp hi hcomp hdue => ?_, fun i ch hi => ?_⟩
    · have hreport := (reports_iff hnow hi).2 ⟨comp, hcomp, hdue⟩
      exact h.refreshed i ch _ hi ((refreshChannel_reports _ ch i _).2 ⟨rfl, hreport⟩)
    · by_cases hplace : s.origin (channelCompId i) = some ch.id
      · exact .inl hplace
      · refine .inr ⟨?_, fun id hid => ?_⟩
        · by_contra hsome
          exact hplace (h.consulted i ch hi (Option.isSome_iff_ne_none.2 hsome))
        · by_contra hsome
          have heq := h.stored i ch id hi hid (Option.isSome_iff_ne_none.2 hsome)
          rw [heq] at hid
          exact hplace hid
  · intro h
    refine ⟨fun i ch id hi hreport => ?_, fun i ch hi hsome => ?_, fun i ch id hi hid hsome => ?_⟩
    · obtain ⟨rfl, hdiffer⟩ := (refreshChannel_reports _ ch i id).1 hreport
      obtain ⟨comp, hcomp, hdue⟩ := (reports_iff hnow hi).1 hdiffer
      exact h.components i ch comp hi hcomp hdue
    · rcases h.tags i ch hi with hplace | ⟨hnone, -⟩
      · exact hplace
      · rw [hnone] at hsome
        cases hsome
    · rcases h.tags i ch hi with hplace | ⟨-, hnone⟩
      · exact origin_unique hbuilt (hs ▸ hid) (hs ▸ hplace)
      · rw [hnone id hid] at hsome
        cases hsome

/-- What the property says of the read by filter: each channel is evaluated with the tags of
    the component made for it. -/
theorem listedTags_iff {s : World} {store : DynSlotStore} (h : Attributed s now store)
    {ch : ChannelInfo} {tags : Tags} :
    (ch, some tags) ∈ listedTags (some store) now ↔
      ch ∈ now ∧ ∃ id, s.origin id = some ch.id ∧ store.slots.get id = some tags := by
  simp only [listedTags, List.mem_map, Prod.exists, List.mem_zipIdx_iff_getElem?, Option.bind_some,
    Prod.mk.injEq]
  constructor
  · rintro ⟨c, i, hi, rfl, htags⟩
    exact ⟨List.mem_of_getElem? hi, channelCompId i, h.consulted i c hi (by simp [htags]), htags⟩
  · rintro ⟨hmem, id, hid, htags⟩
    obtain ⟨i, hi⟩ := List.getElem?_of_mem hmem
    refine ⟨ch, i, hi, rfl, ?_⟩
    rw [← h.stored i ch id hi hid (by simp [htags])]
    exact htags

end Main

def secondOutput : ChannelInfo := ⟨1114, "AO2", "analog", "AO", true, "ok", 0, 0⟩

def taggedStore : DynSlotStore := (DynSlotStore.withDefaults.set 100 "dis" .marker).1

/-- After a refresh in the order of the build, and before one in another order. -/
theorem attributed_iff_refreshed :
    let s := run step (start [sampleOutput, secondOutput] ManifestDb.new)
      [.refresh [sampleOutput, secondOutput]]
    Attributed s [sampleOutput, secondOutput] taggedStore ∧
      ¬ Attributed s [secondOutput, sampleOutput] taggedStore := by
  intro s
  have horigin : s.origin 100 = some 1113 ∧ s.origin 101 = some 1114 := ⟨rfl, rfl⟩
  constructor
  · refine (attributed_iff [sampleOutput, secondOutput] [sampleOutput, secondOutput]
      ManifestDb.new [.refresh [sampleOutput, secondOutput]] taggedStore (by decide) (by decide)).2 ?_
    have hplace : ∀ i ch, [sampleOutput, secondOutput][i]? = some ch →
        s.origin (channelCompId i) = some ch.id := by
      intro i ch hi
      match i, hi with
      | 0, hi =>
        cases hi
        exact horigin.1
      | 1, hi =>
        cases hi
        exact horigin.2
    exact ⟨fun i ch _ hi _ _ => hplace i ch hi, fun i ch hi => .inl (hplace i ch hi)⟩
  · refine mt (attributed_iff [sampleOutput, secondOutput] [secondOutput, sampleOutput]
      ManifestDb.new [.refresh [sampleOutput, secondOutput]] taggedStore (by decide) (by decide)).1
      fun h => ?_
    rcases h.tags 0 secondOutput rfl with hplace | ⟨hnone, -⟩
    · have heq := horigin.1.symm.trans hplace
      revert heq
      decide
    · revert hnone
      decide +kernel

/-- Two channels listed the other way round get each other's components. -/
theorem swapped_channels_swap_states :
    ¬ ∀ built now db steps store, (built.map ChannelInfo.id).Nodup →
      (now.map ChannelInfo.id).Nodup →
        Attributed (run step (start built db) steps) now store := by
  intro h
  have hattributed := h [sampleOutput, secondOutput] [secondOutput, sampleOutput] ManifestDb.new []
    DynSlotStore.withDefaults (by decide) (by decide)
  have horigin := hattributed.refreshed 0 secondOutput 100 rfl (by decide +kernel)
  revert horigin
  decide +kernel

end Sandstar.ChannelMapping
