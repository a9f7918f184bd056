import Sandstar.OutputBridges
import Sandstar.ChannelMapping

set_option autoImplicit false

/-!
# A tick after an operator's write (sox/mod.rs, sox_handlers.rs)

Another client has written an output channel. The refresh shows the new value in the
channel's component and hands it to the bridge; links and blocks run; the bridge copies
its value back. What reaches the engine for the channel is then the new value.
-/
namespace Sandstar.BridgeTicks
open ComponentTree SoxProtocol SoxSlots NamedSlots OutputBridges ChannelOwners

section Tick

def refreshed (t : ComponentTree) (now : List ChannelInfo) : ComponentTree :=
  (t.updateFromChannels now).1

def linked (t : ComponentTree) (now : List ChannelInfo) (links : List UInt16) : ComponentTree :=
  ((refreshed t now).executeLinks links).1

def executed (t : ComponentTree) (now : List ChannelInfo) (links order : List UInt16) :
    ComponentTree × List UInt16 :=
  (linked t now links).executeComponents order

/-- What a tick writes to the engine; the links' changes come in the order of a set. -/
def engineWrites (t : ComponentTree) (now : List ChannelInfo)
    (links linkChanged order : List UInt16) : List (UInt32 × UInt64) :=
  (executed t now links order).1.collectChannelWrites
    (linkChanged ++ (executed t now links order).2)

structure Overwritten (t : ComponentTree) (now : List ChannelInfo) (ch : Int32)
    (v : SlotValue) : Prop where
  reported : (ch, v) ∈ (t.refreshChannels now).outputs
  only : ∀ w, (ch, w) ∈ (t.refreshChannels now).outputs → w = v

end Tick

section Refresh

variable {t : ComponentTree} {id : UInt16} {v : SlotValue}

def valueAt (t : ComponentTree) (id : UInt16) (idx : ℕ) : Option SlotValue :=
  (t.get id).bind fun c => c.slots[idx]?.map VirtualSlot.value

def Holds (t : ComponentTree) (id : UInt16) (idx : ℕ) (v : SlotValue) : Prop :=
  ∀ w, valueAt t id idx = some w → Shows v w

def putValue (v w : SlotValue) : SlotValue := if slotValueEq w v then w else v

theorem put_value (v : SlotValue) (s : VirtualSlot) : (put v s).value = putValue v s.value := by
  unfold put putValue
  split_ifs <;> rfl

theorem shows_putValue (v w : SlotValue) : Shows v (putValue v w) := by
  unfold putValue
  split_ifs with heq
  · exact .inr heq
  · exact .inl rfl

theorem valueAt_withSlots (o : Option VirtualComponent) (i j : ℕ) (v : SlotValue) :
    ((o.map (withSlots fun slots => slots.modify i (put v))).bind fun c =>
      c.slots[j]?.map VirtualSlot.value) =
      if j = i then (o.bind fun c => c.slots[j]?.map VirtualSlot.value).map (putValue v)
      else o.bind fun c => c.slots[j]?.map VirtualSlot.value := by
  cases o with
  | none => simp
  | some c =>
    simp only [Option.map_some, Option.bind_some, withSlots, List.getElem?_modify]
    by_cases hij : i = j
    · subst hij
      cases c.slots[i]? <;> simp [put_value]
    · have hji : j ≠ i := fun h => hij h.symm
      simp [hij, hji]

theorem valueAt_setSlotValue (t : ComponentTree) (id a : UInt16) (i j : ℕ) (v : SlotValue) :
    valueAt (t.setSlotValue id i v).1 a j =
      if a = id ∧ j = i then (valueAt t a j).map (putValue v) else valueAt t a j := by
  unfold valueAt
  rw [get_setSlotValue]
  by_cases ha : a = id
  · rw [if_pos ha, valueAt_withSlots]
    simp only [ha, true_and]
  · simp only [ha, false_and, if_false]

theorem get_syncBridge (state : ComponentTree × List UInt16) (o : Int32 × SlotValue)
    (a : UInt16) : (syncBridge state o).1.get a =
      if syncTarget state.1 o.1 = some a then
        (state.1.get a).map (withSlots fun slots => slots.modify 1 (put o.2))
      else state.1.get a := by
  obtain ⟨t, changed⟩ := state
  have htarget : (t.nameToComp.get ("ch" ++ toString o.1.toInt)).filter t.isUserAdded =
      syncTarget t o.1 := rfl
  unfold syncBridge
  dsimp only
  rw [htarget]
  cases htarget : syncTarget t o.1 with
  | none => rfl
  | some id =>
    dsimp only
    rw [get_setSlotValue]
    by_cases ha : a = id
    · rw [if_pos ha, if_pos (by rw [ha])]
    · rw [if_neg ha, if_neg fun h => ha (Option.some.inj h).symm]

theorem syncTarget_syncBridge (state : ComponentTree × List UInt16) (o : Int32 × SlotValue)
    (ch : Int32) : syncTarget (syncBridge state o).1 ch = syncTarget state.1 ch := by
  have hblind : SlotBlind fun t => syncTarget t ch := fun _ _ _ => rfl
  unfold syncBridge
  dsimp only
  split
  · rfl
  · exact hblind.setSlotValue _ _ _ _

theorem holds_syncs {outs : List (Int32 × SlotValue)} {state : ComponentTree × List UInt16}
    (hvalue : ∀ o ∈ outs, syncTarget state.1 o.1 = some id → o.2 = v)
    (h : Holds state.1 id 1 v ∨ ∃ o ∈ outs, syncTarget state.1 o.1 = some id) :
    Holds (outs.foldl syncBridge state).1 id 1 v := by
  induction outs generalizing state with
  | nil =>
    rcases h with h | ⟨o, ho, -⟩
    · exact h
    · exact absurd ho List.not_mem_nil
  | cons o outs ih =>
    refine ih ?_ ?_
    · intro o' ho' htarget
      rw [syncTarget_syncBridge] at htarget
      exact hvalue o' (List.mem_cons_of_mem _ ho') htarget
    · by_cases htarget : syncTarget state.1 o.1 = some id
      · refine .inl fun w hw => ?_
        rw [valueAt, get_syncBridge, if_pos htarget, valueAt_withSlots, if_pos rfl,
          Option.map_eq_some_iff] at hw
        obtain ⟨w', -, rfl⟩ := hw
        rw [hvalue o List.mem_cons_self htarget]
        exact shows_putValue v w'
      · rcases h with h | ⟨o', ho', htarget'⟩
        · refine .inl fun w hw => h w ?_
          rwa [valueAt, get_syncBridge, if_neg htarget] at hw
        · rcases List.mem_cons.1 ho' with rfl | ho'
          · exact absurd htarget' htarget
          · refine .inr ⟨o', ho', ?_⟩
            rw [syncTarget_syncBridge]
            exact htarget'

theorem syncTarget_refreshChannels (t : ComponentTree) (now : List ChannelInfo) (ch : Int32) :
    syncTarget (t.refreshChannels now).tree ch = syncTarget t ch := by
  refine foldl_keeps (fun r : Refresh => syncTarget r.tree ch) _ (fun r entry => ?_) _ _
  rcases refreshChannel_cases r entry with heq | ⟨comp, -, heq⟩
  · rw [heq]
  · rw [heq]
    rfl

theorem outputs_refreshChannels (t : ComponentTree) (now : List ChannelInfo) :
    ∀ o ∈ (t.refreshChannels now).outputs, o.1 ∈ t.outputChannelIds := by
  have hturn : ∀ (entries : List (ChannelInfo × ℕ)) (r : Refresh),
      r.tree.outputChannelIds = t.outputChannelIds →
      (∀ o ∈ r.outputs, o.1 ∈ t.outputChannelIds) →
      ∀ o ∈ (entries.foldl refreshChannel r).outputs, o.1 ∈ t.outputChannelIds := by
    intro entries
    induction entries with
    | nil => exact fun _ _ h => h
    | cons entry entries ih =>
      intro r houts h
      refine ih _ ?_ ?_
      · rcases refreshChannel_cases r entry with heq | ⟨comp, -, heq⟩
        · rw [heq, houts]
        · rw [heq]
          exact houts
      · unfold refreshChannel
        dsimp only
        split
        · exact h
        · split_ifs with _ hout
          · intro o ho
            rcases List.mem_append.1 ho with ho | ho
            · exact h o ho
            · obtain ⟨s, -, rfl⟩ := by simpa using ho
              rw [← houts]
              exact hout
          · exact h
          · exact h
  exact hturn _ ⟨t, [], []⟩ rfl nofun

theorem get_executeLinks_other (t : ComponentTree) (links : List UInt16)
    (h : ∀ w slot, (w, id, slot) ∉ t.collectTransfers links) :
    (t.executeLinks links).1.get id = t.get id := by
  unfold ComponentTree.executeLinks
  generalize t.collectTransfers links = transfers at h
  generalize hstate : (t, (∅ : Finset UInt16)) = state
  have hget : state.1.get id = t.get id := by rw [← hstate]
  rw [← hget]
  clear hstate hget
  induction transfers generalizing state with
  | nil => rfl
  | cons transfer transfers ih =>
    obtain ⟨w, toComp, slot⟩ := transfer
    have hne : id ≠ toComp := by
      rintro rfl
      exact h w slot List.mem_cons_self
    rw [List.foldl_cons, ih fun w slot hmem => h w slot (List.mem_cons_of_mem _ hmem),
      applyTransfer_fst, get_setSlotValue, if_neg hne]

end Refresh
section Execution

variable {t : ComponentTree} {order : List UInt16} {id : UInt16} {ch : Int32} {v : SlotValue}

def Numbered (t : ComponentTree) (a : UInt16) (ch : Int32) : Prop :=
  t.isChannelComp a = true ∧ valueAt t a 2 = some (.int ch)

theorem numbered_setSlotValue {a k : UInt16} {w : SlotValue} :
    Numbered (t.setSlotValue k 6 w).1 a ch ↔ Numbered t a ch := by
  unfold Numbered isChannelComp
  rw [(kept_setSlotValue t k 6 w).1, valueAt_setSlotValue, if_neg (by simp)]

theorem findChannelComp_numbered (h : Keyed t) {n : Int32} {k : VirtualComponent}
    (hk : t.findChannelComp order n = some k) : Numbered t k.compId n := by
  have hmem := List.mem_of_find?_eq_some hk
  obtain ⟨a, -, hget⟩ := List.mem_filterMap.1 hmem
  have hfound := List.find?_some hk
  simp only [Bool.and_eq_true] at hfound
  obtain ⟨s, hs, heq⟩ := (Option.any_eq_true _ _).1 hfound.2
  refine ⟨hfound.1, ?_⟩
  rw [h a k hget, valueAt, hget, Option.bind_some, hs, Option.map_some,
    ChannelMapping.slotValueEq_int heq]

theorem findChannelComp_isSome {a : UInt16} (h : Keyed t) (ha : a ∈ order)
    (hnum : Numbered t a ch) : (t.findChannelComp order ch).isSome = true := by
  obtain ⟨hrange, hvalue⟩ := hnum
  obtain ⟨c, hget, hslot⟩ := Option.bind_eq_some_iff.1 hvalue
  obtain ⟨s, hs, hsv⟩ := Option.map_eq_some_iff.1 hslot
  refine List.find?_isSome.2 ⟨c, List.mem_filterMap.2 ⟨a, ha, hget⟩, ?_⟩
  rw [h a c hget, hrange, hs, Option.any_some, hsv]
  simp [slotValueEq]

/-- A write puts a value into the out slot of a component with the channel's number, or
    does nothing for want of a value or of such a component. -/
theorem writeBridge_cases (order : List UInt16) {state : ComponentTree × List UInt16}
    (h : Keyed state.1) (b : Bridge) :
    (∃ w k, valueAt state.1 b.compId b.slotIdx = some w ∧ Numbered state.1 k b.channelId ∧
      (writeBridge order state b).1 = (state.1.setSlotValue k 6 w).1) ∨
    (writeBridge order state b).1 = state.1 ∧ (valueAt state.1 b.compId b.slotIdx = none ∨
      state.1.findChannelComp order b.channelId = none) := by
  obtain ⟨t, changed⟩ := state
  unfold writeBridge
  dsimp only
  have hvalue : valueAt t b.compId b.slotIdx =
      ((t.get b.compId).bind fun c => c.slots[b.slotIdx]?).map VirtualSlot.value := by
    unfold valueAt
    cases t.get b.compId <;> rfl
  rw [hvalue]
  cases (t.get b.compId).bind fun c => c.slots[b.slotIdx]? with
  | none => exact .inr ⟨rfl, .inl rfl⟩
  | some s =>
    cases hfind : t.findChannelComp order b.channelId with
    | none => exact .inr ⟨rfl, .inr rfl⟩
    | some k => exact .inl ⟨s.value, k.compId, rfl, findChannelComp_numbered h hfind, rfl⟩

theorem numbered_writes {writes : List Bridge} {state : ComponentTree × List UInt16}
    (hkeyed : Keyed state.1) {a : UInt16} :
    Numbered (writes.foldl (writeBridge order) state).1 a ch ↔ Numbered state.1 a ch := by
  induction writes generalizing state with
  | nil => rfl
  | cons b writes ih =>
    rw [List.foldl_cons]
    rcases writeBridge_cases order hkeyed b with ⟨w, k, -, -, heq⟩ | ⟨heq, -⟩
    · rw [ih (heq ▸ hkeyed.setSlotValue k 6 w), heq]
      exact numbered_setSlotValue
    · rw [ih (heq ▸ hkeyed), heq]

/-- The writes end with the bridge's value in the channel's out slot: only the bridge
    writes to the channel, and no write takes its value or the numbers away. -/
theorem holds_writes {writes : List Bridge} {state : ComponentTree × List UInt16} {k : UInt16}
    {u : SlotValue} (hkeyed : Keyed state.1) (hvalue : valueAt state.1 id 1 = some u)
    (hshows : Shows v u) (horder : k ∈ order) (hnum : Numbered state.1 k ch)
    (hsolo : ∀ a, Numbered state.1 a ch → a = k)
    (hwrites : ∀ b ∈ writes, b.channelId = ch → b.compId = id ∧ b.slotIdx = 1)
    (h : Holds state.1 k 6 v ∨ ∃ b ∈ writes, b.channelId = ch) :
    Holds (writes.foldl (writeBridge order) state).1 k 6 v := by
  induction writes generalizing state with
  | nil =>
    rcases h with h | ⟨b, hb, -⟩
    · exact h
    · exact absurd hb List.not_mem_nil
  | cons b writes ih =>
    have hrest : ∀ b ∈ writes, b.channelId = ch → b.compId = id ∧ b.slotIdx = 1 :=
      fun b hb => hwrites b (List.mem_cons_of_mem _ hb)
    rw [List.foldl_cons]
    rcases writeBridge_cases order hkeyed b with ⟨w, a, hw, ha, heq⟩ | ⟨heq, hnone⟩
    · have hkeep : ∀ i j, j ≠ 6 → valueAt (writeBridge order state b).1 i j =
          valueAt state.1 i j := by
        intro i j hj
        rw [heq, valueAt_setSlotValue, if_neg fun h => hj h.2]
      have hsame : ∀ i, Numbered (writeBridge order state b).1 i ch ↔ Numbered state.1 i ch := by
        intro i
        rw [heq]
        exact numbered_setSlotValue
      refine ih (heq ▸ hkeyed.setSlotValue a 6 w) ((hkeep id 1 (by decide)).trans hvalue)
        ((hsame k).2 hnum) (fun i hi => hsolo i ((hsame i).1 hi)) hrest ?_
      by_cases hch : b.channelId = ch
      · obtain ⟨hid, hidx⟩ := hwrites b List.mem_cons_self hch
        rw [hid, hidx, hvalue] at hw
        cases hw
        rw [hch] at ha
        refine .inl fun x hx => ?_
        rw [heq, valueAt_setSlotValue, if_pos ⟨(hsolo a ha).symm, rfl⟩,
          Option.map_eq_some_iff] at hx
        obtain ⟨y, -, rfl⟩ := hx
        exact hshows.trans (shows_putValue u y)
      · have hne : k ≠ a := by
          rintro rfl
          have htwo := hnum.2.symm.trans ha.2
          exact hch (SlotValue.int.inj (Option.some.inj htwo)).symm
        rcases h with h | ⟨b', hb', hch'⟩
        · refine .inl fun x hx => h x ?_
          rwa [heq, valueAt_setSlotValue, if_neg fun h => hne h.1] at hx
        · rcases List.mem_cons.1 hb' with rfl | hb'
          · exact absurd hch' hch
          · exact .inr ⟨b', hb', hch'⟩
    · rw [← heq] at hkeyed hvalue hnum hsolo
      refine ih hkeyed hvalue hnum hsolo hrest ?_
      rw [heq] at hvalue hnum hkeyed ⊢
      rcases h with h | ⟨b', hb', hch'⟩
      · exact .inl h
      · rcases List.mem_cons.1 hb' with rfl | hb'
        · obtain ⟨hid, hidx⟩ := hwrites b' List.mem_cons_self hch'
          rw [hid, hidx, hvalue] at hnone
          have hsome := findChannelComp_isSome hkeyed horder hnum
          rw [← hch'] at hsome
          rcases hnone with hnone | hnone
          · cases hnone
          · rw [hnone] at hsome
            cases hsome
        · exact .inr ⟨b', hb', hch'⟩

/-- Storing a block's outputs keeps a value in its second slot, if all it stores there
    shows that value. -/
theorem stored_shows {outs : List (ℕ × SlotValue)} (houts : ∀ u, (1, u) ∈ outs → Shows v u)
    {slots : List VirtualSlot} {s : VirtualSlot} (hs : slots[1]? = some s) (h : Shows v s.value) :
    ∃ s', (stored outs slots)[1]? = some s' ∧ Shows v s'.value := by
  induction outs generalizing slots s with
  | nil => exact ⟨s, hs, h⟩
  | cons p outs ih =>
    have hrest : ∀ u, (1, u) ∈ outs → Shows v u := fun u hu => houts u (List.mem_cons_of_mem _ hu)
    unfold stored
    rw [List.foldl_cons]
    by_cases hp : p.1 = 1
    · refine ih hrest (s := put p.2 s) ?_ ?_
      · simp [hp, hs]
      · have hu : (1, p.2) ∈ p :: outs := by
          rw [← hp]
          exact List.mem_cons_self
        exact (houts p.2 hu).trans (shows_put p.2 s)
    · refine ih hrest (s := s) ?_ h
      simp [hp, hs]

def Steady (t : ComponentTree) (c : VirtualComponent) (v : SlotValue) : Prop :=
  isEvaluated c = true → ∀ u, (1, u) ∈ (evaluate c (t.componentState.get c.compId)).1 → Shows v u

theorem evaluatedSlots_shows {c : VirtualComponent} (hsteady : Steady t c v) {s : VirtualSlot}
    (hs : c.slots[1]? = some s) (h : Shows v s.value) :
    ∃ s', (evaluatedSlots t c)[1]? = some s' ∧ Shows v s'.value := by
  unfold evaluatedSlots
  split_ifs with hevaluated
  · exact stored_shows (hsteady hevaluated) hs h
  · exact ⟨s, hs, h⟩

theorem readOf_of_copiesOut {c : VirtualComponent} (h : CopiesOut t c ch) : readOf t c = none := by
  obtain ⟨side, hside, hb⟩ := Option.bind_eq_some_iff.1 h
  obtain rfl := Sum.getRight?_eq_some_iff.1 hb
  simp [readOf, hside]

theorem writes_of (h : Enumerates order t) :
    ((t.evaluatedTree order).1.bridges order).filterMap Sum.getRight? =
      order.filterMap fun a => (t.get a).bind (writeOf t) := by
  rw [bridges_evaluatedTree h]
  unfold bridges
  rw [List.filterMap_filterMap, List.filterMap_filterMap]
  congr 1

theorem writeOf_cases {c : VirtualComponent} {b : Bridge} (h : writeOf t c = some b) :
    b.compId = c.compId ∧ b.slotIdx = 1 := by
  obtain ⟨side, hside, hb⟩ := Option.bind_eq_some_iff.1 h
  obtain rfl := Sum.getRight?_eq_some_iff.1 hb
  unfold bridgeOf at hside
  split_ifs at hside
  · cases hside
  · obtain ⟨n, -, hif⟩ := Option.map_eq_some_iff.1 hside
    split_ifs at hif
    cases hif
    exact ⟨rfl, rfl⟩

/-- Evaluation and reads leave the numbers of idle channels' components. -/
theorem readTree_two (h : Enumerates order t) (hidle : ChannelsIdle t) {a : UInt16}
    (hrange : t.isChannelComp a = true) : valueAt (t.readTree order).1 a 2 = valueAt t a 2 := by
  unfold valueAt
  rw [get_readTree h]
  cases hget : t.get a with
  | none => rfl
  | some c =>
    have hnot := hidle a c hget hrange
    have hread : isChannelRead c = false := by
      by_contra hread
      unfold isChannelRead at hread
      rw [Bool.not_eq_false] at hread
      rw [isEvaluated, hread, Bool.or_true] at hnot
      cases hnot
    have hsame : evaluatedSlots t c = c.slots := if_neg (by rw [hnot]; decide)
    simp only [Option.map_some, Option.bind_some, readSlots_eq, hread, hsame, Bool.false_eq_true,
      if_false]
    rw [pull_other _ (by decide)]

theorem kept_readTree (t : ComponentTree) (order : List UInt16) : Kept t (t.readTree order).1 := by
  have hreads : ∀ (reads : List Bridge) (state : ComponentTree × List UInt16),
      Kept t state.1 → Kept t (reads.foldl (readBridge order) state).1 := by
    intro reads
    induction reads with
    | nil => exact fun _ h => h
    | cons b reads ih => exact fun state h => ih _ (h.trans (kept_readBridge order state b))
  exact hreads _ _ (kept_evaluatedTree t order)

theorem holds_executeComponents (h : Enumerates order t) (hidle : ChannelsIdle t)
    {c : VirtualComponent} (hget : t.get id = some c) (hlead : CopiesOut t c ch)
    (hsole : ∀ a c', t.get a = some c' → CopiesOut t c' ch → a = id)
    (hslot : (valueAt t id 1).isSome = true) (hholds : Holds t id 1 v) (hsteady : Steady t c v)
    (hsolo : ∀ a a', Numbered t a ch → Numbered t a' ch → a = a') {k : UInt16}
    (hk : Numbered (t.executeComponents order).1 k ch) :
    Holds (t.executeComponents order).1 k 6 v := by
  have hkeyed : Keyed (t.readTree order).1 := by
    intro a c' hget'
    rw [get_readTree h] at hget'
    obtain ⟨c₀, hget₀, rfl⟩ := Option.map_eq_some_iff.1 hget'
    exact h.keyed a c₀ hget₀
  have hnumbered : ∀ a, Numbered (t.readTree order).1 a ch ↔ Numbered t a ch := by
    intro a
    unfold Numbered
    have hrange : (t.readTree order).1.isChannelComp a = t.isChannelComp a := by
      unfold isChannelComp
      rw [(kept_readTree t order).1]
    rw [hrange]
    exact and_congr_right fun hin => by rw [readTree_two h hidle hin]
  rw [executeComponents_eq, writes_of h] at hk ⊢
  have hnum := (numbered_writes hkeyed).1 hk
  have hkt := (hnumbered k).1 hnum
  have horder : k ∈ order := by
    obtain ⟨c', hget', -⟩ := Option.bind_eq_some_iff.1 hkt.2
    exact (h.mem k).2 (by rw [hget']; rfl)
  obtain ⟨s, hs, hshows⟩ : ∃ s, (evaluatedSlots t c)[1]? = some s ∧ Shows v s.value := by
    unfold Holds at hholds
    unfold valueAt at hslot hholds
    rw [hget, Option.bind_some] at hslot hholds
    obtain ⟨w, hw⟩ := Option.isSome_iff_exists.1 hslot
    obtain ⟨s, hs, rfl⟩ := Option.map_eq_some_iff.1 hw
    exact evaluatedSlots_shows hsteady hs (hholds s.value hw)
  have hvalue : valueAt (t.readTree order).1 id 1 = some s.value := by
    unfold valueAt
    rw [get_readTree h, hget]
    simp [readSlots, readOf_of_copiesOut hlead, hs]
  refine holds_writes hkeyed hvalue hshows horder hnum
    (fun a ha => hsolo a k ((hnumbered a).1 ha) hkt) (fun b hb hch => ?_) (.inr ?_)
  · obtain ⟨a, -, hb⟩ := List.mem_filterMap.1 hb
    obtain ⟨c', hget', hwrite⟩ := Option.bind_eq_some_iff.1 hb
    obtain ⟨hid, hidx⟩ := writeOf_cases hwrite
    have hcopies : CopiesOut t c' ch := by
      rw [CopiesOut, hwrite, ← hid, ← hch, ← hidx]
    rw [hid, h.keyed a c' hget']
    exact ⟨hsole a c' hget' hcopies, hidx⟩
  · refine ⟨⟨c.compId, ch, 1⟩, List.mem_filterMap.2 ⟨id, ?_, ?_⟩, rfl⟩
    · exact (h.mem id).2 (by rw [hget]; rfl)
    · rw [hget]
      exact hlead
end Execution

section Whole

variable {t : ComponentTree} {now : List ChannelInfo} {links linkChanged order : List UInt16}
  {id : UInt16} {c : VirtualComponent} {ch : Int32} {v : SlotValue}

def shell (c : VirtualComponent) : VirtualComponent := { c with slots := [] }

theorem shells_linked (t : ComponentTree) (now : List ChannelInfo) (links : List UInt16)
    (a : UInt16) : ((linked t now links).get a).map shell = (t.get a).map shell := by
  have hblind : SlotBlind fun t => (t.get a).map shell := by
    intro t id f
    dsimp only
    rw [get_modify]
    split_ifs with ha
    · rw [Option.map_map]
      rfl
    · rfl
  exact (hblind.executeLinks _ _).trans (hblind.updateFromChannels _ _)

theorem get_linked (t : ComponentTree) (now : List ChannelInfo) (links : List UInt16)
    {a : UInt16} {c₂ : VirtualComponent} (h : (linked t now links).get a = some c₂) :
    ∃ c, t.get a = some c ∧ shell c = shell c₂ := by
  have hshell := shells_linked t now links a
  rw [h, Option.map_some, eq_comm, Option.map_eq_some_iff] at hshell
  exact hshell

theorem kept_linked (t : ComponentTree) (now : List ChannelInfo) (links : List UInt16) :
    Kept t (linked t now links) := by
  have hblind : SlotBlind fun t => (t.channelCompEnd, t.userAddedIds, t.outputChannelIds) :=
    fun _ _ _ => rfl
  have heq := (hblind.executeLinks (refreshed t now) links).trans (hblind.updateFromChannels t now)
  simp only [Prod.mk.injEq] at heq
  exact heq

theorem enumerates_linked (h : Enumerates order t) : Enumerates order (linked t now links) where
  nodup := h.nodup
  mem a := by
    have hshell := congrArg Option.isSome (shells_linked t now links a)
    rw [Option.isSome_map, Option.isSome_map] at hshell
    rw [hshell]
    exact h.mem a
  keyed a c₂ hget := by
    obtain ⟨c, hget', hshell⟩ := get_linked t now links hget
    have hid := congrArg VirtualComponent.compId hshell
    exact hid.symm.trans (h.keyed a c hget')

theorem channelsIdle_linked (h : ChannelsIdle t) : ChannelsIdle (linked t now links) := by
  intro a c₂ hget hrange
  obtain ⟨c, hget', hshell⟩ := get_linked t now links hget
  have hblind : isEvaluated c = isEvaluated c₂ := by
    change isEvaluated (shell c) = isEvaluated (shell c₂)
    rw [hshell]
  rw [← hblind]
  refine h a c hget' ?_
  unfold isChannelComp at hrange ⊢
  rwa [(kept_linked t now links).1] at hrange

theorem copiesOut_linked {c₂ : VirtualComponent} (h : shell c = shell c₂) :
    CopiesOut (linked t now links) c₂ ch ↔ CopiesOut t c ch := by
  have hkept := kept_linked t now links
  have hread : isChannelRead c = isChannelRead c₂ := by
    change isChannelRead (shell c) = isChannelRead (shell c₂)
    rw [h]
  have hid : c.compId = c₂.compId := by
    change (shell c).compId = (shell c₂).compId
    rw [h]
  have hname : c.name = c₂.name := by
    change (shell c).name = (shell c₂).name
    rw [h]
  rw [copiesOut_iff_named, copiesOut_iff_named, hread, hname, hid]
  unfold isUserAdded
  rw [hkept.2.1, hkept.2.2]

/-- The name of every component of the user's is recognised for every output channel. -/
def AllRecognised (t : ComponentTree) : Prop :=
  ∀ a c ch, t.get a = some c → t.isUserAdded a = true → ch ∈ t.outputChannelIds →
    Recognised t c ch

theorem slot_linked (hslot : (valueAt t id 1).isSome = true)
    (huntouched : ∀ w slot, (w, id, slot) ∉ (refreshed t now).collectTransfers links) :
    (valueAt (linked t now links) id 1).isSome = true := by
  have hlinks : valueAt (linked t now links) id 1 = valueAt (refreshed t now) id 1 := by
    unfold valueAt linked
    rw [get_executeLinks_other _ _ huntouched]
  have hturns : ∀ (entries : List (ChannelInfo × ℕ)) (r : Refresh),
      (valueAt r.tree id 1).isSome = true →
      (valueAt (entries.foldl refreshChannel r).tree id 1).isSome = true := by
    intro entries
    induction entries with
    | nil => exact fun _ h => h
    | cons entry entries ih =>
      intro r h
      refine ih _ ?_
      rcases refreshChannel_cases r entry with heq | ⟨comp, hget, heq⟩
      · rw [heq]
        exact h
      · rw [heq, valueAt, get_modify]
        split_ifs with ha
        · rw [ha, hget]
          unfold refreshedSlots
          split
          · split_ifs <;> rfl
          · rfl
        · exact h
  have hsyncs : ∀ (outs : List (Int32 × SlotValue)) (state : ComponentTree × List UInt16),
      (valueAt state.1 id 1).isSome = true →
      (valueAt (outs.foldl syncBridge state).1 id 1).isSome = true := by
    intro outs
    induction outs with
    | nil => exact fun _ h => h
    | cons o outs ih =>
      intro state h
      refine ih _ ?_
      rw [valueAt, get_syncBridge]
      split_ifs
      · rw [valueAt_withSlots, if_pos rfl, Option.isSome_map]
        exact h
      · exact h
  rw [hlinks]
  exact hsyncs _ _ (hturns _ _ hslot)

/-- The bridge holds the channel's new value once the links have run. -/
theorem holds_linked (hkeyed : Keyed t) (hall : AllRecognised t) (hget : t.get id = some c)
    (hin : CopiesIn t c ch) (hwritten : Overwritten t now ch v)
    (huntouched : ∀ w slot, (w, id, slot) ∉ (refreshed t now).collectTransfers links) :
    Holds (linked t now links) id 1 v := by
  have hid := hkeyed id c hget
  have htarget : syncTarget t ch = some id := by
    rw [← hid]
    exact hin
  have huser : t.isUserAdded c.compId = true := by
    rw [hid]
    exact (Option.filter_eq_some_iff.1 htarget).2
  have hmine : ∀ ch', ch' ∈ t.outputChannelIds → syncTarget t ch' = some id → CopiesOut t c ch' := by
    intro ch' hout htarget'
    refine ((copies_agree_iff huser hout).2 (hall id c ch' hget (hid ▸ huser) hout)).1 ?_
    rw [CopiesIn, hid]
    exact htarget'
  have houts := outputs_refreshChannels t now
  have hlead := hmine ch (houts _ hwritten.reported) htarget
  have hsync : Holds (refreshed t now) id 1 v := by
    refine holds_syncs (fun o ho htarget' => ?_) (.inr ⟨(ch, v), hwritten.reported, ?_⟩)
    · rw [syncTarget_refreshChannels] at htarget'
      have hlead' := hmine o.1 (houts o ho) htarget'
      have hsame : o.1 = ch := by
        have hbridge := hlead'.symm.trans hlead
        simpa using hbridge
      refine hwritten.only o.2 ?_
      rw [← hsame]
      exact ho
    · rw [syncTarget_refreshChannels]
      exact htarget
  intro w hw
  refine hsync w ?_
  rwa [valueAt, linked, get_executeLinks_other _ _ huntouched] at hw

theorem engineWrites_from {w : UInt64}
    (h : (ch.toUInt32, w) ∈ engineWrites t now links linkChanged order) :
    ∃ k u, Numbered (executed t now links order).1 k ch ∧
      valueAt (executed t now links order).1 k 6 = some u ∧ numericValue u = some w := by
  obtain ⟨k, -, hwrite⟩ := List.mem_filterMap.1 h
  unfold channelWrite at hwrite
  split_ifs at hwrite with hrange
  obtain ⟨comp, hget, hwrite⟩ := Option.bind_eq_some_iff.1 hwrite
  obtain ⟨n, hn, hwrite⟩ := Option.bind_eq_some_iff.1 hwrite
  split_ifs at hwrite
  obtain ⟨w', hw', heq⟩ := Option.map_eq_some_iff.1 hwrite
  obtain ⟨s, hs, hnumeric⟩ := Option.bind_eq_some_iff.1 hw'
  obtain ⟨rfl, rfl⟩ := Prod.mk.inj heq
  obtain ⟨i, hi, hichan⟩ := channelNumber_eq.1 hn
  refine ⟨k, s.value, ⟨by simpa using hrange, ?_⟩, ?_, hnumeric⟩
  · have hsame : i = ch := by simpa using congrArg UInt32.toInt32 hichan
    rw [hsame] at hi
    rw [valueAt, hget, Option.bind_some]
    exact hi
  · rw [valueAt, hget, Option.bind_some, hs, Option.map_some]

/-- Where every name is recognised, whatever the next tick writes to the channel is the
    value that the other client wrote. -/
theorem new_value_written (h : Enumerates order t) (hall : AllRecognised t)
    (hidle : ChannelsIdle t) (hget : t.get id = some c) (hin : CopiesIn t c ch)
    (hslot : (valueAt t id 1).isSome = true) (hwritten : Overwritten t now ch v)
    (huntouched : ∀ w slot, (w, id, slot) ∉ (refreshed t now).collectTransfers links)
    (hsteady : ∀ c₂, (linked t now links).get id = some c₂ → Steady (linked t now links) c₂ v)
    (hsolo : ∀ a a', Numbered (linked t now links) a ch → Numbered (linked t now links) a' ch →
      a = a') {w : UInt64}
    (hw : (ch.toUInt32, w) ∈ engineWrites t now links linkChanged order) :
    ∃ u, Shows v u ∧ numericValue u = some w := by
  have hkeyed := h.keyed
  have hid := hkeyed id c hget
  have htarget : syncTarget t ch = some id := by
    rw [← hid]
    exact hin
  have huser : t.isUserAdded id = true := (Option.filter_eq_some_iff.1 htarget).2
  have hout : ch ∈ t.outputChannelIds := outputs_refreshChannels t now _ hwritten.reported
  have hagree : ∀ a c', t.get a = some c' → CopiesOut t c' ch → CopiesIn t c' ch := by
    intro a c' hget' hlead
    have huser' : t.isUserAdded c'.compId = true := (copiesOut_iff_named.1 hlead).2.1
    have hrec := hall a c' ch hget' (hkeyed a c' hget' ▸ huser') hout
    exact ((copies_agree_iff huser' hout).2 hrec).2 hlead
  have hlead : CopiesOut t c ch :=
    ((copies_agree_iff (hid ▸ huser) hout).2 (hall id c ch hget huser hout)).1 hin
  obtain ⟨k, u, hk, hu, hnumeric⟩ := engineWrites_from hw
  obtain ⟨c₂, hget₂⟩ : ∃ c₂, (linked t now links).get id = some c₂ := by
    have hshell := shells_linked t now links id
    rw [hget, Option.map_some, Option.map_eq_some_iff] at hshell
    obtain ⟨c₂, hget₂, -⟩ := hshell
    exact ⟨c₂, hget₂⟩
  have hlead₂ : CopiesOut (linked t now links) c₂ ch := by
    obtain ⟨c', hget', hshell⟩ := get_linked t now links hget₂
    rw [hget] at hget'
    cases hget'
    exact (copiesOut_linked hshell).2 hlead
  have hsole : ∀ a c', (linked t now links).get a = some c' →
      CopiesOut (linked t now links) c' ch → a = id := by
    intro a c' hget' hlead'
    obtain ⟨c₀, hget₀, hshell⟩ := get_linked t now links hget'
    have hin₀ := hagree a c₀ hget₀ ((copiesOut_linked hshell).1 hlead')
    have hsame : c₀.compId = c.compId := Option.some.inj (hin₀.symm.trans hin)
    rw [← hkeyed a c₀ hget₀, hsame, hid]
  have hholds := holds_executeComponents (enumerates_linked h) (channelsIdle_linked hidle) hget₂
    hlead₂ hsole (slot_linked hslot huntouched)
    (holds_linked hkeyed hall hget hin hwritten huntouched) (hsteady c₂ hget₂) hsolo hk
  exact ⟨u, hholds u hu, hnumeric⟩

/-- The bridge of a channel in a tick after another client's write: it has a value, no
    link leads to it, its own evaluation does not compute another value, and one component
    stands for the channel. -/
structure Quiet (t : ComponentTree) (now : List ChannelInfo) (links : List UInt16)
    (c : VirtualComponent) (ch : Int32) (v : SlotValue) : Prop where
  idle : ChannelsIdle t
  slot : (valueAt t c.compId 1).isSome = true
  written : Overwritten t now ch v
  untouched : ∀ w slot, (w, c.compId, slot) ∉ (refreshed t now).collectTransfers links
  steady : ∀ c₂, (linked t now links).get c.compId = some c₂ → Steady (linked t now links) c₂ v
  solo : ∀ a a', Numbered (linked t now links) a ch → Numbered (linked t now links) a' ch → a = a'

/-- The directions of an output bridge agree on a component exactly when it is recognised;
    and where all are, the next tick after another client's write brings no old value back. -/
theorem output_bridges_iff (h : Enumerates order t) :
    (∀ a c ch, t.get a = some c → t.isUserAdded a = true → ch ∈ t.outputChannelIds →
      ((CopiesIn t c ch ↔ CopiesOut t c ch) ↔ Recognised t c ch)) ∧
    (AllRecognised t → ∀ a c ch v now links linkChanged, t.get a = some c → CopiesIn t c ch →
      Quiet t now links c ch v →
      ∀ w, (ch.toUInt32, w) ∈ engineWrites t now links linkChanged order →
        ∃ u, Shows v u ∧ numericValue u = some w) := by
  constructor
  · intro a c ch hget huser hout
    rw [← h.keyed a c hget] at huser
    exact copies_agree_iff huser hout
  · intro hall a c ch v now links linkChanged hget hin hquiet w hw
    obtain rfl := h.keyed a c hget
    exact new_value_written h hall hquiet.idle hget hin hquiet.slot hquiet.written
      hquiet.untouched hquiet.steady hquiet.solo hw

end Whole

section Samples

open TreeRequests

instance (t : ComponentTree) (c : VirtualComponent) (ch : Int32) : Decidable (CopiesIn t c ch) :=
  inferInstanceAs (Decidable (_ = _))

instance (t : ComponentTree) (c : VirtualComponent) (ch : Int32) : Decidable (CopiesOut t c ch) :=
  inferInstanceAs (Decidable (_ = _))

instance (t : ComponentTree) (c : VirtualComponent) (ch : Int32) : Decidable (Recognised t c ch) :=
  inferInstanceAs (Decidable (ite _ _ _))

/-- A ConstInt, added under a name beside the output channel 1113. -/
def namedTree (name : List UInt8) : ComponentTree :=
  (handleAdd ⟨.add, 1, [0, 6, 2, 15] ++ name ++ [0]⟩ (fromChannels [sampleOutput])).1

def namedConstant (name : String) : VirtualComponent :=
  ⟨101, 6, name, "kit2::type15", 2, 15, [],
    [metaSlot, slot "out" .int slotFlagConfig (.int 0), slot "set" .int slotFlagAction (.int 0)],
    []⟩

def bridgedTree : ComponentTree := namedTree [99, 104, 49, 49, 49, 51]

def writtenOutput : ChannelInfo :=
  { sampleOutput with label := "AO2", cur := 0x401C000000000000 }

def treeIds : List UInt16 := [0, 1, 2, 3, 4, 5, 6, 100, 101]

/-- With an underscore the name is parsed but not looked up: the old value is copied over
    whatever is written to the channel. -/
theorem underscored_name_disagrees :
    (namedTree [99, 104, 95, 49, 49, 49, 51]).get 101 = some (namedConstant "ch_1113") ∧
    (namedTree [99, 104, 95, 49, 49, 49, 51]).isUserAdded 101 = true ∧
    1113 ∈ (namedTree [99, 104, 95, 49, 49, 49, 51]).outputChannelIds ∧
    ¬ (CopiesIn (namedTree [99, 104, 95, 49, 49, 49, 51]) (namedConstant "ch_1113") 1113 ↔
      CopiesOut (namedTree [99, 104, 95, 49, 49, 49, 51]) (namedConstant "ch_1113") 1113) := by
  decide +kernel

theorem bridgedTree_holds :
    bridgedTree.userAddedIds = {101} ∧ bridgedTree.outputChannelIds = {1113} ∧
    bridgedTree.channelCompEnd = 101 ∧ bridgedTree.get 101 = some (namedConstant "ch1113") ∧
    Recognised bridgedTree (namedConstant "ch1113") 1113 ∧
    CopiesIn bridgedTree (namedConstant "ch1113") 1113 ∧
    (valueAt bridgedTree 101 1).isSome = true := by
  decide +kernel

/-- A tick refreshes the channel, and neither its links nor its blocks touch the component. -/
theorem bridgedTree_ticks :
    (bridgedTree.get 100).any (fun comp =>
      slotsDiffer comp.slots (refreshedSlots comp.slots writtenOutput)) = true ∧
    (bridgedTree.get 100).all (fun c => !isEvaluated c) = true ∧
    ((linked bridgedTree [writtenOutput] treeIds).get 101).all (fun c => !isEvaluated c) = true ∧
    (refreshed bridgedTree [writtenOutput]).collectTransfers treeIds = [] := by
  decide +kernel

theorem bridgedTree_enumerates : Enumerates treeIds bridgedTree :=
  enumerates_of_keys (by decide) (by decide +kernel) (by decide +kernel)

theorem bridgedTree_recognised : AllRecognised bridgedTree := by
  intro a c ch hget huser hout
  obtain ⟨husers, houts, -, hat, hrecognised, -⟩ := bridgedTree_holds
  unfold isUserAdded at huser
  rw [husers] at huser
  rw [houts] at hout
  obtain rfl := Finset.mem_singleton.1 (of_decide_eq_true huser)
  obtain rfl := Finset.mem_singleton.1 hout
  rw [hat] at hget
  cases hget
  exact hrecognised

theorem bridgedTree_overwritten :
    Overwritten bridgedTree [writtenOutput] 1113 (.float (f64ToF32 0x401C000000000000)) := by
  obtain ⟨hany, -⟩ := bridgedTree_ticks
  obtain ⟨comp, hget, hdiffer⟩ := (Option.any_eq_true _ _).1 hany
  have hout : writtenOutput.id.toInt32 ∈ bridgedTree.outputChannelIds := by
    rw [bridgedTree_holds.2.1]
    decide
  have hsix : (refreshedSlots comp.slots writtenOutput)[6]?.map VirtualSlot.value =
      some (.float (f64ToF32 0x401C000000000000)) := by
    unfold refreshedSlots
    split
    · split_ifs <;> rfl
    · rfl
  obtain ⟨s, hs, hvalue⟩ := Option.map_eq_some_iff.1 hsix
  have hreported : (bridgedTree.refreshChannels [writtenOutput]).outputs =
      [(1113, .float (f64ToF32 0x401C000000000000))] := by
    have hid : channelCompId 0 = 100 := by decide
    unfold refreshChannels
    simp only [List.zipIdx_cons, List.zipIdx_nil, List.foldl_cons, List.foldl_nil]
    unfold refreshChannel
    simp only [hid, hget, hdiffer, if_true, hs, Option.map_some, hvalue]
    rw [if_pos hout]
    rfl
  constructor
  · rw [hreported]
    exact List.mem_cons_self
  · intro w hw
    rw [hreported] at hw
    simpa using hw

theorem bridgedTree_range {a : UInt16}
    (h : (linked bridgedTree [writtenOutput] treeIds).isChannelComp a = true) : a = 100 := by
  obtain ⟨-, -, hend, -⟩ := bridgedTree_holds
  unfold isChannelComp at h
  rw [(kept_linked bridgedTree [writtenOutput] treeIds).1, hend] at h
  simp only [channelCompBase, Bool.and_eq_true, decide_eq_true_eq, UInt16.le_iff_toNat_le,
    UInt16.lt_iff_toNat_lt] at h
  refine UInt16.toNat_inj.1 ?_
  simp only [UInt16.reduceToNat] at h ⊢
  omega

theorem bridgedTree_quiet : Quiet bridgedTree [writtenOutput] treeIds (namedConstant "ch1113") 1113
    (.float (f64ToF32 0x401C000000000000)) where
  idle := by
    obtain ⟨-, hat, -⟩ := bridgedTree_ticks
    intro a c hget hrange
    have hend : bridgedTree.channelCompEnd =
        (linked bridgedTree [writtenOutput] treeIds).channelCompEnd :=
      (kept_linked bridgedTree [writtenOutput] treeIds).1.symm
    unfold isChannelComp at hrange
    rw [hend] at hrange
    rw [bridgedTree_range hrange] at hget
    rw [hget] at hat
    simpa using hat
  slot := bridgedTree_holds.2.2.2.2.2.2
  written := bridgedTree_overwritten
  untouched := by
    obtain ⟨-, -, -, hnone⟩ := bridgedTree_ticks
    rw [hnone]
    exact fun _ _ => List.not_mem_nil
  steady := by
    obtain ⟨-, -, hat, -⟩ := bridgedTree_ticks
    intro c₂ hget hevaluated
    have hget' : (linked bridgedTree [writtenOutput] treeIds).get 101 = some c₂ := hget
    rw [hget', Option.all_some, hevaluated] at hat
    cases hat
  solo := fun a a' ha ha' => (bridgedTree_range ha.1).trans (bridgedTree_range ha'.1).symm

/-- After another client has written the channel the tick writes nothing but the new value. -/
theorem written_value_stays :
    {w | ((1113 : Int32).toUInt32, w) ∈
      engineWrites bridgedTree [writtenOutput] treeIds [] treeIds} ⊆
    {w | ∃ u, Shows (.float (f64ToF32 0x401C000000000000)) u ∧ numericValue u = some w} :=
  (output_bridges_iff bridgedTree_enumerates).2 bridgedTree_recognised 101 (namedConstant "ch1113")
    1113 (.float (f64ToF32 0x401C000000000000)) [writtenOutput] treeIds []
    bridgedTree_holds.2.2.2.1 bridgedTree_holds.2.2.2.2.2.1 bridgedTree_quiet

end Samples

end Sandstar.BridgeTicks
