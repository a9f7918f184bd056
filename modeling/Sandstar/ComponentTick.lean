import Sandstar.ChannelOwners

set_option autoImplicit false

/-!
# What an execution leaves in each component

Every component's slots after `execute_components`, as a function of the tree before:
its own outputs are stored, then a bridge may bring it a channel's value, and a channel
component takes the value of the components that lead it. The phases are followed one
by one; each changes slots only.
-/
namespace Sandstar.ComponentTree
open SoxProtocol SoxSlots ChannelOwners

section Stores

def put (v : SlotValue) (s : VirtualSlot) : VirtualSlot :=
  if slotValueEq s.value v then s else setValue v s

@[simp] theorem put_name (v : SlotValue) (s : VirtualSlot) : (put v s).name = s.name := by
  unfold put
  split <;> rfl

def withSlots (f : List VirtualSlot → List VirtualSlot) (c : VirtualComponent) : VirtualComponent :=
  { c with slots := f c.slots }

theorem modify_congr {slots : List VirtualSlot} {idx : ℕ} {s : VirtualSlot}
    {f g : VirtualSlot → VirtualSlot} (hs : slots[idx]? = some s) (h : f s = g s) :
    slots.modify idx f = slots.modify idx g := by
  apply List.ext_getElem?
  intro i
  rw [List.getElem?_modify, List.getElem?_modify]
  by_cases hi : idx = i
  · subst hi
    simp [hs, h]
  · simp [hi]

theorem get_setSlotValue (t : ComponentTree) (id : UInt16) (idx : ℕ) (v : SlotValue) (a : UInt16) :
    (t.setSlotValue id idx v).1.get a =
      if a = id then (t.get a).map (withSlots fun slots => slots.modify idx (put v))
      else t.get a := by
  unfold setSlotValue
  cases hslot : (t.get id).bind fun c => c.slots[idx]? with
  | none =>
    split_ifs with ha
    · subst ha
      cases hget : t.get a with
      | none => rfl
      | some c =>
        rw [hget, Option.bind_some] at hslot
        have hlen : c.slots.length ≤ idx := List.getElem?_eq_none_iff.1 hslot
        simp [withSlots, List.modify_eq_self hlen]
    · rfl
  | some s =>
    obtain ⟨c, hget, hs⟩ := Option.bind_eq_some_iff.1 hslot
    by_cases heq : slotValueEq s.value v = true
    · have hput : put v s = (fun x => x) s := if_pos heq
      have hsame : c.slots.modify idx (put v) = c.slots :=
        (modify_congr hs hput).trans (List.modify_id _ _)
      simp only [heq, if_true]
      split_ifs with ha
      · subst ha
        simp [hget, withSlots, hsame]
      · rfl
    · have hput : setValue v s = put v s := (if_neg heq).symm
      have hnew : c.slots.modify idx (setValue v) = c.slots.modify idx (put v) :=
        modify_congr hs hput
      simp only [heq, Bool.false_eq_true, if_false]
      rw [get_modify]
      split_ifs with ha
      · subst ha
        simp [hget, withSlots, hnew]
      · rfl

def stored (outputs : List (ℕ × SlotValue)) (slots : List VirtualSlot) : List VirtualSlot :=
  outputs.foldl (fun slots p => slots.modify p.1 (put p.2)) slots

@[simp] theorem stored_length (outputs : List (ℕ × SlotValue)) (slots : List VirtualSlot) :
    (stored outputs slots).length = slots.length := by
  induction outputs generalizing slots with
  | nil => rfl
  | cons p outputs ih => exact (ih _).trans (List.length_modify _ _ _)

theorem get_applyOutputs (t : ComponentTree) (id : UInt16) (outputs : List (ℕ × SlotValue))
    (a : UInt16) : (t.applyOutputs id outputs).1.get a =
      if a = id then (t.get a).map (withSlots (stored outputs)) else t.get a := by
  unfold applyOutputs
  generalize false = changed
  induction outputs generalizing t changed with
  | nil =>
    split_ifs
    · exact (congrFun Option.map_id (t.get a)).symm
    · rfl
  | cons p outputs ih =>
    rw [List.foldl_cons, ih, get_setSlotValue]
    split_ifs
    · rw [Option.map_map]
      rfl
    · rfl

theorem get_applyUpdate (state : ComponentTree × List UInt16) (update : ComponentUpdate)
    (a : UInt16) : (applyUpdate state update).1.get a =
      if a = update.1 then (state.1.get a).map (withSlots (stored update.2.1))
      else state.1.get a := by
  obtain ⟨id, outputs, st⟩ := update
  have houtputs := get_applyOutputs state.1 id outputs a
  cases st with
  | none => exact houtputs
  | some st => exact houtputs

def evaluatedSlots (t : ComponentTree) (c : VirtualComponent) : List VirtualSlot :=
  if isEvaluated c then stored (evaluate c (t.componentState.get c.compId)).1 c.slots else c.slots

/-- Every component is kept under its own id. -/
def Keyed (t : ComponentTree) : Prop := ∀ id c, t.get id = some c → c.compId = id

theorem Keyed.setSlotValue {t : ComponentTree} (h : Keyed t) (id : UInt16) (i : ℕ)
    (v : SlotValue) : Keyed (t.setSlotValue id i v).1 := by
  intro a c hget
  rw [get_setSlotValue] at hget
  split_ifs at hget
  · obtain ⟨c', hget', rfl⟩ := Option.map_eq_some_iff.1 hget
    exact h a c' hget'
  · exact h a c hget

/-- The ids in the order of the map, every component under its own id. -/
structure Enumerates (order : List UInt16) (t : ComponentTree) : Prop where
  nodup : order.Nodup
  mem : ∀ id, id ∈ order ↔ (t.get id).isSome = true
  keyed : Keyed t

theorem Enumerates.evaluated {order : List UInt16} {t : ComponentTree} (h : Enumerates order t) :
    ((order.filterMap t.get).filter isEvaluated).map VirtualComponent.compId =
      order.filter fun id => (t.get id).any isEvaluated := by
  have hkeyed := h.keyed
  clear h
  induction order with
  | nil => rfl
  | cons id order ih =>
    cases hget : t.get id with
    | none => simpa [hget] using ih
    | some c =>
      have hid := hkeyed id c hget
      by_cases hc : isEvaluated c = true
      · simpa [hget, hc, hid] using ih
      · simpa [hget, hc] using ih

theorem get_updates_other {updates : List ComponentUpdate} {a : UInt16}
    (h : ∀ u ∈ updates, u.1 ≠ a) (state : ComponentTree × List UInt16) :
    (updates.foldl applyUpdate state).1.get a = state.1.get a := by
  induction updates generalizing state with
  | nil => rfl
  | cons u updates ih =>
    rw [List.foldl_cons, ih (fun u hu => h u (List.mem_cons_of_mem _ hu)), get_applyUpdate,
      if_neg (Ne.symm (h u List.mem_cons_self))]

theorem get_updates_own {updates : List ComponentUpdate} (hnodup : (updates.map Prod.fst).Nodup)
    {u : ComponentUpdate} (hu : u ∈ updates) (state : ComponentTree × List UInt16) :
    (updates.foldl applyUpdate state).1.get u.1 =
      (state.1.get u.1).map (withSlots (stored u.2.1)) := by
  induction updates generalizing state with
  | nil => exact absurd hu List.not_mem_nil
  | cons w updates ih =>
    obtain ⟨hfirst, hrest⟩ := List.nodup_cons.1 hnodup
    rw [List.foldl_cons]
    rcases List.mem_cons.1 hu with rfl | hu
    · have hother : ∀ v ∈ updates, v.1 ≠ u.1 := fun v hv heq =>
        hfirst (heq ▸ List.mem_map_of_mem hv)
      rw [get_updates_other hother, get_applyUpdate, if_pos rfl]
    · have hne : u.1 ≠ w.1 := fun heq => hfirst (heq ▸ List.mem_map_of_mem hu)
      rw [ih hrest hu, get_applyUpdate, if_neg hne]

def updateOf (t : ComponentTree) (id : UInt16) : Option ComponentUpdate :=
  (t.get id).bind fun comp =>
    let (outputs, state) := evaluate comp (t.componentState.get id)
    if outputs.isEmpty && state.isNone then none else some (id, outputs, state)

theorem updateOf_fst {t : ComponentTree} {id : UInt16} {u : ComponentUpdate}
    (h : updateOf t id = some u) : u.1 = id := by
  obtain ⟨comp, -, hcomp⟩ := Option.bind_eq_some_iff.1 h
  dsimp only at hcomp
  split_ifs at hcomp
  cases hcomp
  rfl

theorem filterMap_keys {β : Type} {f : UInt16 → Option β} {key : β → UInt16}
    (h : ∀ a b, f a = some b → key b = a) (ids : List UInt16) :
    (ids.filterMap f).map key = ids.filter fun a => (f a).isSome := by
  induction ids with
  | nil => rfl
  | cons id ids ih =>
    cases hid : f id with
    | none => simpa [hid] using ih
    | some b => simpa [hid, h id b hid] using ih

def evaluatedTree (t : ComponentTree) (order : List UInt16) : ComponentTree × List UInt16 :=
  (t.computeUpdates order).foldl applyUpdate (t, [])

theorem get_evaluatedTree {order : List UInt16} {t : ComponentTree} (h : Enumerates order t)
    (a : UInt16) : (t.evaluatedTree order).1.get a =
      (t.get a).map fun c => { c with slots := evaluatedSlots t c } := by
  have hupdates : t.computeUpdates order =
      (order.filter fun id => (t.get id).any isEvaluated).filterMap (updateOf t) := by
    rw [← h.evaluated]
    rfl
  have hnodup : ((t.computeUpdates order).map Prod.fst).Nodup := by
    rw [hupdates, filterMap_keys fun _ _ => updateOf_fst]
    exact (h.nodup.filter _).filter _
  have hmem : ∀ u ∈ t.computeUpdates order, updateOf t u.1 = some u ∧
      (t.get u.1).any isEvaluated = true := by
    intro u hu
    rw [hupdates] at hu
    obtain ⟨id, hid, hu⟩ := List.mem_filterMap.1 hu
    rw [updateOf_fst hu]
    exact ⟨hu, (List.mem_filter.1 hid).2⟩
  unfold evaluatedTree
  cases hget : t.get a with
  | none =>
    rw [get_updates_other, hget]
    · rfl
    · intro u hu heq
      have hany := (hmem u hu).2
      rw [heq, hget] at hany
      cases hany
  | some c =>
    have hid := h.keyed a c hget
    by_cases hmet : ∃ u ∈ t.computeUpdates order, u.1 = a
    · obtain ⟨u, hu, rfl⟩ := hmet
      obtain ⟨hof, hany⟩ := hmem u hu
      have hevaluated : isEvaluated c = true := by simpa [hget] using hany
      have houtputs : u.2.1 = (evaluate c (t.componentState.get u.1)).1 := by
        simp only [updateOf, hget, Option.bind_some] at hof
        split_ifs at hof
        exact (congrArg (fun w => w.2.1) (Option.some.inj hof)).symm
      rw [get_updates_own hnodup hu, hget]
      simp [withSlots, evaluatedSlots, hevaluated, houtputs, hid]
    · have hother : ∀ u ∈ t.computeUpdates order, u.1 ≠ a := fun u hu heq => hmet ⟨u, hu, heq⟩
      have hsame : evaluatedSlots t c = c.slots := by
        unfold evaluatedSlots
        split_ifs with hevaluated
        · have hnone : updateOf t a = none := by
            by_contra hsome
            obtain ⟨u, hu⟩ := Option.ne_none_iff_exists'.1 hsome
            refine hmet ⟨u, ?_, updateOf_fst hu⟩
            rw [hupdates]
            refine List.mem_filterMap.2 ⟨a, List.mem_filter.2 ⟨?_, ?_⟩, hu⟩
            · exact (h.mem a).2 (by rw [hget]; rfl)
            · rw [hget]
              exact hevaluated
          rw [hid]
          simp only [updateOf, hget, Option.bind_some] at hnone
          split_ifs at hnone with hempty
          have hnil : (evaluate c (t.componentState.get a)).1 = [] := by
            simpa using (Bool.and_eq_true_iff.1 hempty).1
          rw [hnil]
          rfl
        · rfl
      rw [get_updates_other hother, hget, Option.map_some, hsame]

end Stores

section Reads

def channelValue (t : ComponentTree) (order : List UInt16) (channelId : Int32) :
    Option SlotValue :=
  ((t.findChannelComp order channelId).bind fun c => c.slots[6]?).map VirtualSlot.value

def ChannelsIdle (t : ComponentTree) : Prop :=
  ∀ id c, t.get id = some c → t.isChannelComp id = true → isEvaluated c = false

def Reslotted (t t' : ComponentTree) (σ : VirtualComponent → List VirtualSlot) : Prop :=
  ∀ a, t'.get a = (t.get a).map fun c => { c with slots := σ c }

/-- What the phases of an execution leave alone. -/
def Kept (t t' : ComponentTree) : Prop :=
  t'.channelCompEnd = t.channelCompEnd ∧ t'.userAddedIds = t.userAddedIds ∧
    t'.outputChannelIds = t.outputChannelIds

theorem Kept.trans {t t' t'' : ComponentTree} (h : Kept t t') (h' : Kept t' t'') : Kept t t'' :=
  ⟨h'.1.trans h.1, h'.2.1.trans h.2.1, h'.2.2.trans h.2.2⟩

theorem kept_setSlotValue (t : ComponentTree) (id : UInt16) (idx : ℕ) (v : SlotValue) :
    Kept t (t.setSlotValue id idx v).1 := by
  rcases setSlotValue_cases t id idx v with heq | heq <;> rw [heq] <;> exact ⟨rfl, rfl, rfl⟩

theorem kept_evaluatedTree (t : ComponentTree) (order : List UInt16) :
    Kept t (t.evaluatedTree order).1 := by
  have hupdates : ∀ (updates : List ComponentUpdate) state,
      Kept t state.1 → Kept t (updates.foldl applyUpdate state).1 := by
    intro updates
    induction updates with
    | nil => exact fun _ h => h
    | cons u updates ih =>
      intro state h
      refine ih _ (h.trans ?_)
      obtain ⟨id, outputs, st⟩ := u
      have hblind : ∀ (g : ComponentTree → UInt16 × Finset UInt16 × Finset Int32),
          SlotBlind g → g (state.1.applyOutputs id outputs).1 = g state.1 :=
        fun g hg => hg.applyOutputs state.1 id outputs
      have hkept := hblind (fun t => (t.channelCompEnd, t.userAddedIds, t.outputChannelIds))
        fun _ _ _ => rfl
      simp only [Prod.mk.injEq] at hkept
      cases st with
      | none => exact hkept
      | some st => exact hkept
  exact hupdates _ (t, []) ⟨rfl, rfl, rfl⟩

theorem evaluatedSlots_channelRead (t : ComponentTree) {c : VirtualComponent}
    (h : isChannelRead c = true) : evaluatedSlots t c = c.slots := by
  unfold isChannelRead at h
  simp only [Bool.and_eq_true, decide_eq_true_eq] at h
  unfold evaluatedSlots
  split
  · unfold evaluate
    simp [h.2, evaluatePure, stored]
  · rfl

theorem bridgeOf_evaluated {t t' : ComponentTree} (h : Kept t t') (c : VirtualComponent) :
    t'.bridgeOf { c with slots := evaluatedSlots t c } = t.bridgeOf c := by
  unfold bridgeOf
  by_cases hread : isChannelRead c = true
  · have hread' : isChannelRead { c with slots := evaluatedSlots t c } = true := hread
    rw [if_pos hread', if_pos hread, evaluatedSlots_channelRead t hread]
  · have hread' : ¬ isChannelRead { c with slots := evaluatedSlots t c } = true := hread
    rw [if_neg hread', if_neg hread]
    unfold isUserAdded
    rw [h.2.1, h.2.2]

def readOf (t : ComponentTree) (c : VirtualComponent) : Option Bridge :=
  (t.bridgeOf c).bind Sum.getLeft?

def writeOf (t : ComponentTree) (c : VirtualComponent) : Option Bridge :=
  (t.bridgeOf c).bind Sum.getRight?

theorem bridges_evaluatedTree {order : List UInt16} {t : ComponentTree} (h : Enumerates order t) :
    (t.evaluatedTree order).1.bridges order = t.bridges order := by
  unfold bridges
  rw [List.filterMap_filterMap, List.filterMap_filterMap]
  congr 1
  funext a
  rw [get_evaluatedTree h]
  cases t.get a with
  | none => rfl
  | some c => exact bridgeOf_evaluated (kept_evaluatedTree t order) c

theorem reads_eq (t : ComponentTree) (order : List UInt16) :
    (t.bridges order).filterMap Sum.getLeft? =
      order.filterMap fun a => (t.get a).bind (readOf t) := by
  unfold bridges
  rw [List.filterMap_filterMap, List.filterMap_filterMap]
  congr 1

def pull (v : Option SlotValue) (idx : ℕ) (slots : List VirtualSlot) : List VirtualSlot :=
  match v with
  | none => slots
  | some v => slots.modify idx (put v)

theorem pull_other (v : Option SlotValue) {idx i : ℕ} (h : idx ≠ i) (slots : List VirtualSlot) :
    (pull v idx slots)[i]? = slots[i]? := by
  cases v with
  | none => rfl
  | some v => simp [pull, h]

theorem get_readBridge (order : List UInt16) (state : ComponentTree × List UInt16) (b : Bridge)
    (a : UInt16) : (readBridge order state b).1.get a =
      if a = b.compId then
        (state.1.get a).map (withSlots (pull (channelValue state.1 order b.channelId) b.slotIdx))
      else state.1.get a := by
  obtain ⟨t, changed⟩ := state
  unfold readBridge channelValue
  dsimp only
  cases (t.findChannelComp order b.channelId).bind fun c => c.slots[6]? with
  | none =>
    split_ifs
    · exact (congrFun Option.map_id (t.get a)).symm
    · rfl
  | some s => exact get_setSlotValue t b.compId b.slotIdx s.value a

theorem kept_readBridge (order : List UInt16) (state : ComponentTree × List UInt16) (b : Bridge) :
    Kept state.1 (readBridge order state b).1 := by
  unfold readBridge
  dsimp only
  split
  · exact ⟨rfl, rfl, rfl⟩
  · exact kept_setSlotValue _ _ _ _

theorem get_reads_other (order : List UInt16) {reads : List Bridge} {a : UInt16}
    (h : ∀ b ∈ reads, b.compId ≠ a) (state : ComponentTree × List UInt16) :
    (reads.foldl (readBridge order) state).1.get a = state.1.get a := by
  induction reads generalizing state with
  | nil => rfl
  | cons b reads ih =>
    rw [List.foldl_cons, ih (fun b hb => h b (List.mem_cons_of_mem _ hb)), get_readBridge,
      if_neg (Ne.symm (h b List.mem_cons_self))]

def beforeRead (order : List UInt16) (reads : List Bridge)
    (state : ComponentTree × List UInt16) (id : UInt16) : ComponentTree :=
  ((reads.takeWhile fun b => b.compId ≠ id).foldl (readBridge order) state).1

theorem get_reads_own (order : List UInt16) {reads : List Bridge}
    (hnodup : (reads.map Bridge.compId).Nodup) {b : Bridge} (hb : b ∈ reads)
    (state : ComponentTree × List UInt16) :
    (reads.foldl (readBridge order) state).1.get b.compId = (state.1.get b.compId).map
      (withSlots (pull (channelValue (beforeRead order reads state b.compId) order b.channelId)
        b.slotIdx)) := by
  induction reads generalizing state with
  | nil => exact absurd hb List.not_mem_nil
  | cons w reads ih =>
    obtain ⟨hfirst, hrest⟩ := List.nodup_cons.1 hnodup
    rw [List.foldl_cons]
    rcases List.mem_cons.1 hb with rfl | hb
    · have hother : ∀ v ∈ reads, v.compId ≠ b.compId := fun v hv heq =>
        hfirst (heq ▸ List.mem_map_of_mem hv)
      have hbefore : beforeRead order (b :: reads) state b.compId = state.1 := by
        simp [beforeRead]
      rw [get_reads_other order hother, get_readBridge, if_pos rfl, hbefore]
    · have hne : b.compId ≠ w.compId := fun heq => hfirst (heq ▸ List.mem_map_of_mem hb)
      have hbefore : beforeRead order (w :: reads) state b.compId =
          beforeRead order reads (readBridge order state w) b.compId := by
        simp [beforeRead, Ne.symm hne]
      rw [ih hrest hb, get_readBridge, if_neg hne, hbefore]

def reads (t : ComponentTree) (order : List UInt16) : List Bridge :=
  ((t.evaluatedTree order).1.bridges order).filterMap Sum.getLeft?

def sensed (t : ComponentTree) (order : List UInt16) (c : VirtualComponent) : Option SlotValue :=
  (readOf t c).bind fun b => channelValue
    (beforeRead order (t.reads order) (t.evaluatedTree order) c.compId) order b.channelId

def readSlots (t : ComponentTree) (order : List UInt16) (c : VirtualComponent) :
    List VirtualSlot :=
  match readOf t c with
  | none => evaluatedSlots t c
  | some b => pull (sensed t order c) b.slotIdx (evaluatedSlots t c)

/-- The tree once the bridges have brought in the channels' values. -/
def readTree (t : ComponentTree) (order : List UInt16) : ComponentTree × List UInt16 :=
  (t.reads order).foldl (readBridge order) (t.evaluatedTree order)

/-- A component follows the channel its second slot names, or the input channel it is
    named after. -/
theorem readOf_cases {t : ComponentTree} {c : VirtualComponent} {b : Bridge}
    (h : readOf t c = some b) :
    (isChannelRead c = true ∧ 0 < getInt c.slots 1 ∧ b = ⟨c.compId, getInt c.slots 1, 2⟩) ∨
      (isChannelRead c = false ∧ t.isUserAdded c.compId = true ∧ ∃ ch, bridgeChannel c.name = some ch ∧
        ch ∉ t.outputChannelIds ∧ b = ⟨c.compId, ch, 1⟩) := by
  obtain ⟨side, hside, hb⟩ := Option.bind_eq_some_iff.1 h
  obtain rfl := Sum.getLeft?_eq_some_iff.1 hb
  unfold bridgeOf at hside
  split_ifs at hside with hread hpos huser
  · cases hside
    exact .inl ⟨hread, hpos, rfl⟩
  · obtain ⟨ch, hch, hif⟩ := Option.map_eq_some_iff.1 hside
    split_ifs at hif with hout
    cases hif
    exact .inr ⟨Bool.eq_false_iff.2 hread, huser, ch, hch, hout, rfl⟩

theorem readOf_compId {t : ComponentTree} {c : VirtualComponent} {b : Bridge}
    (h : readOf t c = some b) : b.compId = c.compId := by
  rcases readOf_cases h with ⟨-, -, rfl⟩ | ⟨-, -, ch, -, -, rfl⟩ <;> rfl

variable {t : ComponentTree} {order : List UInt16}

theorem reads_of (h : Enumerates order t) :
    t.reads order = order.filterMap fun a => (t.get a).bind (readOf t) := by
  unfold reads
  rw [bridges_evaluatedTree h, reads_eq]

theorem mem_reads (h : Enumerates order t) {b : Bridge} (hb : b ∈ t.reads order) :
    ∃ c, t.get b.compId = some c ∧ readOf t c = some b := by
  rw [reads_of h] at hb
  obtain ⟨a, -, hb⟩ := List.mem_filterMap.1 hb
  obtain ⟨c, hget, hread⟩ := Option.bind_eq_some_iff.1 hb
  have ha : b.compId = a := (readOf_compId hread).trans (h.keyed a c hget)
  exact ⟨c, ha ▸ hget, hread⟩

theorem reads_nodup (h : Enumerates order t) :
    ((t.reads order).map Bridge.compId).Nodup := by
  rw [reads_of h, filterMap_keys]
  · exact h.nodup.filter _
  · intro a b hb
    obtain ⟨c, hget, hread⟩ := Option.bind_eq_some_iff.1 hb
    exact (readOf_compId hread).trans (h.keyed a c hget)

theorem get_readTree (h : Enumerates order t) :
    Reslotted t (t.readTree order).1 (readSlots t order) := by
  intro a
  unfold readTree
  have hother : ∀ {o : Option VirtualComponent}, t.get a = o → (∀ c, o = some c →
      readOf t c = none) → ∀ b ∈ t.reads order, b.compId ≠ a := by
    intro o hget hnone b hb heq
    obtain ⟨c, hc, hread⟩ := mem_reads h hb
    rw [heq, hget] at hc
    rw [hnone c hc] at hread
    cases hread
  cases hget : t.get a with
  | none =>
    rw [get_reads_other order (hother hget nofun), get_evaluatedTree h, hget]
    rfl
  | some c =>
    cases hread : readOf t c with
    | none =>
      have hnone : ∀ c', some c = some c' → readOf t c' = none := by
        rintro c' ⟨⟩
        exact hread
      rw [get_reads_other order (hother hget hnone), get_evaluatedTree h, hget]
      simp [readSlots, hread]
    | some b =>
      have hid := h.keyed a c hget
      have ha : b.compId = a := (readOf_compId hread).trans hid
      have hmem : b ∈ t.reads order := by
        rw [reads_of h]
        refine List.mem_filterMap.2 ⟨a, (h.mem a).2 (by rw [hget]; rfl), ?_⟩
        rw [hget]
        exact hread
      have hown := get_reads_own order (reads_nodup h) hmem (t.evaluatedTree order)
      rw [ha, get_evaluatedTree h, hget] at hown
      rw [hown]
      simp [readSlots, sensed, hread, withSlots, hid]

end Reads

section Writes

theorem executeComponents_eq (t : ComponentTree) (order : List UInt16) :
    t.executeComponents order =
      (((t.evaluatedTree order).1.bridges order).filterMap Sum.getRight?).foldl (writeBridge order)
        (t.readTree order) := rfl

theorem get_writeBridge (order : List UInt16) (state : ComponentTree × List UInt16) (b : Bridge)
    (a : UInt16) : (writeBridge order state b).1.get a = state.1.get a ∨
      ∃ v, (writeBridge order state b).1.get a =
        (state.1.get a).map (withSlots fun slots => slots.modify 6 (put v)) := by
  obtain ⟨t, changed⟩ := state
  unfold writeBridge
  dsimp only
  cases (t.get b.compId).bind fun c => c.slots[b.slotIdx]? with
  | none => exact .inl rfl
  | some s =>
    dsimp only
    cases t.findChannelComp order b.channelId with
    | none => exact .inl rfl
    | some c =>
      dsimp only
      rw [get_setSlotValue]
      split_ifs
      · exact .inr ⟨s.value, rfl⟩
      · exact .inl rfl

/-- A component without an out slot for a channel is written by no bridge. -/
theorem get_writes_short (order : List UInt16) (writes : List Bridge)
    {state : ComponentTree × List UInt16} {a : UInt16} {c : VirtualComponent}
    (hget : state.1.get a = some c) (hshort : c.slots.length ≤ 6) :
    (writes.foldl (writeBridge order) state).1.get a = some c := by
  induction writes generalizing state with
  | nil => exact hget
  | cons b writes ih =>
    refine ih ?_
    rcases get_writeBridge order state b a with heq | ⟨v, heq⟩
    · rw [heq, hget]
    · rw [heq, hget, Option.map_some]
      simp [withSlots, List.modify_eq_self hshort]

theorem get_executeComponents_short {order : List UInt16} {t : ComponentTree}
    (h : Enumerates order t) {a : UInt16} {c : VirtualComponent}
    (hget : t.get a = some c) (hshort : (readSlots t order c).length ≤ 6) :
    (t.executeComponents order).1.get a = some { c with slots := readSlots t order c } := by
  rw [executeComponents_eq]
  refine get_writes_short order _ ?_ hshort
  rw [get_readTree h, hget]
  rfl

end Writes

end Sandstar.ComponentTree
