import Sandstar.TreeExecution
import Sandstar.TreeLookup
import Sandstar.TreePersistence

set_option autoImplicit false

/-!
# Which components drive the hardware

A write reaches the engine under the number in a component's third slot. Clients can
put a number there, a link or a bridge can, and a component of the user's can have one
from the start. As long as none of this happens above the base, the number is that of
the channel the component was made for.
-/
namespace Sandstar.ChannelOwners
open SoxProtocol SoxSlots ComponentTree TreeRequests TreeEdits TreePersistence Runs

/-- The tree, and for every id the channel its component was made for. -/
structure World where
  tree : ComponentTree
  origin : UInt16 → Option UInt32

inductive ServerStep
  | request (op : TreeOp)
  | refresh (channels : List ChannelInfo)
  | links (order : List UInt16)
  | components (order : List UInt16)
  | load (data : PersistData)

def stepTree (t : ComponentTree) : ServerStep → ComponentTree
  | .request op => applyOp t op
  | .refresh channels => (t.updateFromChannels channels).1
  | .links order => (t.executeLinks order).1
  | .components order => (t.executeComponents order).1
  | .load data => (t.loadUserComponents data).2

def forget (origin : UInt16 → Option UInt32) (id : UInt16) : UInt16 → Option UInt32 :=
  Function.update origin id none

def editOrigin (origin : UInt16 → Option UInt32) : TreeEdit → UInt16 → Option UInt32
  | .insert comp => forget origin comp.compId
  | .drop id | .dropLinked id => forget origin id
  | _ => origin

def stepOrigin (s : World) : ServerStep → UInt16 → Option UInt32
  | .request op => editOrigin s.origin (edit s.tree op)
  | .load data => data.components.foldl (fun origin comp => forget origin comp.compId) s.origin
  | _ => s.origin

def step (s : World) (e : ServerStep) : World := ⟨stepTree s.tree e, stepOrigin s e⟩

/-- The tree as built from the channels, with the channel of each component. -/
def start (channels : List ChannelInfo) (db : ManifestDb) : World :=
  ⟨fromChannelsWithManifest channels db,
    channels.zipIdx.foldl
      (fun origin entry => Function.update origin (channelCompId entry.2) (some entry.1.id))
      fun _ => none⟩

/-- Whatever a request or a tick writes goes to the channel that the component was made
    for, through its out slot, and a tick writes outputs and targets of links only. -/
structure OnlyOwnersWrite (channels : List ChannelInfo) (s : World) : Prop where
  request : ∀ req w ch v, parseWriteRequest req s.tree = some w →
    toChannelWrite w s.tree = some (ch, v) → w.slotId = 6 ∧ s.origin w.compId = some ch
  collected : ∀ changedIds ch v, (ch, v) ∈ s.tree.collectChannelWrites changedIds →
    ∃ id ∈ changedIds, s.origin id = some ch ∧
      ((∃ c ∈ channels, c.id = ch ∧ isOutput c = true) ∨
        ∃ comp l, s.tree.get id = some comp ∧ l ∈ comp.links ∧ l.toComp = id ∧ l.toSlot = 6)

def Owned (s : World) : Prop :=
  ∀ id ch, channelCompBase ≤ id → view channelNumber s.tree id = some (some ch) →
    s.origin id = some ch

def slotValue (idx : ℕ) (comp : VirtualComponent) : Option SlotValue :=
  comp.slots[idx]?.map VirtualSlot.value

section Conditions

def HarmlessEdit (s : World) : TreeEdit → Prop
  | .insert comp => channelCompBase ≤ comp.compId → channelNumber comp = none
  | .slots id f => channelCompBase ≤ id → ∀ comp, s.tree.get id = some comp →
      ∀ ch, channelNumber { comp with slots := f comp.slots } = some ch → s.origin id = some ch
  | _ => True

/-- The condition on one step, on what it is given and the state before it. A refresh
    meets each channel at the component made for it; no link and no channel read brings a
    whole number into the third slot of another component above the base. -/
def Harmless (s : World) : ServerStep → Prop
  | .request op => HarmlessEdit s (edit s.tree op)
  | .refresh channels => ∀ entry ∈ channels.zipIdx, channelCompBase ≤ channelCompId entry.2 →
      (s.tree.get (channelCompId entry.2)).isSome = true →
        s.origin (channelCompId entry.2) = some entry.1.id
  | .links order => ∀ v toComp, (v, toComp, 2) ∈ s.tree.collectTransfers order →
      channelCompBase ≤ toComp → ∀ n, v = .int n → s.origin toComp = some n.toUInt32
  | .components order => ∀ reader ∈ order.filterMap s.tree.get, isChannelRead reader = true →
      channelCompBase ≤ reader.compId → ∀ c ∈ order.filterMap s.tree.get,
      s.tree.isChannelComp c.compId = true → ∀ n, slotValue 6 c = some (.int n) →
        s.origin reader.compId = some n.toUInt32
  | .load data => ∀ comp ∈ data.components, channelCompBase ≤ comp.compId →
      channelNumber comp = none

end Conditions

section Values

variable {t : ComponentTree} {id : UInt16} {idx : ℕ} {v : SlotValue}

theorem setSlotValue_cases (t : ComponentTree) (id : UInt16) (idx : ℕ) (v : SlotValue) :
    (t.setSlotValue id idx v).1 = t ∨
      (t.setSlotValue id idx v).1 =
        t.modify id fun c => { c with slots := c.slots.modify idx (setValue v) } := by
  unfold setSlotValue
  split
  · exact .inl rfl
  · split_ifs
    · exact .inl rfl
    · exact .inr rfl

theorem slotValue_modify (comp : VirtualComponent) (i : ℕ) :
    slotValue i { comp with slots := comp.slots.modify idx (setValue v) } =
      if i = idx then (slotValue i comp).map fun _ => v else slotValue i comp := by
  unfold slotValue
  rw [List.getElem?_modify]
  by_cases h : i = idx
  · subst h
    cases comp.slots[i]? <;> simp [setValue]
  · simp [h, Ne.symm h]

theorem view_setSlotValue (i : ℕ) (a : UInt16) {w : SlotValue}
    (h : view (slotValue i) (t.setSlotValue id idx v).1 a = some (some w)) :
    view (slotValue i) t a = some (some w) ∨ (a = id ∧ i = idx ∧ w = v) := by
  rcases setSlotValue_cases t id idx v with heq | heq
  · rw [heq] at h
    exact .inl h
  · rw [heq] at h
    unfold view at h ⊢
    rw [get_modify] at h
    split_ifs at h with ha
    · cases hget : t.get a with
      | none => simp [hget] at h
      | some comp =>
        simp only [hget, Option.map_some, Option.some.injEq, slotValue_modify] at h ⊢
        split_ifs at h with hi
        · cases hval : slotValue i comp with
          | none => simp [hval] at h
          | some old =>
            simp only [hval, Option.map_some, Option.some.injEq] at h
            exact .inr ⟨ha, hi, h.symm⟩
        · exact .inl h
    · exact .inl h

theorem channelNumber_eq {comp : VirtualComponent} {ch : UInt32} :
    channelNumber comp = some ch ↔ ∃ n : Int32, slotValue 2 comp = some (.int n) ∧ n.toUInt32 = ch := by
  unfold channelNumber slotValue
  rcases comp.slots[2]? with _ | ⟨name, typeId, flags, value⟩
  · simp
  · cases value <;> simp

theorem view_channelNumber {t : ComponentTree} {id : UInt16} {ch : UInt32} :
    view channelNumber t id = some (some ch) ↔
      ∃ n : Int32, view (slotValue 2) t id = some (some (.int n)) ∧ n.toUInt32 = ch := by
  unfold view
  cases t.get id with
  | none => simp
  | some comp => simp [channelNumber_eq]

theorem Owned.setSlotValue {origin : UInt16 → Option UInt32} (h : Owned ⟨t, origin⟩)
    (hv : idx = 2 → channelCompBase ≤ id → ∀ n, v = .int n → origin id = some n.toUInt32) :
    Owned ⟨(t.setSlotValue id idx v).1, origin⟩ := by
  intro a ch ha hch
  obtain ⟨n, hn, rfl⟩ := view_channelNumber.1 hch
  rcases view_setSlotValue 2 a hn with hold | ⟨rfl, hidx, hval⟩
  · exact h a _ ha (view_channelNumber.2 ⟨n, hold, rfl⟩)
  · exact hv hidx.symm ha n hval.symm

end Values

section Edits

variable {t : ComponentTree} {origin : UInt16 → Option UInt32}

theorem Owned.congr {t' : ComponentTree} (h : Owned ⟨t, origin⟩)
    (hview : view channelNumber t' = view channelNumber t) : Owned ⟨t', origin⟩ := by
  intro id ch hid hch
  rw [show (World.mk t' origin).tree = t' from rfl, hview] at hch
  exact h id ch hid hch

theorem forget_of_ne {id a : UInt16} (h : a ≠ id) : forget origin id a = origin a := by
  unfold forget
  rw [Function.update_of_ne h]

theorem channelNumber_pushChild (id : UInt16) (c : VirtualComponent) :
    channelNumber (pushChild id c) = channelNumber c := by
  unfold pushChild
  split_ifs <;> rfl

/-- A component that is put into the tree with its channel's number, or with none. -/
theorem Owned.put {t' : ComponentTree} {comp : VirtualComponent} {number : Option UInt32}
    (h : Owned ⟨t, origin⟩)
    (hget : ∀ a, t'.get a = if a = comp.compId then some comp
      else if a = comp.parentId ∧ comp.parentId ≠ noParent then
        (t.get a).map (pushChild comp.compId)
      else t.get a)
    (hnum : channelCompBase ≤ comp.compId → channelNumber comp = number) :
    Owned ⟨t', Function.update origin comp.compId number⟩ := by
  intro a ch ha hch
  change view channelNumber t' a = _ at hch
  change Function.update origin comp.compId number a = some ch
  rw [view, hget] at hch
  by_cases heq : a = comp.compId
  · subst heq
    rw [if_pos rfl, Option.map_some, hnum ha, Option.some.injEq] at hch
    rw [Function.update_self, hch]
  · rw [Function.update_of_ne heq]
    refine h a ch ha ?_
    rw [if_neg heq] at hch
    split_ifs at hch
    · simpa [view, Function.comp_def, channelNumber_pushChild] using hch
    · exact hch

theorem Owned.remove (h : Owned ⟨t, origin⟩) (id : UInt16) :
    Owned ⟨(t.remove id).2, forget origin id⟩ := by
  intro a ch ha hch
  change view channelNumber (t.remove id).2 a = _ at hch
  cases hget : t.get id with
  | none =>
    rw [remove_eq_none hget] at hch
    have hne : a ≠ id := by
      rintro rfl
      simp [view, hget] at hch
    change forget origin id a = some ch
    rw [forget_of_ne hne]
    exact h a ch ha hch
  | some comp =>
    rw [view, get_remove hget] at hch
    split_ifs at hch with heq hparent
    · simp at hch
    · change forget origin id a = some ch
      rw [forget_of_ne heq]
      refine h a ch ha ?_
      rw [Option.map_map] at hch
      exact hch
    · change forget origin id a = some ch
      rw [forget_of_ne heq]
      exact h a ch ha hch

theorem Owned.slots (h : Owned ⟨t, origin⟩) (id : UInt16)
    {f : List VirtualSlot → List VirtualSlot}
    (hf : channelCompBase ≤ id → ∀ comp, t.get id = some comp →
      ∀ ch, channelNumber { comp with slots := f comp.slots } = some ch → origin id = some ch) :
    Owned ⟨withSlots t id f, origin⟩ := by
  intro a ch ha hch
  change view channelNumber (withSlots t id f) a = _ at hch
  rw [view, withSlots, get_modify] at hch
  split_ifs at hch with heq
  · subst heq
    cases hget : t.get a with
    | none => simp [hget] at hch
    | some comp =>
      rw [hget, Option.map_some, Option.map_some, Option.some.injEq] at hch
      exact hf ha comp hget ch hch
  · exact h a ch ha hch

/-- One lemma for the requests: an edit that is harmless keeps the numbers owned. -/
theorem Owned.edit (h : Owned ⟨t, origin⟩) (e : TreeEdit) (he : HarmlessEdit ⟨t, origin⟩ e) :
    Owned ⟨applyEdit t e, editOrigin origin e⟩ := by
  cases e with
  | keep => exact h
  | insert comp => exact h.put (get_add t comp) he
  | drop id =>
    cases hget : t.get id with
    | none =>
      have hremoved := h.remove id
      rw [remove_eq_none hget] at hremoved
      change Owned ⟨applyEdit t (.drop id), forget origin id⟩
      rw [drop_absent hget]
      exact hremoved
    | some comp => exact (h.remove id).congr (view_drop hget)
  | dropLinked id =>
    have hlinks : Owned ⟨dropLinksOf t id, origin⟩ :=
      h.congr (view_dropLinksOf t id fun _ _ => rfl)
    exact hlinks.remove id
  | rename id name => exact h.congr (view_rename t id name fun _ => rfl)
  | link l => exact h.congr (view_storeLink t l fun _ => rfl)
  | unlink l => exact h.congr (view_eraseLink t l fun _ => rfl)
  | reorder id children => exact h.congr (view_modify t id fun _ => rfl)
  | slots id f => exact h.slots id he

end Edits

section Ticks

variable {t : ComponentTree} {origin : UInt16 → Option UInt32}

theorem slotValue_refreshedSlots (old : List VirtualSlot) (ch : ChannelInfo)
    (comp : VirtualComponent) :
    slotValue 2 { comp with slots := refreshedSlots old ch } = some (.int ch.id.toInt32) := by
  unfold refreshedSlots
  split
  · split_ifs <;> rfl
  · rfl

theorem owned_refreshChannel {r : Refresh} (entry : ChannelInfo × ℕ) (h : Owned ⟨r.tree, origin⟩)
    (hat : channelCompBase ≤ channelCompId entry.2 →
      (r.tree.get (channelCompId entry.2)).isSome = true →
        origin (channelCompId entry.2) = some entry.1.id) :
    Owned ⟨(refreshChannel r entry).tree, origin⟩ := by
  rcases refreshChannel_cases r entry with heq | ⟨comp, hget, heq⟩
  · rw [heq]
    exact h
  · rw [heq]
    intro a ch ha hch
    change view channelNumber (r.tree.modify _ _) a = _ at hch
    rw [view, get_modify] at hch
    split_ifs at hch with hid
    · rw [hid, hget, Option.map_some, Option.map_some, Option.some.injEq, channelNumber_eq] at hch
      obtain ⟨n, hn, rfl⟩ := hch
      rw [slotValue_refreshedSlots] at hn
      cases hn
      change origin a = _
      rw [hid] at ha ⊢
      rw [hat ha (by rw [hget]; rfl)]
      simp
    · exact h a ch ha hch

theorem refreshChannel_isSome (r : Refresh) (entry : ChannelInfo × ℕ) (a : UInt16) :
    ((refreshChannel r entry).tree.get a).isSome = (r.tree.get a).isSome := by
  rcases refreshChannel_cases r entry with heq | ⟨comp, -, heq⟩
  · rw [heq]
  · rw [heq, get_modify]
    split_ifs <;> simp

theorem owned_refreshChannels (entries : List (ChannelInfo × ℕ)) {r : Refresh}
    (h : Owned ⟨r.tree, origin⟩)
    (hat : ∀ entry ∈ entries, channelCompBase ≤ channelCompId entry.2 →
      (r.tree.get (channelCompId entry.2)).isSome = true →
        origin (channelCompId entry.2) = some entry.1.id) :
    Owned ⟨(entries.foldl refreshChannel r).tree, origin⟩ := by
  induction entries generalizing r with
  | nil => exact h
  | cons entry entries ih =>
    refine ih (owned_refreshChannel entry h (hat entry List.mem_cons_self)) ?_
    intro entry' hmem hbase hsome
    rw [refreshChannel_isSome] at hsome
    exact hat entry' (List.mem_cons_of_mem _ hmem) hbase hsome

theorem owned_syncBridge (outputs : List (Int32 × SlotValue))
    {state : ComponentTree × List UInt16} (h : Owned ⟨state.1, origin⟩) :
    Owned ⟨(outputs.foldl syncBridge state).1, origin⟩ := by
  induction outputs generalizing state with
  | nil => exact h
  | cons output outputs ih =>
    refine ih ?_
    unfold syncBridge
    dsimp only
    split
    · exact h
    · exact h.setSlotValue fun hidx => absurd hidx (by decide)

theorem applyTransfer_fst (state : ComponentTree × Finset UInt16) (v : SlotValue)
    (toComp : UInt16) (toSlot : UInt8) :
    (applyTransfer state (v, toComp, toSlot)).1 =
      (state.1.setSlotValue toComp toSlot.toNat v).1 := by
  unfold applyTransfer ComponentTree.setSlotValue
  dsimp only
  cases (state.1.get toComp).bind fun c => c.slots[toSlot.toNat]? with
  | none => rfl
  | some s =>
    dsimp only
    split_ifs <;> rfl

theorem owned_applyTransfers (transfers : List (SlotValue × UInt16 × UInt8))
    {state : ComponentTree × Finset UInt16} (h : Owned ⟨state.1, origin⟩)
    (hv : ∀ v toComp, (v, toComp, 2) ∈ transfers → channelCompBase ≤ toComp →
      ∀ n, v = .int n → origin toComp = some n.toUInt32) :
    Owned ⟨(transfers.foldl applyTransfer state).1, origin⟩ := by
  induction transfers generalizing state with
  | nil => exact h
  | cons transfer transfers ih =>
    obtain ⟨v, toComp, toSlot⟩ := transfer
    refine ih ?_ fun v' toComp' hmem => hv v' toComp' (List.mem_cons_of_mem _ hmem)
    rw [applyTransfer_fst]
    refine h.setSlotValue fun hidx hbase n hn => ?_
    have hslot : toSlot = 2 := UInt8.toNat_inj.1 hidx
    subst hslot
    exact hv v toComp List.mem_cons_self hbase n hn

theorem owned_load {data : PersistData} (h : Owned ⟨t, origin⟩)
    (hnone : ∀ comp ∈ data.components, channelCompBase ≤ comp.compId →
      channelNumber comp = none) :
    Owned ⟨(t.loadUserComponents data).2,
      data.components.foldl (fun origin comp => forget origin comp.compId) origin⟩ := by
  have hrestored : ∀ (comps : List VirtualComponent) (t : ComponentTree)
      (origin : UInt16 → Option UInt32), Owned ⟨t, origin⟩ →
      (∀ comp ∈ comps, channelCompBase ≤ comp.compId → channelNumber comp = none) →
      Owned ⟨comps.foldl restore t,
        comps.foldl (fun origin comp => forget origin comp.compId) origin⟩ := by
    intro comps
    induction comps with
    | nil => exact fun _ _ h _ => h
    | cons comp comps ih =>
      intro t origin h hnone
      exact ih _ _ (h.put (get_restore t comp) (hnone comp List.mem_cons_self))
        fun comp' hmem => hnone comp' (List.mem_cons_of_mem _ hmem)
  exact hrestored data.components { t with userAddedIds := _ } origin h hnone

end Ticks

section Execution

variable {t₀ t : ComponentTree} {origin : UInt16 → Option UInt32}

def head (comp : VirtualComponent) : UInt16 × UInt8 × UInt8 :=
  (comp.compId, comp.kitId, comp.typeId)

structure Follows (origin : UInt16 → Option UInt32) (t₀ t : ComponentTree) : Prop where
  owned : Owned ⟨t, origin⟩
  heads : view head t = view head t₀
  ends : t.channelCompEnd = t₀.channelCompEnd
  numbers : ∀ id n, view (slotValue 6) t id = some (some (.int n)) →
    view (slotValue 6) t₀ id = some (some (.int n))

theorem Follows.setSlotValue (h : Follows origin t₀ t) {id : UInt16} {idx : ℕ} {v : SlotValue}
    (hsix : idx = 6 → ∀ n, v ≠ .int n)
    (htwo : idx = 2 → channelCompBase ≤ id → ∀ n, v = .int n → origin id = some n.toUInt32) :
    Follows origin t₀ (t.setSlotValue id idx v).1 where
  owned := h.owned.setSlotValue htwo
  heads := by
    rw [← h.heads]
    rcases setSlotValue_cases t id idx v with heq | heq
    · rw [heq]
    · rw [heq]
      exact view_modify t id fun _ => rfl
  ends := by
    rw [← h.ends]
    rcases setSlotValue_cases t id idx v with heq | heq
    · rw [heq]
    · rw [heq]
      rfl
  numbers := by
    intro a n hn
    rcases view_setSlotValue 6 a hn with hold | ⟨-, hidx, hval⟩
    · exact h.numbers a n hold
    · exact absurd hval.symm (hsix hidx.symm n)

theorem Follows.applyOutputs (h : Follows origin t₀ t) (id : UInt16)
    {outputs : List (ℕ × SlotValue)} (hplain : Plain outputs) :
    Follows origin t₀ (t.applyOutputs id outputs).1 := by
  unfold ComponentTree.applyOutputs
  generalize false = changed
  induction outputs generalizing t changed with
  | nil => exact h
  | cons output outputs ih =>
    obtain ⟨idx, v⟩ := output
    refine ih ?_ (fun idx' v' hmem => hplain idx' v' (List.mem_cons_of_mem _ hmem)) _
    rcases hplain idx v List.mem_cons_self with rfl | ⟨b, rfl⟩
    · exact h.setSlotValue (fun hidx => absurd hidx (by decide)) fun hidx => absurd hidx (by decide)
    · exact h.setSlotValue (fun _ n => by simp) fun _ _ n hn => by simp at hn

theorem Follows.applyUpdates (updates : List ComponentUpdate)
    {state : ComponentTree × List UInt16} (h : Follows origin t₀ state.1)
    (hplain : ∀ update ∈ updates, Plain update.2.1) :
    Follows origin t₀ (updates.foldl applyUpdate state).1 := by
  induction updates generalizing state with
  | nil => exact h
  | cons update updates ih =>
    obtain ⟨id, outputs, st⟩ := update
    refine ih ?_ fun update hmem => hplain update (List.mem_cons_of_mem _ hmem)
    have hout := h.applyOutputs id (hplain _ List.mem_cons_self)
    cases st with
    | none => exact hout
    | some st => exact ⟨hout.owned, hout.heads, hout.ends, hout.numbers⟩

theorem plain_computeUpdates (t : ComponentTree) (order : List UInt16) :
    ∀ update ∈ t.computeUpdates order, Plain update.2.1 := by
  intro update hupdate
  obtain ⟨id, -, hid⟩ := List.mem_filterMap.1 hupdate
  obtain ⟨comp, -, hcomp⟩ := Option.bind_eq_some_iff.1 hid
  dsimp only at hcomp
  split_ifs at hcomp
  cases hcomp
  exact plain_evaluate comp _

theorem Follows.met (h : Follows origin t₀ t) {order : List UInt16} {c : VirtualComponent}
    (hc : c ∈ order.filterMap t.get) :
    ∃ c₀ ∈ order.filterMap t₀.get, head c₀ = head c ∧
      ∀ n, slotValue 6 c = some (.int n) → slotValue 6 c₀ = some (.int n) := by
  obtain ⟨id, hid, hget⟩ := List.mem_filterMap.1 hc
  have hhead := congrFun h.heads id
  rw [view_of_get hget] at hhead
  obtain ⟨c₀, hget₀, heq⟩ := view_eq_some.1 hhead.symm
  refine ⟨c₀, List.mem_filterMap.2 ⟨id, hid, hget₀⟩, heq, fun n hn => ?_⟩
  have hnum := h.numbers id n (view_eq_some.2 ⟨c, hget, hn⟩)
  rw [view_of_get hget₀, Option.some.injEq] at hnum
  exact hnum

theorem head_ext {c c₀ : VirtualComponent} (h : head c₀ = head c) :
    c₀.compId = c.compId ∧ isChannelRead c₀ = isChannelRead c := by
  simp only [head, Prod.mk.injEq] at h
  exact ⟨h.1, by rw [isChannelRead, isChannelRead, h.2.1, h.2.2]⟩

/-- A component that is read for a channel is a channel component it met before. -/
theorem Follows.found (h : Follows origin t₀ t) {order : List UInt16} {channelId : Int32}
    {c : VirtualComponent} (hc : t.findChannelComp order channelId = some c) :
    ∃ c₀ ∈ order.filterMap t₀.get, t₀.isChannelComp c₀.compId = true ∧
      ∀ n, slotValue 6 c = some (.int n) → slotValue 6 c₀ = some (.int n) := by
  obtain ⟨c₀, hmem, hhead, hnum⟩ := h.met (List.mem_of_find?_eq_some hc)
  refine ⟨c₀, hmem, ?_, hnum⟩
  have hchannel := List.find?_some hc
  simp only [Bool.and_eq_true] at hchannel
  rw [(head_ext hhead).1, ← hchannel.1, ComponentTree.isChannelComp, ComponentTree.isChannelComp,
    h.ends]

def ReadsOwn (origin : UInt16 → Option UInt32) (t₀ : ComponentTree) (order : List UInt16)
    (bridge : Bridge) : Prop :=
  bridge.slotIdx ≠ 6 ∧ (bridge.slotIdx = 2 → channelCompBase ≤ bridge.compId →
    ∀ c ∈ order.filterMap t₀.get, t₀.isChannelComp c.compId = true →
      ∀ n, slotValue 6 c = some (.int n) → origin bridge.compId = some n.toUInt32)

theorem Follows.readBridges {order : List UInt16} (bridges : List Bridge)
    {state : ComponentTree × List UInt16} (h : Follows origin t₀ state.1)
    (hown : ∀ bridge ∈ bridges, ReadsOwn origin t₀ order bridge) :
    Follows origin t₀ (bridges.foldl (readBridge order) state).1 := by
  induction bridges generalizing state with
  | nil => exact h
  | cons bridge bridges ih =>
    refine ih ?_ fun bridge' hmem => hown bridge' (List.mem_cons_of_mem _ hmem)
    obtain ⟨hsix, htwo⟩ := hown bridge List.mem_cons_self
    unfold readBridge
    dsimp only
    cases hfound : (state.1.findChannelComp order bridge.channelId).bind fun c => c.slots[6]? with
    | none => exact h
    | some s =>
      obtain ⟨c, hc, hs⟩ := Option.bind_eq_some_iff.1 hfound
      obtain ⟨c₀, hmem, hchannel, hnum⟩ := h.found hc
      refine h.setSlotValue (fun hidx => absurd hidx hsix) fun hidx hbase n hn => ?_
      refine htwo hidx hbase c₀ hmem hchannel n (hnum n ?_)
      rw [slotValue, hs, Option.map_some, hn]

theorem owned_writeBridges {order : List UInt16} (bridges : List Bridge)
    {state : ComponentTree × List UInt16} (h : Owned ⟨state.1, origin⟩) :
    Owned ⟨(bridges.foldl (writeBridge order) state).1, origin⟩ := by
  induction bridges generalizing state with
  | nil => exact h
  | cons bridge bridges ih =>
    refine ih ?_
    unfold writeBridge
    dsimp only
    cases (state.1.get bridge.compId).bind fun c => c.slots[bridge.slotIdx]? with
    | none => exact h
    | some s =>
      dsimp only
      cases state.1.findChannelComp order bridge.channelId with
      | none => exact h
      | some c => exact h.setSlotValue fun hidx => absurd hidx (by decide)

theorem bridgeOf_inl {comp : VirtualComponent} {bridge : Bridge}
    (h : t.bridgeOf comp = some (.inl bridge)) :
    bridge.compId = comp.compId ∧
      (bridge.slotIdx = 1 ∨ bridge.slotIdx = 2 ∧ isChannelRead comp = true) := by
  unfold bridgeOf at h
  split_ifs at h with hread hpos hadded
  · cases h
    exact ⟨rfl, .inr ⟨rfl, hread⟩⟩
  · obtain ⟨ch, -, hch⟩ := Option.map_eq_some_iff.1 h
    split_ifs at hch
    cases hch
    exact ⟨rfl, .inl rfl⟩

theorem owned_executeComponents {order : List UInt16} (h : Owned ⟨t, origin⟩)
    (hreads : Harmless ⟨t, origin⟩ (.components order)) :
    Owned ⟨(t.executeComponents order).1, origin⟩ := by
  have hstart : Follows origin t t := ⟨h, rfl, rfl, fun _ _ hn => hn⟩
  have houtputs : Follows origin t ((t.computeUpdates order).foldl applyUpdate (t, [])).1 :=
    Follows.applyUpdates (t.computeUpdates order) hstart (plain_computeUpdates t order)
  refine owned_writeBridges _ (Follows.readBridges _ houtputs fun bridge hbridge => ?_).owned
  obtain ⟨side, hside, hleft⟩ := List.mem_filterMap.1 hbridge
  obtain ⟨comp, hcomp, hof⟩ := List.mem_filterMap.1 hside
  cases side with
  | inr _ => cases hleft
  | inl bridge' =>
    cases hleft
    obtain ⟨hid, hslot⟩ := bridgeOf_inl hof
    obtain ⟨comp₀, hmem, hhead, -⟩ := houtputs.met hcomp
    refine ⟨by omega, fun htwo hbase c hc hchannel n hn => ?_⟩
    have hread : isChannelRead comp₀ = true := by
      rw [(head_ext hhead).2]
      rcases hslot with hone | ⟨-, hread⟩
      · omega
      · exact hread
    rw [hid, ← (head_ext hhead).1] at hbase ⊢
    exact hreads comp₀ hmem hread hbase c hc hchannel n hn

end Execution

section Fixed

def fixed (t : ComponentTree) : Finset Int32 × UInt16 := (t.outputChannelIds, t.channelCompEnd)

theorem foldl_keeps {S A B : Type} (g : S → B) (f : S → A → S) (h : ∀ s a, g (f s a) = g s)
    (l : List A) (s : S) : g (l.foldl f s) = g s := by
  induction l generalizing s with
  | nil => rfl
  | cons a l ih => rw [List.foldl_cons, ih, h]

theorem fixed_remove (t : ComponentTree) (id : UInt16) : fixed (t.remove id).2 = fixed t := by
  unfold ComponentTree.remove
  cases t.get id <;> rfl

theorem fixed_storeLink (t : ComponentTree) (l : Link) : fixed (t.storeLink l) = fixed t := by
  unfold ComponentTree.storeLink
  dsimp only
  split_ifs <;> rfl

theorem fixed_eraseLink (t : ComponentTree) (l : Link) : fixed (t.eraseLink l) = fixed t := by
  unfold ComponentTree.eraseLink
  dsimp only
  split_ifs <;> rfl

theorem fixed_applyEdit (t : ComponentTree) (e : TreeEdit) : fixed (applyEdit t e) = fixed t := by
  cases e with
  | keep => rfl
  | insert comp => rfl
  | drop id =>
    cases hget : t.get id with
    | none => rw [drop_absent hget]
    | some comp =>
      simp only [applyEdit, hget]
      exact fixed_remove t id
  | dropLinked id =>
    exact (fixed_remove _ id).trans (dropLinksOf_keeps t id fixed_eraseLink)
  | rename id name =>
    change fixed (t.rename id name).2 = fixed t
    unfold ComponentTree.rename
    cases t.get id <;> rfl
  | link l => exact fixed_storeLink t l
  | unlink l => exact fixed_eraseLink t l
  | reorder id children => rfl
  | slots id f => rfl

theorem fixed_applyOp (t : ComponentTree) (op : TreeOp) : fixed (applyOp t op) = fixed t := by
  have hclean : fixed (clean (applyOp t op)) = fixed (clean (applyEdit t (edit t op))) := by
    rw [applyOp_clean]
  exact hclean.trans (fixed_applyEdit t (edit t op))

def SlotBlind {β : Type} (g : ComponentTree → β) : Prop :=
  ∀ (t : ComponentTree) (id : UInt16) (f : List VirtualSlot → List VirtualSlot),
    g (t.modify id fun c => { c with slots := f c.slots }) = g t

section SlotBlind

variable {β : Type} {g : ComponentTree → β}

theorem SlotBlind.setSlotValue (h : SlotBlind g) (t : ComponentTree) (id : UInt16) (idx : ℕ)
    (v : SlotValue) : g (t.setSlotValue id idx v).1 = g t := by
  rcases setSlotValue_cases t id idx v with heq | heq
  · rw [heq]
  · rw [heq]
    exact h t id fun slots => slots.modify idx (setValue v)

theorem SlotBlind.updateFromChannels (h : SlotBlind g) (t : ComponentTree)
    (channels : List ChannelInfo) : g (t.updateFromChannels channels).1 = g t := by
  have hturn : ∀ r entry, g (refreshChannel r entry).tree = g r.tree := by
    intro r entry
    rcases refreshChannel_cases r entry with heq | ⟨comp, -, heq⟩
    · rw [heq]
    · rw [heq]
      exact h r.tree _ fun _ => refreshedSlots comp.slots entry.1
  have hsync : ∀ (state : ComponentTree × List UInt16) (output : Int32 × SlotValue),
      g (syncBridge state output).1 = g state.1 := by
    intro state output
    unfold syncBridge
    dsimp only
    split
    · rfl
    · exact h.setSlotValue _ _ _ _
  exact (foldl_keeps (fun state : ComponentTree × List UInt16 => g state.1) _ hsync _ _).trans
    (foldl_keeps (fun r : Refresh => g r.tree) _ hturn _ _)

theorem SlotBlind.executeLinks (h : SlotBlind g) (t : ComponentTree) (order : List UInt16) :
    g (t.executeLinks order).1 = g t := by
  refine foldl_keeps (fun state : ComponentTree × Finset UInt16 => g state.1) _
    (fun state transfer => ?_) _ _
  obtain ⟨v, toComp, toSlot⟩ := transfer
  rw [applyTransfer_fst]
  exact h.setSlotValue _ _ _ _

theorem SlotBlind.applyOutputs (h : SlotBlind g) (t : ComponentTree) (id : UInt16)
    (outputs : List (ℕ × SlotValue)) : g (t.applyOutputs id outputs).1 = g t :=
  foldl_keeps (fun s : ComponentTree × Bool => g s.1) _
    (fun ⟨t, _⟩ ⟨idx, v⟩ => h.setSlotValue t id idx v) outputs (t, false)

theorem SlotBlind.bridges (h : SlotBlind g) (order : List UInt16) (reads writes : List Bridge)
    (state : ComponentTree × List UInt16) :
    g (writes.foldl (writeBridge order) (reads.foldl (readBridge order) state)).1 = g state.1 := by
  have hread : ∀ (state : ComponentTree × List UInt16) bridge,
      g (readBridge order state bridge).1 = g state.1 := by
    intro state bridge
    unfold readBridge
    dsimp only
    split
    · rfl
    · exact h.setSlotValue _ _ _ _
  have hwrite : ∀ (state : ComponentTree × List UInt16) bridge,
      g (writeBridge order state bridge).1 = g state.1 := by
    intro state bridge
    unfold writeBridge
    dsimp only
    split
    · rfl
    · split
      · rfl
      · exact h.setSlotValue _ _ _ _
  let tree := fun state : ComponentTree × List UInt16 => g state.1
  exact (foldl_keeps tree _ hwrite _ _).trans (foldl_keeps tree _ hread _ _)

/-- The execution writes slots and the states of timers, counters and ramps. -/
theorem SlotBlind.executeComponents (h : SlotBlind g)
    (hstate : ∀ t states, g { t with componentState := states } = g t) (t : ComponentTree)
    (order : List UInt16) : g (t.executeComponents order).1 = g t := by
  have hupdate : ∀ state update, g (applyUpdate state update).1 = g state.1 := by
    rintro state ⟨id, outputs, st⟩
    have houtputs := h.applyOutputs state.1 id outputs
    cases st with
    | none => exact houtputs
    | some st => exact (hstate _ _).trans houtputs
  let tree := fun state : ComponentTree × List UInt16 => g state.1
  exact (h.bridges order _ _ _).trans (foldl_keeps tree _ hupdate _ _)

end SlotBlind

theorem fixed_slotBlind : SlotBlind fixed := fun _ _ _ => rfl

theorem fixed_load (t : ComponentTree) (data : PersistData) :
    fixed (t.loadUserComponents data).2 = fixed t := by
  have hrestore : ∀ (t : ComponentTree) comp, fixed (t.restore comp) = fixed t := fun _ _ => rfl
  exact foldl_keeps fixed _ hrestore data.components { t with userAddedIds := _ }

theorem fixed_stepTree (t : ComponentTree) (e : ServerStep) : fixed (stepTree t e) = fixed t := by
  cases e with
  | request op => exact fixed_applyOp t op
  | refresh channels => exact fixed_slotBlind.updateFromChannels t channels
  | links order => exact fixed_slotBlind.executeLinks t order
  | components order => exact fixed_slotBlind.executeComponents (fun _ _ => rfl) t order
  | load data => exact fixed_load t data

end Fixed

section Main

variable {channels : List ChannelInfo}

/-- The numbers are owned and the outputs are those of the channels of the start. -/
structure Sound (channels : List ChannelInfo) (s : World) : Prop where
  owned : Owned s
  outputs : s.tree.outputChannelIds =
    ((channels.filter isOutput).map fun ch => ch.id.toInt32).toFinset

theorem Sound.step {s : World} (h : Sound channels s) (e : ServerStep) (he : Harmless s e) :
    Sound channels (step s e) where
  owned := by
    obtain ⟨t, origin⟩ := s
    cases e with
    | request op =>
      have hedit := h.owned.edit (edit t op) he
      refine hedit.congr ?_
      have hclean := congrArg (view channelNumber) (applyOp_clean t op)
      exact hclean
    | refresh chs =>
      exact owned_syncBridge _ (owned_refreshChannels chs.zipIdx h.owned he)
    | links order => exact owned_applyTransfers _ h.owned fun v toComp hmem => he v toComp hmem
    | components order => exact owned_executeComponents h.owned he
    | load data => exact owned_load h.owned he
  outputs := by
    have hfixed := congrArg Prod.fst (fixed_stepTree s.tree e)
    exact hfixed.trans h.outputs

theorem owned_systemTree (db : ManifestDb) : Owned ⟨systemTree db, fun _ => none⟩ := by
  have hadd : ∀ (comps : List VirtualComponent) (t : ComponentTree), Owned ⟨t, fun _ => none⟩ →
      (∀ comp ∈ comps, ¬ channelCompBase ≤ comp.compId) →
      Owned ⟨comps.foldl add t, fun _ => none⟩ := by
    intro comps
    induction comps with
    | nil => exact fun _ h _ => h
    | cons comp comps ih =>
      intro t h hlow
      refine ih _ ?_ fun comp' hmem => hlow comp' (List.mem_cons_of_mem _ hmem)
      have hput : Owned ⟨t.add comp, Function.update (fun _ => none) comp.compId none⟩ :=
        h.put (get_add t comp) fun hbase => absurd hbase (hlow comp List.mem_cons_self)
      rwa [Function.update_eq_self_iff.2 rfl] at hput
  refine hadd _ _ (fun id ch _ hch => ?_) (by decide)
  cases hch

theorem channelNumber_channelComponent (entry : ChannelInfo × ℕ) :
    channelNumber (channelComponent entry) = some entry.1.id := by
  have hslot : slotValue 2 (channelComponent entry) = some (.int entry.1.id.toInt32) := rfl
  exact channelNumber_eq.2 ⟨_, hslot, by simp⟩

theorem sound_start (channels : List ChannelInfo) (db : ManifestDb) :
    Sound channels (start channels db) where
  owned := by
    have hadd : ∀ (entries : List (ChannelInfo × ℕ)) (t : ComponentTree)
        (origin : UInt16 → Option UInt32), Owned ⟨t, origin⟩ →
        Owned ⟨(entries.map channelComponent).foldl add t,
          entries.foldl (fun origin entry =>
            Function.update origin (channelCompId entry.2) (some entry.1.id)) origin⟩ := by
      intro entries
      induction entries with
      | nil => exact fun _ _ h => h
      | cons entry entries ih =>
        intro t origin h
        exact ih _ _ (h.put (get_add t (channelComponent entry))
          fun _ => channelNumber_channelComponent entry)
    exact hadd channels.zipIdx (systemTree db) _ (owned_systemTree db)
  outputs := rfl

theorem Sound.onlyOwnersWrite {s : World} (h : Sound channels s) : OnlyOwnersWrite channels s where
  request := by
    intro req w ch v _ hwrite
    unfold toChannelWrite at hwrite
    split_ifs at hwrite with hbase hslot
    obtain ⟨comp, hget, hcomp⟩ := Option.bind_eq_some_iff.1 hwrite
    obtain ⟨ch', hch, hval⟩ := Option.bind_eq_some_iff.1 hcomp
    obtain ⟨v', -, hv⟩ := Option.map_eq_some_iff.1 hval
    cases hv
    exact ⟨not_not.1 hslot, h.owned _ _ (UInt16.not_lt.1 hbase) (view_eq_some.2 ⟨comp, hget, hch⟩)⟩
  collected := by
    intro changedIds ch v hmem
    obtain ⟨id, hid, hwrite⟩ := List.mem_filterMap.1 hmem
    refine ⟨id, hid, ?_⟩
    unfold channelWrite at hwrite
    split_ifs at hwrite with hchannel
    obtain ⟨comp, hget, hcomp⟩ := Option.bind_eq_some_iff.1 hwrite
    obtain ⟨ch', hch, hval⟩ := Option.bind_eq_some_iff.1 hcomp
    split_ifs at hval with hidle
    obtain ⟨v', -, hv⟩ := Option.map_eq_some_iff.1 hval
    cases hv
    have hbase : channelCompBase ≤ id := by
      simp only [ComponentTree.isChannelComp, Bool.not_eq_true', Bool.and_eq_false_iff,
        not_or, decide_eq_false_iff_not, not_not] at hchannel
      exact hchannel.1
    refine ⟨h.owned id ch hbase (view_eq_some.2 ⟨comp, hget, hch⟩), ?_⟩
    by_cases hlink : hasLinkToOut comp id = true
    · obtain ⟨l, hl, hto⟩ := List.any_eq_true.1 hlink
      simp only [Bool.and_eq_true, decide_eq_true_eq] at hto
      exact .inr ⟨comp, l, hget, hl, hto.1, hto.2⟩
    · have hout : ch.toInt32 ∈ s.tree.outputChannelIds := by
        by_contra hout
        exact hidle (by simp [hlink, hout])
      rw [h.outputs, List.mem_toFinset, List.mem_map] at hout
      obtain ⟨c, hc, heq⟩ := hout
      rw [List.mem_filter] at hc
      exact .inl ⟨c, hc.1, by simpa using congrArg Int32.toUInt32 heq, hc.2⟩

/-- In every run of harmless steps only the owners of the channels drive the hardware. -/
theorem writes_only_owned (channels : List ChannelInfo) (db : ManifestDb)
    (steps : List ServerStep) (h : Along step Harmless (start channels db) steps) :
    ∀ s ∈ states step (start channels db) steps, OnlyOwnersWrite channels s := by
  intro s hs
  exact (states_invariant ChannelOwners.step (I := Sound channels)
    (fun _ e hsound he => hsound.step e he) (sound_start channels db) h s hs).onlyOwnersWrite

end Main

def sampleOutput : ChannelInfo := ⟨1113, "AO1", "analog", "AO", true, "ok", 0, 0⟩

/-- Renaming its component is harmless. -/
theorem writes_only_owned_renamed :
    OnlyOwnersWrite [sampleOutput] (run step (start [sampleOutput] ManifestDb.new)
      [.request (.renameComp 100 "valve")]) := by
  refine writes_only_owned [sampleOutput] ManifestDb.new
    [.request (.renameComp 100 "valve")] ⟨?_, trivial⟩ _ (run_mem_states _ _ _)
  change HarmlessEdit (start [sampleOutput] ManifestDb.new) (renameEdit 100 "valve")
  unfold renameEdit
  split_ifs <;> trivial

def addConstant : SoxRequest := ⟨.add, 1, [0, 6, 2, 15, 99, 0]⟩

/-- A constant that a user adds holds a 0 in its third slot, and writes to channel 0. -/
theorem added_constant_drives_channel :
    ¬ ∀ steps, ∀ s ∈ states step (start [sampleOutput] ManifestDb.new) steps,
      OnlyOwnersWrite [sampleOutput] s := by
  intro h
  have hrun := h [.request (.sox addConstant)] _ (run_mem_states _ _ _)
  have hparse : parseWriteRequest ⟨.write, 1, [0, 101, 6, 0, 0, 0, 0]⟩
      (run step (start [sampleOutput] ManifestDb.new) [.request (.sox addConstant)]).tree =
      some ⟨101, 6, .float 0⟩ := by
    decide +kernel
  have hwrite : (toChannelWrite ⟨101, 6, .float 0⟩
      (run step (start [sampleOutput] ManifestDb.new)
        [.request (.sox addConstant)]).tree).map Prod.fst = some 0 := by
    decide +kernel
  obtain ⟨⟨ch, v⟩, hv, rfl⟩ := Option.map_eq_some_iff.1 hwrite
  have horigin := (hrun.request _ _ _ _ hparse hv).2
  have hnone : (run step (start [sampleOutput] ManifestDb.new)
      [.request (.sox addConstant)]).origin 101 = none := by
    decide +kernel
  rw [hnone] at horigin
  cases horigin

end Sandstar.ChannelOwners
