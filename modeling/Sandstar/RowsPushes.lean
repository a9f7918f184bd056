import Sandstar.RowsSession

set_option autoImplicit false

/-!
# What pushes do to a copy

A client applies the pushed messages to the copies that it holds of components. A walk
over the subscribed components changes what the session and the client hold of each
one on its own, so that one tick can be followed at one component.
-/
namespace Sandstar.Rows
open ComponentTree

/-- What a client holds of a component. Tags are pushed also for one that is gone. -/
structure Copy where
  present : Bool
  slots : ℕ → Option JsonScalar
  children : List UInt16
  tags : Table String TagJson

def Copy.empty : Copy := ⟨false, fun _ => none, [], Table.empty⟩

def patch (slots : ℕ → Option JsonScalar) (changes : List CovSlot) : ℕ → Option JsonScalar :=
  changes.foldl (fun slots c => Function.update slots c.index (some c.value)) slots

def CovMsg.compId : CovMsg → UInt16
  | .deleted id | .childrenChanged id _ | .cov id _ | .tagsChanged id _ => id

def Copy.apply (copy : Copy) : CovMsg → Copy
  | .deleted _ => ⟨false, fun _ => none, [], copy.tags⟩
  | .childrenChanged _ children => ⟨true, copy.slots, children, copy.tags⟩
  | .cov _ changes => ⟨true, patch copy.slots changes, copy.children, copy.tags⟩
  | .tagsChanged _ tags => ⟨copy.present, copy.slots, copy.children, tags⟩

abbrev Client := UInt16 → Copy

def Client.apply (client : Client) (m : CovMsg) : Client :=
  Function.update client m.compId ((client m.compId).apply m)

def Client.applyAll (client : Client) (msgs : List CovMsg) : Client := msgs.foldl Client.apply client

theorem applyAll_append (client : Client) (xs ys : List CovMsg) :
    client.applyAll (xs ++ ys) = (client.applyAll xs).applyAll ys := List.foldl_append

theorem applyAll_about {client : Client} {msgs : List CovMsg} {id : UInt16}
    (h : ∀ m ∈ msgs, m.compId = id) (a : UInt16) :
    client.applyAll msgs a = if a = id then msgs.foldl Copy.apply (client id) else client a := by
  induction msgs generalizing client with
  | nil => by_cases ha : a = id <;> simp [Client.applyAll, ha]
  | cons m msgs ih =>
    obtain ⟨rfl, hmsgs⟩ := List.forall_mem_cons.1 h
    change (client.apply m).applyAll msgs a = _
    rw [ih hmsgs]
    by_cases ha : a = m.compId <;> simp [Client.apply, ha]

@[ext]
structure Slice where
  cov : Option (List JsonScalar)
  tree : Option (List UInt16)
  tags : Option (Table String TagJson)
  copy : Copy

def slice (sess : Session) (client : Client) (id : UInt16) : Slice :=
  ⟨sess.covCache.get id, sess.treeCache.get id, sess.tagsCache.get id, client id⟩

/-- A turn changes the slice of its component by `f` and nothing else. -/
structure Turns (compact : Bool) (turn : Session → UInt16 → Session × List CovMsg)
    (f : UInt16 → Slice → Slice) : Prop where
  subscribed_eq : ∀ sess id, (turn sess id).1.subscribed = sess.subscribed
  compact_eq : ∀ sess id, (turn sess id).1.compactCov = sess.compactCov
  slice_eq : ∀ sess client id a, sess.compactCov = compact →
    slice (turn sess id).1 (client.applyAll (turn sess id).2) a =
      if a = id then f id (slice sess client id) else slice sess client a

section Walk

variable {compact : Bool} {turn : Session → UInt16 → Session × List CovMsg}
  {f : UInt16 → Slice → Slice}

theorem eachId_cons (sess : Session) (id : UInt16) (ids : List UInt16) :
    eachId turn sess (id :: ids) =
      ((eachId turn (turn sess id).1 ids).1,
        (turn sess id).2 ++ (eachId turn (turn sess id).1 ids).2) := rfl

theorem eachId_subscribed (h : Turns compact turn f) (sess : Session) (ids : List UInt16) :
    (eachId turn sess ids).1.subscribed = sess.subscribed := by
  induction ids generalizing sess with
  | nil => rfl
  | cons id ids ih =>
    rw [eachId_cons]
    exact (ih _).trans (h.subscribed_eq sess id)

theorem eachId_slice (h : Turns compact turn f) {ids : List UInt16} (hids : ids.Nodup)
    (sess : Session) (hcompact : sess.compactCov = compact) (client : Client) (a : UInt16) :
    slice (eachId turn sess ids).1 (client.applyAll (eachId turn sess ids).2) a =
      if a ∈ ids then f a (slice sess client a) else slice sess client a := by
  induction ids generalizing sess client with
  | nil => rfl
  | cons id ids ih =>
    obtain ⟨hid, hnodup⟩ := List.nodup_cons.1 hids
    rw [eachId_cons, applyAll_append, ih hnodup _ ((h.compact_eq sess id).trans hcompact),
      h.slice_eq sess client id a hcompact]
    by_cases ha : a = id
    · subst ha
      simp [hid]
    · simp [ha]

end Walk

def covSlice (tree : ComponentTree) (compact : Bool) (id : UInt16) (σ : Slice) : Slice :=
  match tree.get id with
  | none => if σ.tree.isSome then ⟨none, none, σ.tags, σ.copy.apply (.deleted id)⟩ else σ
  | some comp =>
    ⟨some (slotValues comp), some comp.children, σ.tags,
      (childrenMessages id σ.tree comp.children ++
        slotMessages compact id σ.cov comp).foldl Copy.apply σ.copy⟩

def tagsSlice (store : DynSlotStore) (id : UInt16) (σ : Slice) : Slice :=
  if σ.tags.getD Table.empty ≠ currentTags store id then
    ⟨σ.cov, σ.tree, some (currentTags store id),
      σ.copy.apply (.tagsChanged id (currentTags store id))⟩
  else σ

section Turns

variable {cached : Option (List JsonScalar)} {current : List JsonScalar} {id : UInt16}

theorem any_ne_eq_false {old : List JsonScalar} (h : old.length = current.length) :
    ((old.zip current).any fun (a, b) => decide (a ≠ b)) = false ↔ old = current := by
  induction old generalizing current with
  | nil =>
    rw [List.length_eq_zero_iff.1 h.symm]
    simp
  | cons a old ih =>
    cases current with
    | nil => cases h
    | cons b current =>
      have htail := ih (Nat.succ_injective h)
      simp only [List.zip_cons_cons, List.any_cons, Bool.or_eq_false_iff, htail, List.cons.injEq]
      simp

theorem slotsChanged_eq_false : slotsChanged cached current = false ↔ cached = some current := by
  unfold slotsChanged
  cases cached with
  | none => simp
  | some old =>
    by_cases hlength : old.length = current.length
    · rw [Option.some.injEq, ← any_ne_eq_false hlength]
      simp [hlength]
    · have hne : old ≠ current := fun h => hlength (congrArg List.length h)
      simp [hlength, hne]

theorem compId_childrenMessages {cached : Option (List UInt16)} {children : List UInt16} :
    ∀ m ∈ childrenMessages id cached children, m.compId = id := by
  cases cached with
  | none => simp [childrenMessages]
  | some old => by_cases h : old = children <;> simp [childrenMessages, h, CovMsg.compId]

theorem compId_slotMessages {compact : Bool} {comp : VirtualComponent} :
    ∀ m ∈ slotMessages compact id cached comp, m.compId = id := by
  unfold slotMessages
  split_ifs <;> simp [CovMsg.compId]

theorem covComponent_turns (tree : ComponentTree) (compact : Bool) :
    Turns compact (covComponent tree) (covSlice tree compact) where
  subscribed_eq sess id := by
    unfold covComponent
    cases tree.get id with
    | none => dsimp only; split_ifs <;> rfl
    | some comp => rfl
  compact_eq sess id := by
    unfold covComponent
    cases tree.get id with
    | none => dsimp only; split_ifs <;> rfl
    | some comp => rfl
  slice_eq sess client id a hcompact := by
    unfold covComponent covSlice
    cases tree.get id with
    | none =>
      cases htree : sess.treeCache.get id with
      | none => by_cases ha : a = id <;> simp [slice, htree, ha, Client.applyAll]
      | some old =>
        by_cases ha : a = id <;>
          simp [slice, htree, ha, Client.applyAll, Client.apply, CovMsg.compId, Table.get_erase]
    | some comp =>
      have habout : ∀ m ∈ childrenMessages id (sess.treeCache.get id) comp.children ++
          slotMessages compact id (sess.covCache.get id) comp, m.compId = id := fun m hm =>
        (List.mem_append.1 hm).elim (compId_childrenMessages m) (compId_slotMessages m)
      have hcov : (if slotsChanged (sess.covCache.get id) (slotValues comp) = true then
          sess.covCache.insert id (slotValues comp) else sess.covCache) =
            sess.covCache.insert id (slotValues comp) := by
        split_ifs with hchanged
        · rfl
        · exact (Table.insert_present (slotsChanged_eq_false.1 (by simpa using hchanged))).symm
      dsimp only [slice]
      rw [hcov, hcompact, applyAll_about habout]
      by_cases ha : a = id <;> simp [ha, Table.get_insert]

theorem covTags_turns (store : DynSlotStore) (compact : Bool) :
    Turns compact (covTags store) (tagsSlice store) where
  subscribed_eq sess id := by
    unfold covTags
    dsimp only
    split_ifs <;> rfl
  compact_eq sess id := by
    unfold covTags
    dsimp only
    split_ifs <;> rfl
  slice_eq sess client id a _ := by
    unfold covTags tagsSlice
    by_cases hsame : (sess.tagsCache.get id).getD Table.empty = currentTags store id
    · by_cases ha : a = id <;> simp [slice, hsame, ha, Client.applyAll]
    · by_cases ha : a = id <;>
        simp [slice, hsame, ha, Client.applyAll, Client.apply, CovMsg.compId, Table.get_insert]

def tickSlice (s : RowsState) (compact : Bool) (id : UInt16) (σ : Slice) : Slice :=
  match s.dynStore with
  | none => covSlice s.tree compact id σ
  | some store => tagsSlice store id (covSlice s.tree compact id σ)

theorem buildCovMessages_subscribed (order : IdOrder) (s : RowsState) (sess : Session) :
    (buildCovMessages order s sess).1.subscribed = sess.subscribed := by
  have hcov := eachId_subscribed (covComponent_turns s.tree sess.compactCov) sess
    (order.walk sess.subscribed)
  unfold buildCovMessages
  cases s.dynStore with
  | none => exact hcov
  | some store => exact (eachId_subscribed (covTags_turns store false) _ _).trans hcov

theorem slice_buildCovMessages (order : IdOrder) (s : RowsState) (sess : Session)
    (client : Client) (a : UInt16) :
    slice (buildCovMessages order s sess).1
        (client.applyAll (buildCovMessages order s sess).2) a =
      if a ∈ sess.subscribed then tickSlice s sess.compactCov a (slice sess client a)
      else slice sess client a := by
  have hcov := eachId_slice (covComponent_turns s.tree sess.compactCov)
    (order.nodup sess.subscribed) sess rfl client a
  simp only [order.mem] at hcov
  unfold buildCovMessages tickSlice
  cases s.dynStore with
  | none => exact hcov
  | some store =>
    have htags := eachId_slice (covTags_turns store _) (order.nodup sess.subscribed)
      (eachId (covComponent s.tree) sess (order.walk sess.subscribed)).1 rfl
      (client.applyAll (eachId (covComponent s.tree) sess (order.walk sess.subscribed)).2) a
    simp only [order.mem] at htags
    dsimp only
    rw [applyAll_append, htags, hcov]
    split_ifs <;> rfl

end Turns

section Following

variable {comp : VirtualComponent} {compact : Bool} {id : UInt16} {copy : Copy}

theorem patch_eq {changes : List CovSlot} {i : ℕ} {v : Option JsonScalar}
    {slots : ℕ → Option JsonScalar} (h : ∀ c ∈ changes, c.index = i → some c.value = v) :
    patch slots changes i = if ∃ c ∈ changes, c.index = i then v else slots i := by
  induction changes generalizing slots with
  | nil => simp [patch]
  | cons c changes ih =>
    obtain ⟨hc, hchanges⟩ := List.forall_mem_cons.1 h
    change patch (Function.update slots c.index (some c.value)) changes i = _
    rw [ih hchanges]
    by_cases hlater : ∃ c ∈ changes, c.index = i
    · simp [hlater]
    · by_cases hi : c.index = i
      · subst hi
        simp [hlater, hc rfl]
      · simp [hlater, hi, Function.update_of_ne (Ne.symm hi)]

theorem mem_changedSlots {cached : Option (List JsonScalar)} {c : CovSlot} {slots : List VirtualSlot} :
    c ∈ changedSlots compact cached slots ↔ ∃ slot, slots[c.index]? = some slot ∧
      (cached.bind fun old => old[c.index]?) ≠ some (slotValueToJson slot.value) ∧
      c = ⟨c.index, if compact then none else some slot.name, slotValueToJson slot.value⟩ := by
  unfold changedSlots
  rw [List.mem_filterMap]
  constructor
  · rintro ⟨⟨slot, idx⟩, hslot, hc⟩
    rw [List.mem_zipIdx_iff_getElem?] at hslot
    dsimp only at hc
    by_cases hsame : (cached.bind fun old => old[idx]?) = some (slotValueToJson slot.value)
    · rw [if_pos hsame] at hc
      cases hc
    · rw [if_neg hsame] at hc
      cases hc
      exact ⟨slot, hslot, hsame, rfl⟩
  · rintro ⟨slot, hslot, hsame, hc⟩
    refine ⟨(slot, c.index), List.mem_zipIdx_iff_getElem?.2 hslot, ?_⟩
    dsimp only
    rw [if_neg hsame, ← hc]

def Fresh (cached : Option (List JsonScalar)) (comp : VirtualComponent) (i : ℕ) : Prop :=
  i < comp.slots.length ∧ (cached.bind fun old => old[i]?) ≠ (slotValues comp)[i]?

instance (cached : Option (List JsonScalar)) (comp : VirtualComponent) (i : ℕ) :
    Decidable (Fresh cached comp i) := inferInstanceAs (Decidable (_ ∧ _))

theorem getElem?_slotValues (comp : VirtualComponent) (i : ℕ) :
    (slotValues comp)[i]? = comp.slots[i]?.map fun slot => slotValueToJson slot.value :=
  List.getElem?_map

theorem fresh_iff {cached : Option (List JsonScalar)} {i : ℕ} :
    Fresh cached comp i ↔ ∃ c ∈ changedSlots compact cached comp.slots, c.index = i := by
  unfold Fresh
  rw [getElem?_slotValues]
  constructor
  · rintro ⟨hi, hfresh⟩
    rw [List.getElem?_eq_getElem hi, Option.map_some] at hfresh
    exact ⟨⟨i, _, _⟩, mem_changedSlots.2 ⟨_, List.getElem?_eq_getElem hi, hfresh, rfl⟩, rfl⟩
  · rintro ⟨c, hc, rfl⟩
    obtain ⟨slot, hslot, hfresh, -⟩ := mem_changedSlots.1 hc
    rw [hslot, Option.map_some]
    exact ⟨(List.getElem?_eq_some_iff.1 hslot).1, hfresh⟩

theorem patch_changedSlots (cached : Option (List JsonScalar)) (slots : ℕ → Option JsonScalar)
    (i : ℕ) :
    patch slots (changedSlots compact cached comp.slots) i =
      if Fresh cached comp i then (slotValues comp)[i]? else slots i := by
  have hvalue : ∀ c ∈ changedSlots compact cached comp.slots, c.index = i →
      some c.value = (slotValues comp)[i]? := by
    rintro c hc rfl
    obtain ⟨slot, hslot, -, heq⟩ := mem_changedSlots.1 hc
    rw [getElem?_slotValues, hslot, Option.map_some, heq]
  rw [patch_eq hvalue]
  exact if_congr fresh_iff.symm rfl rfl

theorem changedSlots_eq_nil {cached : Option (List JsonScalar)} :
    changedSlots compact cached comp.slots = [] ↔ ∀ i, ¬ Fresh cached comp i := by
  rw [List.eq_nil_iff_forall_not_mem]
  constructor
  · intro h i hfresh
    have hpushed : ∃ c ∈ changedSlots compact cached comp.slots, c.index = i := fresh_iff.1 hfresh
    obtain ⟨c, hc, -⟩ := hpushed
    exact h c hc
  · exact fun h c hc => h c.index (fresh_iff.2 ⟨c, hc, rfl⟩)

theorem slotMessages_eq (cached : Option (List JsonScalar)) :
    slotMessages compact id cached comp =
      if changedSlots compact cached comp.slots = [] then []
      else [.cov id (changedSlots compact cached comp.slots)] := by
  unfold slotMessages
  by_cases hnil : changedSlots compact cached comp.slots = []
  · simp [hnil]
  · have hchanged : slotsChanged cached (slotValues comp) = true := by
      by_contra hsame
      have hcached := slotsChanged_eq_false.1 (Bool.eq_false_of_not_eq_true hsame)
      exact hnil (changedSlots_eq_nil.2 fun i hfresh => hfresh.2 (by rw [hcached]; rfl))
    simp [hnil, hchanged]

theorem apply_slotMessages (cached : Option (List JsonScalar)) (copy : Copy) :
    (slotMessages compact id cached comp).foldl Copy.apply copy =
      ⟨copy.present || decide (∃ i < comp.slots.length, Fresh cached comp i),
        fun i => if Fresh cached comp i then (slotValues comp)[i]? else copy.slots i,
        copy.children, copy.tags⟩ := by
  rw [slotMessages_eq]
  by_cases hnil : changedSlots compact cached comp.slots = []
  · simp [hnil, changedSlots_eq_nil.1 hnil]
  · have hsome : ∃ i < comp.slots.length, Fresh cached comp i := by
      by_contra hnone
      exact hnil (changedSlots_eq_nil.2 fun i hfresh => hnone ⟨i, hfresh.1, hfresh⟩)
    rw [if_neg hnil, decide_eq_true hsome, Bool.or_true, ← funext (patch_changedSlots cached copy.slots)]
    rfl

def childrenMoved (cached : Option (List UInt16)) (children : List UInt16) : Bool :=
  cached.any (· ≠ children)

theorem apply_childrenMessages (cached : Option (List UInt16)) (children : List UInt16)
    (copy : Copy) :
    (childrenMessages id cached children).foldl Copy.apply copy =
      if childrenMoved cached children then ⟨true, copy.slots, children, copy.tags⟩ else copy := by
  cases cached with
  | none => rfl
  | some old =>
    by_cases h : old = children <;> simp [childrenMessages, childrenMoved, h, Copy.apply]

end Following

end Sandstar.Rows
