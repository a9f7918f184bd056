import Sandstar.RowsSession
import Sandstar.TreeDeletions

set_option autoImplicit false

/-!
# The numbers of RoWS requests

A request names components, kits, types and slots by numbers of up to 64 bits, which
are cut to the width of the id before anything is checked. So a number that is too
large acts on another component, unless the request for that one is refused.
-/
namespace Sandstar.Rows
open SoxProtocol SoxSlots ComponentTree TreeRequests TreeEdits TreeDeletions

def requestOp (msg : Json) : Option RowsOp := (strField msg "op").bind RowsOp.ofString

def idFields (usizeBits : ℕ) : RowsOp → List (String × ℕ)
  | .readComp | .deleteComp | .rename | .updatePos | .readTags | .setTags | .deleteTag =>
    [("compId", 2 ^ 16)]
  | .writeSlot | .invoke => [("compId", 2 ^ 16), ("slotIdx", 2 ^ usizeBits)]
  | .addComp => [("parentId", 2 ^ 16), ("kitId", 2 ^ 8), ("typeId", 2 ^ 8)]
  | .addLink | .deleteLink =>
    [("fromComp", 2 ^ 16), ("fromSlot", 2 ^ 8), ("toComp", 2 ^ 16), ("toSlot", 2 ^ 8)]
  | .ping | .readTree | .nameTable | .palette | .subscribe | .unsubscribe | .setFormat => []

def listedIds (msg : Json) : List (ℕ × ℕ) :=
  (((msg.get "compIds").bind Json.asArray).getD []).filterMap fun v =>
    v.asU64.map fun n => (n.toNat, 2 ^ 16)

def fieldIds (msg : Json) (fields : List (String × ℕ)) : List (ℕ × ℕ) :=
  fields.filterMap fun f => (numberField msg f.1).map fun n => (n.toNat, f.2)

def listedOp : RowsOp → Bool
  | .subscribe | .unsubscribe => true
  | _ => false

def givenIds (usizeBits : ℕ) (msg : Json) : List (ℕ × ℕ) :=
  match requestOp msg with
  | none => []
  | some op => if listedOp op then listedIds msg else fieldIds msg (idFields usizeBits op)

def named (usizeBits : ℕ) (msg : Json) : List ℕ := (givenIds usizeBits msg).map Prod.fst

def RowsCmd.ids : RowsCmd → List ℕ
  | .readComp compId | .deleteComp compId | .rename compId _ | .updatePos compId _ _
  | .readTags compId | .setTags compId _ | .deleteTag compId _ => [compId.toNat]
  | .writeSlot compId slotIdx _ | .invoke compId slotIdx => [compId.toNat, slotIdx]
  | .addComp parentId kitId typeId _ => [parentId.toNat, kitId.toNat, typeId.toNat]
  | .addLink l | .deleteLink l =>
    [l.fromComp.toNat, l.fromSlot.toNat, l.toComp.toNat, l.toSlot.toNat]
  | .subscribe compIds | .unsubscribe compIds => compIds.map UInt16.toNat
  | .ping | .readTree | .nameTable | .palette | .setFormat _ => []

def InRange (usizeBits : ℕ) (msg : Json) : Prop := ∀ id ∈ givenIds usizeBits msg, id.1 < id.2

/-- A request changes the tree only with the ids that it names, and one with a number
    that is no id is turned down. -/
structure ActsAsNamed (p : Platform) (s : RowsState) (sess : Session) (msg : Json) : Prop where
  applied : ∀ s' sess' reply, handleClientMsg p s sess (some msg) = some (s', sess', reply) →
    s'.tree ≠ s.tree → ∀ cmd, dispatch p msg = .ok cmd → named p.usizeBits msg = cmd.ids
  refused : ¬ InRange p.usizeBits msg →
    ∃ s' sess' reply, handleClientMsg p s sess (some msg) = some (s', sess', reply) ∧
      reply.answer.isError ∧ s'.tree = s.tree

def tagsOf (store : DynSlotStore) (compId : UInt16) : Tags :=
  (store.slots.get compId).getD Table.empty

def newTags (store : DynSlotStore) (compId : UInt16) (fields : List (String × Json)) :
    Finset String := (fields.map Prod.fst).toFinset \ (tagsOf store compId).keys

/-- The new tags fit into the limits of the component and of the store. -/
def Fits (store : DynSlotStore) (compId : UInt16) (fields : List (String × Json)) : Prop :=
  newTags store compId fields = ∅ ∨
    (tagsOf store compId).size + (newTags store compId fields).card ≤ store.maxPerComp ∧
      store.total + (newTags store compId fields).card ≤ store.maxTotal

/-- What the checks of a command turn down, the ids taken as they are. -/
def Refuses (p : Platform) (s : RowsState) : RowsCmd → Prop
  | .readComp compId => s.tree.get compId = none
  | .writeSlot compId slotIdx value => ∀ comp, s.tree.get compId = some comp →
    ∀ slot, comp.slots[slotIdx]? = some slot → jsonToSlotValue p value slot.typeId = none
  | .addComp parentId _ _ name => validateName name ≠ none ∨ s.tree.get parentId = none
  | .deleteComp compId => compId < 7 ∨ s.tree.get compId = none
  | .rename compId name => validateName name ≠ none ∨ s.tree.get compId = none
  | .addLink l => linkAccepted s.tree l = false
  | .deleteLink l => ∀ comp, s.tree.get l.toComp = some comp ∨ s.tree.get l.fromComp = some comp →
    l ∉ comp.links
  | .updatePos compId _ _ => ∀ comp, s.tree.get compId = some comp → comp.slots = []
  | .invoke compId slotIdx => ∀ comp, s.tree.get compId = some comp →
    ∀ slot, comp.slots[slotIdx]? = some slot → isAction slot = false
  | .readTags _ | .deleteTag _ _ => s.dynStore = none
  | .setTags compId tags => ∀ store, s.dynStore = some store → ∀ fields,
    tags.asObject = some fields → ¬ Fits store compId fields
  | .ping | .readTree | .nameTable | .palette | .subscribe _ | .unsubscribe _ | .setFormat _ => False

section Decoding

variable {p : Platform} {msg : Json} {key : String} {cmd : RowsCmd} {op : RowsOp}

/-- The id is what is left of the number of a field. -/
def Reads (msg : Json) (f : String × ℕ) (id : ℕ) : Prop :=
  ∃ v, numberField msg f.1 = some v ∧ v.toNat % f.2 = id

theorem reads_u16Field {id : UInt16} (h : u16Field msg key = some id) :
    Reads msg (key, 2 ^ 16) id.toNat := by
  obtain ⟨v, hv, rfl⟩ := Option.map_eq_some_iff.1 h
  exact ⟨v, hv, (UInt64.toNat_toUInt16 v).symm⟩

theorem reads_u8Field {id : UInt8} (h : u8Field msg key = some id) :
    Reads msg (key, 2 ^ 8) id.toNat := by
  obtain ⟨v, hv, rfl⟩ := Option.map_eq_some_iff.1 h
  exact ⟨v, hv, (UInt64.toNat_toUInt8 v).symm⟩

theorem reads_usizeField {idx : ℕ} (h : usizeField p msg key = some idx) :
    Reads msg (key, 2 ^ p.usizeBits) idx := Option.map_eq_some_iff.1 h

theorem linkFields_some {l : Link} (h : linkFields msg = some l) :
    u16Field msg "fromComp" = some l.fromComp ∧ u8Field msg "fromSlot" = some l.fromSlot ∧
      u16Field msg "toComp" = some l.toComp ∧ u8Field msg "toSlot" = some l.toSlot := by
  unfold linkFields at h
  split at h
  · cases h
    exact ⟨‹_›, ‹_›, ‹_›, ‹_›⟩
  · cases h

theorem reads_linkFields {l : Link} (h : linkFields msg = some l) :
    List.Forall₂ (Reads msg)
      [("fromComp", 2 ^ 16), ("fromSlot", 2 ^ 8), ("toComp", 2 ^ 16), ("toSlot", 2 ^ 8)]
      [l.fromComp.toNat, l.fromSlot.toNat, l.toComp.toNat, l.toSlot.toNat] := by
  obtain ⟨hfc, hfs, htc, hts⟩ := linkFields_some h
  exact .cons (reads_u16Field hfc) (.cons (reads_u8Field hfs) (.cons (reads_u16Field htc)
    (.cons (reads_u8Field hts) .nil)))

theorem fieldIds_eq {fields : List (String × ℕ)} {ids : List ℕ}
    (h : List.Forall₂ (Reads msg) fields ids) (hrange : ∀ id ∈ fieldIds msg fields, id.1 < id.2) :
    (fieldIds msg fields).map Prod.fst = ids := by
  induction h with
  | nil => rfl
  | @cons f id fields ids hread _ ih =>
    obtain ⟨v, hv, rfl⟩ := hread
    have hcons : fieldIds msg (f :: fields) = (v.toNat, f.2) :: fieldIds msg fields :=
      List.filterMap_cons_some (by rw [hv, Option.map_some])
    rw [hcons, List.forall_mem_cons] at hrange
    rw [hcons, List.map_cons, ih hrange.2, Nat.mod_eq_of_lt hrange.1]

theorem listedIds_eq (hrange : ∀ id ∈ listedIds msg, id.1 < id.2) :
    (listedIds msg).map Prod.fst = (compIdsField msg).map UInt16.toNat := by
  unfold listedIds compIdsField at *
  generalize ((msg.get "compIds").bind Json.asArray).getD [] = items at hrange ⊢
  induction items with
  | nil => rfl
  | cons v items ih =>
    cases hv : v.asU64 with
    | none =>
      simp only [List.filterMap_cons, hv, Option.map_none] at hrange ⊢
      exact ih hrange
    | some n =>
      simp only [List.filterMap_cons, hv, Option.map_some, List.mem_cons, forall_eq_or_imp,
        List.map_cons] at hrange ⊢
      rw [ih hrange.2, UInt64.toNat_toUInt16, Nat.mod_eq_of_lt hrange.1]

theorem dispatch_ok (h : dispatch p msg = .ok cmd) :
    ∃ op, requestOp msg = some op ∧ decode p msg op = .ok cmd := by
  unfold dispatch at h
  split at h
  · cases h
  · rename_i text htext
    split at h
    · cases h
    · rename_i op hop
      exact ⟨op, by rw [requestOp, htext, Option.bind_some, hop], h⟩

theorem decode_reads (h : decode p msg op = .ok cmd) (hlist : listedOp op = false) :
    List.Forall₂ (Reads msg) (idFields p.usizeBits op) cmd.ids := by
  cases op <;> simp only [decode, missingCompId, badRequest] at h
  case subscribe | unsubscribe => cases hlist
  case ping | readTree | nameTable | palette => cases h; exact .nil
  case setFormat => split_ifs at h; cases h; exact .nil
  case readComp | deleteComp | readTags | rename | setTags | deleteTag | updatePos =>
    split at h <;> cases h
    exact .cons (reads_u16Field ‹_›) .nil
  case writeSlot | invoke =>
    split at h <;> cases h
    exact .cons (reads_u16Field ‹_›) (.cons (reads_usizeField ‹_›) .nil)
  case addLink | deleteLink =>
    split at h <;> cases h
    exact reads_linkFields ‹_›
  case addComp =>
    split at h
    · rename_i hparent hkit htype hname
      cases h
      exact .cons (reads_u16Field hparent) (.cons (reads_u8Field hkit)
        (.cons (reads_u8Field htype) .nil))
    · cases h

theorem named_eq_ids (h : dispatch p msg = .ok cmd) (hrange : InRange p.usizeBits msg) :
    named p.usizeBits msg = cmd.ids := by
  obtain ⟨op, hop, hdecode⟩ := dispatch_ok h
  unfold named
  unfold InRange at hrange
  cases hlist : listedOp op with
  | true =>
    have hgiven : givenIds p.usizeBits msg = listedIds msg := by
      rw [givenIds, hop]
      simp [hlist]
    rw [hgiven] at hrange ⊢
    rw [listedIds_eq hrange]
    cases op <;> cases hlist <;> cases hdecode <;> rfl
  | false =>
    have hgiven : givenIds p.usizeBits msg = fieldIds msg (idFields p.usizeBits op) := by
      rw [givenIds, hop]
      simp [hlist]
    rw [hgiven] at hrange ⊢
    exact fieldIds_eq (decode_reads hdecode hlist) hrange

end Decoding

section Refusing

variable {t : ComponentTree} {id : UInt16} {idx : ℕ} {name : String} {l : Link}

/-- The request is turned down and the tree stays. -/
def Rejected (t : ComponentTree) (r : ComponentTree × RowsReply) : Prop :=
  (answerOf r.2).isError ∧ r.1 = t

theorem rejected_error (t : ComponentTree) (code message : String) :
    Rejected t (t, .error code message) := ⟨rfl, rfl⟩

theorem not_rejected_ok (t t' : ComponentTree) : ¬ Rejected t (t', .ok) := fun h => nomatch h.1

theorem rejected_writeSlot (coerce : UInt8 → Option SlotValue) :
    Rejected t (rowsWriteSlot t id idx coerce) ↔ ∀ comp, t.get id = some comp →
      ∀ slot, comp.slots[idx]? = some slot → coerce slot.typeId = none := by
  unfold rowsWriteSlot
  cases hcomp : t.get id with
  | none => simp [rejected_error]
  | some comp =>
    cases hslot : comp.slots[idx]? with
    | none => simp [rejected_error, hslot]
    | some slot => cases hvalue : coerce slot.typeId <;>
        simp [rejected_error, not_rejected_ok, hslot, hvalue]

theorem rejected_addComp (kitId typeId : UInt8) :
    Rejected t (rowsAddComp t id kitId typeId name) ↔
      validateName name ≠ none ∨ t.get id = none := by
  unfold rowsAddComp
  cases hname : validateName name with
  | some err => simp [rejected_error]
  | none =>
    cases hparent : t.get id with
    | none => simp [rejected_error]
    | some parent => simp [Rejected, answerOf, Answer.isError]

theorem rejected_deleteComp :
    Rejected t (rowsDeleteComp t id) ↔ id < 7 ∨ t.get id = none := by
  unfold rowsDeleteComp
  split_ifs with hid
  · simp [rejected_error, hid]
  · cases hcomp : t.get id with
    | none =>
      have hdrop : dropLinksOf t id = t := by
        unfold dropLinksOf
        rw [hcomp]
        rfl
      rw [hdrop, remove_eq_none hcomp]
      simp [rejected_error]
    | some comp =>
      have hremove : (dropLinksOf t id).remove id =
          (some (withoutLinks comp.links id comp), ((dropLinksOf t id).remove id).2) :=
        Prod.ext (remove_present (get_dropLinksOf_self hcomp)) rfl
      rw [hremove]
      simp [not_rejected_ok, hid]

theorem rejected_rename :
    Rejected t (rowsRename t id name) ↔ validateName name ≠ none ∨ t.get id = none := by
  unfold rowsRename
  cases hname : validateName name with
  | some err => simp [rejected_error]
  | none =>
    cases hcomp : t.get id with
    | none => simp [rename_eq_none name hcomp, rejected_error]
    | some comp => simp [ComponentTree.rename, hcomp, not_rejected_ok]

theorem rejected_addLink :
    Rejected t (rowsAddLink t l) ↔ linkAccepted t l = false := by
  unfold rowsAddLink
  rw [addLink_eq]
  cases linkAccepted t l <;> simp [rejected_error, not_rejected_ok]

theorem rejected_deleteLink :
    Rejected t (rowsDeleteLink t l) ↔
      ∀ comp, t.get l.toComp = some comp ∨ t.get l.fromComp = some comp → l ∉ comp.links := by
  unfold rowsDeleteLink removeLink
  dsimp only
  rw [← eraseLink_eq_self]
  cases hremoved : (t.get l.toComp).any fun c =>
      decide ((c.links.filter (· ≠ l)).length < c.links.length) with
  | false => simp [Rejected, answerOf, Answer.isError]
  | true =>
    obtain ⟨comp, hcomp, hlt⟩ := (Option.any_eq_true _ _).1 hremoved
    have hkept : t.eraseLink l ≠ t := fun hsame =>
      eraseLink_eq_self.1 hsame comp (Or.inl hcomp) (by simpa using hlt)
    simp [hkept, not_rejected_ok]

theorem rejected_updatePos (x y : UInt8) :
    Rejected t (rowsUpdatePos t id x y) ↔ ∀ comp, t.get id = some comp → comp.slots = [] := by
  unfold rowsUpdatePos
  cases hcomp : t.get id with
  | none => simp [rejected_error]
  | some comp => cases hslots : comp.slots <;> simp [rejected_error, not_rejected_ok, hslots]

theorem rejected_invoke :
    Rejected t (rowsInvoke t id idx) ↔ ∀ comp, t.get id = some comp →
      ∀ slot, comp.slots[idx]? = some slot → isAction slot = false := by
  unfold rowsInvoke
  cases hcomp : t.get id with
  | none => simp [rejected_error]
  | some comp =>
    cases hslot : comp.slots[idx]? with
    | none => simp [rejected_error, hslot]
    | some slot => cases haction : isAction slot <;>
        simp [rejected_error, not_rejected_ok, hslot, haction]

end Refusing

section Fitting

variable {store : DynSlotStore} {compId : UInt16} {key : String} {prev : DynValue}

/-- The store after a tag is set, with as many more tags as `grown`. -/
structure Tagged (store : DynSlotStore) (compId : UInt16) (key : String) (grown : ℕ)
    (store' : DynSlotStore) : Prop where
  keys : (tagsOf store' compId).keys = insert key (tagsOf store compId).keys
  size : (tagsOf store' compId).size = (tagsOf store compId).size + grown
  total : store'.total = store.total + grown
  limits : store'.maxPerComp = store.maxPerComp ∧ store'.maxTotal = store.maxTotal

theorem tagsOf_insert (store : DynSlotStore) (slots : Table UInt16 Tags) (compId : UInt16)
    (tags : Tags) (total : ℕ) (dirty : Bool) (interner : TagNameInterner) :
    tagsOf ⟨slots.insert compId tags, store.maxPerComp, store.maxTotal, total, dirty, interner,
      store.computed⟩ compId = tags := by
  simp [tagsOf]

theorem set_present (h : (tagsOf store compId).get key = some prev) (value : DynValue) :
    ∃ store', store.set compId key value = (store', .ok (some prev)) ∧
      Tagged store compId key 0 store' := by
  have hget : ((store.slots.get compId).getD Table.empty).get key = some prev := h
  unfold DynSlotStore.set
  simp only [hget]
  refine ⟨_, rfl, ?_, ?_, rfl, rfl, rfl⟩
  · rw [tagsOf_insert, Table.keys_insert]
    rfl
  · rw [tagsOf_insert]
    exact Table.size_insert_present hget value

theorem set_absent (h : (tagsOf store compId).get key = none) (value : DynValue)
    (hsize : (tagsOf store compId).size < store.maxPerComp) (htotal : store.total < store.maxTotal) :
    ∃ store', store.set compId key value = (store', .ok none) ∧
      Tagged store compId key 1 store' := by
  have hget : ((store.slots.get compId).getD Table.empty).get key = none := h
  unfold DynSlotStore.set
  have hper : ¬ store.maxPerComp ≤ ((store.slots.get compId).getD Table.empty).size :=
    Nat.not_le.2 hsize
  simp only [hget, if_neg hper, if_neg (Nat.not_le.2 htotal)]
  refine ⟨_, rfl, ?_, ?_, rfl, rfl, rfl⟩
  · rw [tagsOf_insert, Table.keys_insert]
    rfl
  · rw [tagsOf_insert]
    exact Table.size_insert_absent hget value

theorem set_no_room (h : (tagsOf store compId).get key = none) (value : DynValue)
    (hfull : ¬ ((tagsOf store compId).size < store.maxPerComp ∧ store.total < store.maxTotal)) :
    ∃ store' e, store.set compId key value = (store', .error e) := by
  have hget : ((store.slots.get compId).getD Table.empty).get key = none := h
  unfold DynSlotStore.set
  simp only [hget]
  split_ifs with hper hmax
  · exact ⟨_, _, rfl⟩
  · exact ⟨_, _, rfl⟩
  · exact absurd ⟨Nat.not_le.1 hper, Nat.not_le.1 hmax⟩ hfull

theorem newTags_tagged {store' : DynSlotStore} {grown : ℕ} {fields : List (String × Json)}
    {val : Json} (h : Tagged store compId key grown store') :
    newTags store compId ((key, val) :: fields) =
      if key ∈ (tagsOf store compId).keys then newTags store' compId fields
      else insert key (newTags store' compId fields) := by
  unfold newTags
  rw [h.keys]
  ext name
  by_cases hkey : key ∈ (tagsOf store compId).keys <;> by_cases hname : name = key <;>
    simp [hkey, hname]

/-- The loop over the tags ends without an error where the new ones fit. -/
theorem setEach_ok_iff (p : Platform) (compId : UInt16) (fields : List (String × Json))
    (store : DynSlotStore) :
    (setEach p store compId fields).2 = .ok () ↔ Fits store compId fields := by
  induction fields generalizing store with
  | nil => simp [setEach, Fits, newTags]
  | cons field fields ih =>
    obtain ⟨key, val⟩ := field
    unfold setEach
    cases hget : (tagsOf store compId).get key with
    | some prev =>
      obtain ⟨store', hset, htagged⟩ := set_present hget ((p.tagged val).getD (jsonToDynvalue p val))
      have hkey : key ∈ (tagsOf store compId).keys := (Table.mem_keys _ _).2 ⟨prev, hget⟩
      rw [hset]
      dsimp only
      rw [ih]
      unfold Fits
      rw [newTags_tagged htagged, if_pos hkey, htagged.size, htagged.total, htagged.limits.1,
        htagged.limits.2, Nat.add_zero, Nat.add_zero]
    | none =>
      have hkey : key ∉ (tagsOf store compId).keys := (Table.get_eq_none_iff _ _).1 hget
      by_cases hroom : (tagsOf store compId).size < store.maxPerComp ∧ store.total < store.maxTotal
      · obtain ⟨store', hset, htagged⟩ :=
          set_absent hget ((p.tagged val).getD (jsonToDynvalue p val)) hroom.1 hroom.2
        have hnew : key ∉ newTags store' compId fields := by
          simp [newTags, htagged.keys]
        rw [hset]
        dsimp only
        rw [ih]
        unfold Fits
        rw [newTags_tagged htagged, if_neg hkey, htagged.size, htagged.total, htagged.limits.1,
          htagged.limits.2, Finset.card_insert_of_notMem hnew]
        by_cases hempty : newTags store' compId fields = ∅
        · simp [hempty]
          omega
        · simp [hempty]
          omega
      · obtain ⟨store', e, hset⟩ := set_no_room hget ((p.tagged val).getD (jsonToDynvalue p val)) hroom
        have hnew : key ∈ newTags store compId ((key, val) :: fields) := by simp [newTags, hkey]
        have hcard := Finset.card_pos.2 ⟨key, hnew⟩
        rw [hset]
        dsimp only
        constructor
        · intro herror
          cases herror
        · rintro (hempty | ⟨hper, hmax⟩)
          · rw [hempty] at hnew
            exact absurd hnew (Finset.notMem_empty key)
          · exact absurd ⟨by omega, by omega⟩ hroom

end Fitting

section Acting

variable {p : Platform} {s s' : RowsState} {sess sess' : Session} {cmd : RowsCmd} {msg : Json}
  {answer : Answer}

def TurnedDown (s : RowsState) (outcome : Option (RowsState × Session × Answer)) : Prop :=
  ∃ s' sess' answer, outcome = some (s', sess', answer) ∧ answer.isError ∧ s'.tree = s.tree

theorem turnedDown_some :
    TurnedDown s (some (s', sess', answer)) ↔ answer.isError ∧ s'.tree = s.tree := by
  simp [TurnedDown]

theorem turnedDown_onTree (s : RowsState) (sess : Session) (r : ComponentTree × RowsReply) :
    TurnedDown s (onTree s sess r) ↔ Rejected s.tree r := turnedDown_some

theorem turnedDown_setTags (compId : UInt16) (tags : Json) :
    TurnedDown s (execute p s sess (.setTags compId tags)) ↔
      Refuses p s (.setTags compId tags) := by
  change TurnedDown s (some ((handleSetTags p s compId tags).1, sess,
    (handleSetTags p s compId tags).2)) ↔ _
  rw [turnedDown_some]
  unfold handleSetTags Refuses
  cases hstore : s.dynStore with
  | none => simp [noTags, Answer.isError]
  | some store =>
    cases hfields : tags.asObject with
    | none => simp [hfields, Answer.isError]
    | some fields =>
      have hfits := setEach_ok_iff p compId fields store
      dsimp only
      generalize setEach p store compId fields = outcome at hfits ⊢
      obtain ⟨store', e | _⟩ := outcome
      · simpa [Answer.isError, hfields] using fun h => by simpa using hfits.2 h
      · simpa [Answer.isError, hfields] using hfits

theorem turnedDown_deleteTag (compId : UInt16) (key : String) :
    TurnedDown s (execute p s sess (.deleteTag compId key)) ↔ s.dynStore = none := by
  unfold TurnedDown execute handleDeleteTag
  cases hstore : s.dynStore with
  | none => simp [noTags, Answer.isError]
  | some store =>
    cases hremoved : store.remove compId key <;> simp [hremoved, Answer.isError]

theorem turnedDown_execute (p : Platform) (s : RowsState) (sess : Session) (cmd : RowsCmd) :
    TurnedDown s (execute p s sess cmd) ↔ Refuses p s cmd := by
  cases cmd with
  | ping | readTree | nameTable | palette | subscribe | unsubscribe | setFormat =>
    exact turnedDown_some.trans ⟨fun h => absurd h.1 Bool.false_ne_true, False.elim⟩
  | readComp compId =>
    refine turnedDown_some.trans ?_
    unfold handleReadComp Refuses
    cases hcomp : s.tree.get compId <;> simp [hcomp, Answer.isError]
  | readTags compId =>
    refine turnedDown_some.trans ?_
    unfold handleReadTags Refuses
    cases s.dynStore <;> simp [noTags, Answer.isError]
  | writeSlot compId slotIdx value => exact (turnedDown_onTree s sess _).trans (rejected_writeSlot _)
  | addComp parentId kitId typeId name =>
    exact (turnedDown_onTree s sess _).trans (rejected_addComp kitId typeId)
  | deleteComp compId => exact (turnedDown_onTree s sess _).trans rejected_deleteComp
  | rename compId name => exact (turnedDown_onTree s sess _).trans rejected_rename
  | addLink l => exact (turnedDown_onTree s sess _).trans rejected_addLink
  | deleteLink l => exact (turnedDown_onTree s sess _).trans rejected_deleteLink
  | updatePos compId x y => exact (turnedDown_onTree s sess _).trans (rejected_updatePos x y)
  | invoke compId slotIdx => exact (turnedDown_onTree s sess _).trans rejected_invoke
  | setTags compId tags => exact turnedDown_setTags compId tags
  | deleteTag compId key => exact turnedDown_deleteTag compId key

/-- Requests act as named where every number is an id, and where the ids that the
    numbers are cut to are refused. -/
theorem acts_as_named_iff (p : Platform) (s : RowsState) (sess : Session) (msg : Json) :
    ActsAsNamed p s sess msg ↔
      ∀ cmd, dispatch p msg = .ok cmd → InRange p.usizeBits msg ∨ Refuses p s cmd := by
  cases hdispatch : dispatch p msg with
  | error e =>
    have hmsg : handleClientMsg p s sess (some msg) =
        some (s, sess, ⟨strField msg "id", .error e.1 e.2⟩) := by
      rw [handleClientMsg, hdispatch]
    constructor
    · rintro - cmd ⟨⟩
    · intro _
      refine ⟨fun s' sess' reply h hchanged => ?_, fun _ => ⟨_, _, _, hmsg, rfl, rfl⟩⟩
      cases hmsg.symm.trans h
      exact absurd rfl hchanged
  | ok cmd =>
    have hmsg : handleClientMsg p s sess (some msg) = (execute p s sess cmd).map fun r =>
        (r.1, r.2.1, ⟨strField msg "id", r.2.2⟩) := by
      rw [handleClientMsg, hdispatch]
    have hdown : (∃ s' sess' reply, handleClientMsg p s sess (some msg) = some (s', sess', reply) ∧
        reply.answer.isError ∧ s'.tree = s.tree) ↔ Refuses p s cmd := by
      rw [← turnedDown_execute p s sess cmd, hmsg]
      rcases execute p s sess cmd with _ | ⟨s₁, sess₁, answer⟩ <;> simp [TurnedDown]
    constructor
    · rintro h _ ⟨⟩
      by_cases hrange : InRange p.usizeBits msg
      · exact Or.inl hrange
      · exact Or.inr (hdown.1 (h.refused hrange))
    · intro h
      refine ⟨fun s' sess' reply hreply hchanged cmd' hcmd' => ?_, fun hrange => ?_⟩
      · rcases h cmd rfl with hrange | hrefused
        · exact named_eq_ids hcmd' hrange
        · obtain ⟨s'', sess'', reply', hreply', -, htree⟩ := hdown.2 hrefused
          cases hreply.symm.trans hreply'
          exact absurd htree hchanged
      · exact hdown.2 ((h cmd rfl).resolve_left hrange)

end Acting

/-- A platform of 64 bits without tagged values. -/
def plainPlatform : Platform := ⟨64, id, fun _ => 0, fun _ => 0, fun _ => none, fun _ => ""⟩

def renameRequest (compId : UInt64) (name : String) : Json :=
  .obj [("op", .scalar (.str "rename")), ("compId", .scalar (.posInt compId)),
    ("name", .scalar (.str name))]

/-- Component 65536 does not exist, and a request to rename it renames the root. -/
theorem rename_not_as_named :
    ¬ ActsAsNamed plainPlatform ⟨fromChannels [], none⟩ Session.new (renameRequest 65536 "x") ∧
      ∃ s' sess' reply, handleClientMsg plainPlatform ⟨fromChannels [], none⟩ Session.new
          (some (renameRequest 65536 "x")) = some (s', sess', reply) ∧
        (s'.tree.get 0).map VirtualComponent.name = some "x" := by
  refine ⟨fun h => ?_, _, _, _, rfl, by decide +kernel⟩
  have hnumber : ¬ InRange 64 (renameRequest 65536 "x") := fun hrange =>
    absurd (hrange (65536, 65536) (by decide +kernel)) (by decide)
  have hdone : (handleClientMsg plainPlatform ⟨fromChannels [], none⟩ Session.new
      (some (renameRequest 65536 "x"))).map (fun r => r.2.2.answer.isError) = some false := by
    decide +kernel
  obtain ⟨s', sess', reply, hreply, herror, -⟩ := h.refused hnumber
  rw [hreply, Option.map_some, herror] at hdone
  cases hdone

end Sandstar.Rows
