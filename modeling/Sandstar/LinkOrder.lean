import Sandstar.QuietEdits

set_option autoImplicit false

/-!
# The order in which links are executed

A link is followed from the copy on its target, so the transfers into one component are
all met together and in the order of its own list. The values are read before any of
them is written, and writes into different components commute.
-/
namespace Sandstar.LinkOrder
open ComponentTree TreePersistence

abbrev Transfer := SlotValue × UInt16 × UInt8

/-- An order in which the hash map may yield its components. -/
def Iterates (t : ComponentTree) (ids : List UInt16) : Prop :=
  ids.Nodup ∧ ∀ id, id ∈ ids ↔ id ∈ t.components.keys

def changes (t : ComponentTree) (tr : Transfer) : Bool :=
  match (t.get tr.2.1).bind fun c => c.slots[tr.2.2.toNat]? with
  | none => false
  | some s => !slotValueEq s.value tr.1

def write (t : ComponentTree) (tr : Transfer) : ComponentTree :=
  t.modify tr.2.1 fun c =>
    { c with slots := c.slots.modify tr.2.2.toNat fun s => { s with value := tr.1 } }

theorem applyTransfer_eq (state : ComponentTree × Finset UInt16) (tr : Transfer) :
    applyTransfer state tr =
      if changes state.1 tr then (write state.1 tr, insert tr.2.1 state.2) else state := by
  obtain ⟨t, changed⟩ := state
  obtain ⟨value, toComp, toSlot⟩ := tr
  unfold applyTransfer changes write
  dsimp only
  cases (t.get toComp).bind fun c => c.slots[toSlot.toNat]? with
  | none => rfl
  | some s =>
    dsimp only
    by_cases hsame : slotValueEq s.value value = true
    · simp [hsame]
    · simp [hsame]

theorem get_write_ne (t : ComponentTree) (tr : Transfer) {id : UInt16} (h : id ≠ tr.2.1) :
    (write t tr).get id = t.get id :=
  Table.get_modify_ne t.components _ h

theorem changes_write (t : ComponentTree) {tr tr' : Transfer} (h : tr.2.1 ≠ tr'.2.1) :
    changes (write t tr') tr = changes t tr := by
  unfold changes
  rw [get_write_ne t tr' h]

theorem write_comm (t : ComponentTree) {tr tr' : Transfer} (h : tr.2.1 ≠ tr'.2.1) :
    write (write t tr) tr' = write (write t tr') tr := by
  have hcomponents : (write (write t tr) tr').components = (write (write t tr') tr).components := by
    apply Table.ext
    intro id
    change ((t.components.modify _ _).modify _ _).get id =
      ((t.components.modify _ _).modify _ _).get id
    rw [Table.get_modify, Table.get_modify, Table.get_modify, Table.get_modify]
    by_cases hid : id = tr.2.1
    · have hid' : id ≠ tr'.2.1 := hid ▸ h
      simp only [if_pos hid, if_neg hid']
    · simp only [if_neg hid]
  unfold write ComponentTree.modify at hcomponents ⊢
  exact congrArg (fun components => { t with components := components }) hcomponents

theorem applyTransfer_comm (state : ComponentTree × Finset UInt16) {tr tr' : Transfer}
    (h : tr.2.1 ≠ tr'.2.1) :
    applyTransfer (applyTransfer state tr) tr' = applyTransfer (applyTransfer state tr') tr := by
  rw [applyTransfer_eq state tr, applyTransfer_eq state tr']
  cases hleft : changes state.1 tr with
  | false =>
    cases hright : changes state.1 tr' with
    | false => simp [applyTransfer_eq, hleft, hright]
    | true => simp [applyTransfer_eq, hleft, hright, changes_write state.1 h]
  | true =>
    cases hright : changes state.1 tr' with
    | false => simp [applyTransfer_eq, hleft, hright, changes_write state.1 h.symm]
    | true =>
      simp only [if_true, applyTransfer_eq, changes_write state.1 h, hleft,
        changes_write state.1 h.symm, hright, write_comm state.1 h]
      rw [Finset.insert_comm]

section Batches

variable {S A : Type} {f : S → A → S}

theorem foldl_comm_one {as : List A} {b : A} (h : ∀ a ∈ as, ∀ s, f (f s a) b = f (f s b) a)
    (s : S) : f (as.foldl f s) b = as.foldl f (f s b) := by
  induction as generalizing s with
  | nil => rfl
  | cons a as ih =>
    rw [List.foldl_cons, List.foldl_cons, ih (fun a ha => h a (List.mem_cons_of_mem _ ha)),
      h a List.mem_cons_self]

theorem foldl_comm_batch {as bs : List A} (h : ∀ a ∈ as, ∀ b ∈ bs, ∀ s, f (f s a) b = f (f s b) a)
    (s : S) : bs.foldl f (as.foldl f s) = as.foldl f (bs.foldl f s) := by
  induction bs generalizing s with
  | nil => rfl
  | cons b bs ih =>
    rw [List.foldl_cons, List.foldl_cons, foldl_comm_one fun a ha => h a ha b List.mem_cons_self]
    exact ih (fun a ha b hb => h a ha b (List.mem_cons_of_mem _ hb)) (f s b)

end Batches

theorem transfersOf_target {t : ComponentTree} {c : VirtualComponent} {tr : Transfer}
    (h : tr ∈ t.transfersOf c) : tr.2.1 = c.compId := by
  unfold transfersOf at h
  obtain ⟨l, -, htr⟩ := List.mem_filterMap.1 h
  split_ifs at htr with hto
  obtain ⟨s, -, rfl⟩ := Option.map_eq_some_iff.1 htr
  exact (not_not.1 hto).symm

def applyBatch (t : ComponentTree) (state : ComponentTree × Finset UInt16)
    (c : VirtualComponent) : ComponentTree × Finset UInt16 :=
  (t.transfersOf c).foldl applyTransfer state

theorem executeLinks_batches (t : ComponentTree) (ids : List UInt16) :
    t.executeLinks ids = (ids.filterMap t.get).foldl (applyBatch t) (t, ∅) := by
  unfold executeLinks collectTransfers
  exact List.foldl_flatMap

theorem applyBatch_comm (t : ComponentTree) {c d : VirtualComponent} (h : c.compId ≠ d.compId)
    (state : ComponentTree × Finset UInt16) :
    applyBatch t (applyBatch t state c) d = applyBatch t (applyBatch t state d) c := by
  refine foldl_comm_batch (fun tr htr tr' htr' s => applyTransfer_comm s ?_) state
  rw [transfersOf_target htr, transfersOf_target htr']
  exact h

/-- The tree and the changed ids are the same for every order of the components. -/
theorem executeLinks_order {t : ComponentTree} (h : Keyed t) {ids ids' : List UInt16}
    (hids : Iterates t ids) (hids' : Iterates t ids') : t.executeLinks ids = t.executeLinks ids' := by
  have hperm : ids.Perm ids' := (List.perm_ext_iff_of_nodup hids.1 hids'.1).2 fun id =>
    (hids.2 id).trans (hids'.2 id).symm
  rw [executeLinks_batches, executeLinks_batches]
  apply (hperm.filterMap t.get).foldl_eq'
  intro c hc d hd state
  by_cases hsame : c.compId = d.compId
  · obtain ⟨id, -, hget⟩ := List.mem_filterMap.1 hc
    obtain ⟨id', -, hget'⟩ := List.mem_filterMap.1 hd
    have hid : id = id' := by rw [← h id c hget, ← h id' d hget', hsame]
    have hcd : c = d := by
      rw [hid, hget'] at hget
      exact (Option.some.inj hget).symm
    rw [hcd]
  · exact applyBatch_comm t hsame state

def holder (compId : UInt16) (value : SlotValue) (links : List Link) : VirtualComponent :=
  ⟨compId, noParent, "holder", "sys::Holder", 0, 0, [], [⟨"out", 2, 0, value⟩], links⟩

def fanIn : ComponentTree :=
  (((newWithManifest ManifestDb.new).add (holder 1 (.int 5) [⟨3, 0, 1, 0⟩])).add
    (holder 2 (.int 6) [])).add (holder 3 (.int 7) [⟨1, 0, 3, 0⟩, ⟨2, 0, 3, 0⟩])

theorem fanIn_keyed : Keyed fanIn := by
  have hempty : Keyed (newWithManifest ManifestDb.new) := by
    intro id c hget
    cases hget
  exact SavedEdits.keyed_add (SavedEdits.keyed_add (SavedEdits.keyed_add hempty _) _) _

theorem executeLinks_order_fanIn :
    fanIn.executeLinks [1, 2, 3] = fanIn.executeLinks [3, 2, 1] ∧
      ((fanIn.executeLinks [1, 2, 3]).1.get 3).map (·.slots) =
        some [⟨"out", 2, 0, .int 6⟩] := by
  have hkeys : fanIn.components.keys = {1, 2, 3} := by decide
  have hids : ∀ ids : List UInt16, ids.Nodup → ids.toFinset = {1, 2, 3} → Iterates fanIn ids :=
    fun ids hnodup hset => ⟨hnodup, fun id => by rw [hkeys, ← hset, List.mem_toFinset]⟩
  exact ⟨executeLinks_order fanIn_keyed (hids [1, 2, 3] (by decide) (by decide))
    (hids [3, 2, 1] (by decide) (by decide)), by decide⟩

end Sandstar.LinkOrder
