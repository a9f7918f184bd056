import Sandstar.TreeLookup

set_option autoImplicit false

/-!
# The name index

`name_to_comp` maps a name to the last component that took it. `add`, `remove` and
`rename` each patch it by the one name at hand, so the index goes wrong exactly when
its owner of a name gives the name up while another component still bears it, when an
addition replaces the owner under another name, and at the empty name.
-/
namespace Sandstar.TreeNames
open ComponentTree

inductive NameOp where
  | add (comp : VirtualComponent)
  | remove (id : UInt16)
  | rename (id : UInt16) (name : String)

def applyNameOp (t : ComponentTree) : NameOp → ComponentTree
  | .add comp => t.add comp
  | .remove id => (t.remove id).2
  | .rename id name => (t.rename id name).2

/-- The index finds only live bearers of a name, and one for every name borne. -/
structure NamesIndexed (t : ComponentTree) : Prop where
  sound : ∀ n id, t.lookupByName n = some id → ∃ c, t.get id = some c ∧ c.name = n
  complete : ∀ id c, t.get id = some c → (t.lookupByName c.name).isSome

def SoleBearer (t : ComponentTree) (id : UInt16) (n : String) : Prop :=
  ∀ id' c', t.get id' = some c' → c'.name = n → id' = id

def IndexedOp (t : ComponentTree) : NameOp → Prop
  | .add comp => comp.name ≠ "" ∧ ∀ c, t.get comp.compId = some c →
      c.name = comp.name ∨ t.lookupByName c.name ≠ some comp.compId
  | .remove id => ∀ c, t.get id = some c → t.lookupByName c.name = some id →
      SoleBearer t id c.name
  | .rename id name => ∀ c, t.get id = some c → name ≠ "" ∧
      (c.name = name ∨ (t.lookupByName c.name = some id → SoleBearer t id c.name))

theorem get_indexName (index : Table String UInt16) (name n : String) (id : UInt16) :
    (indexName index name id).get n = if n = name ∧ name ≠ "" then some id else index.get n := by
  unfold indexName
  by_cases h : name = ""
  · simp [h]
  · rw [if_neg h, Table.get_insert]
    simp [h]

theorem get_unindexName (index : Table String UInt16) (name n : String) (id : UInt16) :
    (unindexName index name id).get n =
      if n = name ∧ index.get name = some id then none else index.get n := by
  unfold unindexName
  by_cases h : index.get name = some id
  · rw [if_pos h, Table.get_erase]
    simp [h]
  · rw [if_neg h]
    simp [h]

def nameOf (t : ComponentTree) : UInt16 → Option String := view VirtualComponent.name t

theorem nameOf_add (t : ComponentTree) (comp : VirtualComponent) (a : UInt16) :
    nameOf (t.add comp) a = if a = comp.compId then some comp.name else nameOf t a := by
  have hpush : ∀ c, (pushChild comp.compId c).name = c.name := by
    intro c
    unfold pushChild
    split_ifs <;> rfl
  unfold nameOf view
  rw [get_add]
  split_ifs
  · rfl
  · rw [Option.map_map]
    exact congrArg (fun g => (t.get a).map g) (funext hpush)
  · rfl

theorem lookup_add (t : ComponentTree) (comp : VirtualComponent) (n : String) :
    (t.add comp).lookupByName n =
      if n = comp.name ∧ comp.name ≠ "" then some comp.compId else t.lookupByName n :=
  get_indexName t.nameToComp comp.name n comp.compId

theorem nameOf_remove {t : ComponentTree} {id : UInt16} {c : VirtualComponent}
    (h : t.get id = some c) (a : UInt16) :
    nameOf (t.remove id).2 a = if a = id then none else nameOf t a := by
  unfold nameOf view
  rw [get_remove h]
  split_ifs
  · rfl
  · rw [Option.map_map]
    rfl
  · rfl

theorem lookup_remove {t : ComponentTree} {id : UInt16} {c : VirtualComponent}
    (h : t.get id = some c) (n : String) :
    (t.remove id).2.lookupByName n =
      if n = c.name ∧ t.lookupByName c.name = some id then none else t.lookupByName n := by
  unfold ComponentTree.remove
  rw [h]
  exact get_unindexName t.nameToComp c.name n id

theorem nameOf_rename {t : ComponentTree} {id : UInt16} {c : VirtualComponent}
    (h : t.get id = some c) (name : String) (a : UInt16) :
    nameOf (t.rename id name).2 a = if a = id then some name else nameOf t a := by
  unfold nameOf view
  rw [get_rename]
  split_ifs with ha
  · rw [ha, h]
    rfl
  · rfl

theorem lookup_rename {t : ComponentTree} {id : UInt16} {c : VirtualComponent}
    (h : t.get id = some c) (name n : String) :
    (t.rename id name).2.lookupByName n =
      if n = name ∧ name ≠ "" then some id
      else if n = c.name ∧ t.lookupByName c.name = some id then none else t.lookupByName n := by
  unfold ComponentTree.rename
  rw [h]
  change (indexName (unindexName t.nameToComp c.name id) name id).get n = _
  rw [get_indexName, get_unindexName]
  rfl

theorem nameOf_eq_some {t : ComponentTree} {id : UInt16} {n : String} :
    nameOf t id = some n ↔ ∃ c, t.get id = some c ∧ c.name = n :=
  view_eq_some

theorem namesIndexed_iff (t : ComponentTree) :
    NamesIndexed t ↔ (∀ n id, t.lookupByName n = some id → nameOf t id = some n) ∧
      ∀ id n, nameOf t id = some n → (t.lookupByName n).isSome := by
  constructor
  · intro h
    refine ⟨fun n id hn => nameOf_eq_some.2 (h.sound n id hn), fun id n hn => ?_⟩
    obtain ⟨c, hc, rfl⟩ := nameOf_eq_some.1 hn
    exact h.complete id c hc
  · intro h
    exact ⟨fun n id hn => nameOf_eq_some.1 (h.1 n id hn),
      fun id c hc => h.2 id c.name (view_of_get hc)⟩

theorem soleBearer_iff (t : ComponentTree) (id : UInt16) (n : String) :
    SoleBearer t id n ↔ ∀ id', nameOf t id' = some n → id' = id := by
  constructor
  · intro h id' hn
    obtain ⟨c, hc, hname⟩ := nameOf_eq_some.1 hn
    exact h id' c hc hname
  · intro h id' c' hc hname
    exact h id' (nameOf_eq_some.2 ⟨c', hc, hname⟩)

structure Indexed (t : ComponentTree) : Prop where
  sound : ∀ n id, t.lookupByName n = some id → nameOf t id = some n
  complete : ∀ id n, nameOf t id = some n → (t.lookupByName n).isSome
  empty : t.lookupByName "" = none

theorem Indexed.namesIndexed {t : ComponentTree} (h : Indexed t) : NamesIndexed t :=
  (namesIndexed_iff t).2 ⟨h.sound, h.complete⟩

theorem new_indexed : Indexed ComponentTree.new :=
  ⟨fun _ _ h => (nomatch h), fun _ _ h => (nomatch h), rfl⟩

theorem add_indexed {t : ComponentTree} {comp : VirtualComponent} (h : Indexed t)
    (hok : IndexedOp t (.add comp)) : Indexed (t.add comp) := by
  obtain ⟨hne, hown⟩ := hok
  refine ⟨fun n id hn => ?_, fun id n hn => ?_, ?_⟩
  · rw [lookup_add] at hn
    rw [nameOf_add]
    split_ifs at hn with hnew
    · cases hn
      rw [if_pos rfl, hnew.1]
    · have hold := h.sound n id hn
      have hid : id ≠ comp.compId := by
        rintro rfl
        obtain ⟨c, hc, rfl⟩ := nameOf_eq_some.1 hold
        rcases hown c hc with e | e
        · exact hnew ⟨e, hne⟩
        · exact e hn
      rw [if_neg hid]
      exact hold
  · rw [nameOf_add] at hn
    rw [lookup_add]
    split_ifs with hnew
    · rfl
    · split_ifs at hn
      · cases hn
        exact absurd ⟨rfl, hne⟩ hnew
      · exact h.complete id n hn
  · rw [lookup_add, if_neg fun e => hne e.1.symm]
    exact h.empty

theorem add_not_indexed {t : ComponentTree} {comp : VirtualComponent} (h : Indexed t)
    (hbad : ¬ IndexedOp t (.add comp)) : ¬ NamesIndexed (t.add comp) := by
  intro hn
  obtain ⟨hsound, hcomplete⟩ := (namesIndexed_iff _).1 hn
  have hself : nameOf (t.add comp) comp.compId = some comp.name := by
    rw [nameOf_add, if_pos rfl]
  by_cases hne : comp.name = ""
  · have hsome := hcomplete _ _ hself
    rw [lookup_add, if_neg fun e => e.2 hne, hne, h.empty] at hsome
    cases hsome
  · refine hbad ⟨hne, fun c hc => ?_⟩
    by_cases hname : c.name = comp.name
    · exact Or.inl hname
    · refine Or.inr fun hlook => hname ?_
      have hstale : (t.add comp).lookupByName c.name = some comp.compId := by
        rw [lookup_add, if_neg fun e => hname e.1]
        exact hlook
      have hbear := hsound _ _ hstale
      rw [hself] at hbear
      exact (Option.some.inj hbear).symm

/-- What `remove` and `rename` have in common: the owner gives its name up. -/
theorem complete_of_soleBearer {t : ComponentTree} {id id' : UInt16} {n m : String}
    (h : Indexed t) (hsole : t.lookupByName n = some id → SoleBearer t id n) (hid : id' ≠ id)
    (hm : nameOf t id' = some m) :
    ¬ (m = n ∧ t.lookupByName n = some id) ∧ (t.lookupByName m).isSome := by
  refine ⟨?_, h.complete id' m hm⟩
  rintro ⟨rfl, hlook⟩
  exact hid ((soleBearer_iff t id m).1 (hsole hlook) id' hm)

theorem remove_indexed {t : ComponentTree} {id : UInt16} {c : VirtualComponent} (h : Indexed t)
    (hc : t.get id = some c) (hok : t.lookupByName c.name = some id → SoleBearer t id c.name) :
    Indexed (t.remove id).2 := by
  refine ⟨fun n id' hn => ?_, fun id' n hn => ?_, ?_⟩
  · rw [lookup_remove hc] at hn
    split_ifs at hn with hown
    have hold := h.sound n id' hn
    have hid : id' ≠ id := by
      rintro rfl
      have hname : some c.name = some n := (view_of_get hc).symm.trans hold
      cases hname
      exact hown ⟨rfl, hn⟩
    rw [nameOf_remove hc, if_neg hid]
    exact hold
  · rw [nameOf_remove hc] at hn
    split_ifs at hn with hid
    obtain ⟨hkeep, hsome⟩ := complete_of_soleBearer h hok hid hn
    rw [lookup_remove hc, if_neg hkeep]
    exact hsome
  · rw [lookup_remove hc]
    split_ifs
    · rfl
    · exact h.empty

theorem remove_not_indexed {t : ComponentTree} {id : UInt16} {c : VirtualComponent}
    (hc : t.get id = some c)
    (hbad : ¬ (t.lookupByName c.name = some id → SoleBearer t id c.name)) :
    ¬ NamesIndexed (t.remove id).2 := by
  intro hn
  obtain ⟨-, hcomplete⟩ := (namesIndexed_iff _).1 hn
  refine hbad fun hlook => (soleBearer_iff t id c.name).2 fun id' hname => ?_
  by_contra hid
  have hsome := hcomplete id' c.name (by rw [nameOf_remove hc, if_neg hid]; exact hname)
  rw [lookup_remove hc, if_pos ⟨rfl, hlook⟩] at hsome
  cases hsome

theorem rename_indexed {t : ComponentTree} {id : UInt16} {c : VirtualComponent} {name : String}
    (h : Indexed t) (hc : t.get id = some c) (hne : name ≠ "")
    (hok : c.name = name ∨ (t.lookupByName c.name = some id → SoleBearer t id c.name)) :
    Indexed (t.rename id name).2 := by
  refine ⟨fun n id' hn => ?_, fun id' n hn => ?_, ?_⟩
  · rw [lookup_rename hc] at hn
    rw [nameOf_rename hc]
    split_ifs at hn with hnew hown
    · cases hn
      rw [if_pos rfl, hnew.1]
    · have hold := h.sound n id' hn
      have hid : id' ≠ id := by
        rintro rfl
        have hname : some c.name = some n := (view_of_get hc).symm.trans hold
        cases hname
        exact hown ⟨rfl, hn⟩
      rw [if_neg hid]
      exact hold
  · rw [nameOf_rename hc] at hn
    rw [lookup_rename hc]
    split_ifs at hn with hid
    · cases hn
      rw [if_pos ⟨rfl, hne⟩]
      rfl
    · split_ifs with hnew hown
      · rfl
      · rcases hok with e | hok
        · exact absurd ⟨hown.1.trans e, hne⟩ hnew
        · exact absurd hown (complete_of_soleBearer h hok hid hn).1
      · exact h.complete id' n hn
  · rw [lookup_rename hc, if_neg fun e => hne e.1.symm]
    split_ifs
    · rfl
    · exact h.empty

theorem rename_not_indexed {t : ComponentTree} {id : UInt16} {c : VirtualComponent}
    {name : String} (h : Indexed t) (hc : t.get id = some c)
    (hbad : ¬ (name ≠ "" ∧
      (c.name = name ∨ (t.lookupByName c.name = some id → SoleBearer t id c.name)))) :
    ¬ NamesIndexed (t.rename id name).2 := by
  intro hn
  obtain ⟨-, hcomplete⟩ := (namesIndexed_iff _).1 hn
  by_cases hne : name = ""
  · have hsome := hcomplete id name (by rw [nameOf_rename hc, if_pos rfl])
    rw [lookup_rename hc, if_neg fun e => e.2 hne, hne, h.empty] at hsome
    split_ifs at hsome
    · cases hsome
    · cases hsome
  · refine hbad ⟨hne, ?_⟩
    by_cases hname : c.name = name
    · exact Or.inl hname
    · refine Or.inr fun hlook => (soleBearer_iff t id c.name).2 fun id' hbear => ?_
      by_contra hid
      have hsome := hcomplete id' c.name (by rw [nameOf_rename hc, if_neg hid]; exact hbear)
      rw [lookup_rename hc, if_neg fun e => hname e.1, if_pos ⟨rfl, hlook⟩] at hsome
      cases hsome

theorem applyNameOp_indexed (t : ComponentTree) (op : NameOp) (h : Indexed t)
    (hok : IndexedOp t op) : Indexed (applyNameOp t op) := by
  cases op with
  | add comp => exact add_indexed h hok
  | remove id =>
    change Indexed (t.remove id).2
    cases hc : t.get id with
    | none => rw [TreeEdits.remove_eq_none hc]; exact h
    | some c => exact remove_indexed h hc (hok c hc)
  | rename id name =>
    change Indexed (t.rename id name).2
    cases hc : t.get id with
    | none => rw [TreeEdits.rename_eq_none name hc]; exact h
    | some c => exact rename_indexed h hc (hok c hc).1 (hok c hc).2

theorem applyNameOp_not_indexed (t : ComponentTree) (op : NameOp) (h : Indexed t)
    (hbad : ¬ IndexedOp t op) : ¬ NamesIndexed (applyNameOp t op) := by
  cases op with
  | add comp => exact add_not_indexed h hbad
  | remove id =>
    obtain ⟨c, hc⟩ := not_forall.1 hbad
    obtain ⟨hget, hown⟩ := Classical.not_imp.1 hc
    exact remove_not_indexed hget hown
  | rename id name =>
    obtain ⟨c, hc⟩ := not_forall.1 hbad
    obtain ⟨hget, hown⟩ := Classical.not_imp.1 hc
    exact rename_not_indexed h hget hown

/-- Over every run of additions, removals and renames from the empty tree, the index is
    right in every state exactly when no step takes a name from its owner while another
    component bears it, and none uses the empty name. -/
theorem names_indexed_iff (ops : List NameOp) :
    (∀ t ∈ Runs.states applyNameOp ComponentTree.new ops, NamesIndexed t) ↔
      Runs.Along applyNameOp IndexedOp ComponentTree.new ops :=
  Runs.states_iff_along applyNameOp (fun _ h => h.namesIndexed) applyNameOp_indexed
    applyNameOp_not_indexed new_indexed

def folder (compId parentId : UInt16) (name : String) : VirtualComponent :=
  ⟨compId, parentId, name, "sys::Folder", 0, 11, [], [], []⟩

/-- A pump at the top and a pump below it; the index forgets both when the later one goes. -/
def namesakeRun : List NameOp :=
  [.add (folder 1 noParent "pump"), .add (folder 2 1 "pump"), .remove 2]

theorem namesakeRun_not_indexed :
    ¬ ∀ t ∈ Runs.states applyNameOp ComponentTree.new namesakeRun, NamesIndexed t := by
  intro h
  have hi := h _ (Runs.run_mem_states applyNameOp ComponentTree.new namesakeRun)
  have hpump : ∃ c, (Runs.run applyNameOp ComponentTree.new namesakeRun).get 1 = some c ∧
      c.name = "pump" := ⟨_, rfl, rfl⟩
  have hnone : (Runs.run applyNameOp ComponentTree.new namesakeRun).lookupByName "pump" = none :=
    rfl
  obtain ⟨c, hc, hname⟩ := hpump
  have hsome := hi.complete 1 c hc
  rw [hname, hnone] at hsome
  cases hsome

end Sandstar.TreeNames
