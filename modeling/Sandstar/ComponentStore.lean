import Sandstar.Runs
import Sandstar.Worklist

set_option autoImplicit false

/-!
# The component store of the virtual machine

`ComponentStore` with its free list, and the tree its components form through
their own parent and children fields. `free` clears a slot and returns the id to
the free list; it leaves the children list of the parent as it is.
-/
namespace Sandstar.Components

def nullId : ℕ := 2 ^ 32 - 1

structure SvmComponent where
  id : ℕ
  typeId : BitVec 16
  parentId : ℕ
  name : String
  children : List ℕ
  slotOffset : BitVec 32
  slotCount : BitVec 16
  flags : BitVec 8
deriving DecidableEq

def SvmComponent.new (id : ℕ) (typeId : BitVec 16) : SvmComponent where
  id := id
  typeId := typeId
  parentId := nullId
  name := ""
  children := []
  slotOffset := 0
  slotCount := 0
  flags := 0

structure ComponentStore where
  slots : List (Option SvmComponent)
  /-- The free list, its last entry first. -/
  freeList : List ℕ
  maxComponents : ℕ
  activeCount : ℕ
deriving DecidableEq

namespace ComponentStore

def new (maxComponents : BitVec 32) : ComponentStore where
  slots := List.replicate maxComponents.toNat none
  freeList := List.range maxComponents.toNat
  maxComponents := maxComponents.toNat
  activeCount := 0

def allocate (s : ComponentStore) : Option ℕ × ComponentStore :=
  match s.freeList with
  | [] => (none, s)
  | id :: rest => (some id, { s with freeList := rest, activeCount := s.activeCount + 1 })

def get (s : ComponentStore) (id : ℕ) : Option SvmComponent := (s.slots[id]?).join

def free (s : ComponentStore) (id : ℕ) : ComponentStore :=
  match s.get id with
  | none => s
  | some _ => { s with
      slots := s.slots.set id none
      freeList := id :: s.freeList
      activeCount := s.activeCount - 1 }

def modify (s : ComponentStore) (id : ℕ) (f : SvmComponent → SvmComponent) : ComponentStore :=
  match s.get id with
  | none => s
  | some comp => { s with slots := s.slots.set id (some (f comp)) }

def insert (s : ComponentStore) (comp : SvmComponent) : Bool × ComponentStore :=
  if comp.id < s.slots.length then
    (true, { s with slots := s.slots.set comp.id (some comp) })
  else (false, s)

def contains (s : ComponentStore) (id : ℕ) : Bool := (s.get id).isSome

/-- The loop of `execution_order`, the top of the stack first; the fuel counts
    its rounds. -/
def orderLoop (s : ComponentStore) : ℕ → List ℕ → List ℕ → Option (List ℕ)
  | 0, _, _ => none
  | _ + 1, [], order => some order
  | n + 1, id :: stack, order =>
    match s.get id with
    | some comp => orderLoop s n (comp.children ++ stack) (order ++ [id])
    | none => orderLoop s n stack order

def executionOrder (s : ComponentStore) (n rootId : ℕ) : Option (List ℕ) :=
  s.orderLoop n [rootId] []

def postLoop (s : ComponentStore) : ℕ → List (ℕ × Bool) → List ℕ → Option (List ℕ)
  | 0, _, _ => none
  | _ + 1, [], order => some order
  | n + 1, (id, true) :: stack, order => postLoop s n stack (order ++ [id])
  | n + 1, (id, false) :: stack, order =>
    match s.get id with
    | some comp => postLoop s n (comp.children.map (·, false) ++ (id, true) :: stack) order
    | none => postLoop s n stack order

def executionOrderPost (s : ComponentStore) (n rootId : ℕ) : Option (List ℕ) :=
  s.postLoop n [(rootId, false)] []

/-- A component is created: an id is allocated, the component inserted under it
    with its parent, and the id pushed onto the children of the parent. -/
def create (s : ComponentStore) (typeId : BitVec 16) (parentId : ℕ) : ComponentStore :=
  match s.allocate with
  | (none, s) => s
  | (some id, s) =>
    ((s.insert { SvmComponent.new id typeId with parentId := parentId }).2).modify parentId
      fun parent => { parent with children := parent.children ++ [id] }

section Lookup

variable {s : ComponentStore} {id k : ℕ}

theorem get_set {o : Option SvmComponent} (hid : id < s.slots.length) :
    ((s.slots.set id o)[k]?).join = if k = id then o else s.get k := by
  rw [List.getElem?_set]
  by_cases hk : k = id
  · subst hk
    simp [hid]
  · rw [if_neg hk, if_neg (fun h => hk h.symm)]
    rfl

theorem get_lt {c : SvmComponent} (h : s.get id = some c) : id < s.slots.length := by
  unfold get at h
  by_contra hge
  rw [List.getElem?_eq_none (by omega)] at h
  cases h

theorem get_free {c : SvmComponent} (h : s.get id = some c) :
    (s.free id).get k = if k = id then none else s.get k := by
  unfold free
  rw [h]
  exact get_set (get_lt h)

theorem free_absent (h : s.get id = none) : s.free id = s := by
  unfold free
  rw [h]

theorem get_modify {c : SvmComponent} {f : SvmComponent → SvmComponent} (h : s.get id = some c) :
    (s.modify id f).get k = if k = id then some (f c) else s.get k := by
  unfold modify
  rw [h]
  exact get_set (get_lt h)

theorem modify_absent {f : SvmComponent → SvmComponent} (h : s.get id = none) :
    s.modify id f = s := by
  unfold modify
  rw [h]

theorem modify_freeList (f : SvmComponent → SvmComponent) :
    (s.modify id f).freeList = s.freeList := by
  unfold modify
  cases s.get id <;> rfl

theorem modify_activeCount (f : SvmComponent → SvmComponent) :
    (s.modify id f).activeCount = s.activeCount := by
  unfold modify
  cases s.get id <;> rfl

theorem modify_length (f : SvmComponent → SvmComponent) :
    (s.modify id f).slots.length = s.slots.length := by
  unfold modify
  cases s.get id with
  | none => rfl
  | some c => exact List.length_set

theorem free_length : (s.free id).slots.length = s.slots.length := by
  unfold free
  cases s.get id with
  | none => rfl
  | some c => exact List.length_set

end Lookup

section Accounting

/-- The free list has no duplicates and holds exactly the unoccupied ids, and
    both counts add up to the capacity. -/
structure Accounted (s : ComponentStore) : Prop where
  nodup : s.freeList.Nodup
  unoccupied : ∀ id, id ∈ s.freeList ↔ id < s.maxComponents ∧ s.contains id = false
  count : s.activeCount + s.freeList.length = s.maxComponents
  slots : s.slots.length = s.maxComponents
  bound : s.maxComponents ≤ nullId

variable {s : ComponentStore} {id : ℕ}

theorem contains_eq_false : s.contains id = false ↔ s.get id = none := by
  unfold contains
  exact Option.isSome_eq_false_iff.trans Option.isNone_iff_eq_none

theorem accounted_new (maxComponents : BitVec 32) : (new maxComponents).Accounted := by
  have hget : ∀ id, (new maxComponents).get id = none := by
    intro id
    simp only [get, new, List.getElem?_replicate]
    split <;> rfl
  refine ⟨List.nodup_range, ?_, by simp [new], by simp [new], ?_⟩
  · intro id
    rw [contains_eq_false, hget]
    simp [new]
  · have hlt := maxComponents.isLt
    unfold nullId
    change maxComponents.toNat ≤ _
    omega

theorem get_nullId (h : s.Accounted) : s.get nullId = none := by
  cases hget : s.get nullId with
  | none => rfl
  | some c =>
    have hlt := get_lt hget
    have hslots := h.slots
    have hbound := h.bound
    omega

/-- What a creation does: nothing when the store is full, and else it gives the
    first free id to a component without children and lists it under its parent. -/
theorem create_cases (h : s.Accounted) (typeId : BitVec 16) {parentId : ℕ}
    (hparent : parentId = nullId ∨ s.contains parentId = true) :
    (s.freeList = [] ∧ s.create typeId parentId = s) ∨
    ∃ id rest, s.freeList = id :: rest ∧ s.get id = none ∧ parentId ≠ id ∧
      (s.create typeId parentId).freeList = rest ∧
      (s.create typeId parentId).activeCount = s.activeCount + 1 ∧
      (s.create typeId parentId).maxComponents = s.maxComponents ∧
      (s.create typeId parentId).slots.length = s.slots.length ∧
      ∀ k, (s.create typeId parentId).get k =
        if k = id then some { SvmComponent.new id typeId with parentId := parentId }
        else if k = parentId then
          (s.get k).map fun parent => { parent with children := parent.children ++ [id] }
        else s.get k := by
  cases hfree : s.freeList with
  | nil =>
    refine Or.inl ⟨rfl, ?_⟩
    unfold create allocate
    rw [hfree]
  | cons id rest =>
    obtain ⟨hlt, hnone⟩ := (h.unoccupied id).1 (by rw [hfree]; exact List.mem_cons_self)
    have hget := contains_eq_false.1 hnone
    have hslots : id < s.slots.length := by
      rw [h.slots]
      exact hlt
    have hne : parentId ≠ id := by
      rintro rfl
      rcases hparent with hnull | hin
      · have hbound := h.bound
        omega
      · rw [hnone] at hin
        cases hin
    let t : ComponentStore := { s with
      slots := s.slots.set id (some { SvmComponent.new id typeId with parentId := parentId })
      freeList := rest
      activeCount := s.activeCount + 1 }
    have hcreate : s.create typeId parentId =
        t.modify parentId fun parent => { parent with children := parent.children ++ [id] } := by
      unfold create allocate
      rw [hfree]
      simp only [insert, SvmComponent.new, hslots, if_true]
      rfl
    have ht : ∀ k, t.get k =
        if k = id then some { SvmComponent.new id typeId with parentId := parentId } else s.get k :=
      fun k => get_set hslots
    refine Or.inr ⟨id, rest, rfl, hget, hne, ?_, ?_, ?_, ?_, ?_⟩
    · rw [hcreate, modify_freeList]
    · rw [hcreate, modify_activeCount]
    · rw [hcreate]
      unfold modify
      cases t.get parentId <;> rfl
    · rw [hcreate, modify_length]
      exact List.length_set
    · intro k
      have hparentGet : t.get parentId = s.get parentId := by rw [ht, if_neg hne]
      rw [hcreate]
      cases hp : s.get parentId with
      | none =>
        rw [modify_absent (hparentGet.trans hp), ht]
        split
        · rfl
        · split
          · rename_i hk
            rw [hk, hp]
            rfl
          · rfl
      | some c =>
        rw [get_modify (hparentGet.trans hp), ht]
        by_cases hk : k = parentId
        · rw [if_pos hk, if_neg (hk ▸ hne), if_pos hk, hk, hp]
          rfl
        · rw [if_neg hk, if_neg hk]

theorem accounted_create (h : s.Accounted) (typeId : BitVec 16) {parentId : ℕ}
    (hparent : parentId = nullId ∨ s.contains parentId = true) :
    (s.create typeId parentId).Accounted := by
  rcases create_cases h typeId hparent with ⟨-, hsame⟩ |
    ⟨id, rest, hfree, hid, hne, hrest, hcount, hmax, hlength, hget⟩
  · rw [hsame]
    exact h
  · obtain ⟨hnodup, hunoccupied, htotal, hslots, hbound⟩ := h
    rw [hfree] at hnodup hunoccupied htotal
    obtain ⟨hnot, hnodup⟩ := List.nodup_cons.1 hnodup
    refine ⟨by rw [hrest]; exact hnodup, ?_, ?_, ?_, ?_⟩
    · intro k
      rw [hrest, hmax, contains_eq_false, hget]
      have hk := hunoccupied k
      rw [List.mem_cons, contains_eq_false] at hk
      by_cases hkid : k = id
      · subst hkid
        simp [hnot]
      · rw [if_neg hkid]
        simp only [hkid, false_or] at hk
        rw [hk]
        split <;> simp
    · rw [hrest, hcount, hmax]
      rw [List.length_cons] at htotal
      omega
    · rw [hlength, hmax]
      exact hslots
    · rw [hmax]
      exact hbound

theorem activeCount_pos (h : s.Accounted) {c : SvmComponent} (hid : s.get id = some c) :
    0 < s.activeCount := by
  obtain ⟨hnodup, hunoccupied, htotal, hslots, -⟩ := h
  have hlt : id < s.maxComponents := by
    rw [← hslots]
    exact get_lt hid
  have hnot : id ∉ s.freeList := by
    intro hin
    have hnone := contains_eq_false.1 ((hunoccupied id).1 hin).2
    rw [hid] at hnone
    cases hnone
  have hsub : s.freeList.toFinset ⊆ (Finset.range s.maxComponents).erase id := by
    intro k hk
    rw [List.mem_toFinset] at hk
    rw [Finset.mem_erase, Finset.mem_range]
    exact ⟨fun hkid => hnot (hkid ▸ hk), ((hunoccupied k).1 hk).1⟩
  have hcard := Finset.card_le_card hsub
  rw [List.toFinset_card_of_nodup hnodup, Finset.card_erase_of_mem (Finset.mem_range.2 hlt),
    Finset.card_range] at hcard
  omega

theorem accounted_free (h : s.Accounted) (id : ℕ) : (s.free id).Accounted := by
  cases hid : s.get id with
  | none =>
    rw [free_absent hid]
    exact h
  | some c =>
    have hpos := activeCount_pos h hid
    obtain ⟨hnodup, hunoccupied, htotal, hslots, hbound⟩ := h
    have hfree : s.free id = { s with
        slots := s.slots.set id none
        freeList := id :: s.freeList
        activeCount := s.activeCount - 1 } := by
      unfold free
      rw [hid]
    have hlt : id < s.maxComponents := by
      rw [← hslots]
      exact get_lt hid
    have hnot : id ∉ s.freeList := by
      intro hin
      have hnone := contains_eq_false.1 ((hunoccupied id).1 hin).2
      rw [hid] at hnone
      cases hnone
    refine ⟨?_, ?_, ?_, ?_, ?_⟩
    · rw [hfree]
      exact List.nodup_cons.2 ⟨hnot, hnodup⟩
    · intro k
      have hk := hunoccupied k
      rw [contains_eq_false] at hk ⊢
      rw [get_free hid]
      rw [hfree]
      simp only [List.mem_cons]
      by_cases hkid : k = id
      · simp [hkid, hlt]
      · simp [hkid, hk]
    · rw [hfree]
      simp only [List.length_cons]
      omega
    · rw [free_length, hslots, hfree]
    · rw [hfree]
      exact hbound

end Accounting

section Tree

/-- Every listed child is there, under the parent that lists it, and once. -/
structure Tidy (s : ComponentStore) : Prop where
  linked : ∀ p c k, s.get p = some c → k ∈ c.children → ∃ d, s.get k = some d ∧ d.parentId = p
  once : ∀ p c, s.get p = some c → c.children.Nodup

def Listed (s : ComponentStore) : Prop :=
  ∀ k d, s.get k = some d → d.parentId ≠ nullId →
    ∃ p, s.get d.parentId = some p ∧ k ∈ p.children

/-- Parents come before their children in some order. -/
def Ranked (s : ComponentStore) : Prop :=
  ∃ rank : ℕ → ℕ, ∀ p c k, s.get p = some c → k ∈ c.children → rank p < rank k

variable {s : ComponentStore} {id : ℕ}

theorem create_children (h : s.Accounted) (typeId : BitVec 16) {parentId p : ℕ} {c : SvmComponent}
    (hparent : parentId = nullId ∨ s.contains parentId = true)
    (hp : (s.create typeId parentId).get p = some c) :
    c.children = [] ∨
    (∃ b, s.get p = some b ∧ c.children = b.children ∧ c.parentId = b.parentId) ∨
    ∃ b id rest, s.freeList = id :: rest ∧ p = parentId ∧ s.get p = some b ∧
      c.children = b.children ++ [id] ∧ c.parentId = b.parentId := by
  rcases create_cases h typeId hparent with ⟨-, hsame⟩ |
    ⟨id, rest, hfree, hid, hne, -, -, -, -, hget⟩
  · rw [hsame] at hp
    exact Or.inr (Or.inl ⟨c, hp, rfl, rfl⟩)
  · rw [hget] at hp
    split at hp
    · cases hp
      exact Or.inl rfl
    · split at hp
      · obtain ⟨b, hb, rfl⟩ := Option.map_eq_some_iff.1 hp
        exact Or.inr (Or.inr ⟨b, id, rest, hfree, by assumption, hb, rfl, rfl⟩)
      · exact Or.inr (Or.inl ⟨c, hp, rfl, rfl⟩)

theorem create_keeps (h : s.Accounted) (typeId : BitVec 16) {parentId k : ℕ} {d : SvmComponent}
    (hparent : parentId = nullId ∨ s.contains parentId = true) (hk : s.get k = some d) :
    ∃ e, (s.create typeId parentId).get k = some e ∧ e.parentId = d.parentId ∧
      d.children ⊆ e.children := by
  rcases create_cases h typeId hparent with ⟨-, hsame⟩ |
    ⟨id, rest, hfree, hid, hne, -, -, -, -, hget⟩
  · rw [hsame]
    exact ⟨d, hk, rfl, List.Subset.refl _⟩
  · have hkid : k ≠ id := by
      rintro rfl
      rw [hid] at hk
      cases hk
    rw [hget, if_neg hkid, hk]
    split
    · exact ⟨_, rfl, rfl, List.subset_append_left _ _⟩
    · exact ⟨d, rfl, rfl, List.Subset.refl _⟩

theorem tidy_create (h : s.Accounted) (htidy : s.Tidy) (typeId : BitVec 16) {parentId : ℕ}
    (hparent : parentId = nullId ∨ s.contains parentId = true) :
    (s.create typeId parentId).Tidy := by
  constructor
  · intro p c k hp hk
    rcases create_children h typeId hparent hp with hnil | ⟨b, hb, hsame, -⟩ |
      ⟨b, id, rest, hfree, hpp, hb, hmore, -⟩
    · rw [hnil] at hk
      cases hk
    · rw [hsame] at hk
      obtain ⟨d, hd, hdp⟩ := htidy.linked p b k hb hk
      obtain ⟨e, he, hep, -⟩ := create_keeps h typeId hparent hd
      exact ⟨e, he, hep.trans hdp⟩
    · rw [hmore, List.mem_append, List.mem_singleton] at hk
      rcases hk with hk | rfl
      · obtain ⟨d, hd, hdp⟩ := htidy.linked p b k hb hk
        obtain ⟨e, he, hep, -⟩ := create_keeps h typeId hparent hd
        exact ⟨e, he, hep.trans hdp⟩
      · rcases create_cases h typeId hparent with ⟨hnil, -⟩ |
          ⟨id, rest', hfree', -, -, -, -, -, -, hget⟩
        · rw [hfree] at hnil
          cases hnil
        · rw [hfree] at hfree'
          cases hfree'
          rw [hget, if_pos rfl]
          exact ⟨_, rfl, hpp.symm⟩
  · intro p c hp
    rcases create_children h typeId hparent hp with hnil | ⟨b, hb, hsame, -⟩ |
      ⟨b, id, rest, hfree, -, hb, hmore, -⟩
    · rw [hnil]
      exact List.nodup_nil
    · rw [hsame]
      exact htidy.once p b hb
    · -- the new id was unoccupied, and a tidy store lists no such id
      have hnone : s.get id = none :=
        contains_eq_false.1 ((h.unoccupied id).1 (by rw [hfree]; exact List.mem_cons_self)).2
      have hnew : id ∉ b.children := by
        intro hin
        obtain ⟨d, hd, -⟩ := htidy.linked p b id hb hin
        rw [hnone] at hd
        cases hd
      rw [hmore]
      refine List.nodup_append.2 ⟨htidy.once p b hb, List.nodup_singleton _, ?_⟩
      rintro a ha b' hb' rfl
      exact hnew (List.mem_singleton.1 hb' ▸ ha)

theorem ranked_create (h : s.Accounted) (htidy : s.Tidy) (hranked : s.Ranked)
    (typeId : BitVec 16) {parentId : ℕ}
    (hparent : parentId = nullId ∨ s.contains parentId = true) :
    (s.create typeId parentId).Ranked := by
  obtain ⟨rank, hrank⟩ := hranked
  rcases create_cases h typeId hparent with ⟨-, hsame⟩ |
    ⟨id, rest, hfree, hid, hne, -, -, -, -, hget⟩
  · rw [hsame]
    exact ⟨rank, hrank⟩
  · -- only the parent lists the new component, so it may come right after it
    refine ⟨Function.update rank id (rank parentId + 1), ?_⟩
    have hold : ∀ p b k, s.get p = some b → k ∈ b.children →
        Function.update rank id (rank parentId + 1) p < Function.update rank id (rank parentId + 1) k := by
      intro p b k hb hk
      obtain ⟨d, hd, -⟩ := htidy.linked p b k hb hk
      have hkid : k ≠ id := by
        rintro rfl
        rw [hid] at hd
        cases hd
      have hpid : p ≠ id := by
        rintro rfl
        rw [hid] at hb
        cases hb
      rw [Function.update_of_ne hkid, Function.update_of_ne hpid]
      exact hrank p b k hb hk
    intro p c k hp hk
    rcases create_children h typeId hparent hp with hnil | ⟨b, hb, hsame, -⟩ |
      ⟨b, id', rest', hfree', rfl, hb, hmore, -⟩
    · rw [hnil] at hk
      cases hk
    · exact hold p b k hb (hsame ▸ hk)
    · rw [hfree] at hfree'
      cases hfree'
      rw [hmore, List.mem_append, List.mem_singleton] at hk
      rcases hk with hk | rfl
      · exact hold p b k hb hk
      · rw [Function.update_self, Function.update_of_ne hne]
        exact Nat.lt_succ_self _

theorem listed_create (h : s.Accounted) (hlisted : s.Listed) (typeId : BitVec 16) {parentId : ℕ}
    (hparent : parentId = nullId ∨ s.contains parentId = true) :
    (s.create typeId parentId).Listed := by
  intro k d hk hnull
  rcases create_cases h typeId hparent with ⟨-, hsame⟩ |
    ⟨id, rest, hfree, hid, hne, -, -, -, -, hget⟩
  · rw [hsame] at hk ⊢
    exact hlisted k d hk hnull
  · have hk' := hk
    rw [hget] at hk'
    split at hk'
    · cases hk'
      have hin : s.contains parentId = true := hparent.resolve_left hnull
      obtain ⟨p, hp⟩ := Option.isSome_iff_exists.1 hin
      refine ⟨{ p with children := p.children ++ [id] }, ?_, ?_⟩
      · change (s.create typeId parentId).get parentId = _
        rw [hget, if_neg hne, if_pos rfl, hp]
        rfl
      · rename_i hkid
        rw [hkid]
        exact List.mem_append_right _ List.mem_cons_self
    · have hb : ∃ b, s.get k = some b ∧ b.parentId = d.parentId := by
        split at hk'
        · obtain ⟨b, hb, rfl⟩ := Option.map_eq_some_iff.1 hk'
          exact ⟨b, hb, rfl⟩
        · exact ⟨d, hk', rfl⟩
      obtain ⟨b, hb, hparentId⟩ := hb
      obtain ⟨p, hp, hin⟩ := hlisted k b hb (hparentId ▸ hnull)
      obtain ⟨e, he, -, hsub⟩ := create_keeps h typeId hparent hp
      exact ⟨e, hparentId ▸ he, hsub hin⟩

theorem get_of_free {c b : SvmComponent} {k : ℕ} (hid : s.get id = some c)
    (hk : (s.free id).get k = some b) : k ≠ id ∧ s.get k = some b := by
  rw [get_free hid] at hk
  split at hk
  · cases hk
  · exact ⟨by assumption, hk⟩

theorem tidy_free (h : s.Accounted) (htidy : s.Tidy) {c : SvmComponent} (hid : s.get id = some c)
    (hroot : c.parentId = nullId) : (s.free id).Tidy := by
  constructor
  · intro p b k hp hk
    obtain ⟨-, hb⟩ := get_of_free hid hp
    obtain ⟨d, hd, hdp⟩ := htidy.linked p b k hb hk
    have hkid : k ≠ id := by
      rintro rfl
      rw [hid] at hd
      cases hd
      rw [← hdp, hroot, get_nullId h] at hb
      cases hb
    refine ⟨d, ?_, hdp⟩
    rw [get_free hid, if_neg hkid]
    exact hd
  · intro p b hp
    exact htidy.once p b (get_of_free hid hp).2

theorem listed_free (hlisted : s.Listed) {c : SvmComponent} (hid : s.get id = some c)
    (hleaf : c.children = []) : (s.free id).Listed := by
  intro k d hk hnull
  obtain ⟨-, hd⟩ := get_of_free hid hk
  obtain ⟨p, hp, hin⟩ := hlisted k d hd hnull
  have hne : d.parentId ≠ id := by
    intro heq
    rw [heq, hid] at hp
    cases hp
    rw [hleaf] at hin
    cases hin
  refine ⟨p, ?_, hin⟩
  rw [get_free hid, if_neg hne]
  exact hp

theorem ranked_free (hranked : s.Ranked) {c : SvmComponent} (hid : s.get id = some c) :
    (s.free id).Ranked := by
  obtain ⟨rank, hrank⟩ := hranked
  exact ⟨rank, fun p b k hp hk => hrank p b k (get_of_free hid hp).2 hk⟩

theorem not_tidy_free (hlisted : s.Listed) {c : SvmComponent} (hid : s.get id = some c)
    (hleaf : c.children = []) (hparent : c.parentId ≠ nullId) : ¬(s.free id).Tidy := by
  intro htidy
  obtain ⟨p, hp, hin⟩ := hlisted id c hid hparent
  have hne : c.parentId ≠ id := by
    intro heq
    rw [heq, hid] at hp
    cases hp
    rw [hleaf] at hin
    cases hin
  have hp' : (s.free id).get c.parentId = some p := by
    rw [get_free hid, if_neg hne]
    exact hp
  obtain ⟨d, hd, -⟩ := htidy.linked c.parentId p id hp' hin
  exact (get_of_free hid hd).1 rfl

end Tree

section Orders

variable {s : ComponentStore}

def kids (s : ComponentStore) (id : ℕ) : Option (List ℕ) := (s.get id).map (·.children)

theorem isForest (htidy : s.Tidy) (hranked : s.Ranked) : Worklist.IsForest s.kids := by
  refine ⟨?_, ?_, ?_⟩
  · intro p cs hp
    obtain ⟨c, hc, rfl⟩ := Option.map_eq_some_iff.1 hp
    exact htidy.once p c hc
  · intro p q cs ds k hp hq hk hk'
    obtain ⟨c, hc, rfl⟩ := Option.map_eq_some_iff.1 hp
    obtain ⟨d, hd, rfl⟩ := Option.map_eq_some_iff.1 hq
    obtain ⟨e, he, hep⟩ := htidy.linked p c k hc hk
    obtain ⟨e', he', hep'⟩ := htidy.linked q d k hd hk'
    rw [he] at he'
    cases he'
    exact hep.symm.trans hep'
  · obtain ⟨rank, hrank⟩ := hranked
    refine ⟨rank, ?_⟩
    intro p cs k hp hk
    obtain ⟨c, hc, rfl⟩ := Option.map_eq_some_iff.1 hp
    exact hrank p c k hc hk

/-- Both loops have expanded at most as many components as there are slots. -/
theorem expanded_le {rank : ℕ → ℕ} {root : ℕ} {expanded pending : List ℕ}
    (h : Worklist.Inv s.kids rank root expanded pending)
    (hin : ∀ k ∈ expanded, ∃ c, s.get k = some c) : expanded.length ≤ s.slots.length := by
  have hle := h.length_le (Finset.range s.slots.length) (by
    intro k hk
    obtain ⟨c, hc⟩ := hin k hk
    exact Finset.mem_range.2 (get_lt hc))
  rwa [Finset.card_range] at hle

theorem kids_live (htidy : s.Tidy) {expanded pending : List ℕ} {id : ℕ} {c : SvmComponent}
    (hid : s.get id = some c) (hin : ∀ k ∈ expanded ++ id :: pending, ∃ c, s.get k = some c) :
    ∀ k ∈ id :: expanded ++ (c.children ++ pending), ∃ c, s.get k = some c := by
  intro k hk
  simp only [List.cons_append, List.mem_cons, List.mem_append] at hk
  rcases hk with rfl | hk | hk | hk
  · exact ⟨c, hid⟩
  · exact hin k (List.mem_append_left _ hk)
  · obtain ⟨d, hd, -⟩ := htidy.linked id c k hid hk
    exact ⟨d, hd⟩
  · exact hin k (List.mem_append_right _ (List.mem_cons_of_mem _ hk))

theorem orderLoop_ok (htidy : s.Tidy) {rank : ℕ → ℕ}
    (hrank : ∀ p c k, s.kids p = some c → k ∈ c → rank p < rank k)
    (hforest : Worklist.IsForest s.kids) {root n : ℕ} {expanded pending : List ℕ}
    (h : Worklist.Inv s.kids rank root expanded pending)
    (hin : ∀ k ∈ expanded ++ pending, ∃ c, s.get k = some c)
    (hfuel : s.slots.length + 1 ≤ n + expanded.length) :
    ∃ order, s.orderLoop n pending expanded.reverse = some order ∧ order.Nodup := by
  induction n generalizing expanded pending with
  | zero =>
    have hle := expanded_le h fun k hk => hin k (List.mem_append_left _ hk)
    omega
  | succ n ih =>
    cases pending with
    | nil => exact ⟨_, rfl, List.nodup_reverse.2 h.expanded_nodup⟩
    | cons id pending =>
      obtain ⟨c, hc⟩ := hin id (List.mem_append_right _ List.mem_cons_self)
      have hid : s.kids id = some c.children := Option.map_eq_some_iff.2 ⟨c, hc, rfl⟩
      have hstep := ih (h.expand hforest hrank hid) (kids_live htidy hc hin)
        (by rw [List.length_cons]; omega)
      rw [List.reverse_cons] at hstep
      simp only [orderLoop, hc]
      exact hstep

def marked (b : Bool) (stack : List (ℕ × Bool)) : List ℕ :=
  stack.filterMap fun e => if e.2 = b then some e.1 else none

theorem marked_fresh (cs : List ℕ) :
    marked false (cs.map (·, false)) = cs ∧ marked true (cs.map (·, false)) = [] := by
  constructor
  · induction cs with
    | nil => rfl
    | cons c cs ih => simp [marked]
  · induction cs with
    | nil => rfl
    | cons c cs ih => simp [marked]

theorem marked_append (b : Bool) (as bs : List (ℕ × Bool)) :
    marked b (as ++ bs) = marked b as ++ marked b bs := List.filterMap_append

theorem postLoop_ok (htidy : s.Tidy) {rank : ℕ → ℕ}
    (hrank : ∀ p c k, s.kids p = some c → k ∈ c → rank p < rank k)
    (hforest : Worklist.IsForest s.kids) {root n : ℕ} {expanded order : List ℕ}
    {stack : List (ℕ × Bool)} (h : Worklist.Inv s.kids rank root expanded (marked false stack))
    (hperm : expanded.Perm (order ++ marked true stack))
    (hin : ∀ k ∈ expanded ++ marked false stack, ∃ c, s.get k = some c)
    (hfuel : 2 * s.slots.length + 1 ≤ n + expanded.length + order.length) :
    ∃ result, s.postLoop n stack order = some result ∧ result.Nodup := by
  induction n generalizing expanded order stack with
  | zero =>
    have hle := expanded_le h fun k hk => hin k (List.mem_append_left _ hk)
    have hlength := hperm.length_eq
    rw [List.length_append] at hlength
    omega
  | succ n ih =>
    match stack with
    | [] =>
      refine ⟨order, rfl, ?_⟩
      rw [show marked true [] = [] from rfl, List.append_nil] at hperm
      exact hperm.nodup_iff.1 h.expanded_nodup
    | (id, true) :: stack =>
      have hmarked : marked true ((id, true) :: stack) = id :: marked true stack := rfl
      rw [hmarked] at hperm
      exact ih h (hperm.trans (by simp)) hin (by rw [List.length_append, List.length_singleton]; omega)
    | (id, false) :: stack =>
      have hpending : marked false ((id, false) :: stack) = id :: marked false stack := rfl
      have hmarked : marked true ((id, false) :: stack) = marked true stack := rfl
      rw [hpending] at h hin
      rw [hmarked] at hperm
      obtain ⟨c, hc⟩ := hin id (List.mem_append_right _ List.mem_cons_self)
      have hid : s.kids id = some c.children := Option.map_eq_some_iff.2 ⟨c, hc, rfl⟩
      obtain ⟨hfresh, hnone⟩ := marked_fresh c.children
      have hnext : marked false (c.children.map (·, false) ++ (id, true) :: stack) =
          c.children ++ marked false stack := by
        rw [marked_append, hfresh]
        rfl
      have hnext' : marked true (c.children.map (·, false) ++ (id, true) :: stack) =
          id :: marked true stack := by
        rw [marked_append, hnone]
        rfl
      simp only [postLoop, hc]
      refine @ih (id :: expanded) order _ ?_ ?_ ?_ ?_
      · rw [hnext]
        exact h.expand hforest hrank hid
      · rw [hnext']
        exact (hperm.cons id).trans List.perm_middle.symm
      · rw [hnext]
        exact kids_live htidy hc hin
      · rw [List.length_cons]
        omega

theorem walks_once (htidy : s.Tidy) (hranked : s.Ranked) (root : ℕ) :
    (∀ n, s.slots.length + 2 ≤ n → ∃ order, s.executionOrder n root = some order ∧ order.Nodup) ∧
    ∀ n, 2 * s.slots.length + 2 ≤ n →
      ∃ order, s.executionOrderPost n root = some order ∧ order.Nodup := by
  have hforest := isForest htidy hranked
  obtain ⟨rank, hrank⟩ := hforest.ranked
  have hstart : Worklist.Inv s.kids rank root [] [root] := Worklist.inv_start rank root
  cases hroot : s.get root with
  | none =>
    constructor
    · intro n hn
      obtain ⟨m, rfl⟩ : ∃ m, n = m + 2 := ⟨n - 2, by omega⟩
      refine ⟨[], ?_, List.nodup_nil⟩
      simp only [executionOrder, orderLoop, hroot]
    · intro n hn
      obtain ⟨m, rfl⟩ : ∃ m, n = m + 2 := ⟨n - 2, by omega⟩
      refine ⟨[], ?_, List.nodup_nil⟩
      simp only [executionOrderPost, postLoop, hroot]
  | some c =>
    have hin : ∀ k ∈ ([] : List ℕ) ++ [root], ∃ c, s.get k = some c := by
      intro k hk
      rw [List.nil_append, List.mem_singleton] at hk
      exact ⟨c, hk ▸ hroot⟩
    constructor
    · intro n hn
      exact orderLoop_ok htidy hrank hforest hstart hin (by simp; omega)
    · intro n hn
      exact @postLoop_ok s htidy rank hrank hforest root n [] [] [(root, false)] hstart
        (List.Perm.refl _) hin (by simp; omega)

end Orders

end ComponentStore

section Histories

inductive Act
  | create (typeId : BitVec 16) (parentId : ℕ)
  | free (id : ℕ)

def apply (s : ComponentStore) : Act → ComponentStore
  | .create typeId parentId => s.create typeId parentId
  | .free id => s.free id

/-- Components are created as roots or under a component that is there, and
    freed when they have no children. -/
def Allowed (s : ComponentStore) : Act → Prop
  | .create _ parentId => parentId = nullId ∨ s.contains parentId = true
  | .free id => ∀ c, s.get id = some c → c.children = []

def FreesRoots (s : ComponentStore) : Act → Prop
  | .create _ _ => True
  | .free id => ∀ c, s.get id = some c → c.parentId = nullId

open ComponentStore

/-- The accounts are right, no freed id is listed as a child, and a walk from any
    component meets each component at most once. -/
def Kept (s : ComponentStore) : Prop :=
  s.Accounted ∧ s.Tidy ∧ ∀ root, ∃ n order, s.executionOrder n root = some order ∧ order.Nodup

theorem accounted_apply {s : ComponentStore} {a : Act} (h : s.Accounted) (ha : Allowed s a) :
    (apply s a).Accounted := by
  cases a with
  | create typeId parentId => exact accounted_create h typeId ha
  | free id => exact accounted_free h id

theorem listed_apply {s : ComponentStore} {a : Act} (h : s.Accounted) (hlisted : s.Listed)
    (ha : Allowed s a) : (apply s a).Listed := by
  cases a with
  | create typeId parentId => exact listed_create h hlisted typeId ha
  | free id =>
    cases hid : s.get id with
    | none =>
      simp only [apply, free_absent hid]
      exact hlisted
    | some c => exact listed_free hlisted hid (ha c hid)

theorem tidy_apply {s : ComponentStore} {a : Act} (h : s.Accounted) (htidy : s.Tidy)
    (hranked : s.Ranked) (ha : Allowed s a) (hroots : FreesRoots s a) :
    (apply s a).Tidy ∧ (apply s a).Ranked := by
  cases a with
  | create typeId parentId =>
    exact ⟨tidy_create h htidy typeId ha, ranked_create h htidy hranked typeId ha⟩
  | free id =>
    cases hid : s.get id with
    | none =>
      simp only [apply, free_absent hid]
      exact ⟨htidy, hranked⟩
    | some c => exact ⟨tidy_free h htidy hid (hroots c hid), ranked_free hranked hid⟩

theorem not_tidy_apply {s : ComponentStore} {a : Act} (hlisted : s.Listed) (ha : Allowed s a)
    (hroots : ¬FreesRoots s a) : ¬(apply s a).Tidy := by
  cases a with
  | create typeId parentId => exact absurd trivial hroots
  | free id =>
    simp only [FreesRoots, not_forall] at hroots
    obtain ⟨c, hid, hparent⟩ := hroots
    exact not_tidy_free hlisted hid (ha c hid) hparent

theorem new_empty (maxComponents : BitVec 32) (id : ℕ) : (new maxComponents).get id = none := by
  have h := accounted_new maxComponents
  by_cases hid : id < maxComponents.toNat
  · exact contains_eq_false.1 ((h.unoccupied id).1 (List.mem_range.2 hid)).2
  · cases hget : (new maxComponents).get id with
    | none => rfl
    | some c =>
      have hlt := get_lt hget
      rw [h.slots] at hlt
      exact absurd hlt hid

theorem tidy_new (maxComponents : BitVec 32) : (new maxComponents).Tidy := by
  have hempty := new_empty maxComponents
  constructor
  · intro p c k hp
    rw [hempty] at hp
    cases hp
  · intro p c hp
    rw [hempty] at hp
    cases hp

theorem ranked_new (maxComponents : BitVec 32) : (new maxComponents).Ranked := by
  refine ⟨fun _ => 0, ?_⟩
  intro p c k hp
  rw [new_empty] at hp
  cases hp

/-- In every history the accounts are right; the tree keeps its shape exactly
    when only components without a parent are freed. -/
theorem histories_kept_iff (maxComponents : BitVec 32) (acts : List Act)
    (hallowed : Runs.Along apply Allowed (new maxComponents) acts) :
    (∀ t ∈ Runs.states apply (new maxComponents) acts, t.Accounted) ∧
    ((∀ t ∈ Runs.states apply (new maxComponents) acts, Kept t) ↔
      Runs.Along apply FreesRoots (new maxComponents) acts) := by
  have haccounted := accounted_new maxComponents
  constructor
  · exact Runs.states_invariant apply (fun _ _ => accounted_apply) haccounted hallowed
  · apply Runs.states_iff_along_of apply
      (I := fun s => s.Accounted ∧ s.Listed ∧ s.Tidy ∧ s.Ranked) _ _ _ _ hallowed
    · rintro s ⟨h, -, htidy, hranked⟩
      refine ⟨h, htidy, ?_⟩
      intro root
      exact ⟨s.slots.length + 2, (walks_once htidy hranked root).1 _ le_rfl⟩
    · rintro s a ⟨h, hlisted, htidy, hranked⟩ ha hroots
      exact ⟨accounted_apply h ha, listed_apply h hlisted ha, tidy_apply h htidy hranked ha hroots⟩
    · rintro s a ⟨h, hlisted, -, -⟩ ha hroots hkept
      exact not_tidy_apply hlisted ha hroots hkept.2.1
    · refine ⟨haccounted, ?_, tidy_new maxComponents, ranked_new maxComponents⟩
      intro k d hk
      rw [new_empty] at hk
      cases hk

/-- A root with a child, and a second root that is freed again. -/
theorem histories_kept_two_roots :
    Runs.Along apply Allowed (new 4) [.create 0 nullId, .create 0 0, .create 0 nullId, .free 2] ∧
    ∀ t ∈ Runs.states apply (new 4) [.create 0 nullId, .create 0 0, .create 0 nullId, .free 2],
      Kept t := by
  have hallowed : Runs.Along apply Allowed (new 4)
      [.create 0 nullId, .create 0 0, .create 0 nullId, .free 2] := by
    refine ⟨Or.inl rfl, Or.inr rfl, Or.inl rfl, ?_, trivial⟩
    intro c hc
    cases hc
    rfl
  refine ⟨hallowed, (histories_kept_iff 4 _ hallowed).2.2 ⟨trivial, trivial, trivial, ?_, trivial⟩⟩
  intro c hc
  cases hc
  rfl

/-- Two children of the root; the second is freed and its id reused under the
    first. The root still lists it, so a walk meets it twice. -/
theorem freed_child_listed :
    Runs.Along apply Allowed (new 4)
      [.create 0 nullId, .create 0 0, .create 0 0, .free 2, .create 0 1] ∧
    (Runs.run apply (new 4) [.create 0 nullId, .create 0 0, .create 0 0, .free 2]).contains 2 =
      false ∧
    ((Runs.run apply (new 4) [.create 0 nullId, .create 0 0, .create 0 0, .free 2]).get 0).map
      (·.children) = some [1, 2] ∧
    (Runs.run apply (new 4)
      [.create 0 nullId, .create 0 0, .create 0 0, .free 2, .create 0 1]).executionOrder 6 0 =
      some [0, 1, 2, 2] := by
  refine ⟨⟨Or.inl rfl, Or.inr rfl, Or.inr rfl, ?_, Or.inr rfl, trivial⟩, by decide, by decide,
    by decide⟩
  intro c hc
  cases hc
  rfl

end Histories

end Sandstar.Components
