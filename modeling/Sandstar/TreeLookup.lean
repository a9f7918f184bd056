import Sandstar.TreeEdits

set_option autoImplicit false

namespace Sandstar.ComponentTree
open TreeRequests TreeEdits

theorem get_modify (t : ComponentTree) (id a : UInt16) (f : VirtualComponent → VirtualComponent) :
    (t.modify id f).get a = if a = id then (t.get a).map f else t.get a :=
  Table.get_modify t.components id a f

theorem get_add (t : ComponentTree) (comp : VirtualComponent) (a : UInt16) :
    (t.add comp).get a =
      if a = comp.compId then some comp
      else if a = comp.parentId ∧ comp.parentId ≠ noParent then
        (t.get a).map (pushChild comp.compId)
      else t.get a := by
  change (registerChild (t.components.insert comp.compId comp) comp.parentId comp.compId).get a = _
  unfold registerChild
  by_cases ha : a = comp.compId
  · subst a
    rw [if_pos rfl]
    split_ifs with h
    · rw [Table.get_modify_ne _ _ (Ne.symm h.2), Table.get_insert_self]
    · rw [Table.get_insert_self]
  · rw [if_neg ha]
    split_ifs with h hp hp
    · rw [Table.get_modify, if_pos hp.1, Table.get_insert_ne _ _ ha]
      rfl
    · rw [Table.get_modify_ne _ _ (fun e => hp ⟨e, h.1⟩), Table.get_insert_ne _ _ ha]
      rfl
    · exact absurd ⟨hp.2, fun e => ha (hp.1.trans e)⟩ h
    · rw [Table.get_insert_ne _ _ ha]
      rfl

theorem get_remove {t : ComponentTree} {id : UInt16} {comp : VirtualComponent}
    (h : t.get id = some comp) (a : UInt16) :
    (t.remove id).2.get a =
      if a = id then none
      else if a = comp.parentId then (t.get a).map (dropChild id) else t.get a := by
  have hr : (t.remove id).2.get a =
      ((t.components.erase id).modify comp.parentId (dropChild id)).get a := by
    unfold ComponentTree.remove
    rw [h]
    rfl
  rw [hr, Table.get_modify, Table.get_erase]
  by_cases ha : a = id
  · simp [ha]
  · rw [if_neg ha, if_neg ha]
    rfl

theorem get_rename (t : ComponentTree) (id a : UInt16) (name : String) :
    (t.rename id name).2.get a =
      if a = id then (t.get a).map fun c => { c with name := name } else t.get a := by
  cases h : t.get id with
  | none =>
    rw [rename_eq_none name h]
    split_ifs with ha
    · simp [ha, h]
    · rfl
  | some comp =>
    have hr : (t.rename id name).2.get a =
        (t.components.modify id fun c => { c with name := name }).get a := by
      unfold ComponentTree.rename
      rw [h]
      rfl
    rw [hr, Table.get_modify]
    rfl

theorem get_storeLink (t : ComponentTree) (l : Link) (a : UInt16) :
    (t.storeLink l).get a =
      if a = l.toComp then (t.get a).map (pushLink l)
      else if a = l.fromComp then (t.get a).map (pushLinkOnce l) else t.get a := by
  unfold storeLink
  dsimp only
  by_cases hl : l.fromComp = l.toComp
  · rw [if_neg (fun h => h hl), get_modify, hl]
    by_cases ha : a = l.toComp <;> simp [ha]
  · rw [if_pos hl, get_modify, get_modify]
    by_cases ha : a = l.toComp
    · simp [ha, Ne.symm hl]
    · simp [ha]

theorem get_eraseLink (t : ComponentTree) (l : Link) (a : UInt16) :
    (t.eraseLink l).get a =
      if a = l.fromComp ∨ a = l.toComp then (t.get a).map (dropLink l) else t.get a := by
  unfold eraseLink
  dsimp only
  by_cases hl : l.fromComp = l.toComp
  · rw [if_neg (fun h => h hl), get_modify, hl]
    by_cases ha : a = l.toComp <;> simp [ha]
  · rw [if_pos hl, get_modify, get_modify]
    by_cases hf : a = l.fromComp
    · subst a
      simp [hl]
    · by_cases ha : a = l.toComp <;> simp [ha, hf, Ne.symm hl]

theorem dropLink_eq_self {l : Link} {comp : VirtualComponent} :
    dropLink l comp = comp ↔ l ∉ comp.links := by
  have hlinks : dropLink l comp = comp ↔ comp.links.filter (· ≠ l) = comp.links := by
    constructor
    · exact fun h => congrArg VirtualComponent.links h
    · intro h
      unfold dropLink
      rw [h]
  rw [hlinks, List.filter_eq_self]
  constructor
  · intro h hmem
    simpa using h l hmem
  · intro h a ha
    simpa using fun heq : a = l => h (heq ▸ ha)

theorem eraseLink_eq_self {t : ComponentTree} {l : Link} : t.eraseLink l = t ↔
    ∀ comp, t.get l.toComp = some comp ∨ t.get l.fromComp = some comp → l ∉ comp.links := by
  constructor
  · intro h comp hcomp
    rw [← dropLink_eq_self]
    rcases hcomp with hcomp | hcomp
    · have hget := get_eraseLink t l l.toComp
      rw [h, if_pos (Or.inr rfl), hcomp, Option.map_some, Option.some.injEq] at hget
      exact hget.symm
    · have hget := get_eraseLink t l l.fromComp
      rw [h, if_pos (Or.inl rfl), hcomp, Option.map_some, Option.some.injEq] at hget
      exact hget.symm
  · intro h
    have hcomponents : (t.eraseLink l).components = t.components := by
      refine Table.ext fun a => ?_
      change (t.eraseLink l).get a = t.get a
      rw [get_eraseLink]
      split_ifs with ha
      · cases hcomp : t.get a with
        | none => rfl
        | some comp =>
          rw [Option.map_some, Option.some.injEq, dropLink_eq_self]
          refine h comp ?_
          rcases ha with rfl | rfl
          · exact Or.inr hcomp
          · exact Or.inl hcomp
      · rfl
    have hrest : t.eraseLink l = { t with components := (t.eraseLink l).components } := by
      unfold eraseLink ComponentTree.modify
      split_ifs <;> rfl
    rw [hrest, hcomponents]

def withoutLinks (ls : List Link) (a : UInt16) (comp : VirtualComponent) : VirtualComponent :=
  { comp with
    links := comp.links.filter fun l => ¬ (l ∈ ls ∧ (a = l.fromComp ∨ a = l.toComp)) }

theorem withoutLinks_cons (l : Link) (ls : List Link) (a : UInt16) (comp : VirtualComponent) :
    withoutLinks (l :: ls) a comp =
      withoutLinks ls a (if a = l.fromComp ∨ a = l.toComp then dropLink l comp else comp) := by
  unfold withoutLinks dropLink
  split_ifs with ha
  · simp only [List.filter_filter, VirtualComponent.mk.injEq, true_and]
    refine List.filter_congr fun m _ => ?_
    by_cases hm : m = l
    · subst m
      simp [ha]
    · simp [hm]
  · simp only [VirtualComponent.mk.injEq, true_and]
    refine List.filter_congr fun m _ => ?_
    by_cases hm : m = l
    · subst m
      simp [ha]
    · simp [hm]

theorem get_eraseLinks (ls : List Link) (t : ComponentTree) (a : UInt16) :
    (ls.foldl (fun t l => (t.removeLink l.fromComp l.fromSlot l.toComp l.toSlot).2) t).get a =
      (t.get a).map (withoutLinks ls a) := by
  induction ls generalizing t with
  | nil =>
    change t.get a = (t.get a).map (withoutLinks [] a)
    cases t.get a <;> simp [withoutLinks]
  | cons l ls ih =>
    have he : (t.removeLink l.fromComp l.fromSlot l.toComp l.toSlot).2 = t.eraseLink l := rfl
    rw [List.foldl_cons, ih, he, get_eraseLink]
    cases t.get a with
    | none => simp
    | some comp =>
      simp only [Option.map_some, withoutLinks_cons]
      split_ifs <;> rfl

theorem get_dropLinksOf (t : ComponentTree) (id a : UInt16) :
    (dropLinksOf t id).get a =
      (t.get a).map (withoutLinks (((t.get id).map VirtualComponent.links).getD []) a) :=
  get_eraseLinks _ t a

/-! A property of the tree reads only part of each component. An edit that leaves that
part alone leaves the view alone. -/

section View

variable {α : Type} {π : VirtualComponent → α}

def view (π : VirtualComponent → α) (t : ComponentTree) (a : UInt16) : Option α :=
  (t.get a).map π

theorem view_eq_some {t : ComponentTree} {a : UInt16} {v : α} :
    view π t a = some v ↔ ∃ c, t.get a = some c ∧ π c = v :=
  Option.map_eq_some_iff

theorem view_of_get {t : ComponentTree} {a : UInt16} {c : VirtualComponent}
    (h : t.get a = some c) : view π t a = some (π c) :=
  view_eq_some.2 ⟨c, h, rfl⟩

theorem view_eq_none {t : ComponentTree} {a : UInt16} : view π t a = none ↔ t.get a = none :=
  Option.map_eq_none_iff

theorem view_modify (t : ComponentTree) (id : UInt16) {f : VirtualComponent → VirtualComponent}
    (hf : ∀ c, π (f c) = π c) : view π (t.modify id f) = view π t := by
  funext a
  unfold view
  rw [get_modify]
  split_ifs
  · rw [Option.map_map]
    exact congrArg (fun g => (t.get a).map g) (funext hf)
  · rfl

theorem view_rename (t : ComponentTree) (id : UInt16) (name : String)
    (hf : ∀ c : VirtualComponent, π { c with name := name } = π c) :
    view π (t.rename id name).2 = view π t := by
  funext a
  unfold view
  rw [get_rename]
  split_ifs
  · rw [Option.map_map]
    exact congrArg (fun g => (t.get a).map g) (funext hf)
  · rfl

theorem view_storeLink (t : ComponentTree) (l : Link) (hf : ∀ c, π (pushLink l c) = π c) :
    view π (t.storeLink l) = view π t := by
  have honce : ∀ c, π (pushLinkOnce l c) = π c := by
    intro c
    unfold pushLinkOnce
    split_ifs
    · rfl
    · exact hf c
  unfold storeLink
  dsimp only
  split_ifs
  · rw [view_modify _ _ honce, view_modify _ _ hf]
  · rw [view_modify _ _ hf]

theorem view_eraseLink (t : ComponentTree) (l : Link) (hf : ∀ c, π (dropLink l c) = π c) :
    view π (t.eraseLink l) = view π t := by
  unfold eraseLink
  dsimp only
  split_ifs
  · rw [view_modify _ _ hf, view_modify _ _ hf]
  · rw [view_modify _ _ hf]

theorem dropLinksOf_keeps {β : Type} {g : ComponentTree → β} (t : ComponentTree) (id : UInt16)
    (hg : ∀ t l, g (eraseLink t l) = g t) : g (dropLinksOf t id) = g t := by
  unfold dropLinksOf
  generalize ((t.get id).map VirtualComponent.links).getD [] = ls
  induction ls generalizing t with
  | nil => rfl
  | cons l ls ih =>
    rw [List.foldl_cons, ih]
    exact hg t l

theorem view_dropLinksOf (t : ComponentTree) (id : UInt16)
    (hf : ∀ l c, π (dropLink l c) = π c) : view π (dropLinksOf t id) = view π t :=
  dropLinksOf_keeps t id fun t l => view_eraseLink t l (hf l)

/-- Forgetting a user-added id does not touch the components. -/
theorem view_drop {t : ComponentTree} {id : UInt16} {c : VirtualComponent}
    (h : t.get id = some c) : view π (applyEdit t (.drop id)) = view π (t.remove id).2 := by
  simp only [applyEdit, h]
  rfl

end View

theorem drop_absent {t : ComponentTree} {id : UInt16} (h : t.get id = none) :
    applyEdit t (.drop id) = t := by
  simp only [applyEdit, h]

theorem dropLinked_absent {t : ComponentTree} {id : UInt16} (h : t.get id = none) :
    applyEdit t (.dropLinked id) = t := by
  change ((dropLinksOf t id).remove id).2 = t
  have hnil : dropLinksOf t id = t := by
    unfold dropLinksOf
    rw [h]
    rfl
  rw [hnil, remove_eq_none h]

theorem reorderAccepted_perm {t : ComponentTree} {id : UInt16} {children : List UInt16}
    (h : reorderAccepted t id children) :
    ∃ p, t.get id = some p ∧ p.children.Perm children := by
  unfold reorderAccepted at h
  cases hp : t.get id with
  | none =>
    rw [hp] at h
    cases h
  | some p =>
    rw [hp] at h
    have hsort : p.children.mergeSort = children.mergeSort := of_decide_eq_true h
    have hp' := List.mergeSort_perm p.children fun a b => decide (a ≤ b)
    rw [hsort] at hp'
    exact ⟨p, rfl, hp'.symm.trans (List.mergeSort_perm children _)⟩

theorem key_le_sup {t : ComponentTree} {id : UInt16} {c : VirtualComponent}
    (h : t.get id = some c) : id.toNat ≤ t.components.keys.sup UInt16.toNat :=
  Finset.le_sup (f := UInt16.toNat) ((Table.mem_keys _ _).2 ⟨c, h⟩)

/-- A new id lies above every id in use, unless the greatest id is taken and it wraps. -/
theorem nextCompId_cases (t : ComponentTree) :
    (∀ id c, t.get id = some c → id < t.nextCompId) ∨
      (t.nextCompId = 0 ∧ ∃ c, t.get noParent = some c) := by
  have hle : t.components.keys.sup UInt16.toNat ≤ 65535 :=
    Finset.sup_le fun id _ => Nat.lt_succ_iff.1 id.toNat_lt
  rcases Nat.lt_or_eq_of_le hle with hlt | heq
  · refine Or.inl fun id c hc => UInt16.lt_iff_toNat_lt.2 ?_
    have h := key_le_sup hc
    unfold ComponentTree.nextCompId
    rw [UInt16.toNat_add, UInt16.toNat_ofNat']
    change _ < (_ % 65536 + 1) % 65536
    omega
  · refine Or.inr ⟨?_, ?_⟩
    · unfold ComponentTree.nextCompId
      rw [heq]
      rfl
    · have hne : t.components.keys.Nonempty := by
        rw [Finset.nonempty_iff_ne_empty]
        intro he
        rw [he] at heq
        cases heq
      obtain ⟨id, hid, hsup⟩ := Finset.exists_mem_eq_sup _ hne UInt16.toNat
      have hmax : id = noParent := UInt16.toNat_inj.1 (hsup.symm.trans heq)
      rw [← hmax]
      exact (Table.mem_keys _ _).1 hid

theorem not_noParent_lt (id : UInt16) : ¬ noParent < id := by
  intro h
  have hlt : 65535 < id.toNat := UInt16.lt_iff_toNat_lt.1 h
  have := id.toNat_lt
  omega

/-- While the new id is free and id 0 is taken, nothing sits at `NO_PARENT`. -/
theorem parent_ne_noParent {t : ComponentTree} {id : UInt16}
    (hroot : (t.get 0).isSome) (hfree : t.get t.nextCompId = none) (hid : (t.get id).isSome) :
    id ≠ noParent := by
  rintro rfl
  obtain ⟨c, hc⟩ := Option.isSome_iff_exists.1 hid
  rcases nextCompId_cases t with hlt | ⟨hz, -⟩
  · exact not_noParent_lt _ (hlt _ _ hc)
  · rw [hz] at hfree
    rw [hfree] at hroot
    cases hroot

theorem nextCompId_eq_zero {t : ComponentTree} {c : VirtualComponent}
    (h : t.get t.nextCompId = some c) : t.nextCompId = 0 := by
  rcases nextCompId_cases t with hlt | ⟨hz, -⟩
  · exact absurd (hlt _ _ h) (UInt16.lt_irrefl _)
  · exact hz

end Sandstar.ComponentTree
