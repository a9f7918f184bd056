import Sandstar.DynSlots

set_option autoImplicit false

namespace Sandstar.TagNameInterner

def resolve (t : TagNameInterner) (id : UInt16) : Option String := t.names[id.toNat]?

structure Indexed (t : TagNameInterner) : Prop where
  nodup : t.names.Nodup
  lookup_eq : ∀ name, t.lookup.get name =
    if name ∈ t.names then some (UInt16.ofNat (t.names.idxOf name)) else none

/-- The interner after a history of names, with the tag names it is built with. -/
def after (names : List String) : TagNameInterner := internAll new names

def internedId (before : List String) (name : String) : UInt16 := ((after before).intern name).2

/-- Each id resolves to its name at every later time, and equal ids are of equal names. -/
structure Stable (history : List String) : Prop where
  resolves : ∀ before name between later, history = before ++ name :: (between ++ later) →
    (after (before ++ name :: between)).resolve (internedId before name) = some name
  distinct : ∀ before name rest before' name' rest', history = before ++ name :: rest →
    history = before' ++ name' :: rest' →
    internedId before name = internedId before' name' → name = name'

theorem intern_of_mem {t : TagNameInterner} (h : Indexed t) {name : String}
    (hmem : name ∈ t.names) :
    t.intern name = (t, UInt16.ofNat (t.names.idxOf name)) := by
  unfold intern
  rw [h.lookup_eq, if_pos hmem]

theorem intern_of_notMem {t : TagNameInterner} (h : Indexed t) {name : String}
    (hmem : name ∉ t.names) :
    t.intern name =
      (⟨t.names ++ [name], t.lookup.insert name (UInt16.ofNat t.names.length)⟩,
        UInt16.ofNat t.names.length) := by
  unfold intern
  rw [h.lookup_eq, if_neg hmem]

theorem indexed_intern {t : TagNameInterner} (h : Indexed t) (name : String) :
    Indexed (t.intern name).1 := by
  by_cases hmem : name ∈ t.names
  · rw [intern_of_mem h hmem]
    exact h
  · rw [intern_of_notMem h hmem]
    constructor
    · exact List.nodup_append_comm.1 (List.nodup_cons.2 ⟨hmem, h.nodup⟩)
    · intro other
      dsimp only
      rw [Table.get_insert]
      by_cases heq : other = name
      · rw [if_pos heq, heq, if_pos (by simp), List.idxOf_append_of_notMem hmem]
        simp
      · rw [if_neg heq, h.lookup_eq]
        by_cases hother : other ∈ t.names
        · rw [if_pos hother, if_pos (List.mem_append_left _ hother),
            List.idxOf_append_of_mem hother]
        · rw [if_neg hother, if_neg (by simp [hother, heq])]

/-- A name is at the place of its id, unless sixteen bits cut it. -/
theorem intern_id {t : TagNameInterner} (h : Indexed t) (name : String) :
    (t.intern name).2 = UInt16.ofNat ((t.intern name).1.names.idxOf name) := by
  by_cases hmem : name ∈ t.names
  · rw [intern_of_mem h hmem]
  · rw [intern_of_notMem h hmem]
    dsimp only
    rw [List.idxOf_append_of_notMem hmem]
    simp

theorem mem_intern {t : TagNameInterner} (h : Indexed t) (name other : String) :
    other ∈ (t.intern name).1.names ↔ other ∈ t.names ∨ other = name := by
  by_cases hmem : name ∈ t.names
  · rw [intern_of_mem h hmem]
    constructor
    · exact Or.inl
    · rintro (hother | rfl)
      · exact hother
      · exact hmem
  · rw [intern_of_notMem h hmem]
    simp

theorem names_prefix_intern {t : TagNameInterner} (h : Indexed t) (name : String) :
    t.names <+: (t.intern name).1.names := by
  by_cases hmem : name ∈ t.names
  · rw [intern_of_mem h hmem]
  · rw [intern_of_notMem h hmem]
    exact List.prefix_append _ _

theorem internAll_append (t : TagNameInterner) (xs ys : List String) :
    t.internAll (xs ++ ys) = (t.internAll xs).internAll ys := by
  unfold internAll
  exact List.foldl_append

theorem indexed_internAll {t : TagNameInterner} (h : Indexed t) (names : List String) :
    Indexed (t.internAll names) := by
  induction names generalizing t with
  | nil => exact h
  | cons name names ih => exact ih (indexed_intern h name)

theorem mem_internAll {t : TagNameInterner} (h : Indexed t) (names : List String)
    (other : String) : other ∈ (t.internAll names).names ↔ other ∈ t.names ∨ other ∈ names := by
  induction names generalizing t with
  | nil => simp [internAll]
  | cons name names ih =>
    have hstep := ih (indexed_intern h name)
    rw [mem_intern h] at hstep
    rw [List.mem_cons, ← or_assoc]
    exact hstep

theorem names_prefix_internAll {t : TagNameInterner} (h : Indexed t) (names : List String) :
    t.names <+: (t.internAll names).names := by
  induction names generalizing t with
  | nil => exact List.prefix_rfl
  | cons name names ih =>
    exact (names_prefix_intern h name).trans (ih (indexed_intern h name))

theorem indexed_empty : Indexed ⟨[], Table.empty⟩ where
  nodup := List.nodup_nil
  lookup_eq _ := rfl

theorem indexed_new : Indexed new := indexed_internAll indexed_empty commonTagNames

theorem mem_new (other : String) : other ∈ new.names ↔ other ∈ commonTagNames := by
  unfold new
  rw [mem_internAll indexed_empty]
  simp

theorem indexed_after (names : List String) : Indexed (after names) :=
  indexed_internAll indexed_new names

theorem mem_after (names : List String) (other : String) :
    other ∈ (after names).names ↔ other ∈ commonTagNames ++ names := by
  unfold after
  rw [mem_internAll indexed_new, List.mem_append, mem_new]

theorem after_append (xs ys : List String) : after (xs ++ ys) = (after xs).internAll ys :=
  internAll_append new xs ys

theorem length_after (names : List String) :
    (after names).names.length = (commonTagNames ++ names).toFinset.card := by
  have hset : (after names).names.toFinset = (commonTagNames ++ names).toFinset := by
    ext other
    rw [List.mem_toFinset, List.mem_toFinset, mem_after]
  rw [← hset]
  exact (List.toFinset_card_of_nodup (indexed_after names).nodup).symm

theorem internedId_eq (before : List String) (name : String) (between : List String) :
    internedId before name =
      UInt16.ofNat ((after (before ++ name :: between)).names.idxOf name) := by
  have hmem : name ∈ ((after before).intern name).1.names := by
    rw [mem_intern (indexed_after before)]
    exact .inr rfl
  have hafter : after (before ++ name :: between) =
      ((after before).intern name).1.internAll between := after_append before (name :: between)
  obtain ⟨more, hmore⟩ :=
    names_prefix_internAll (indexed_intern (indexed_after before) name) between
  unfold internedId
  rw [intern_id (indexed_after before), hafter, ← hmore, List.idxOf_append_of_mem hmem]

theorem mem_after_of_split {history before rest : List String} {name : String}
    (h : history = before ++ name :: rest) : name ∈ (after history).names := by
  rw [mem_after, h]
  simp

theorem length_after_le (xs ys : List String) :
    (after xs).names.length ≤ (after (xs ++ ys)).names.length := by
  rw [after_append]
  exact (names_prefix_internAll (indexed_after xs) ys).length_le

theorem stable_of_few {history : List String}
    (hfew : (commonTagNames ++ history).toFinset.card ≤ 2 ^ 16) : Stable history := by
  rw [← length_after] at hfew
  constructor
  · intro before name between later hsplit
    have hmem : name ∈ (after (before ++ name :: between)).names := mem_after_of_split rfl
    have hplace : (after (before ++ name :: between)).names.idxOf name < 2 ^ 16 := by
      have hlt := List.idxOf_lt_length_of_mem hmem
      have hle := length_after_le (before ++ name :: between) later
      rw [List.append_assoc, List.cons_append, ← hsplit] at hle
      omega
    rw [internedId_eq before name between]
    unfold resolve
    rw [UInt16.toNat_ofNat_of_lt' hplace]
    exact List.getElem?_idxOf hmem
  · intro before name rest before' name' rest' hsplit hsplit' hid
    have hmem := mem_after_of_split hsplit
    have hlt := (List.idxOf_lt_length_of_mem hmem).trans_le hfew
    have hlt' := (List.idxOf_lt_length_of_mem (mem_after_of_split hsplit')).trans_le hfew
    rw [internedId_eq before name rest, internedId_eq before' name' rest', ← hsplit, ← hsplit']
      at hid
    have hplaces := congrArg UInt16.toNat hid
    rw [UInt16.toNat_ofNat_of_lt' hlt, UInt16.toNat_ofNat_of_lt' hlt'] at hplaces
    exact (List.idxOf_inj hmem).1 hplaces

/-- The first name that finds all ids taken. -/
theorem exists_overflow (history : List String)
    (hmany : 2 ^ 16 < (after history).names.length) :
    ∃ before name rest, history = before ++ name :: rest ∧
      (after before).names.length = 2 ^ 16 ∧ name ∉ (after before).names := by
  induction history using List.reverseRecOn with
  | nil =>
    have hcard := length_after []
    rw [List.append_nil] at hcard
    have hle := List.toFinset_card_le commonTagNames
    rw [hcard] at hmany
    have hcommon : commonTagNames.length = 28 := rfl
    omega
  | append_singleton names name ih =>
    by_cases hnames : 2 ^ 16 < (after names).names.length
    · obtain ⟨before, first, rest, hsplit, hfull, hnew⟩ := ih hnames
      exact ⟨before, first, rest ++ [name], by rw [hsplit]; simp, hfull, hnew⟩
    · have hstep : after (names ++ [name]) = ((after names).intern name).1 :=
        after_append names [name]
      rw [hstep] at hmany
      by_cases hmem : name ∈ (after names).names
      · rw [intern_of_mem (indexed_after names) hmem] at hmany
        exact absurd hmany hnames
      · rw [intern_of_notMem (indexed_after names) hmem, List.length_append] at hmany
        have hlen : (after names).names.length = 2 ^ 16 := by
          rw [List.length_singleton] at hmany
          omega
        exact ⟨names, name, [], rfl, hlen, hmem⟩

/-- That name gets the id of the first name of all. -/
theorem not_stable_of_many {history : List String}
    (hmany : 2 ^ 16 < (commonTagNames ++ history).toFinset.card) : ¬ Stable history := by
  rw [← length_after] at hmany
  obtain ⟨before, name, rest, hsplit, hfull, hnew⟩ := exists_overflow history hmany
  intro hstable
  have hresolve := hstable.resolves before name [] rest hsplit
  have hafter : after (before ++ [name]) = ((after before).intern name).1 :=
    after_append before [name]
  have hid : internedId before name = 0 := by
    unfold internedId
    rw [intern_of_notMem (indexed_after before) hnew]
    dsimp only
    rw [hfull]
    rfl
  rw [hid, hafter, intern_of_notMem (indexed_after before) hnew] at hresolve
  unfold resolve at hresolve
  dsimp only at hresolve
  have hfirst : (0 : UInt16).toNat < (after before).names.length := by
    rw [hfull]
    decide
  rw [List.getElem?_append_left hfirst] at hresolve
  exact hnew (List.mem_of_getElem? hresolve)

/-- The ids are names for good exactly while the different names, the common ones
    included, fit in sixteen bits. -/
theorem stable_iff (history : List String) :
    Stable history ↔ (commonTagNames ++ history).toFinset.card ≤ 2 ^ 16 := by
  constructor
  · intro hstable
    by_contra hmany
    exact not_stable_of_many (by omega) hstable
  · exact stable_of_few

/-- One name more than there are ids, each of its own length. -/
theorem not_stable_names_by_length :
    ¬ Stable ((List.range (2 ^ 16 + 1)).map fun i => String.ofList (List.replicate i 'a')) := by
  apply not_stable_of_many
  have hinj : Function.Injective fun i : ℕ => String.ofList (List.replicate i 'a') := by
    intro i j hij
    have hlists := congrArg List.length (String.ofList_injective hij)
    rw [List.length_replicate, List.length_replicate] at hlists
    exact hlists
  have hcard : ((List.range (2 ^ 16 + 1)).map
      fun i => String.ofList (List.replicate i 'a')).toFinset.card = 2 ^ 16 + 1 := by
    rw [List.toFinset_card_of_nodup (List.nodup_range.map hinj), List.length_map,
      List.length_range]
  rw [List.toFinset_append]
  calc 2 ^ 16 < _ := by rw [hcard]; exact Nat.lt_succ_self _
    _ ≤ _ := Finset.card_le_card Finset.subset_union_right

end Sandstar.TagNameInterner
