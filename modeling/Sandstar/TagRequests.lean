import Sandstar.Rekeying
import Sandstar.RowsSession

set_option autoImplicit false

/-!
# Requests that set tags (rest/tags.rs, rest/rows.rs)

`PUT /api/tags/{comp_id}` replaces all tags of a component or merges the given ones into
them; the `setTags` command of a session merges too. A replacement is checked as a whole,
a merge stores one tag after the other until one does not fit.
-/
namespace Sandstar

namespace DynSlotStore

def get (s : DynSlotStore) (compId : UInt16) (key : String) : Option DynValue :=
  (s.slots.get compId).bind fun tags => tags.get key

end DynSlotStore

namespace Rows

structure TagsSet where
  compId : UInt16
  tagCount : ℕ
deriving DecidableEq

def mergeEach (store : DynSlotStore) (compId : UInt16) :
    List (String × DynValue) → DynSlotStore × Except String Unit
  | [] => (store, .ok ())
  | (key, val) :: rest =>
    match store.set compId key val with
    | (store, .error e) => (store, .error e)
    | (store, .ok _) => mergeEach store compId rest

section Requests

variable (p : Platform)

/-- A tag in its tagged form or as plain JSON. -/
def dynValueOf (val : Json) : DynValue := (p.tagged val).getD (jsonToDynvalue p val)

/-- The map of new tags; its order is that of the hash map, not that of the object. -/
def requestTags (fields : List (String × Json)) : Tags :=
  fields.foldl (fun tags (key, val) =>
    if key = "_replace" then tags else tags.insert key (dynValueOf p val)) Table.empty

/-- The entries in the order in which the map is walked. -/
def entriesOf (order : Table.KeyOrder String DynValue) (tags : Tags) : List (String × DynValue) :=
  (order.walk tags).filterMap fun key => (tags.get key).map (key, ·)

/-- `set_tags`; `none` where the count of tags would go below zero. -/
def setTags (order : Table.KeyOrder String DynValue) (store : DynSlotStore) (compId : UInt16)
    (body : Json) : Option (DynSlotStore × Except String TagsSet) :=
  match body.asObject with
  | none => some (store, .error "body must be a JSON object")
  | some fields =>
    let replace := ((body.get "_replace").bind Json.asBool).getD false
    let tags := requestTags p fields
    let stored :=
      if replace then store.setAll compId tags (order.walk tags)
      else some (mergeEach store compId (entriesOf order tags))
    stored.map fun (store, result) => (store, result.map fun _ => ⟨compId, store.tagCount compId⟩)

end Requests

section Merging

variable {s : DynSlotStore} {c : UInt16} {key : String} {value : DynValue}

def room (s : DynSlotStore) (c : UInt16) : ℕ :=
  min (s.maxPerComp - s.tagCount c) (s.maxTotal - s.total)

def SameTags (before after : DynSlotStore) : Prop :=
  (∀ c key, after.get c key = before.get c key) ∧ after.total = before.total

def Writes (s s' : DynSlotStore) (c : UInt16) (key : String) (value : DynValue) : Prop :=
  ∀ c' key', s'.get c' key' = if c' = c ∧ key' = key then some value else s.get c' key'

theorem get_eq (s : DynSlotStore) (c : UInt16) (key : String) :
    s.get c key = ((s.slots.get c).getD Table.empty).get key := by
  unfold DynSlotStore.get
  cases s.slots.get c with
  | none => rfl
  | some tags => rfl

theorem tagCount_eq (s : DynSlotStore) (c : UInt16) :
    s.tagCount c = ((s.slots.get c).getD Table.empty).size := by
  unfold DynSlotStore.tagCount
  cases s.slots.get c with
  | none => rfl
  | some tags => rfl

theorem writes_of_slots {s' : DynSlotStore}
    (h : s'.slots.get c = some (((s.slots.get c).getD Table.empty).insert key value))
    (hframe : ∀ c', c' ≠ c → s'.slots.get c' = s.slots.get c') : Writes s s' c key value := by
  intro c' key'
  by_cases hc : c' = c
  · subst hc
    rw [get_eq s', h, Option.getD_some, Table.get_insert, get_eq s]
    simp
  · rw [if_neg fun hboth => hc hboth.1, get_eq s', hframe c' hc, ← get_eq s]

theorem set_overwrites (h : (s.get c key).isSome) (value : DynValue) :
    ∃ s' prev, s.set c key value = (s', .ok prev) ∧ Writes s s' c key value ∧
      s'.total = s.total ∧ room s' c = room s c := by
  obtain ⟨prev, hprev⟩ := Option.isSome_iff_exists.1 h
  rw [get_eq] at hprev
  unfold DynSlotStore.set
  dsimp only
  rw [hprev]
  refine ⟨_, _, rfl, writes_of_slots ?_ fun c' hc => ?_, rfl, ?_⟩
  · exact Table.get_insert_self _ _ _
  · exact (Table.get_insert_ne _ _ hc).trans (Table.get_insert_ne _ _ hc)
  · unfold room
    rw [tagCount_eq, tagCount_eq]
    change min (_ - (((((s.slots.insert c _).insert c _).get c).getD _).size)) _ = _
    rw [Table.get_insert_self, Option.getD_some, Table.size_insert_present hprev]

theorem set_new (h : s.get c key = none) (hroom : 0 < room s c) (value : DynValue) :
    ∃ s', s.set c key value = (s', .ok none) ∧ Writes s s' c key value ∧
      s'.total = s.total + 1 ∧ room s' c + 1 = room s c := by
  rw [get_eq] at h
  unfold room at hroom
  rw [tagCount_eq] at hroom
  unfold DynSlotStore.set
  dsimp only
  rw [h]
  dsimp only
  rw [if_neg (by omega), if_neg (by omega)]
  refine ⟨_, rfl, writes_of_slots ?_ fun c' hc => ?_, rfl, ?_⟩
  · exact Table.get_insert_self _ _ _
  · exact (Table.get_insert_ne _ _ hc).trans (Table.get_insert_ne _ _ hc)
  · unfold room
    rw [tagCount_eq, tagCount_eq]
    change min (s.maxPerComp - (((((s.slots.insert c _).insert c _).get c).getD _).size))
      (s.maxTotal - (s.total + 1)) + 1 = min (s.maxPerComp - _) (s.maxTotal - s.total)
    rw [Table.get_insert_self, Option.getD_some, Table.size_insert_absent h]
    omega

/-- A new tag that does not fit leaves no trace in the tags. -/
theorem set_refused (h : s.get c key = none) (hroom : room s c = 0) (value : DynValue) :
    ∃ s' e, s.set c key value = (s', .error e) ∧ SameTags s s' := by
  rw [get_eq] at h
  unfold room at hroom
  rw [tagCount_eq] at hroom
  have hsame {s' : DynSlotStore}
      (hslots : s'.slots = s.slots.insert c ((s.slots.get c).getD Table.empty)) (key' : String)
      (c' : UInt16) : s'.get c' key' = s.get c' key' := by
    rw [get_eq s', get_eq s, hslots]
    by_cases hc : c' = c
    · subst hc
      rw [Table.get_insert_self, Option.getD_some]
    · rw [Table.get_insert_ne _ _ hc]
  unfold DynSlotStore.set
  dsimp only
  rw [h]
  dsimp only
  split_ifs with hper htotal
  · exact ⟨_, _, rfl, fun c' key' => hsame rfl key' c', rfl⟩
  · exact ⟨_, _, rfl, fun c' key' => hsame rfl key' c', rfl⟩
  · omega

def countNew (s : DynSlotStore) (c : UInt16) (items : List (String × DynValue)) : ℕ :=
  items.countP fun e => (s.get c e.1).isNone

def leadingKnown (s : DynSlotStore) (c : UInt16) (items : List (String × DynValue)) :
    List (String × DynValue) :=
  items.takeWhile fun e => (s.get c e.1).isSome

/-- The request fits, or what is written before it fails writes nothing else than is there. -/
def MergesWhole (s : DynSlotStore) (c : UInt16) (items : List (String × DynValue)) : Prop :=
  countNew s c items ≤ room s c ∨
    room s c = 0 ∧ ∀ e ∈ leadingKnown s c items, s.get c e.1 = some e.2

variable {s' : DynSlotStore} {items : List (String × DynValue)}

theorem isSome_of_writes (h : Writes s s' c key value) (hpresent : (s.get c key).isSome)
    (key' : String) : (s'.get c key').isSome = (s.get c key').isSome := by
  rw [h c key']
  split_ifs with hsame
  · rw [hsame.2, hpresent]
    rfl
  · rfl

theorem isNone_of_writes (h : Writes s s' c key value) {key' : String} (hne : key' ≠ key) :
    (s'.get c key').isNone = (s.get c key').isNone := by
  rw [h c key', if_neg fun hboth => hne hboth.2]

theorem countNew_of_writes (h : Writes s s' c key value)
    (hkeys : ((key, value) :: items).map Prod.fst |>.Nodup) :
    countNew s' c items = countNew s c items := by
  rw [List.map_cons, List.nodup_cons] at hkeys
  refine List.countP_congr fun e he => ?_
  have hne : e.1 ≠ key := fun heq => hkeys.1 (List.mem_map.2 ⟨e, he, heq⟩)
  rw [isNone_of_writes h hne]

theorem countNew_present (hpresent : (s.get c key).isSome) :
    countNew s c ((key, value) :: items) = countNew s c items :=
  List.countP_cons_of_neg (by
    rw [Option.isNone_iff_eq_none]
    exact Option.isSome_iff_ne_none.1 hpresent)

theorem mergeEach_ok_iff (hkeys : (items.map Prod.fst).Nodup) :
    (mergeEach s c items).2 = .ok () ↔ countNew s c items ≤ room s c := by
  induction items generalizing s with
  | nil => exact iff_of_true rfl (Nat.zero_le _)
  | cons entry items ih =>
    obtain ⟨key, value⟩ := entry
    have htail := (List.nodup_cons.1 hkeys).2
    unfold mergeEach
    by_cases hpresent : (s.get c key).isSome
    · obtain ⟨s', prev, hset, hwrites, -, hroom⟩ := set_overwrites hpresent value
      rw [hset, countNew_present hpresent, ← hroom, ← countNew_of_writes hwrites hkeys]
      exact ih htail
    · have habsent : s.get c key = none := by simpa using hpresent
      have hcount : countNew s c ((key, value) :: items) = countNew s c items + 1 := by
        refine List.countP_cons_of_pos ?_
        simpa using habsent
      obtain hfull | hfits := Nat.eq_zero_or_pos (room s c)
      · obtain ⟨s', e, hset, -⟩ := set_refused habsent hfull value
        rw [hset, hcount]
        exact iff_of_false (fun h => nomatch h) (by omega)
      · obtain ⟨s', hset, hwrites, -, hroom⟩ := set_new habsent hfits value
        rw [hset, hcount, ← hroom, Nat.add_le_add_iff_right, ← countNew_of_writes hwrites hkeys]
        exact ih htail

theorem mergeEach_total_le (items : List (String × DynValue)) :
    s.total ≤ (mergeEach s c items).1.total := by
  induction items generalizing s with
  | nil => exact le_rfl
  | cons entry items ih =>
    obtain ⟨key, value⟩ := entry
    unfold mergeEach
    by_cases hpresent : (s.get c key).isSome
    · obtain ⟨s', prev, hset, -, htotal, -⟩ := set_overwrites hpresent value
      rw [hset, ← htotal]
      exact ih
    · have habsent : s.get c key = none := by simpa using hpresent
      obtain hfull | hfits := Nat.eq_zero_or_pos (room s c)
      · obtain ⟨s', e, hset, hsame⟩ := set_refused habsent hfull value
        rw [hset]
        exact hsame.2.ge
      · obtain ⟨s', hset, -, htotal, -⟩ := set_new habsent hfits value
        have hle : s'.total ≤ (mergeEach s' c items).1.total := ih
        rw [hset]
        change s.total ≤ (mergeEach s' c items).1.total
        omega

/-- With room for a tag the first new one is stored. -/
theorem mergeEach_total_lt (hroom : 0 < room s c) (hnew : 0 < countNew s c items) :
    s.total < (mergeEach s c items).1.total := by
  induction items generalizing s with
  | nil => exact absurd hnew (lt_irrefl 0)
  | cons entry items ih =>
    obtain ⟨key, value⟩ := entry
    unfold mergeEach
    by_cases hpresent : (s.get c key).isSome
    · obtain ⟨s', prev, hset, hwrites, htotal, hsame⟩ := set_overwrites hpresent value
      rw [hset, ← htotal]
      refine ih (hsame ▸ hroom) ?_
      have hcount : countNew s c ((key, value) :: items) = countNew s c items :=
        countNew_present hpresent
      have hcongr : countNew s' c items = countNew s c items := by
        refine List.countP_congr fun e _ => ?_
        have hsome := isSome_of_writes hwrites hpresent e.1
        rw [← Option.not_isSome, ← Option.not_isSome, hsome]
      omega
    · have habsent : s.get c key = none := by simpa using hpresent
      obtain ⟨s', hset, -, htotal, -⟩ := set_new habsent hroom value
      have hle : s'.total ≤ (mergeEach s' c items).1.total := mergeEach_total_le items
      rw [hset]
      change s.total < (mergeEach s' c items).1.total
      omega

/-- What a merge leaves behind where there is no room: the tags in front of the first new one. -/
structure LeavesLeading (s after : DynSlotStore) (c : UInt16)
    (leading : List (String × DynValue)) : Prop where
  written : ∀ e ∈ leading, after.get c e.1 = some e.2
  frame : ∀ c' key, ¬(c' = c ∧ ∃ e ∈ leading, e.1 = key) → after.get c' key = s.get c' key
  total : after.total = s.total

theorem mergeEach_leaves (hkeys : (items.map Prod.fst).Nodup) (hroom : room s c = 0) :
    LeavesLeading s (mergeEach s c items).1 c (leadingKnown s c items) := by
  induction items generalizing s with
  | nil => exact ⟨fun e he => (nomatch he), fun _ _ _ => rfl, rfl⟩
  | cons entry items ih =>
    obtain ⟨key, value⟩ := entry
    have hhead := (List.nodup_cons.1 hkeys).1
    have htail := (List.nodup_cons.1 hkeys).2
    unfold mergeEach
    by_cases hpresent : (s.get c key).isSome
    · obtain ⟨s', prev, hset, hwrites, htotal, hsame⟩ := set_overwrites hpresent value
      have hleading : leadingKnown s c ((key, value) :: items) =
          (key, value) :: leadingKnown s' c items := by
        have hcongr : (fun e : String × DynValue => (s'.get c e.1).isSome) =
            fun e => (s.get c e.1).isSome :=
          funext fun e => isSome_of_writes hwrites hpresent e.1
        have hcons : leadingKnown s c ((key, value) :: items) =
            (key, value) :: leadingKnown s c items := List.takeWhile_cons_of_pos hpresent
        rw [hcons]
        unfold leadingKnown
        rw [hcongr]
      have hrest := ih htail (hsame.trans hroom)
      have hout : ¬∃ e ∈ leadingKnown s' c items, e.1 = key := by
        rintro ⟨e, he, rfl⟩
        exact hhead (List.mem_map.2 ⟨e, (List.takeWhile_sublist _).subset he, rfl⟩)
      rw [hset, hleading]
      refine ⟨fun e he => ?_, fun c' key' hnot => ?_, hrest.total.trans htotal⟩
      · rcases List.mem_cons.1 he with rfl | he
        · rw [hrest.frame c key fun h => hout h.2, hwrites c key, if_pos ⟨rfl, rfl⟩]
        · exact hrest.written e he
      · rw [hrest.frame c' key' fun h => hnot ⟨h.1, ?_⟩, hwrites c' key', if_neg fun h => hnot ⟨h.1, ?_⟩]
        · exact ⟨(key, value), List.mem_cons_self, h.2.symm⟩
        · obtain ⟨e, he, heq⟩ := h.2
          exact ⟨e, List.mem_cons_of_mem _ he, heq⟩
    · have habsent : s.get c key = none := by simpa using hpresent
      obtain ⟨s', e, hset, hsame⟩ := set_refused habsent hroom value
      have hleading : leadingKnown s c ((key, value) :: items) = [] :=
        List.takeWhile_cons_of_neg hpresent
      rw [hset, hleading]
      exact ⟨fun e he => (nomatch he), fun c' key' _ => hsame.1 c' key', hsame.2⟩

theorem mergeEach_whole_iff (hkeys : (items.map Prod.fst).Nodup) :
    ((mergeEach s c items).2 ≠ .ok () → SameTags s (mergeEach s c items).1) ↔
      MergesWhole s c items := by
  unfold MergesWhole
  rw [← mergeEach_ok_iff hkeys]
  by_cases hok : (mergeEach s c items).2 = .ok ()
  · exact iff_of_true (fun hne => absurd hok hne) (.inl hok)
  · have hmore := mt (mergeEach_ok_iff hkeys).2 hok
    obtain hfull | hfits := Nat.eq_zero_or_pos (room s c)
    · have hleaves := mergeEach_leaves hkeys hfull
      constructor
      · intro hsame
        refine .inr ⟨hfull, fun e he => ?_⟩
        rw [← (hsame hok).1 c e.1]
        exact hleaves.written e he
      · rintro (hdone | ⟨-, hrewrites⟩) -
        · exact absurd hdone hok
        · refine ⟨fun c' key => ?_, hleaves.total⟩
          by_cases hwritten : c' = c ∧ ∃ e ∈ leadingKnown s c items, e.1 = key
          · obtain ⟨rfl, e, he, rfl⟩ := hwritten
            rw [hleaves.written e he, hrewrites e he]
          · exact hleaves.frame c' key hwritten
    · have hgrows : s.total < (mergeEach s c items).1.total := mergeEach_total_lt hfits (by omega)
      refine iff_of_false (fun hsame => ?_) ?_
      · exact hgrows.ne' (hsame hok).2
      · rintro (hdone | ⟨hzero, -⟩)
        · exact hok hdone
        · omega

end Merging

section FrontEnds

variable (p : Platform)

theorem setEach_eq (store : DynSlotStore) (c : UInt16) (fields : List (String × Json)) :
    setEach p store c fields = mergeEach store c (fields.map fun f => (f.1, dynValueOf p f.2)) := by
  induction fields generalizing store with
  | nil => rfl
  | cons field fields ih =>
    obtain ⟨key, val⟩ := field
    rw [List.map_cons]
    unfold setEach mergeEach dynValueOf
    rcases store.set c key ((p.tagged val).getD (jsonToDynvalue p val)) with ⟨store', result⟩
    cases result with
    | error e => rfl
    | ok prev => exact ih store'

theorem entriesOf_nodup (order : Table.KeyOrder String DynValue) (tags : Tags) :
    ((entriesOf order tags).map Prod.fst).Nodup := by
  unfold entriesOf
  rw [List.map_filterMap]
  refine List.Nodup.filterMap (fun a a' b ha ha' => ?_) (order.nodup tags)
  simp only [Option.map_map, Option.mem_def, Option.map_eq_some_iff] at ha ha'
  obtain ⟨_, _, heq⟩ := ha
  obtain ⟨_, _, heq'⟩ := ha'
  exact heq.trans heq'.symm

/-- An error answer of `set_tags` leaves the tags and the total as they were. -/
def SetTagsKeeps (order : Table.KeyOrder String DynValue) (store : DynSlotStore) (c : UInt16)
    (body : Json) : Prop :=
  ∀ after e, setTags p order store c body = some (after, .error e) → SameTags store after

/-- The same of the command `setTags`. -/
def HandleSetTagsKeeps (s : RowsState) (c : UInt16) (tags : Json) : Prop :=
  ∀ after code message, handleSetTags p s c tags = (after, .error code message) →
    Option.Rel SameTags s.dynStore after.dynStore

variable {p}

theorem setAll_refused {store after : DynSlotStore} {c : UInt16} {tags : Tags}
    {names : List String} {e : String}
    (h : store.setAll c tags names = some (after, .error e)) : after = store := by
  unfold DynSlotStore.setAll at h
  by_cases hper : store.maxPerComp < tags.size
  · rw [if_pos hper] at h
    cases h
    rfl
  · rw [if_neg hper] at h
    cases hothers : checkedSub store.total (store.tagCount c) with
    | none =>
      rw [hothers] at h
      cases h
    | some others =>
      rw [hothers] at h
      dsimp only at h
      by_cases hmax : store.maxTotal < others + tags.size
      · rw [if_pos hmax] at h
        cases h
        rfl
      · rw [if_neg hmax] at h
        cases h

theorem kept_iff {α : Type} {store : DynSlotStore} (result : DynSlotStore × Except String Unit)
    (f : Unit → α) :
    (∀ after e, (result.1, result.2.map f) = (after, .error e) → SameTags store after) ↔
      (result.2 ≠ .ok () → SameTags store result.1) := by
  obtain ⟨store', result⟩ := result
  cases result with
  | error message =>
    constructor
    · intro h _
      exact h store' message rfl
    · rintro h after e heq
      cases heq
      exact h nofun
  | ok _ => exact iff_of_true (fun after e heq => nomatch heq) (fun hne => absurd rfl hne)

theorem setTagsKeeps_iff (order : Table.KeyOrder String DynValue) (store : DynSlotStore)
    (c : UInt16) (body : Json) :
    SetTagsKeeps p order store c body ↔
      ((body.get "_replace").bind Json.asBool).getD false = true ∨
        ∀ fields, body.asObject = some fields →
          MergesWhole store c (entriesOf order (requestTags p fields)) := by
  unfold SetTagsKeeps setTags
  cases hbody : body.asObject with
  | none =>
    refine iff_of_true (fun after e h => ?_) (.inr fun fields hfields => nomatch hfields)
    cases h
    exact ⟨fun _ _ => rfl, rfl⟩
  | some fields =>
    dsimp only
    cases hreplace : ((body.get "_replace").bind Json.asBool).getD false with
    | true =>
      refine iff_of_true (fun after e h => ?_) (.inl rfl)
      rw [if_pos rfl] at h
      obtain ⟨⟨store', result⟩, hstored, heq⟩ := Option.map_eq_some_iff.1 h
      cases result with
      | error message =>
        cases heq
        rw [setAll_refused hstored]
        exact ⟨fun _ _ => rfl, rfl⟩
      | ok _ => cases heq
    | false =>
      have hwhole := @mergeEach_whole_iff store c _ (entriesOf_nodup order (requestTags p fields))
      rw [← kept_iff (mergeEach store c (entriesOf order (requestTags p fields))) fun _ =>
        (⟨c, (mergeEach store c (entriesOf order (requestTags p fields))).1.tagCount c⟩ : TagsSet)]
        at hwhole
      rw [if_neg Bool.false_ne_true]
      refine Iff.trans ?_ (hwhole.trans ⟨fun h => .inr fun fields' hfields => ?_, fun h => ?_⟩)
      · exact forall₂_congr fun after e => imp_congr_left Option.some_inj
      · cases hfields
        exact h
      · exact h.resolve_left Bool.false_ne_true fields rfl

theorem handleSetTagsKeeps_iff (s : RowsState) (c : UInt16) (tags : Json)
    (hkeys : ∀ fields, tags.asObject = some fields → (fields.map Prod.fst).Nodup) :
    HandleSetTagsKeeps p s c tags ↔
      ∀ store fields, s.dynStore = some store → tags.asObject = some fields →
        MergesWhole store c (fields.map fun f => (f.1, dynValueOf p f.2)) := by
  unfold HandleSetTagsKeeps handleSetTags
  cases hstore : s.dynStore with
  | none =>
    refine iff_of_true (fun after code message h => ?_) fun _ _ hnone => nomatch hnone
    cases h
    rw [hstore]
    exact .none
  | some store =>
    cases hbody : tags.asObject with
    | none =>
      refine iff_of_true (fun after code message h => ?_) fun _ _ _ hnone => nomatch hnone
      cases h
      rw [hstore]
      exact .some ⟨fun _ _ => rfl, rfl⟩
    | some fields =>
      have hnodup : ((fields.map fun f => (f.1, dynValueOf p f.2)).map Prod.fst).Nodup := by
        rw [List.map_map]
        exact hkeys fields hbody
      have hwhole := @mergeEach_whole_iff store c _ hnodup
      rw [← setEach_eq] at hwhole
      refine Iff.trans ?_ (hwhole.trans ⟨fun h store' fields' heq heq' => ?_, fun h =>
        h store fields rfl rfl⟩)
      · dsimp only
        rcases setEach p store c fields with ⟨store', result⟩
        cases result with
        | error e =>
          constructor
          · intro h _
            have hrel := h _ _ _ rfl
            cases hrel with
            | some hsame => exact hsame
          · rintro h after code message heq
            cases heq
            exact .some (h nofun)
        | ok _ => exact iff_of_true (fun _ _ _ heq => nomatch heq) (fun hne => absurd rfl hne)
      · cases heq
        cases heq'
        exact h

/-- An error answer leaves every tag and the total as they were exactly if the body is no
    object or replaces all tags, or else the tags, in the order in which they are stored, fit
    or write nothing before the first that does not. -/
theorem setTags_whole_iff (p : Platform) (order : Table.KeyOrder String DynValue)
    (store : DynSlotStore) (s : RowsState) (c : UInt16) (body : Json)
    (hkeys : ∀ fields, body.asObject = some fields → (fields.map Prod.fst).Nodup) :
    (SetTagsKeeps p order store c body ↔
      ((body.get "_replace").bind Json.asBool).getD false = true ∨
        ∀ fields, body.asObject = some fields →
          MergesWhole store c (entriesOf order (requestTags p fields))) ∧
      (HandleSetTagsKeeps p s c body ↔
        ∀ store fields, s.dynStore = some store → body.asObject = some fields →
          MergesWhole store c (fields.map fun f => (f.1, dynValueOf p f.2))) :=
  ⟨setTagsKeeps_iff order store c body, handleSetTagsKeeps_iff s c body hkeys⟩

def twoTags : Json := .obj [("dis", .scalar (.str "AHU-1")), ("point", .scalar (.bool true))]

def plainTags : Platform := ⟨64, id, fun _ => 0, fun _ => 0, fun _ => none, fun _ => ""⟩

theorem twoTags_fit :
    HandleSetTagsKeeps plainTags ⟨ComponentTree.new, some (.new 2 2)⟩ 7 twoTags := by
  refine (setTags_whole_iff plainTags (.ascending String DynValue) (.new 2 2)
    ⟨ComponentTree.new, some (.new 2 2)⟩ 7 twoTags fun fields hfields => ?_).2.2
    fun store fields hstore hfields => ?_
  · cases hfields
    decide
  · cases hstore
    cases hfields
    exact .inl (by decide)

/-- With room for one tag the first of two is stored and the request is refused. -/
theorem twoTags_half_stored :
    ¬HandleSetTagsKeeps plainTags ⟨ComponentTree.new, some (.new 1 10)⟩ 7 twoTags := by
  intro h
  have hrel := h _ _ _ rfl
  cases hrel with
  | some hsame => exact absurd hsame.2 (by decide)

end FrontEnds

end Rows

end Sandstar
