import Sandstar.Mealy
import Sandstar.Table

set_option autoImplicit false

/-!
# The name intern table (sox/name_intern.rs)

Threads that share the table, one step for every lock that is taken or dropped. What a call
answers is written down in the order in which the calls take effect.
-/
namespace Sandstar.NameIntern

section Locks

variable {T V : Type}

structure RwLock (T V : Type) where
  value : V
  writer : Option T
  poisoned : Bool

namespace RwLock

/-- `read`: nothing while a writer holds the lock, and no value where the `unwrap` panics. -/
def read (l : RwLock T V) : Option (Option V) :=
  if l.writer.isSome then none else some (if l.poisoned then none else some l.value)

/-- `write`, in the same way. -/
def write (l : RwLock T V) (t : T) : Option (Option (RwLock T V)) :=
  if l.writer.isSome then none
  else some (if l.poisoned then none else some { l with writer := some t })

def release (l : RwLock T V) : RwLock T V := { l with writer := none }

/-- The guard is dropped by a panic. -/
def poison (l : RwLock T V) : RwLock T V := { l with writer := none, poisoned := true }

variable {l : RwLock T V}

theorem read_eq_some {value : Option V} :
    l.read = some value ↔ l.writer = none ∧ value = if l.poisoned then none else some l.value := by
  unfold read
  cases l.writer with
  | none => exact ⟨fun h => ⟨rfl, (Option.some.inj h).symm⟩, fun h => congrArg some h.2.symm⟩
  | some u => exact iff_of_false nofun fun h => Option.some_ne_none u h.1

theorem write_eq_some {t : T} {r : Option (RwLock T V)} :
    l.write t = some r ↔ l.writer = none ∧
      r = if l.poisoned then none else some { l with writer := some t } := by
  unfold write
  cases l.writer with
  | none => exact ⟨fun h => ⟨rfl, (Option.some.inj h).symm⟩, fun h => congrArg some h.2.symm⟩
  | some u => exact iff_of_false nofun fun h => Option.some_ne_none u h.1

end RwLock

end Locks

inductive Op
  | intern (name : String)
  | resolve (id : UInt16)
  | contains (name : String)
  | getId (name : String)
  | len
deriving DecidableEq

inductive Result
  | id (id : UInt16)
  | text (name : String)
  | found (b : Bool)
  | lookedUp (id : Option UInt16)
  | count (n : ℕ)
  | panicked
deriving DecidableEq

inductive Phase
  | idle
  | missed (name : String)
  | holdsNames (name : String)
  | holdsBoth (name : String)
  | leaving (panicked : Bool)
deriving DecidableEq

structure World (T : Type) where
  names : RwLock T (List String)
  lookup : RwLock T (Table String UInt16)
  phase : T → Phase
  calls : List (Op × Result)

inductive Action (T : Type)
  | call (t : T) (op : Op)
  | proceed (t : T)

namespace World

variable {T : Type}

/-- `NameInternTable::new`. -/
def new : World T := ⟨⟨[""], none, false⟩, ⟨Table.empty, none, false⟩, fun _ => .idle, []⟩

def answer (w : World T) (op : Op) (r : Result) : World T := { w with calls := w.calls ++ [(op, r)] }

def tell {V : Type} (w : World T) (op : Op) (l : RwLock T V) (f : V → Result) : Option (World T) :=
  l.read.map fun value => w.answer op (value.elim .panicked f)

variable [DecidableEq T]

def enter (w : World T) (t : T) (p : Phase) : World T :=
  { w with phase := Function.update w.phase t p }

def call (w : World T) (t : T) (op : Op) : Option (World T) :=
  match op with
  -- the fast path of `intern`
  | .intern name => w.lookup.read.map fun lookup => match lookup with
    | none => w.answer op .panicked
    | some lookup => match lookup.get name with
      | some id => w.answer op (.id id)
      | none => w.enter t (.missed name)
  | .resolve id => w.tell op w.names fun names => .text ((names[id.toNat]?).getD "")
  | .contains name => w.tell op w.lookup fun lookup => .found (lookup.get name).isSome
  | .getId name => w.tell op w.lookup fun lookup => .lookedUp (lookup.get name)
  | .len => w.tell op w.names fun names => .count (names.length - 1)

/-- The slow path of `intern`, one lock at a time. -/
def proceed (w : World T) (t : T) : Option (World T) :=
  match w.phase t with
  | .idle => none
  | .missed name => (w.names.write t).map fun names => match names with
    | none => (w.answer (.intern name) .panicked).enter t .idle
    | some names => { w with names := names }.enter t (.holdsNames name)
  | .holdsNames name => (w.lookup.write t).map fun lookup => match lookup with
    | none => ({ w with names := w.names.poison }.answer (.intern name) .panicked).enter t .idle
    | some lookup => { w with lookup := lookup }.enter t (.holdsBoth name)
  | .holdsBoth name => match w.lookup.value.get name with
    | some id => some
        (({ w with lookup := w.lookup.release }.answer (.intern name) (.id id)).enter t
          (.leaving false))
    | none =>
      let id := UInt16.ofNat w.names.value.length
      if id < 65535 then
        let names := { w.names with value := w.names.value ++ [name] }
        let lookup := { w.lookup with value := w.lookup.value.insert name id }
        some (({ w with names := names, lookup := lookup.release }.answer (.intern name)
          (.id id)).enter t (.leaving false))
      else some (({ w with lookup := w.lookup.poison }.answer (.intern name) .panicked).enter t
        (.leaving true))
  | .leaving panicked => some
      ({ w with names := if panicked then w.names.poison else w.names.release }.enter t .idle)

/-- One step of one thread; nothing where the thread has to wait or is elsewhere. -/
def step (w : World T) : Action T → Option (World T)
  | .call t op => if w.phase t = .idle then w.call t op else none
  | .proceed t => w.proceed t

end World

/-- The names in the order in which they came. A dead table only panics. -/
structure Interned where
  names : List String
  dead : Bool
deriving DecidableEq

namespace Interned

def empty : Interned := ⟨[], false⟩

def idOf (s : Interned) (name : String) : Option UInt16 :=
  if name ∈ s.names then some (UInt16.ofNat (s.names.idxOf name + 1)) else none

def nameOf (s : Interned) (id : UInt16) : String :=
  if id = 0 then "" else (s.names[id.toNat - 1]?).getD ""

def intern (s : Interned) (name : String) : Interned × Result :=
  match s.idOf name with
  | some id => (s, .id id)
  | none =>
    if s.names.length < 65534 then
      ({ s with names := s.names ++ [name] }, .id (UInt16.ofNat (s.names.length + 1)))
    else ({ s with dead := true }, .panicked)

def handle (s : Interned) : Op → Interned × Result
  | .intern name => s.intern name
  | .resolve id => (s, .text (s.nameOf id))
  | .contains name => (s, .found (name ∈ s.names))
  | .getId name => (s, .lookedUp (s.idOf name))
  | .len => (s, .count s.names.length)

def step (s : Interned) (op : Op) : Interned × Result :=
  if s.dead then (s, .panicked) else s.handle op

structure Ok (s : Interned) : Prop where
  nodup : s.names.Nodup
  fits : s.names.length ≤ 65534

end Interned

namespace Interned

variable {s : Interned} {a b name : String} {id : UInt16} {op : Op}

theorem toNat_ofNat_succ {n : ℕ} (h : n < 65535) : (UInt16.ofNat (n + 1)).toNat = n + 1 := by
  rw [UInt16.toNat_ofNat']
  omega

theorem idOf_eq_some (hs : s.Ok) :
    s.idOf name = some id ↔ id ≠ 0 ∧ s.names[id.toNat - 1]? = some name := by
  unfold idOf
  split_ifs with hmem
  · have hlt := List.idxOf_lt_length_of_mem hmem
    have hget : s.names[s.names.idxOf name]? = some name := List.getElem?_idxOf hmem
    have hnat := toNat_ofNat_succ (hlt.trans_le (hs.fits.trans (by decide)))
    rw [Option.some.injEq]
    constructor
    · rintro rfl
      refine ⟨fun hzero => ?_, by rw [hnat]; exact hget⟩
      rw [hzero] at hnat
      exact absurd hnat (Nat.succ_ne_zero _).symm
    · rintro ⟨hne, hid⟩
      have hpos : id.toNat ≠ 0 := fun h => hne (UInt16.toNat_inj.1 h)
      have hidx : id.toNat - 1 = s.names.idxOf name :=
        (List.getElem?_inj (List.getElem?_eq_some_iff.1 hid).1 hs.nodup).1 (hid.trans hget.symm)
      refine UInt16.toNat_inj.1 ?_
      rw [hnat]
      omega
  · refine iff_of_false nofun fun h => hmem ?_
    exact List.mem_of_getElem? h.2

theorem idOf_inj (hs : s.Ok) (ha : s.idOf a = some id) (hb : s.idOf b = some id) : a = b :=
  Option.some.inj (((idOf_eq_some hs).1 ha).2.symm.trans ((idOf_eq_some hs).1 hb).2)

theorem nameOf_of_idOf (hs : s.Ok) (h : s.idOf name = some id) : s.nameOf id = name := by
  obtain ⟨hne, hget⟩ := (idOf_eq_some hs).1 h
  rw [nameOf, if_neg hne, hget, Option.getD_some]

theorem nameOf_eq (s : Interned) (id : UInt16) : (("" :: s.names)[id.toNat]?).getD "" = s.nameOf id := by
  unfold nameOf
  by_cases hid : id = 0
  · subst hid
    rfl
  · have hpos : id.toNat ≠ 0 := fun h => hid (UInt16.toNat_inj.1 h)
    rw [if_neg hid, List.getElem?_cons, if_neg hpos]

theorem idOf_isSome_eq : (s.idOf name).isSome = decide (name ∈ s.names) := by
  unfold idOf
  split_ifs with h <;> simp [h]

theorem idOf_isSome : (s.idOf name).isSome ↔ name ∈ s.names := by
  rw [idOf_isSome_eq, decide_eq_true_iff]

theorem idOf_eq_none : s.idOf name = none ↔ name ∉ s.names := by
  rw [← idOf_isSome, Option.not_isSome_iff_eq_none]

theorem idOf_concat (hnew : name ∉ s.names) (n : String) :
    Interned.idOf ⟨s.names ++ [name], s.dead⟩ n =
      if n = name then some (UInt16.ofNat (s.names.length + 1)) else s.idOf n := by
  unfold idOf
  by_cases hn : n = name
  · subst hn
    simp [List.idxOf_append, hnew]
  · by_cases hmem : n ∈ s.names
    · simp [hn, hmem, List.idxOf_append]
    · simp [hn, hmem]

theorem step_dead (h : s.dead = true) (op : Op) : s.step op = (s, .panicked) := if_pos h

theorem step_alive (h : s.dead = false) (op : Op) : s.step op = s.handle op := by
  rw [step, h]
  rfl

theorem intern_known (h : s.idOf name = some id) : s.intern name = (s, .id id) := by
  rw [intern, h]

theorem intern_new (h : s.idOf name = none) (hroom : s.names.length < 65534) :
    s.intern name = (⟨s.names ++ [name], s.dead⟩, .id (UInt16.ofNat (s.names.length + 1))) := by
  rw [intern, h]
  exact if_pos hroom

theorem intern_full (h : s.idOf name = none) (hfull : ¬s.names.length < 65534) :
    s.intern name = (⟨s.names, true⟩, .panicked) := by
  rw [intern, h]
  exact if_neg hfull

theorem step_cases (s : Interned) (op : Op) : (s.step op).1 = s ∨ (s.step op).1 = ⟨s.names, true⟩ ∨
    ∃ name, s.idOf name = none ∧ s.names.length < 65534 ∧
      (s.step op).1 = ⟨s.names ++ [name], s.dead⟩ := by
  cases hdead : s.dead with
  | true => exact .inl (by rw [step_dead hdead])
  | false =>
    rw [step_alive hdead]
    cases op with
    | intern name =>
      rw [handle]
      cases hid : s.idOf name with
      | some id => exact .inl (by rw [intern_known hid])
      | none =>
        by_cases hroom : s.names.length < 65534
        · exact .inr (.inr ⟨name, hid, hroom, by rw [intern_new hid hroom, hdead]⟩)
        · exact .inr (.inl (by rw [intern_full hid hroom]))
    | _ => exact .inl rfl

theorem step_ok (hs : s.Ok) (op : Op) : (s.step op).1.Ok := by
  obtain heq | heq | ⟨name, hid, hroom, heq⟩ := step_cases s op
  · rw [heq]
    exact hs
  · rw [heq]
    exact ⟨hs.nodup, hs.fits⟩
  · rw [heq]
    have hnew := idOf_eq_none.1 hid
    refine ⟨List.nodup_append.2 ⟨hs.nodup, List.nodup_singleton _, ?_⟩, ?_⟩
    · rintro a ha b hb rfl
      exact hnew (List.mem_singleton.1 hb ▸ ha)
    · rw [List.length_append, List.length_singleton]
      exact hroom

theorem step_idOf (h : s.idOf name = some id) (op : Op) : (s.step op).1.idOf name = some id := by
  obtain heq | heq | ⟨other, hid, -, heq⟩ := step_cases s op
  · rw [heq]
    exact h
  · rw [heq]
    exact h
  · have hne : name ≠ other := by
      rintro rfl
      exact Option.some_ne_none id (h.symm.trans hid)
    rw [heq, idOf_concat (idOf_eq_none.1 hid), if_neg hne]
    exact h

/-- The id that `intern` answers is the one the name has from then on. -/
theorem step_intern (h : (s.step (.intern name)).2 = .id id) :
    (s.step (.intern name)).1.idOf name = some id := by
  cases hdead : s.dead with
  | true =>
    rw [step_dead hdead] at h
    cases h
  | false =>
    rw [step_alive hdead] at h ⊢
    rw [handle] at h ⊢
    cases hid : s.idOf name with
    | some old =>
      rw [intern_known hid] at h ⊢
      rw [← Result.id.inj h]
      exact hid
    | none =>
      by_cases hroom : s.names.length < 65534
      · rw [intern_new hid hroom] at h ⊢
        rw [← Result.id.inj h, idOf_concat (idOf_eq_none.1 hid), if_pos rfl]
      · rw [intern_full hid hroom] at h
        cases h

theorem after_ok (hs : s.Ok) (ops : List Op) : (Mealy.after step s ops).Ok := by
  induction ops generalizing s with
  | nil => exact hs
  | cons op ops ih => exact ih (step_ok hs op)

theorem after_idOf (h : s.idOf name = some id) (ops : List Op) :
    (Mealy.after step s ops).idOf name = some id := by
  induction ops generalizing s with
  | nil => exact h
  | cons op ops ih => exact ih (step_idOf h op)

/-- After a run whose answers gave a name an id, the table has it. -/
theorem idOf_of_answered {log : List (Op × Result)} (hlog : Mealy.Explains step s log)
    (h : (.intern name, .id id) ∈ log) :
    (Mealy.after step s (log.map Prod.fst)).idOf name = some id := by
  obtain ⟨before, later, rfl⟩ := List.append_of_mem h
  obtain ⟨-, hanswer, -⟩ := (Mealy.explains_split step).1 hlog
  rw [List.map_append, List.map_cons, Mealy.after_append]
  exact after_idOf (step_intern hanswer.symm) _

end Interned

def Phase.deadness : Phase → Option Bool
  | .idle | .missed _ => none
  | .holdsNames _ | .holdsBoth _ => some false
  | .leaving panicked => some panicked

def Phase.holdsLookup : Phase → Bool
  | .holdsBoth _ => true
  | _ => false

section Interleavings

variable {T : Type}

structure Agrees (w : World T) (s : Interned) : Prop where
  ok : s.Ok
  names : w.names.value = "" :: s.names
  lookup : ∀ name, w.lookup.value.get name = s.idOf name
  lookup_poisoned : w.lookup.poisoned = s.dead
  names_poisoned : w.names.poisoned = true → s.dead = true
  dead : s.dead = true → w.names.writer = none → w.names.poisoned = true
  names_writer : ∀ t, w.names.writer = some t ↔ (w.phase t).deadness.isSome
  lookup_writer : ∀ t, w.lookup.writer = some t ↔ (w.phase t).holdsLookup
  phases : ∀ t b, (w.phase t).deadness = some b → s.dead = b

theorem agrees_new : Agrees (.new : World T) .empty where
  ok := ⟨List.nodup_nil, Nat.zero_le _⟩
  names := rfl
  lookup _ := rfl
  lookup_poisoned := rfl
  names_poisoned h := h
  dead h := by cases h
  names_writer _ := by simp [World.new, Phase.deadness]
  lookup_writer _ := by simp [World.new, Phase.holdsLookup]
  phases _ _ h := by cases h

variable {w w' : World T} {s s' : Interned} {t : T} {op : Op} {p : Phase}

theorem Agrees.writer_of_lookup (h : Agrees w s) {u : T} (hu : w.lookup.writer = some u) :
    w.names.writer = some u := by
  rw [h.lookup_writer] at hu
  rw [h.names_writer]
  cases hphase : w.phase u <;> simp_all [Phase.holdsLookup, Phase.deadness]

theorem Agrees.poisoned_iff (h : Agrees w s) (hfree : w.names.writer = none) :
    w.names.poisoned = s.dead := by
  cases hdead : s.dead with
  | true => exact h.dead hdead hfree
  | false =>
    rw [← Bool.not_eq_true]
    intro hpoisoned
    rw [h.names_poisoned hpoisoned] at hdead
    cases hdead

theorem Agrees.answer (h : Agrees w s) (op : Op) (r : Result) : Agrees (w.answer op r) s :=
  ⟨h.ok, h.names, h.lookup, h.lookup_poisoned, h.names_poisoned, h.dead, h.names_writer,
    h.lookup_writer, h.phases⟩

variable [DecidableEq T]

/-- One thread changes what it holds, the others have nothing but may wait. -/
theorem Agrees.move (h : Agrees w s) {names : RwLock T (List String)}
    {lookup : RwLock T (Table String UInt16)} (calls : List (Op × Result))
    (hmine : w.names.writer = none ∨ w.names.writer = some t)
    (hwriter : names.writer = if p.deadness.isSome then some t else none)
    (hlookupWriter : lookup.writer = if p.holdsLookup then some t else none)
    (hok : s'.Ok) (hnames : names.value = "" :: s'.names)
    (hlookup : ∀ name, lookup.value.get name = s'.idOf name)
    (hpoisoned : lookup.poisoned = s'.dead) (hnamesPoisoned : names.poisoned = true → s'.dead = true)
    (hdead : s'.dead = true → names.writer = none → names.poisoned = true)
    (hphase : ∀ b, p.deadness = some b → s'.dead = b) :
    Agrees (World.enter ⟨names, lookup, w.phase, calls⟩ t p) s' := by
  have hothers : ∀ u, u ≠ t → w.names.writer ≠ some u := by
    rintro u hne hu
    rcases hmine with hfree | hheld
    · exact Option.some_ne_none u (hu.symm.trans hfree)
    · exact hne (Option.some.inj (hu.symm.trans hheld))
  refine ⟨hok, hnames, hlookup, hpoisoned, hnamesPoisoned, hdead, fun u => ?_, fun u => ?_, ?_⟩
  · change names.writer = some u ↔ ((Function.update w.phase t p u).deadness.isSome : Prop)
    rw [hwriter]
    by_cases hu : u = t
    · subst hu
      rw [Function.update_self]
      split_ifs with hsome <;> simp [hsome]
    · rw [Function.update_of_ne hu, ← h.names_writer]
      refine iff_of_false ?_ (hothers u hu)
      split_ifs
      · exact fun heq => hu (Option.some.inj heq).symm
      · exact nofun
  · change lookup.writer = some u ↔ ((Function.update w.phase t p u).holdsLookup : Prop)
    rw [hlookupWriter]
    by_cases hu : u = t
    · subst hu
      rw [Function.update_self]
      split_ifs with hsome <;> simp [hsome]
    · rw [Function.update_of_ne hu, ← h.lookup_writer]
      refine iff_of_false ?_ fun heq => hothers u hu (h.writer_of_lookup heq)
      split_ifs
      · exact fun heq => hu (Option.some.inj heq).symm
      · exact nofun
  · intro u b hb
    change (Function.update w.phase t p u).deadness = some b at hb
    by_cases hu : u = t
    · subst hu
      rw [Function.update_self] at hb
      exact hphase b hb
    · rw [Function.update_of_ne hu] at hb
      exact absurd ((h.names_writer u).2 (by rw [hb]; rfl)) (hothers u hu)

theorem Agrees.enter (h : Agrees w s) (hdead : p.deadness = (w.phase t).deadness)
    (hlookup : p.holdsLookup = (w.phase t).holdsLookup) : Agrees (w.enter t p) s := by
  have hdeadness : ∀ u, (Function.update w.phase t p u).deadness = (w.phase u).deadness := by
    intro u
    by_cases hu : u = t
    · rw [hu, Function.update_self, hdead]
    · rw [Function.update_of_ne hu]
  have hholds : ∀ u, (Function.update w.phase t p u).holdsLookup = (w.phase u).holdsLookup := by
    intro u
    by_cases hu : u = t
    · rw [hu, Function.update_self, hlookup]
    · rw [Function.update_of_ne hu]
  refine ⟨h.ok, h.names, h.lookup, h.lookup_poisoned, h.names_poisoned, h.dead, fun u => ?_,
    fun u => ?_, fun u b hb => h.phases u b ?_⟩
  · exact (h.names_writer u).trans (by rw [← hdeadness u]; rfl)
  · exact (h.lookup_writer u).trans (by rw [← hholds u]; rfl)
  · rw [← hdeadness u]
    exact hb

omit [DecidableEq T] in
theorem takesEffect_tell {V : Type} {l : RwLock T V} {f : V → Result} (h : Agrees w s)
    (htell : w.tell op l f = some w') (hpoisoned : l.writer = none → l.poisoned = s.dead)
    (halive : s.dead = false → s.step op = (s, f l.value)) :
    Mealy.TakesEffect Interned.step World.calls Agrees s w w' := by
  unfold World.tell at htell
  obtain ⟨value, hread, rfl⟩ := Option.map_eq_some_iff.1 htell
  obtain ⟨hfree, rfl⟩ := RwLock.read_eq_some.1 hread
  rw [hpoisoned hfree]
  refine .inr ⟨op, ?_⟩
  cases hdead : s.dead with
  | true =>
    rw [Interned.step_dead hdead]
    exact ⟨rfl, h.answer _ _⟩
  | false =>
    rw [halive hdead]
    exact ⟨rfl, h.answer _ _⟩

theorem takesEffect_call (h : Agrees w s) (hidle : w.phase t = .idle)
    (hcall : w.call t op = some w') :
    Mealy.TakesEffect Interned.step World.calls Agrees s w w' := by
  cases op with
  | intern name =>
    unfold World.call at hcall
    obtain ⟨lookup, hread, rfl⟩ := Option.map_eq_some_iff.1 hcall
    obtain ⟨hfree, rfl⟩ := RwLock.read_eq_some.1 hread
    rw [h.lookup_poisoned]
    cases hdead : s.dead with
    | true =>
      refine .inr ⟨.intern name, ?_⟩
      rw [Interned.step_dead hdead]
      exact ⟨rfl, h.answer _ _⟩
    | false =>
      simp only [Bool.false_eq_true, if_false, h.lookup name]
      cases hid : s.idOf name with
      | some id =>
        refine .inr ⟨.intern name, ?_⟩
        rw [Interned.step_alive hdead, Interned.handle, Interned.intern_known hid]
        exact ⟨rfl, h.answer _ _⟩
      | none => exact .inl ⟨rfl, h.enter (by rw [hidle]; rfl) (by rw [hidle]; rfl)⟩
  | resolve id =>
    refine takesEffect_tell h hcall h.poisoned_iff fun hdead => ?_
    rw [Interned.step_alive hdead, h.names, Interned.nameOf_eq]
    rfl
  | contains name =>
    refine takesEffect_tell h hcall (fun _ => h.lookup_poisoned) fun hdead => ?_
    rw [Interned.step_alive hdead, h.lookup, Interned.idOf_isSome_eq]
    rfl
  | getId name =>
    refine takesEffect_tell h hcall (fun _ => h.lookup_poisoned) fun hdead => ?_
    rw [Interned.step_alive hdead, h.lookup]
    rfl
  | len =>
    refine takesEffect_tell h hcall h.poisoned_iff fun hdead => ?_
    rw [Interned.step_alive hdead, h.names]
    rfl

theorem takesEffect_proceed (h : Agrees w s) (hproceed : w.proceed t = some w') :
    Mealy.TakesEffect Interned.step World.calls Agrees s w w' := by
  have hheld : (w.phase t).deadness.isSome → w.names.writer = some t := (h.names_writer t).2
  unfold World.proceed at hproceed
  cases hphase : w.phase t with
  | idle =>
    rw [hphase] at hproceed
    cases hproceed
  | missed name =>
    rw [hphase] at hproceed
    obtain ⟨names, hwrite, rfl⟩ := Option.map_eq_some_iff.1 hproceed
    obtain ⟨hfree, rfl⟩ := RwLock.write_eq_some.1 hwrite
    have hlookup : w.lookup.writer = none := by
      cases hwriter : w.lookup.writer with
      | none => rfl
      | some u => exact absurd (hfree.symm.trans (h.writer_of_lookup hwriter)) (Option.some_ne_none u).symm
    rw [h.poisoned_iff hfree]
    cases hdead : s.dead with
    | true =>
      refine .inr ⟨.intern name, ?_⟩
      rw [Interned.step_dead hdead]
      exact ⟨rfl, (h.answer _ _).enter (congrArg Phase.deadness hphase).symm
        (congrArg Phase.holdsLookup hphase).symm⟩
    | false =>
      exact .inl ⟨rfl, h.move w.calls (.inl hfree) rfl hlookup h.ok h.names h.lookup
        h.lookup_poisoned nofun (fun _ hfree' => absurd hfree' (Option.some_ne_none t))
        fun b hb => hdead.trans (Option.some.inj hb)⟩
  | holdsNames name =>
    rw [hphase] at hproceed hheld
    have hdead : s.dead = false := h.phases t false (by rw [hphase]; rfl)
    obtain ⟨lookup, hwrite, rfl⟩ := Option.map_eq_some_iff.1 hproceed
    obtain ⟨hfree, rfl⟩ := RwLock.write_eq_some.1 hwrite
    rw [h.lookup_poisoned, hdead]
    exact .inl ⟨rfl, h.move w.calls (.inr (hheld rfl)) (hheld rfl) rfl h.ok h.names h.lookup
      hdead.symm h.names_poisoned h.dead fun b hb => hdead.trans (Option.some.inj hb)⟩
  | holdsBoth name =>
    rw [hphase] at hproceed hheld
    have hdead : s.dead = false := h.phases t false (by rw [hphase]; rfl)
    have hstep : s.step (.intern name) = s.intern name := Interned.step_alive hdead _
    have hok := Interned.step_ok h.ok (.intern name)
    dsimp only at hproceed
    rw [h.lookup name] at hproceed
    refine .inr ⟨.intern name, ?_⟩
    rw [hstep] at hok ⊢
    cases hid : s.idOf name with
    | some id =>
      rw [hid] at hproceed
      rw [Interned.intern_known hid]
      obtain rfl := Option.some.inj hproceed
      exact ⟨rfl, h.move _ (.inr (hheld rfl)) (hheld rfl) rfl h.ok h.names h.lookup
        h.lookup_poisoned h.names_poisoned h.dead fun b hb => hdead.trans (Option.some.inj hb)⟩
    | none =>
      have hnew := Interned.idOf_eq_none.1 hid
      have hlength : w.names.value.length = s.names.length + 1 := by rw [h.names, List.length_cons]
      have hroom : UInt16.ofNat (s.names.length + 1) < 65535 ↔ s.names.length < 65534 := by
        have hfits := h.ok.fits
        rw [UInt16.lt_iff_toNat_lt, Interned.toNat_ofNat_succ (by omega)]
        exact Nat.succ_lt_succ_iff
      rw [hid] at hproceed
      dsimp only at hproceed
      rw [hlength] at hproceed
      by_cases hlt : s.names.length < 65534
      · rw [if_pos (hroom.2 hlt)] at hproceed
        rw [Interned.intern_new hid hlt] at hok ⊢
        obtain rfl := Option.some.inj hproceed
        refine ⟨rfl, h.move _ (.inr (hheld rfl)) (hheld rfl) rfl hok ?_ (fun n => ?_)
          h.lookup_poisoned h.names_poisoned h.dead fun b hb => hdead.trans (Option.some.inj hb)⟩
        · exact congrArg (· ++ [name]) h.names
        · refine (Table.get_insert _ _ _ _).trans ?_
          rw [Interned.idOf_concat hnew, h.lookup]
      · rw [if_neg fun hin => hlt (hroom.1 hin)] at hproceed
        rw [Interned.intern_full hid hlt] at hok ⊢
        obtain rfl := Option.some.inj hproceed
        exact ⟨rfl, h.move _ (.inr (hheld rfl)) (hheld rfl) rfl hok h.names h.lookup rfl
          (fun _ => rfl) (fun _ hfree => absurd ((hheld rfl).symm.trans hfree) (Option.some_ne_none t))
          fun b hb => Option.some.inj hb⟩
  | leaving panicked =>
    rw [hphase] at hproceed hheld
    have hdead : s.dead = panicked := h.phases t panicked (by rw [hphase]; rfl)
    have hlookup : w.lookup.writer = none := by
      cases hwriter : w.lookup.writer with
      | none => rfl
      | some u =>
        obtain rfl := Option.some.inj ((h.writer_of_lookup hwriter).symm.trans (hheld rfl))
        have hholds := (h.lookup_writer u).1 hwriter
        rw [hphase] at hholds
        cases hholds
    obtain rfl := Option.some.inj hproceed
    cases panicked with
    | true =>
      exact .inl ⟨rfl, h.move w.calls (.inr (hheld rfl)) rfl hlookup h.ok h.names h.lookup
        h.lookup_poisoned (fun _ => hdead) (fun _ _ => rfl) nofun⟩
    | false =>
      refine .inl ⟨rfl, h.move w.calls (.inr (hheld rfl)) rfl hlookup h.ok h.names h.lookup
        h.lookup_poisoned h.names_poisoned (fun hdead' => ?_) nofun⟩
      rw [hdead] at hdead'
      cases hdead'

theorem takesEffect_step {a : Action T} (h : Agrees w s) (hstep : w.step a = some w') :
    Mealy.TakesEffect Interned.step World.calls Agrees s w w' := by
  cases a with
  | call t op =>
    unfold World.step at hstep
    dsimp only at hstep
    split_ifs at hstep with hidle
    exact takesEffect_call h hidle hstep
  | proceed t => exact takesEffect_proceed h hstep

/-- Whatever the threads do, a run ends in a state of the table that explains all answers. -/
theorem agrees_run (actions : List (Action T)) :
    let w := Mealy.runEnabled World.step .new actions
    Mealy.Explains Interned.step .empty w.calls ∧
      Agrees w (Mealy.after Interned.step .empty (w.calls.map Prod.fst)) :=
  Mealy.explains_run Interned.step World.step World.calls
    (fun _ _ _ _ h hstep => takesEffect_step h hstep) rfl agrees_new actions

/-- However threads interleave, every call answers as the one table would that is handed the
calls one after the other. -/
theorem calls_linearizable (actions : List (Action T)) :
    Mealy.Explains Interned.step .empty (Mealy.runEnabled World.step (.new : World T) actions).calls :=
  (agrees_run actions).1

/-- Two names get one id exactly if they are the same, and an id that was handed out is
resolved to its name. -/
theorem ids_identify (actions : List (Action T)) :
    let calls := (Mealy.runEnabled World.step (.new : World T) actions).calls
    (∀ a b x y, (.intern a, .id x) ∈ calls → (.intern b, .id y) ∈ calls → (x = y ↔ a = b)) ∧
      ∀ before later id r, calls = before ++ (.resolve id, .text r) :: later →
        ∀ name, (.intern name, .id id) ∈ before → r = name := by
  obtain ⟨hexplains, hagrees⟩ := agrees_run actions
  dsimp only
  refine ⟨fun a b x y ha hb => ?_, fun before later id r hcalls name hname => ?_⟩
  · have hx := Interned.idOf_of_answered hexplains ha
    have hy := Interned.idOf_of_answered hexplains hb
    constructor
    · rintro rfl
      exact Interned.idOf_inj hagrees.ok hx hy
    · rintro rfl
      exact Option.some.inj (hx.symm.trans hy)
  · rw [hcalls] at hexplains
    obtain ⟨hbefore, hanswer, -⟩ := (Mealy.explains_split Interned.step).1 hexplains
    have hid := Interned.idOf_of_answered hbefore hname
    have hok := Interned.after_ok (@agrees_new T).ok (before.map Prod.fst)
    generalize Mealy.after Interned.step .empty (before.map Prod.fst) = s at hanswer hid hok
    cases hdead : s.dead with
    | true =>
      rw [Interned.step_dead hdead] at hanswer
      cases hanswer
    | false =>
      rw [Interned.step_alive hdead] at hanswer
      rw [Result.text.inj hanswer]
      exact Interned.nameOf_of_idOf hok hid

def Phase.rank : Phase → ℕ
  | .idle => 0
  | .leaving _ => 1
  | .holdsBoth _ => 2
  | .holdsNames _ => 3
  | .missed _ => 4

theorem proceed_rank (hproceed : w.proceed t = some w') :
    (w'.phase t).rank < (w.phase t).rank ∧ ∀ u, u ≠ t → w'.phase u = w.phase u := by
  have henter : ∀ (v : World T) q, (v.enter t q).phase t = q := fun v q => Function.update_self ..
  have hothers : ∀ (v : World T) q u, u ≠ t → (v.enter t q).phase u = v.phase u :=
    fun v q u hu => Function.update_of_ne hu ..
  unfold World.proceed at hproceed
  cases hphase : w.phase t with
  | idle =>
    rw [hphase] at hproceed
    cases hproceed
  | missed name =>
    rw [hphase] at hproceed
    obtain ⟨names, -, rfl⟩ := Option.map_eq_some_iff.1 hproceed
    cases names with
    | none => exact ⟨by simp [henter, Phase.rank], hothers _ _⟩
    | some names => exact ⟨by simp [henter, Phase.rank], hothers _ _⟩
  | holdsNames name =>
    rw [hphase] at hproceed
    obtain ⟨lookup, -, rfl⟩ := Option.map_eq_some_iff.1 hproceed
    cases lookup with
    | none => exact ⟨by simp [henter, Phase.rank], hothers _ _⟩
    | some lookup => exact ⟨by simp [henter, Phase.rank], hothers _ _⟩
  | holdsBoth name =>
    rw [hphase] at hproceed
    dsimp only at hproceed
    split at hproceed
    · obtain rfl := Option.some.inj hproceed
      exact ⟨by simp [henter, Phase.rank], hothers _ _⟩
    · split_ifs at hproceed
      · obtain rfl := Option.some.inj hproceed
        exact ⟨by simp [henter, Phase.rank], hothers _ _⟩
      · obtain rfl := Option.some.inj hproceed
        exact ⟨by simp [henter, Phase.rank], hothers _ _⟩
  | leaving panicked =>
    rw [hphase] at hproceed
    obtain rfl := Option.some.inj hproceed
    exact ⟨by simp [henter, Phase.rank], hothers _ _⟩

theorem Agrees.proceeds (h : Agrees w s) (ht : w.phase t ≠ .idle) :
    ∃ u, (w.proceed u).isSome := by
  cases hwriter : w.names.writer with
  | none =>
    refine ⟨t, ?_⟩
    have hdead : (w.phase t).deadness.isSome = false := by
      rw [← Bool.not_eq_true, ← h.names_writer, hwriter]
      exact (Option.some_ne_none t).symm
    unfold World.proceed
    cases hphase : w.phase t with
    | missed name => simp [RwLock.write, hwriter]
    | idle => exact absurd hphase ht
    | _ => rw [hphase] at hdead; cases hdead
  | some u =>
    refine ⟨u, ?_⟩
    have hdead := (h.names_writer u).1 hwriter
    unfold World.proceed
    cases hphase : w.phase u with
    | holdsNames name =>
      have hlookup : w.lookup.writer = none := by
        cases hv : w.lookup.writer with
        | none => rfl
        | some v =>
          obtain rfl := Option.some.inj ((h.writer_of_lookup hv).symm.trans hwriter)
          have hholds := (h.lookup_writer v).1 hv
          rw [hphase] at hholds
          cases hholds
      simp [RwLock.write, hlookup]
    | holdsBoth name =>
      dsimp only
      split
      · rfl
      · split_ifs <;> rfl
    | leaving panicked => rfl
    | _ => rw [hphase] at hdead; cases hdead

/-- From every state that an interleaving can reach, the calls that are under way can be
brought to their ends: there is no deadlock. -/
theorem calls_finish [Fintype T] (actions : List (Action T)) :
    ∃ more : List T, ∀ t, (Mealy.runEnabled World.step .new
      (actions ++ more.map .proceed)).phase t = .idle := by
  obtain ⟨n, hn⟩ : ∃ n, n = ∑ t, ((Mealy.runEnabled World.step (.new : World T) actions).phase t).rank :=
    ⟨_, rfl⟩
  induction n using Nat.strong_induction_on generalizing actions with
  | _ n ih =>
    by_cases hidle : ∀ t, (Mealy.runEnabled World.step (.new : World T) actions).phase t = .idle
    · exact ⟨[], by simpa using hidle⟩
    · obtain ⟨t, ht⟩ := not_forall.1 hidle
      obtain ⟨u, hu⟩ := (agrees_run actions).2.proceeds ht
      obtain ⟨w', hw'⟩ := Option.isSome_iff_exists.1 hu
      have hrun : Mealy.runEnabled World.step (.new : World T) (actions ++ [.proceed u]) = w' := by
        unfold Mealy.runEnabled
        rw [List.foldl_concat]
        change ((Mealy.runEnabled World.step .new actions).proceed u).getD _ = w'
        rw [hw', Option.getD_some]
      obtain ⟨hlower, hothers⟩ := proceed_rank hw'
      have hsum : ∑ v, (w'.phase v).rank < n := by
        rw [hn]
        refine Finset.sum_lt_sum (fun v _ => ?_) ⟨u, Finset.mem_univ u, hlower⟩
        by_cases hv : v = u
        · subst hv
          exact hlower.le
        · rw [hothers v hv]
      obtain ⟨more, hmore⟩ := ih _ hsum (actions ++ [.proceed u]) (by rw [hrun])
      refine ⟨u :: more, fun v => ?_⟩
      rw [List.map_cons, List.append_cons]
      exact hmore v

end Interleavings

end Sandstar.NameIntern
