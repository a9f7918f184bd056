import Sandstar.Runs

set_option autoImplicit false

namespace Sandstar.Mealy

variable {A S T I O : Type}

abbrev Machine (S I O : Type) := S → I → S × O

def outputs (step : Machine S I O) : S → List I → List O
  | _, [] => []
  | s, i :: is => (step s i).2 :: outputs step (step s i).1 is

variable (f : Machine S I O) (g : Machine T I O)

/-- Where the automaton's state decides whether the next outputs agree, all outputs agree
    exactly along the runs of the automaton that say so. -/
theorem outputs_eq_iff {R : A → S → T → Prop} {next : A → I → A} {ok : A → I → Prop}
    (hsame : ∀ a s t i, R a s t → ((f s i).2 = (g t i).2 ↔ ok a i))
    (hkeep : ∀ a s t i, R a s t → ok a i → R (next a i) (f s i).1 (g t i).1) {a : A} {s : S}
    {t : T} (h : R a s t) (is : List I) :
    outputs f s is = outputs g t is ↔ Runs.Along next ok a is := by
  induction is generalizing a s t with
  | nil => exact ⟨fun _ => trivial, fun _ => rfl⟩
  | cons i is ih =>
    unfold outputs
    rw [List.cons.injEq, hsame a s t i h]
    constructor
    · rintro ⟨hok, hrest⟩
      exact ⟨hok, (ih (hkeep a s t i h hok)).1 hrest⟩
    · rintro ⟨hok, hrest⟩
      exact ⟨hok, (ih (hkeep a s t i h hok)).2 hrest⟩

theorem outputs_eq {R : S → T → Prop} (hsame : ∀ s t i, R s t → (f s i).2 = (g t i).2)
    (hkeep : ∀ s t i, R s t → R (f s i).1 (g t i).1) {s : S} {t : T} (h : R s t)
    (is : List I) : outputs f s is = outputs g t is := by
  induction is generalizing s t with
  | nil => rfl
  | cons i is ih =>
    unfold outputs
    rw [hsame s t i h, ih (hkeep s t i h)]

theorem along_inputs (next : A → I → A) (P : I → Prop) (a : A) (is : List I) :
    Runs.Along next (fun _ i => P i) a is ↔ ∀ i ∈ is, P i := by
  induction is generalizing a with
  | nil => exact ⟨fun _ => nofun, fun _ => trivial⟩
  | cons i is ih =>
    rw [List.forall_mem_cons, ← ih (next a i)]
    exact Iff.rfl

section Linearization

def after (s : S) (is : List I) : S := is.foldl (fun s i => (f s i).1) s

theorem outputs_append (s : S) (is js : List I) :
    outputs f s (is ++ js) = outputs f s is ++ outputs f (after f s is) js := by
  induction is generalizing s with
  | nil => rfl
  | cons i is ih => exact congrArg (List.cons (f s i).2) (ih (f s i).1)

theorem after_append (s : S) (is js : List I) : after f s (is ++ js) = after f (after f s is) js := by
  unfold after
  rw [List.foldl_append]

theorem outputs_length (s : S) (is : List I) : (outputs f s is).length = is.length := by
  induction is generalizing s with
  | nil => rfl
  | cons i is ih => exact congrArg (· + 1) (ih (f s i).1)

/-- The answers of the log are those that the machine gives to its inputs. -/
def Explains (s : S) (log : List (I × O)) : Prop := outputs f s (log.map Prod.fst) = log.map Prod.snd

theorem explains_split {s : S} {before later : List (I × O)} {i : I} {o : O} :
    Explains f s (before ++ (i, o) :: later) ↔
      Explains f s before ∧ o = (f (after f s (before.map Prod.fst)) i).2 ∧
        Explains f (f (after f s (before.map Prod.fst)) i).1 later := by
  have hlength : (outputs f s (before.map Prod.fst)).length = (before.map Prod.snd).length := by
    rw [outputs_length, List.length_map, List.length_map]
  unfold Explains
  rw [List.map_append, List.map_append, outputs_append]
  constructor
  · intro h
    obtain ⟨hbefore, hrest⟩ := List.append_inj h hlength
    obtain ⟨hanswer, hlater⟩ := List.cons.inj hrest
    exact ⟨hbefore, hanswer.symm, hlater⟩
  · rintro ⟨hbefore, hanswer, hlater⟩
    rw [hbefore, List.map_cons, List.map_cons, outputs, hlater, hanswer]

variable {W B : Type} (step : W → B → Option W) (log : W → List (I × O))

/-- The run of the steps that are possible when their turn comes. -/
def runEnabled (w : W) (bs : List B) : W := bs.foldl (fun w b => (step w b).getD w) w

def TakesEffect (R : W → S → Prop) (s : S) (w w' : W) : Prop :=
  (log w' = log w ∧ R w' s) ∨ ∃ i, log w' = log w ++ [(i, (f s i).2)] ∧ R w' (f s i).1

/-- Where every step takes effect at one moment, every run is explained by the order of these
    moments. -/
theorem explains_run {R : W → S → Prop}
    (hstep : ∀ w s b w', R w s → step w b = some w' → TakesEffect f log R s w w') {w : W} {s : S}
    (hlog : log w = []) (h : R w s) (bs : List B) :
    Explains f s (log (runEnabled step w bs)) ∧
      R (runEnabled step w bs) (after f s ((log (runEnabled step w bs)).map Prod.fst)) := by
  induction bs using List.reverseRecOn with
  | nil =>
    have hstart : runEnabled step w [] = w := rfl
    rw [hstart, hlog]
    exact ⟨rfl, h⟩
  | append_singleton bs b ih =>
    obtain ⟨hexplains, hrelated⟩ := ih
    have hrun : runEnabled step w (bs ++ [b]) =
        (step (runEnabled step w bs) b).getD (runEnabled step w bs) := by
      unfold runEnabled
      rw [List.foldl_concat]
    rw [hrun]
    cases hnext : step (runEnabled step w bs) b with
    | none => exact ⟨hexplains, hrelated⟩
    | some w' =>
      rw [Option.getD_some]
      rcases hstep _ _ b w' hrelated hnext with ⟨hsame, hkeep⟩ | ⟨i, hnew, hkeep⟩
      · rw [hsame]
        exact ⟨hexplains, hkeep⟩
      · rw [hnew]
        refine ⟨(explains_split f).2 ⟨hexplains, rfl, rfl⟩, ?_⟩
        rw [List.map_append, after_append]
        exact hkeep

end Linearization

end Sandstar.Mealy
