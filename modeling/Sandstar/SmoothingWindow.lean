import Mathlib
import Sandstar.EngineFilters
import Sandstar.RecentWindow
import Sandstar.Runs

set_option autoImplicit false

namespace Sandstar.Engine
open FloatOps RecentWindow

/-- A reading, and the smoothing configuration it meets. -/
structure Sample (F : Type) where
  value : F
  window : ℕ
  method : SmoothMethod

/-- The window changes only where the readings so far fill neither the old one nor the new;
    `n` readings came before, the last with the window `w`. -/
def WindowHeld {F : Type} (n w : ℕ) : List (Sample F) → Prop
  | [] => True
  | x :: xs =>
    (smoothWindow x.window = w ∨ n < w ∧ n < smoothWindow x.window) ∧
      WindowHeld (n + 1) (smoothWindow x.window) xs

instance decidableWindowHeld {F : Type} (n w : ℕ) :
    (xs : List (Sample F)) → Decidable (WindowHeld n w xs)
  | [] => .isTrue trivial
  | x :: xs =>
    have := decidableWindowHeld (n + 1) (smoothWindow x.window) xs
    inferInstanceAs (Decidable (_ ∧ _))

variable {F : Type}

def lastWindow (w : ℕ) (xs : List (Sample F)) : ℕ :=
  xs.foldl (fun _ x => smoothWindow x.window) w

theorem lastWindow_concat (w : ℕ) (xs : List (Sample F)) (x : Sample F) :
    lastWindow w (xs ++ [x]) = smoothWindow x.window := by
  unfold lastWindow
  rw [List.foldl_append]
  rfl

namespace SmoothState

def Holds (s : SmoothState F) (w : ℕ) (values : List F) : Prop :=
  Layout s.buffer.toList s.head s.count w values

variable {s : SmoothState F} {w : ℕ} {values : List F}

theorem samples_perm (h : s.Holds w values) (hw : w ≤ smoothBufferMax) :
    s.samples.Perm (recent w values) :=
  Layout.take_perm h (by rw [Vector.length_toList]; exact hw)

theorem samples_length (s : SmoothState F) : s.samples.length = s.count := by
  have hcount := s.count_le
  unfold samples
  rw [List.length_take, Vector.length_toList]
  omega

theorem holds_push {window : ℕ} (h : s.Holds w values)
    (hheld : smoothWindow window = w ∨ values.length < w ∧ values.length < smoothWindow window)
    (value : F) : (s.push value window).Holds (smoothWindow window) (values ++ [value]) := by
  have hcells : smoothWindow window ≤ s.buffer.toList.length := by
    rw [Vector.length_toList]
    exact smoothWindow_le window
  have hsame : s.Holds (smoothWindow window) values := by
    rcases hheld with heq | ⟨hold, hnew⟩
    · rw [heq]
      exact h
    · exact Layout.resize h hold hnew
  have hpush := Layout.push hsame (smoothWindow_pos window) hcells value
  unfold Holds push
  rw [Vector.toList_set]
  exact hpush

end SmoothState

variable [FloatOps F]

def smoothStep (s : SmoothState F) (x : Sample F) : SmoothState F :=
  (applySmoothing s x.value x.window x.method).1

/-- The state once the readings have come. -/
def smoothed (xs : List (Sample F)) : SmoothState F := Runs.run smoothStep SmoothState.default xs

def smoothedValue (xs : List (Sample F)) (x : Sample F) : F :=
  (applySmoothing (smoothed xs) x.value x.window x.method).2

theorem smoothStep_ring (s : SmoothState F) (x : Sample F) :
    (smoothStep s x).buffer = (s.push x.value x.window).buffer ∧
      (smoothStep s x).head = (s.push x.value x.window).head ∧
      (smoothStep s x).count = (s.push x.value x.window).count := by
  obtain ⟨value, window, method⟩ := x
  unfold smoothStep applySmoothing
  dsimp only
  by_cases hfew : (s.push value window).count < 2
  · rw [if_pos hfew]
    split_ifs <;> exact ⟨rfl, rfl, rfl⟩
  · rw [if_neg hfew]
    cases method <;> exact ⟨rfl, rfl, rfl⟩

theorem holds_step {s : SmoothState F} {w : ℕ} {values : List F} {x : Sample F}
    (h : s.Holds w values)
    (hheld : smoothWindow x.window = w ∨
      values.length < w ∧ values.length < smoothWindow x.window) :
    (smoothStep s x).Holds (smoothWindow x.window) (values ++ [x.value]) := by
  obtain ⟨hbuffer, hhead, hcount⟩ := smoothStep_ring s x
  unfold SmoothState.Holds
  rw [hbuffer, hhead, hcount]
  exact SmoothState.holds_push h hheld x.value

theorem holds_run {s : SmoothState F} {w : ℕ} {values : List F} {xs : List (Sample F)}
    (h : s.Holds w values) (hheld : WindowHeld values.length w xs) :
    (Runs.run smoothStep s xs).Holds (lastWindow w xs) (values ++ xs.map Sample.value) := by
  induction xs generalizing s w values with
  | nil =>
    rw [List.map_nil, List.append_nil]
    exact h
  | cons x xs ih =>
    have hstep := holds_step h hheld.1
    have hlength : (values ++ [x.value]).length = values.length + 1 := List.length_append
    have hrun := ih hstep (hlength ▸ hheld.2)
    rw [List.append_assoc] at hrun
    exact hrun

theorem smoothed_holds {xs : List (Sample F)} (hheld : WindowHeld 0 2 xs) :
    (smoothed xs).Holds (lastWindow 2 xs) (xs.map Sample.value) := by
  have hempty : (SmoothState.default : SmoothState F).Holds 2 [] := Layout.empty _ 2
  exact holds_run hempty hheld

theorem smoothed_concat (xs : List (Sample F)) (x : Sample F) :
    smoothed (xs ++ [x]) = smoothStep (smoothed xs) x :=
  Runs.run_concat _ _ _ _

theorem smoothedValue_mean {xs : List (Sample F)} {x : Sample F} (hmean : x.method = .mean)
    (htwo : 2 ≤ (smoothed (xs ++ [x])).samples.length) :
    smoothedValue xs x = (smoothed (xs ++ [x])).samples.foldl (· + ·) (lit 0) /
      ofIndex (smoothed (xs ++ [x])).samples.length := by
  obtain ⟨value, window, method⟩ := x
  subst hmean
  rw [SmoothState.samples_length, smoothed_concat, (smoothStep_ring _ _).2.2] at htwo
  rw [SmoothState.samples_length, smoothed_concat]
  unfold smoothedValue smoothStep applySmoothing
  dsimp only
  rw [if_neg (not_lt.2 htwo)]

theorem smoothedValue_median {xs : List (Sample F)} {x : Sample F}
    (hmedian : x.method = .median) (htwo : 2 ≤ (smoothed (xs ++ [x])).samples.length) :
    smoothedValue xs x =
      (bubbleSort (smoothed (xs ++ [x])).samples.length (smoothed (xs ++ [x])).samples).getD
        ((smoothed (xs ++ [x])).samples.length / 2) (lit 0) := by
  obtain ⟨value, window, method⟩ := x
  subst hmedian
  rw [SmoothState.samples_length, smoothed_concat, (smoothStep_ring _ _).2.2] at htwo
  rw [SmoothState.samples_length, smoothed_concat]
  unfold smoothedValue smoothStep applySmoothing
  dsimp only
  rw [if_neg (not_lt.2 htwo)]

/-- Both indices stay in the buffer on every run; while the window is held, what the mean and
    the median are taken from is the last readings of the window, which is the configured one
    brought between 2 and the length of the buffer. -/
theorem smoothing_recent :
    (∀ xs : List (Sample F),
      (smoothed xs).head < smoothBufferMax ∧ (smoothed xs).count ≤ smoothBufferMax) ∧
    ∀ (xs : List (Sample F)) (x : Sample F), WindowHeld 0 2 (xs ++ [x]) →
      let taken := (smoothed (xs ++ [x])).samples
      taken.Perm (recent (smoothWindow x.window) ((xs ++ [x]).map Sample.value)) ∧
      (2 ≤ taken.length → x.method = .mean →
        smoothedValue xs x = taken.foldl (· + ·) (lit 0) / ofIndex taken.length) ∧
      (2 ≤ taken.length → x.method = .median →
        smoothedValue xs x =
          (bubbleSort taken.length taken).getD (taken.length / 2) (lit 0)) := by
  refine ⟨fun xs => ⟨(smoothed xs).head_lt, (smoothed xs).count_le⟩, fun xs x hheld => ?_⟩
  have hholds := smoothed_holds hheld
  rw [lastWindow_concat] at hholds
  exact ⟨SmoothState.samples_perm hholds (smoothWindow_le x.window),
    fun htwo hmean => smoothedValue_mean hmean htwo,
    fun htwo hmedian => smoothedValue_median hmedian htwo⟩

/-- A mean over a window of three that has come round, and a median over the two readings
    before a window grows. -/
theorem smoothing_recent_round :
    (smoothed [(⟨1, 3, .mean⟩ : Sample ℚ), ⟨2, 3, .mean⟩, ⟨3, 3, .mean⟩,
        ⟨4, 3, .mean⟩]).samples.Perm [2, 3, 4] ∧
      (smoothed [(⟨1, 3, .median⟩ : Sample ℚ), ⟨2, 3, .median⟩, ⟨3, 5, .median⟩]).samples.Perm
        [1, 2, 3] := by
  have hround := smoothing_recent.2 [(⟨1, 3, .mean⟩ : Sample ℚ), ⟨2, 3, .mean⟩, ⟨3, 3, .mean⟩]
    ⟨4, 3, .mean⟩ (by decide)
  have hgrown := smoothing_recent.2 [(⟨1, 3, .median⟩ : Sample ℚ), ⟨2, 3, .median⟩]
    ⟨3, 5, .median⟩ (by decide)
  exact ⟨hround.1, hgrown.1⟩

/-- A window of one still takes two readings. A window that shrinks from four to two after four
    readings takes four, and one that grows from two to three after two takes a cell that no
    reading ever filled. -/
theorem smoothed_not_recent :
    ¬ (smoothed [(⟨1, 1, .mean⟩ : Sample ℚ), ⟨2, 1, .mean⟩]).samples.Perm (recent 1 [1, 2]) ∧
      ¬ (smoothed [(⟨1, 4, .mean⟩ : Sample ℚ), ⟨2, 4, .mean⟩, ⟨3, 4, .mean⟩, ⟨4, 4, .mean⟩,
        ⟨5, 2, .mean⟩]).samples.Perm (recent 2 [1, 2, 3, 4, 5]) ∧
      ¬ (smoothed [(⟨1, 2, .mean⟩ : Sample ℚ), ⟨2, 2, .mean⟩, ⟨3, 3, .mean⟩]).samples.Perm
        (recent 3 [1, 2, 3]) := by
  refine ⟨fun h => ?_, fun h => ?_, fun h => ?_⟩
  · exact absurd h.length_eq (by decide)
  · exact absurd h.length_eq (by decide)
  · have hblank : (0 : ℚ) ∈ (smoothed [(⟨1, 2, .mean⟩ : Sample ℚ), ⟨2, 2, .mean⟩,
        ⟨3, 3, .mean⟩]).samples := by decide
    exact absurd (h.mem_iff.1 hblank) (by decide)

end Sandstar.Engine
