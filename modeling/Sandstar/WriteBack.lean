import Sandstar.Runs

set_option autoImplicit false

/-!
# Data kept in memory and written back now and then

The data carry a flag that a change raises. A flush takes the flag down and writes the
data to the file; the flag is down before the write is known to have succeeded.
-/
namespace Sandstar.WriteBack

variable {D F : Type}

structure Store (D F : Type) where
  data : D
  dirty : Bool
  file : F

def flush (written : Option F) (s : Store D F) : Store D F :=
  if s.dirty then ⟨s.data, false, written.getD s.file⟩ else s

def Synced (Agrees : D → F → Prop) (s : Store D F) : Prop :=
  s.dirty = false → Agrees s.data s.file

variable {Agrees : D → F → Prop}

/-- A flush keeps the file in agreement exactly when what the flag announced is written,
    or was in the file before. -/
theorem synced_flush_iff {s : Store D F} {written : Option F} :
    Synced Agrees (flush written s) ↔
      Synced Agrees s ∧ (s.dirty = true → Agrees s.data (written.getD s.file)) := by
  obtain ⟨data, dirty, file⟩ := s
  cases dirty with
  | false => simp [Synced, flush]
  | true => simp [Synced, flush]

/-- A change that raises the flag, or that no file can tell from the data before it. -/
theorem Synced.change {s s' : Store D F} (h : Synced Agrees s) (hfile : s'.file = s.file)
    (hchange : s'.dirty = false →
      s.dirty = false ∧ (Agrees s.data s.file → Agrees s'.data s.file)) :
    Synced Agrees s' := by
  intro hclean
  obtain ⟨hbefore, hagrees⟩ := hchange hclean
  rw [hfile]
  exact hagrees (h hbefore)

end Sandstar.WriteBack
