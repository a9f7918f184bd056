import Mathlib.Data.List.Infix
import Mathlib.Tactic.Common

set_option autoImplicit false

/-!
# Directory trees without links

A finite tree of directories and files, addressed by the lists of names that lead
to them. Every entry lies in a directory, so a path that leads nowhere leads nowhere
further on.
-/
namespace Sandstar

inductive DirectoryEntry (β : Type)
  | dir
  | file (content : β)
deriving DecidableEq, Repr

structure DirectoryTree (ν β : Type) where
  node : List ν → Option (DirectoryEntry β)
  paths : List (List ν)
  root : node [] = some .dir
  parent : ∀ path name, node (path ++ [name]) ≠ none → node path = some .dir
  listed : ∀ path, node path ≠ none → path ∈ paths

namespace DirectoryTree

inductive Step (ν : Type)
  | here
  | up
  | down (name : ν)
deriving DecidableEq, Repr

def Step.apply {ν : Type} (path : List ν) : Step ν → List ν
  | .here => path
  | .up => path.dropLast
  | .down name => path ++ [name]

variable {ν β : Type}

def isDir (tree : DirectoryTree ν β) (path : List ν) : Bool :=
  match tree.node path with
  | some .dir => true
  | _ => false

def isFile (tree : DirectoryTree ν β) (path : List ν) : Bool :=
  match tree.node path with
  | some (.file _) => true
  | _ => false

theorem isDir_iff {tree : DirectoryTree ν β} {path : List ν} :
    tree.isDir path = true ↔ tree.node path = some .dir := by
  unfold isDir
  split <;> simp_all

theorem isFile_iff {tree : DirectoryTree ν β} {path : List ν} :
    tree.isFile path = true ↔ ∃ content, tree.node path = some (.file content) := by
  unfold isFile
  split <;> simp_all

theorem isDir_of_exists {tree : DirectoryTree ν β} {path : List ν} (h : tree.node path ≠ none)
    (hfile : tree.isFile path = false) : tree.isDir path = true := by
  rw [isDir_iff]
  cases hnode : tree.node path with
  | none => exact absurd hnode h
  | some node =>
    cases node with
    | dir => rfl
    | file content =>
      have := isFile_iff.2 ⟨content, hnode⟩
      simp_all

section Ancestors

theorem isDir_of_append {tree : DirectoryTree ν β} {path rest : List ν} (hne : rest ≠ [])
    (h : tree.node (path ++ rest) ≠ none) : tree.node path = some .dir := by
  induction rest using List.reverseRecOn with
  | nil => exact absurd rfl hne
  | append_singleton rest name ih =>
    have hdir : tree.node (path ++ rest) = some .dir :=
      tree.parent _ name (by rwa [List.append_assoc])
    cases rest with
    | nil => simpa using hdir
    | cons first rest => exact ih (by simp) (by simp [hdir])

theorem exists_of_prefix {tree : DirectoryTree ν β} {path path' : List ν} (hle : path <+: path')
    (h : tree.node path' ≠ none) : tree.node path ≠ none := by
  obtain ⟨rest, rfl⟩ := hle
  by_cases hne : rest = []
  · simpa [hne] using h
  · simp [isDir_of_append hne h]

end Ancestors

section Walking

def walk (tree : DirectoryTree ν β) : List ν → List (Step ν) → Option (List ν)
  | path, [] => if tree.node path = none then none else some path
  | path, step :: steps => if tree.isDir path then tree.walk (step.apply path) steps else none

theorem walk_exists {tree : DirectoryTree ν β} {path path' : List ν} {steps : List (Step ν)}
    (h : tree.walk path steps = some path') : tree.node path' ≠ none := by
  induction steps generalizing path with
  | nil =>
    simp only [walk] at h
    split_ifs at h with hnode
    cases h
    exact hnode
  | cons step steps ih =>
    simp only [walk] at h
    split_ifs at h
    exact ih h

/-- Going down a list of names leads to where the names say, if there is something. -/
theorem walk_down (tree : DirectoryTree ν β) (path names : List ν) :
    tree.walk path (names.map .down) =
      if tree.node (path ++ names) = none then none else some (path ++ names) := by
  induction names generalizing path with
  | nil => simp [walk]
  | cons name names ih =>
    have happend : (path ++ [name]) ++ names = path ++ name :: names := by simp
    simp only [List.map_cons, walk, Step.apply, ih, happend]
    by_cases hnode : tree.node (path ++ name :: names) = none
    · simp only [hnode, if_true, ite_self]
    · have hdir : tree.node path = some .dir := isDir_of_append (by simp) hnode
      simp only [isDir_iff.2 hdir, if_true]

theorem walk_here (tree : DirectoryTree ν β) (steps : List (Step ν)) :
    tree.walk [] (.here :: steps) = tree.walk [] steps := by
  simp [walk, isDir_iff.2 tree.root, Step.apply]

end Walking

section Making

/-- The directories on the way to a path that are not there yet. -/
def missing (tree : DirectoryTree ν β) (path : List ν) : List (List ν) :=
  path.inits.filter fun p => (tree.node p).isNone

def canMake (tree : DirectoryTree ν β) (path : List ν) : Bool :=
  path.inits.all fun p => !tree.isFile p

theorem mem_missing {tree : DirectoryTree ν β} {path p : List ν} :
    p ∈ tree.missing path ↔ p <+: path ∧ tree.node p = none := by
  simp [missing]

theorem isDir_of_canMake {tree : DirectoryTree ν β} {path p : List ν}
    (h : tree.canMake path = true) (hp : p <+: path) (hnode : tree.node p ≠ none) :
    tree.node p = some .dir := by
  rw [canMake, List.all_eq_true] at h
  have hfile := h p ((List.mem_inits _ _).2 hp)
  exact isDir_iff.1 (isDir_of_exists hnode (by simpa using hfile))

variable [DecidableEq ν]

def makeDirs (tree : DirectoryTree ν β) (path : List ν) : Option (DirectoryTree ν β) :=
  if tree.canMake path then
    some
      { node p := if p <+: path then some .dir else tree.node p
        paths := path.inits ++ tree.paths
        root := by simp
        parent := by
          intro p name h
          by_cases hp : p <+: path
          · rw [if_pos hp]
          · rw [if_neg fun hchild => hp ((List.prefix_append p [name]).trans hchild)] at h
            rw [if_neg hp]
            exact tree.parent p name h
        listed := by
          intro p h
          split_ifs at h with hp
          · exact List.mem_append_left _ ((List.mem_inits _ _).2 hp)
          · exact List.mem_append_right _ (tree.listed p h) }
  else none

theorem makeDirs_isSome (tree : DirectoryTree ν β) (path : List ν) :
    (tree.makeDirs path).isSome = tree.canMake path := by
  unfold makeDirs
  split_ifs with h <;> simp [h]

theorem makeDirs_node {tree tree' : DirectoryTree ν β} {path : List ν}
    (h : tree.makeDirs path = some tree') (p : List ν) :
    tree'.node p = if p <+: path then some .dir else tree.node p := by
  unfold makeDirs at h
  split_ifs at h
  cases h
  rfl

theorem makeDirs_frame {tree tree' : DirectoryTree ν β} {path : List ν}
    (h : tree.makeDirs path = some tree') {p : List ν} (hp : tree.node p ≠ none) :
    tree'.node p = tree.node p := by
  have hcan : tree.canMake path = true := by
    rw [← makeDirs_isSome, h]
    rfl
  rw [makeDirs_node h]
  split_ifs with hle
  · exact (isDir_of_canMake hcan hle hp).symm
  · rfl

end Making

section Moving

variable [DecidableEq ν]

def isEmptyDir (tree : DirectoryTree ν β) (path : List ν) : Bool :=
  tree.isDir path && tree.paths.all fun p => p = [] || p.dropLast ≠ path || (tree.node p).isNone

/-- What `rename` asks of its two paths, the directory of the second one apart: not
    into itself, and a file over a file or a directory over an empty one. -/
def movable (tree : DirectoryTree ν β) (source dest : List ν) : Bool :=
  (tree.node source).isSome && dest ≠ [] && !tree.isFile dest.dropLast &&
    (source = dest || (!decide (source <+: dest) &&
      ((tree.node dest).isNone || (tree.isFile source && tree.isFile dest) ||
        (tree.isDir source && tree.isEmptyDir dest))))

theorem not_prefix_of_movable {tree : DirectoryTree ν β} {source dest : List ν}
    (h : tree.movable source dest = true) (hne : source ≠ dest) : ¬ source <+: dest := by
  simp only [movable, Bool.and_eq_true, Bool.or_eq_true, decide_eq_true_eq] at h
  obtain heq | ⟨hpre, -⟩ := h.2
  · exact absurd heq hne
  · simpa using hpre

theorem dest_ne_nil_of_movable {tree : DirectoryTree ν β} {source dest : List ν}
    (h : tree.movable source dest = true) : dest ≠ [] := by
  simp only [movable, Bool.and_eq_true, decide_eq_true_eq] at h
  exact h.1.1.2

/-- `rename`: what was under the source is now under the destination. -/
def move (tree : DirectoryTree ν β) (source dest : List ν) : Option (DirectoryTree ν β) :=
  if h : tree.movable source dest = true ∧ tree.isDir dest.dropLast = true then
    some
      { node p := if dest <+: p then tree.node (source ++ p.drop dest.length)
          else if source <+: p then none else tree.node p
        paths := tree.paths ++ tree.paths.map fun p => dest ++ p.drop source.length
        root := by
          have hdest := dest_ne_nil_of_movable h.1
          have hsource : source ≠ [] := by
            intro hnil
            by_cases heq : source = dest
            · exact hdest (heq ▸ hnil)
            · exact not_prefix_of_movable h.1 heq (hnil ▸ List.nil_prefix)
          simp [hdest, hsource, tree.root]
        parent := by
          intro p name hchild
          by_cases hp : dest <+: p
          · have hlong := hp.length_le
            rw [if_pos (hp.trans (List.prefix_append p [name])), List.drop_append_of_le_length hlong,
              ← List.append_assoc] at hchild
            rw [if_pos hp]
            exact tree.parent _ name hchild
          · rw [if_neg hp]
            by_cases hend : dest = p ++ [name]
            · have hsource : ¬ source <+: p := by
                intro hle
                by_cases heq : source = dest
                · have hlen := (heq ▸ hle).length_le
                  simp only [hend, List.length_append, List.length_singleton] at hlen
                  omega
                · refine not_prefix_of_movable h.1 heq ?_
                  rw [hend]
                  exact hle.trans (List.prefix_append p [name])
              rw [if_neg hsource]
              have hdir := isDir_iff.1 h.2
              rwa [hend, List.dropLast_concat] at hdir
            · have hnot : ¬ dest <+: p ++ [name] := by
                rw [List.prefix_concat_iff]
                simp [hend, hp]
              rw [if_neg hnot] at hchild
              split_ifs at hchild with hle
              · exact absurd rfl hchild
              · rw [if_neg fun hp => hle (hp.trans (List.prefix_append p [name]))]
                exact tree.parent p name hchild
        listed := by
          intro p hp
          split_ifs at hp with hdest hsource
          · obtain ⟨rest, rfl⟩ := hdest
            rw [List.drop_left] at hp
            refine List.mem_append_right _ (List.mem_map.2 ⟨_, tree.listed _ hp, ?_⟩)
            rw [List.drop_left]
          · exact absurd rfl hp
          · exact List.mem_append_left _ (tree.listed p hp) }
  else none

theorem move_isSome (tree : DirectoryTree ν β) (source dest : List ν) :
    (tree.move source dest).isSome =
      (tree.movable source dest && tree.isDir dest.dropLast) := by
  unfold move
  split_ifs with h
  · simp [h.1, h.2]
  · cases hm : tree.movable source dest <;> simp_all

/-- The new directories are no obstacle to a move into the last of them. -/
theorem movable_makeDirs {tree tree' : DirectoryTree ν β} {source parent : List ν} (name : ν)
    (h : tree.makeDirs parent = some tree') (hsource : tree.node source ≠ none)
    (hparent : tree.node parent = none) :
    tree'.movable source (parent ++ [name]) = tree.movable source (parent ++ [name]) ∧
      tree'.isDir parent = true := by
  have hdest : tree.node (parent ++ [name]) = none := by
    by_contra hne
    exact exists_of_prefix (List.prefix_append parent [name]) hne hparent
  have hdest' : tree'.node (parent ++ [name]) = none := by
    rw [makeDirs_node h, if_neg, hdest]
    intro hle
    have hlen := hle.length_le
    simp only [List.length_append, List.length_singleton] at hlen
    omega
  have hparent' : tree'.node parent = some .dir := by
    rw [makeDirs_node h, if_pos (List.prefix_refl parent)]
  refine ⟨?_, isDir_iff.2 hparent'⟩
  simp [movable, isFile, hparent, hparent', hdest, hdest', makeDirs_frame h hsource]

theorem move_isSome_of_exists {tree : DirectoryTree ν β} {source parent : List ν} (name : ν)
    (hparent : tree.node parent ≠ none) :
    (tree.move source (parent ++ [name])).isSome = tree.movable source (parent ++ [name]) := by
  rw [move_isSome, List.dropLast_concat]
  cases hfile : tree.isFile parent with
  | false => rw [isDir_of_exists hparent hfile, Bool.and_true]
  | true => simp [movable, hfile]

end Moving

section Writing

variable [DecidableEq ν]

def put (tree : DirectoryTree ν β) (path : List ν) (content : β) : Option (DirectoryTree ν β) :=
  if h : path ≠ [] ∧ tree.isDir path.dropLast = true ∧ tree.isDir path = false then
    some
      { node p := if p = path then some (.file content) else tree.node p
        paths := path :: tree.paths
        root := by rw [if_neg h.1.symm, tree.root]
        parent := by
          intro p name hchild
          have hp : p ≠ path := by
            rintro rfl
            rw [if_neg (by simp)] at hchild
            have := isDir_iff.2 (tree.parent p name hchild)
            simp [h.2.2] at this
          rw [if_neg hp]
          split_ifs at hchild with hend
          · have hdir := isDir_iff.1 h.2.1
            rwa [← hend, List.dropLast_concat] at hdir
          · exact tree.parent p name hchild
        listed := by
          intro p hp
          split_ifs at hp with heq
          · exact heq ▸ List.mem_cons_self
          · exact List.mem_cons_of_mem _ (tree.listed p hp) }
  else none

end Writing

def empty (ν β : Type) [DecidableEq ν] : DirectoryTree ν β where
  node p := if p = [] then some .dir else none
  paths := [[]]
  root := rfl
  parent := by simp
  listed := by simp

end DirectoryTree
end Sandstar
