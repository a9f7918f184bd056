import Sandstar.FilePaths

set_option autoImplicit false

namespace Sandstar.FileTransfer
open SoxProtocol TreeRequests Machine

section Host

/-- What the operating system knows of the server: where temporary files go and where
    it was started. -/
structure Host where
  tempDir : String
  cwd : List Name

structure TreeState where
  tree : FileTree
  touched : List (List Name)

def Host.resolve (host : Host) (tree : FileTree) (path : String) : Option (List Name) :=
  if path = "" then none
  else tree.walk (if startsWith path "/" then [] else host.cwd) (pathSteps path)

def fileAt (t : Target) (tree : FileTree) (names : List Name) : Option (List UInt8) :=
  match tree.node names with
  | some (.file data) => if 2 * data.length ≤ t.usizeMax then some data else none
  | _ => none

theorem fileAt_length {t : Target} {tree : FileTree} {names : List Name} {data : List UInt8}
    (h : fileAt t tree names = some data) : 2 * data.length ≤ t.usizeMax := by
  unfold fileAt at h
  split at h
  · split_ifs at h with hlen
    cases h
    exact hlen
  · cases h

/-- The calls of the server. Those that change something get absolute paths. -/
def Host.system (host : Host) (t : Target) : FileSystem t TreeState where
  canonicalize s path := (host.resolve s.tree path).map pathString
  pathExists s path := (host.resolve s.tree path).isSome
  createDirAll s path :=
    match pathNames path with
    | none => (s, false)
    | some names => match s.tree.makeDirs names with
      | none => (s, false)
      | some tree => (⟨tree, s.touched ++ s.tree.missing names⟩, true)
  read s path := (host.resolve s.tree path).bind (fileAt t s.tree)
  write s path data :=
    match pathNames path with
    | none => (s, false)
    | some names => match s.tree.put names data with
      | none => (s, false)
      | some tree => (⟨tree, s.touched ++ [names]⟩, true)
  rename s source dest :=
    match pathNames source, pathNames dest with
    | some from', some to' => match s.tree.move from' to' with
      | none => (s, false)
      | some tree => (⟨tree, s.touched ++ [from', to']⟩, true)
    | _, _ => (s, false)
  tempDir := host.tempDir
  read_length s path data h := by
    obtain ⟨names, -, hread⟩ := Option.bind_eq_some_iff.1 h
    exact fileAt_length hread

def Inside (dirs : List String) (names : List Name) : Prop :=
  ∃ dir ∈ dirs, (startsWith dir "/" = true ∨ dir = "") ∧ pathComponents dir <+: names.map (·.text)

instance (dirs : List String) (names : List Name) : Decidable (Inside dirs names) :=
  inferInstanceAs (Decidable (∃ dir ∈ dirs, _ ∧ _))

theorem Inside.of_isPrefix {dirs : List String} {names names' : List Name} (h : Inside dirs names)
    (hle : names <+: names') : Inside dirs names' := by
  obtain ⟨dir, hdir, hroot, hpre⟩ := h
  exact ⟨dir, hdir, hroot, hpre.trans (hle.map _)⟩

def readDirs : List String := [kitsBaseDir, manifestsDir]

def Host.writeDirs (host : Host) (t : Target) (tree : FileTree) : List String :=
  allowedWriteDirs (host.system t) ⟨tree, []⟩

def Host.confinedReads (host : Host) (t : Target) : FileSystem t TreeState :=
  { host.system t with
    read s path := (host.resolve s.tree path).bind fun names =>
      if Inside readDirs names then fileAt t s.tree names else none
    read_length s path data h := by
      obtain ⟨names, -, hread⟩ := Option.bind_eq_some_iff.1 h
      split_ifs at hread
      exact fileAt_length hread }

/-- A request fails without a change, or all that it creates, renames or will write is
    inside the directories for writing, and it would do the same if it could read inside
    the directories for reading only. -/
def Confined {t : Target} (host : Host)
    (handler : FileSystem t TreeState → FileServer TreeState → SoxRequest →
      FileServer TreeState × SoxResponse)
    (tree : FileTree) (xfer : Option SoxFileXfer) (req : SoxRequest) : Prop :=
  let out := handler (host.system t) ⟨⟨tree, []⟩, xfer⟩ req
  (out.2.cmd = SoxCmd.errorByte ∧ out.1.fs.tree = tree) ∨
  ((∀ names ∈ out.1.fs.touched, Inside (host.writeDirs t tree) names) ∧
    (out.1.xfer = xfer ∨ ∀ file, out.1.xfer = some file → ∀ path, file.writePath = some path →
      ∃ names, pathNames path = some names ∧ Inside (host.writeDirs t tree) names) ∧
    handler (host.confinedReads t) ⟨⟨tree, []⟩, xfer⟩ req = out)

end Host

section Resolving

variable (host : Host) (t : Target)

theorem resolve_pathString (tree : FileTree) (names : List Name) :
    host.resolve tree (pathString names) =
      if tree.node names = none then none else some names := by
  have hslash : startsWith (pathString names) "/" = true := by
    simp [startsWith, pathString]
  have hne : pathString names ≠ "" := by
    intro h
    simp [startsWith, h] at hslash
  rw [Host.resolve, if_neg hne, if_pos hslash, pathSteps_pathString, DirectoryTree.walk_here]
  split_ifs with hnil hnode hnode
  · simp [hnil, tree.root] at hnode
  · rw [DirectoryTree.walk_here]
    simp [DirectoryTree.walk, hnil, tree.root]
  · rw [DirectoryTree.walk_down]
    simp [hnode]
  · rw [DirectoryTree.walk_down]
    simp [hnode]

theorem resolve_exists {tree : FileTree} {path : String} {names : List Name}
    (h : host.resolve tree path = some names) : tree.node names ≠ none := by
  unfold Host.resolve at h
  split_ifs at h
  · exact DirectoryTree.walk_exists h
  · exact DirectoryTree.walk_exists h

def accepted (dirs : List String) (names : List Name) : Bool :=
  dirs.any fun dir => startsWith (pathString names) dir

def Beside (dirs : List String) (names : List Name) : Prop :=
  ∃ dir last, pathString (dir ++ [last]) ∈ dirs ∧
    ∃ name rest, names = dir ++ name :: rest ∧ name ≠ last ∧ startsWith name.text last.text = true

theorem accepted_iff {dirs : List String} (names : List Name)
    (h : ∀ d ∈ dirs, ∃ dir last, d = pathString (dir ++ [last])) :
    accepted dirs names = true ↔ Inside dirs names ∨ Beside dirs names := by
  rw [accepted, List.any_eq_true]
  constructor
  · rintro ⟨d, hd, hstart⟩
    obtain ⟨dir, last, rfl⟩ := h d hd
    obtain ⟨name, rest, rfl, hname⟩ := (startsWith_pathString_iff _ _ _).1 hstart
    by_cases heq : name = last
    · refine .inl ⟨_, hd, .inl (by simp [startsWith, pathString]), ?_⟩
      rw [pathComponents_pathString, heq]
      simp
    · exact .inr ⟨dir, last, hd, name, rest, rfl, heq, hname⟩
  · rintro (⟨d, hd, -, hpre⟩ | ⟨dir, last, hd, name, rest, rfl, -, hname⟩)
    · obtain ⟨dir, last, rfl⟩ := h d hd
      rw [pathComponents_pathString,
        List.prefix_map_iff_of_injective Name.text_injective] at hpre
      obtain ⟨rest, rfl⟩ := hpre
      refine ⟨_, hd, (startsWith_pathString_iff _ _ _).2 ⟨last, rest, by simp, ?_⟩⟩
      simp [startsWith]
    · exact ⟨_, hd, (startsWith_pathString_iff _ _ _).2 ⟨name, rest, rfl, hname⟩⟩

theorem accepted_readDirs_iff (names : List Name) :
    accepted readDirs names = true ↔ Inside readDirs names ∨ Beside readDirs names := by
  refine accepted_iff names fun d hd => ?_
  rw [readDirs, List.mem_cons, List.mem_singleton] at hd
  have hetc : ∀ last : Name, pathString ([⟨"home", by decide⟩, ⟨"eacio", by decide⟩,
      ⟨"sandstar", by decide⟩, ⟨"etc", by decide⟩] ++ [last]) =
        "/home/eacio/sandstar/etc/" ++ last.text := by
    intro last
    rw [pathString_concat (by simp)]
    rfl
  rcases hd with rfl | rfl
  · exact ⟨_, _, (hetc ⟨"kits", by decide⟩).symm⟩
  · exact ⟨_, _, (hetc ⟨"manifests", by decide⟩).symm⟩

theorem validateReadPath_system {path : String} (h : hasTraversal path.toList = false)
    (s : TreeState) :
    validateReadPath (host.system t) s path = match host.resolve s.tree path with
      | none => .error "file not found"
      | some names =>
        if accepted readDirs names then .ok (pathString names) else .error "invalid path" := by
  rw [validateReadPath, if_neg (by simp [h])]
  have hcanonical : (host.system t).canonicalize s path =
      (host.resolve s.tree path).map pathString := rfl
  rw [hcanonical]
  cases host.resolve s.tree path with
  | none => rfl
  | some names => rfl

theorem validateWritePath_rejected {path : String} (s : TreeState)
    (h : ∀ parent name, hasTraversal path.toList = false →
      pathNames path ≠ some (parent ++ [name])) :
    validateWritePath (host.system t) s path = (s, .error "invalid path") := by
  rw [validateWritePath]
  by_cases htraversal : hasTraversal path.toList = true
  · rw [if_pos htraversal]
  · have hdown : hasTraversal path.toList = false := by simpa using htraversal
    obtain ⟨names, hnames, hcomps⟩ := pathComponents_names hdown
    rw [if_neg htraversal, splitPath_names hcomps]
    cases names using List.reverseRecOn with
    | nil => rfl
    | append_singleton parent name _ => exact absurd hnames (h parent name hdown)

def reachable (tree : FileTree) (parent : List Name) : Bool :=
  tree.node parent ≠ none || tree.canMake parent

def TreeState.reach (s : TreeState) (parent : List Name) : TreeState :=
  if s.tree.node parent = none then
    match s.tree.makeDirs parent with
    | none => s
    | some tree => ⟨tree, s.touched ++ s.tree.missing parent⟩
  else s

theorem validateWritePath_system {path : String} {parent : List Name} {name : Name}
    (h : hasTraversal path.toList = false) (hnames : pathNames path = some (parent ++ [name]))
    (s : TreeState) :
    validateWritePath (host.system t) s path =
      if reachable s.tree parent then
        (s.reach parent, if accepted (host.writeDirs t s.tree) parent then
          .ok (pathString (parent ++ [name])) else .error "invalid path")
      else (s, .error "cannot create directory") := by
  obtain ⟨names, hnames', hcomps⟩ := pathComponents_names h
  cases hnames.symm.trans hnames'
  have hsplit : splitPath path = some (pathString parent, name.text) := by
    simp [splitPath_names hcomps]
  have hexists : (host.system t).pathExists s (pathString parent) =
      decide (s.tree.node parent ≠ none) := by
    change (host.resolve s.tree (pathString parent)).isSome = _
    rw [resolve_pathString]
    split_ifs with hnode <;> simp [hnode]
  have hmake : (host.system t).createDirAll s (pathString parent) =
      match s.tree.makeDirs parent with
      | none => (s, false)
      | some tree => (⟨tree, s.touched ++ s.tree.missing parent⟩, true) := by
    change (match pathNames (pathString parent) with
      | none => (s, false)
      | some names => _) = _
    rw [pathNames_pathString]
  have hcanon : ∀ tree touched, tree.node parent ≠ none →
      (host.system t).canonicalize ⟨tree, touched⟩ (pathString parent) =
        some (pathString parent) := by
    intro tree touched hnode
    change (host.resolve tree (pathString parent)).map pathString = _
    rw [resolve_pathString, if_neg hnode]
    rfl
  have hdirs : allowedWriteDirs (host.system t) s = host.writeDirs t s.tree := rfl
  rw [validateWritePath, if_neg (by simp [h]), hsplit]
  dsimp only
  rw [hexists, hmake, hdirs]
  by_cases hnode : s.tree.node parent = none
  · cases hmade : s.tree.makeDirs parent with
    | none =>
      have hcan : s.tree.canMake parent = false := by
        rw [← DirectoryTree.makeDirs_isSome, hmade]
        rfl
      simp [hnode, reachable, hcan]
    | some tree =>
      have hcan : s.tree.canMake parent = true := by
        rw [← DirectoryTree.makeDirs_isSome, hmade]
        rfl
      have hthere : tree.node parent ≠ none := by
        rw [DirectoryTree.makeDirs_node hmade, if_pos (List.prefix_refl parent)]
        simp
      simp [hnode, reachable, hcan, TreeState.reach, hmade, hcanon _ _ hthere, accepted,
        joinPath_pathString]
      split_ifs <;> rfl
  · simp [hnode, reachable, TreeState.reach, hcanon _ _ hnode, accepted, joinPath_pathString]
    split_ifs <;> rfl

end Resolving

end Sandstar.FileTransfer
