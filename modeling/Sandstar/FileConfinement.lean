import Sandstar.FileTrees
import Sandstar.FileChunks

set_option autoImplicit false

/-!
# Where file requests may reach

Opening and renaming files over a tree of directories. The allowed directories are
compared as strings, so a directory beside an allowed one whose name goes on where the
other ends is taken for it, and missing directories are made before the comparison.
-/
namespace Sandstar.FileTransfer
open SoxProtocol TreeRequests Machine Utf8

section Conditions

variable (host : Host) (t : Target)

def MakesInside (dirs : List String) (tree : FileTree) (parent : List Name) : Prop :=
  tree.node parent = none → tree.canMake parent = true →
    ∀ names ∈ tree.missing parent, Inside dirs names

def GetConfined (tree : FileTree) (path : String) : Prop :=
  ∀ names, host.resolve tree path = some names → (fileAt t tree names).isSome = true →
    Beside readDirs names → Inside readDirs names

def PutConfined (tree : FileTree) (path : String) (fileSize : ℕ) : Prop :=
  ∀ parent name, pathNames path = some (parent ++ [name]) →
    MakesInside (host.writeDirs t tree) tree parent ∧
      (tree.node parent ≠ none → accepted (host.writeDirs t tree) parent = true →
        fileSize ≤ maxPutSize → Inside (host.writeDirs t tree) (parent ++ [name]))

def OpenConfined (tree : FileTree) (xfer : Option SoxFileXfer) (req : SoxRequest) : Prop :=
  let o := readOpenRequest t req.payload
  ∀ path, resolveSoxUri o.uri = .ok path → xfer = none → hasTraversal path.toList = false →
    (o.method = "g" → GetConfined host t tree path) ∧
      (o.method = "p" → PutConfined host t tree path o.fileSize)

def MovesInside (dirs : List String) (tree : FileTree) (source : List Name) (toPath : String) :
    Prop :=
  hasTraversal toPath.toList = false →
    ∀ parent name, pathNames toPath = some (parent ++ [name]) →
      MakesInside dirs tree parent ∧
        (reachable tree parent = true → accepted dirs parent = true →
          tree.movable source (parent ++ [name]) = true →
          Inside dirs source ∧ Inside dirs (parent ++ [name]))

def renameUris (req : SoxRequest) : String × String :=
  let r : SoxReader := ⟨req.payload⟩
  (r.readStr.1.getD "", r.readStr.2.readStr.1.getD "")

/-- The same for the two paths of a rename. The second one is looked at where the first
    one names an entry. -/
def RenameConfined (tree : FileTree) (req : SoxRequest) : Prop :=
  let dirs := host.writeDirs t tree
  (renameUris req).1 ≠ "" → (renameUris req).2 ≠ "" →
    ∀ fromPath, resolveSoxUri (renameUris req).1 = .ok fromPath →
    ∀ toPath, resolveSoxUri (renameUris req).2 = .ok toPath →
    hasTraversal fromPath.toList = false →
    ∀ parent name, pathNames fromPath = some (parent ++ [name]) →
      MakesInside dirs tree parent ∧
        (accepted dirs parent = true → tree.node (parent ++ [name]) ≠ none →
          MovesInside dirs tree (parent ++ [name]) toPath)

end Conditions

section Reaching

variable {tree : FileTree} {touched : List (List Name)} {parent : List Name}

theorem reach_of_exists (h : tree.node parent ≠ none) :
    TreeState.reach ⟨tree, touched⟩ parent = ⟨tree, touched⟩ := if_neg h

theorem reach_of_missing (touched : List (List Name)) (h : tree.node parent = none) (hcan : reachable tree parent = true) :
    ∃ tree', tree.makeDirs parent = some tree' ∧
      TreeState.reach ⟨tree, touched⟩ parent = ⟨tree', touched ++ tree.missing parent⟩ := by
  have hmade : (tree.makeDirs parent).isSome = true := by
    rw [DirectoryTree.makeDirs_isSome]
    simpa [reachable, h] using hcan
  obtain ⟨tree', htree'⟩ := Option.isSome_iff_exists.1 hmade
  exact ⟨tree', htree', by rw [TreeState.reach, if_pos h, htree']⟩

theorem canMake_of_missing (h : tree.node parent = none) :
    reachable tree parent = tree.canMake parent := by
  simp [reachable, h]

/-- Reaching a directory changes the tree unless it was there. -/
theorem reach_tree_ne (h : tree.node parent = none) (hcan : reachable tree parent = true) :
    (TreeState.reach ⟨tree, touched⟩ parent).tree ≠ tree := by
  obtain ⟨tree', hmade, heq⟩ := reach_of_missing touched h hcan
  rw [heq]
  intro hsame
  have hnode := DirectoryTree.makeDirs_node hmade parent
  rw [show tree' = tree from hsame, h, if_pos (List.prefix_refl parent)] at hnode
  cases hnode

theorem reach_touched_inside (dirs : List String) (hcan : reachable tree parent = true) :
    (∀ names ∈ (TreeState.reach ⟨tree, []⟩ parent).touched, Inside dirs names) ↔
      MakesInside dirs tree parent := by
  by_cases h : tree.node parent = none
  · obtain ⟨tree', -, heq⟩ := reach_of_missing [] h hcan
    rw [heq]
    rw [canMake_of_missing h] at hcan
    exact ⟨fun hall _ _ => hall, fun hall => hall h hcan⟩
  · rw [reach_of_exists h]
    exact ⟨fun _ hnone => absurd hnone h, fun _ names hnames => absurd hnames List.not_mem_nil⟩

theorem makesInside_of_unreachable {dirs : List String} (h : reachable tree parent = false) :
    MakesInside dirs tree parent := by
  intro hnode hcan
  rw [canMake_of_missing hnode, hcan] at h
  cases h

theorem inside_of_made {dirs : List String} (h : MakesInside dirs tree parent)
    (hnode : tree.node parent = none) (hcan : reachable tree parent = true) :
    Inside dirs parent :=
  h hnode (canMake_of_missing hnode ▸ hcan) parent
    (DirectoryTree.mem_missing.2 ⟨List.prefix_refl parent, hnode⟩)

end Reaching

section Opening

variable (host : Host) (t : Target)

/-- The part of `Confined` about changes. -/
def Kept (dirs : List String) (tree : FileTree) (out : FileServer TreeState × SoxResponse) : Prop :=
  (out.2.cmd = SoxCmd.errorByte ∧ out.1.fs.tree = tree) ∨
    ∀ names ∈ out.1.fs.touched, Inside dirs names

/-- An answer that touched no more than the way to a directory. -/
theorem kept_reach_iff {dirs : List String} {tree : FileTree} {parent : List Name}
    {xfer : Option SoxFileXfer} {resp : SoxResponse} (hcan : reachable tree parent = true) :
    Kept dirs tree (⟨TreeState.reach ⟨tree, []⟩ parent, xfer⟩, resp) ↔
      MakesInside dirs tree parent := by
  rw [← reach_touched_inside _ hcan, Kept]
  constructor
  · rintro (⟨-, hsame⟩ | hall)
    · by_cases hnode : tree.node parent = none
      · exact absurd hsame (reach_tree_ne hnode hcan)
      · rw [reach_of_exists hnode]
        exact fun names hnames => absurd hnames List.not_mem_nil
    · exact hall
  · exact .inr

theorem confined_reach_iff {tree : FileTree} {parent : List Name} {resp : SoxResponse}
    {handler : FileSystem t TreeState → FileServer TreeState → SoxRequest →
      FileServer TreeState × SoxResponse} {xfer : Option SoxFileXfer} {req : SoxRequest}
    (hcan : reachable tree parent = true)
    (hout : handler (host.system t) ⟨⟨tree, []⟩, xfer⟩ req =
      (⟨TreeState.reach ⟨tree, []⟩ parent, xfer⟩, resp))
    (hreads : handler (host.confinedReads t) ⟨⟨tree, []⟩, xfer⟩ req =
      (⟨TreeState.reach ⟨tree, []⟩ parent, xfer⟩, resp)) :
    Confined host handler tree xfer req ↔ MakesInside (host.writeDirs t tree) tree parent := by
  have hkept : Kept (host.writeDirs t tree) tree
      (⟨TreeState.reach ⟨tree, []⟩ parent, xfer⟩, resp) ↔
        MakesInside (host.writeDirs t tree) tree parent := kept_reach_iff hcan
  rw [← hkept, Confined, hout, hreads]
  simp [Kept]

theorem confined_of_unchanged {tree : FileTree} (resp : SoxResponse)
    {handler : FileSystem t TreeState → FileServer TreeState → SoxRequest →
      FileServer TreeState × SoxResponse} {xfer : Option SoxFileXfer} {req : SoxRequest}
    (herr : resp.cmd = SoxCmd.errorByte)
    (hout : handler (host.system t) ⟨⟨tree, []⟩, xfer⟩ req = (⟨⟨tree, []⟩, xfer⟩, resp)) :
    Confined host handler tree xfer req := by
  rw [Confined, hout]
  exact .inl ⟨herr, rfl⟩

theorem handleFileOpen_get {S : Type} {t : Target} {sys : FileSystem t S} {fs : S}
    {req : SoxRequest} {path canonical : String}
    (huri : resolveSoxUri (readOpenRequest t req.payload).uri = .ok path)
    (hget : (readOpenRequest t req.payload).method = "g")
    (hvalid : validateReadPath sys fs path = .ok canonical) :
    handleFileOpen sys ⟨fs, none⟩ req = match sys.read fs canonical with
      | none => (⟨fs, none⟩, errorMsg req "file not found")
      | some data =>
        let file := openedGet (readOpenRequest t req.payload) data
        (⟨fs, some file⟩, openReply req file.fileSize file.chunkSize) := by
  unfold handleFileOpen
  simp only [huri, hget, hvalid, Option.isSome_none, Bool.false_eq_true, if_false, if_true]
  rfl

theorem handleFileOpen_put_error {S : Type} {t : Target} {sys : FileSystem t S} {fs fs' : S}
    {req : SoxRequest} {path msg : String}
    (huri : resolveSoxUri (readOpenRequest t req.payload).uri = .ok path)
    (hput : (readOpenRequest t req.payload).method = "p")
    (hvalid : validateWritePath sys fs path = (fs', .error msg)) :
    handleFileOpen sys ⟨fs, none⟩ req = (⟨fs', none⟩, errorMsg req msg) := by
  unfold handleFileOpen
  have hnot : ("p" : String) ≠ "g" := by decide
  simp only [huri, hput, hvalid, hnot, Option.isSome_none, Bool.false_eq_true, if_false, if_true]

theorem handleFileOpen_put_ok {S : Type} {t : Target} {sys : FileSystem t S} {fs fs' : S}
    {req : SoxRequest} {path writePath : String}
    (huri : resolveSoxUri (readOpenRequest t req.payload).uri = .ok path)
    (hput : (readOpenRequest t req.payload).method = "p")
    (hvalid : validateWritePath sys fs path = (fs', .ok writePath)) :
    handleFileOpen sys ⟨fs, none⟩ req =
      if maxPutSize < (readOpenRequest t req.payload).fileSize then
        (⟨fs', none⟩, errorMsg req "too big")
      else (⟨fs', some (openedPut (readOpenRequest t req.payload) writePath)⟩,
        openReply req (readOpenRequest t req.payload).fileSize
          (readOpenRequest t req.payload).chunkSize) := by
  unfold handleFileOpen
  have hnot : ("p" : String) ≠ "g" := by decide
  simp only [huri, hput, hvalid, hnot, Option.isSome_none, Bool.false_eq_true, if_false, if_true]
  rfl

theorem get_confined_iff {tree : FileTree} {req : SoxRequest} {path : String}
    (huri : resolveSoxUri (readOpenRequest t req.payload).uri = .ok path)
    (hdown : hasTraversal path.toList = false)
    (hget : (readOpenRequest t req.payload).method = "g") :
    Confined host (handleFileOpen (t := t)) tree none req ↔ GetConfined host t tree path := by
  have hread : validateReadPath (host.confinedReads t) ⟨tree, []⟩ path =
      validateReadPath (host.system t) ⟨tree, []⟩ path := rfl
  have hvalid := validateReadPath_system host t hdown ⟨tree, []⟩
  unfold GetConfined
  cases hnames : host.resolve tree path with
  | none =>
    rw [hnames] at hvalid
    refine iff_of_true (confined_of_unchanged host t (errorMsg req "file not found") rfl ?_)
      fun names h => absurd h (by simp)
    unfold handleFileOpen
    simp [huri, hget, hvalid]
  | some names =>
    rw [hnames] at hvalid
    by_cases hacc : accepted readDirs names = true
    · replace hvalid := hvalid.trans (if_pos hacc)
      have hout := handleFileOpen_get huri hget hvalid
      have hconf := handleFileOpen_get huri hget (hread.trans hvalid)
      have hresolve : host.resolve tree (pathString names) = some names := by
        rw [resolve_pathString, if_neg (resolve_exists host hnames)]
      have hsys : (host.system t).read ⟨tree, []⟩ (pathString names) = fileAt t tree names := by
        change (host.resolve tree (pathString names)).bind _ = _
        rw [hresolve]
        rfl
      have hmasked : (host.confinedReads t).read ⟨tree, []⟩ (pathString names) =
          if Inside readDirs names then fileAt t tree names else none := by
        change (host.resolve tree (pathString names)).bind _ = _
        rw [hresolve]
        rfl
      rw [hsys] at hout
      rw [hmasked] at hconf
      cases hdata : fileAt t tree names with
      | none =>
        rw [hdata] at hout
        refine iff_of_true (confined_of_unchanged host t _ rfl hout) fun names' h hsome => ?_
        cases h
        simp [hdata] at hsome
      | some data =>
        rw [hdata] at hout hconf
        by_cases hin : Inside readDirs names
        · rw [if_pos hin] at hconf
          refine iff_of_true ?_ fun names' h _ _ => Option.some.inj h ▸ hin
          rw [Confined, hout, hconf]
          refine .inr ⟨fun names h => absurd h List.not_mem_nil, .inr ?_, rfl⟩
          intro file hfile writePath hpath
          cases hfile
          cases hpath
        · rw [if_neg hin] at hconf
          have hbeside := ((accepted_readDirs_iff names).1 hacc).resolve_left hin
          refine iff_of_false ?_ fun h => hin (h names rfl (by simp [hdata]) hbeside)
          rw [Confined, hout, hconf]
          rintro (⟨herr, -⟩ | ⟨-, -, hsame⟩)
          · cases herr
          · cases hsame
    · refine iff_of_true (confined_of_unchanged host t (errorMsg req "invalid path") rfl ?_)
        fun names' h _ hbeside => ?_
      · unfold handleFileOpen
        simp [huri, hget, hvalid, hacc]
      · cases h
        exact absurd ((accepted_readDirs_iff names).2 (.inr hbeside)) hacc

theorem forall_split_iff {path : String} {parent : List Name} {name : Name}
    (h : pathNames path = some (parent ++ [name])) (P : List Name → Name → Prop) :
    (∀ parent' name', pathNames path = some (parent' ++ [name']) → P parent' name') ↔
      P parent name := by
  refine ⟨fun hall => hall parent name h, fun hP parent' name' h' => ?_⟩
  rw [h, Option.some.injEq] at h'
  obtain ⟨rfl, hname⟩ := List.append_inj' h' rfl
  cases hname
  exact hP

variable {tree : FileTree} {req : SoxRequest} {path : String} {parent : List Name} {name : Name}

theorem put_refused_iff (huri : resolveSoxUri (readOpenRequest t req.payload).uri = .ok path)
    (hdown : hasTraversal path.toList = false)
    (hput : (readOpenRequest t req.payload).method = "p")
    (hnames : pathNames path = some (parent ++ [name])) (hcan : reachable tree parent = true)
    (hrefused : accepted (host.writeDirs t tree) parent = true →
      maxPutSize < (readOpenRequest t req.payload).fileSize) :
    Confined host (handleFileOpen (t := t)) tree none req ↔
      MakesInside (host.writeDirs t tree) tree parent := by
  have hvalid := (validateWritePath_system host t hdown hnames ⟨tree, []⟩).trans (if_pos hcan)
  have hmasked : validateWritePath (host.confinedReads t) ⟨tree, []⟩ path =
    validateWritePath (host.system t) ⟨tree, []⟩ path := rfl
  cases hacc : accepted (host.writeDirs t tree) parent with
  | false =>
    simp only [hacc, Bool.false_eq_true, if_false] at hvalid
    exact confined_reach_iff host t hcan
      (handleFileOpen_put_error huri hput hvalid)
      (handleFileOpen_put_error huri hput (hmasked.trans hvalid))
  | true =>
    simp only [hacc, if_true] at hvalid
    exact confined_reach_iff host t hcan
      ((handleFileOpen_put_ok huri hput hvalid).trans (if_pos (hrefused hacc)))
      ((handleFileOpen_put_ok huri hput (hmasked.trans hvalid)).trans (if_pos (hrefused hacc)))

theorem put_opened_iff (huri : resolveSoxUri (readOpenRequest t req.payload).uri = .ok path)
    (hdown : hasTraversal path.toList = false)
    (hput : (readOpenRequest t req.payload).method = "p")
    (hnames : pathNames path = some (parent ++ [name])) (hcan : reachable tree parent = true)
    (hacc : accepted (host.writeDirs t tree) parent = true)
    (hfits : ¬ maxPutSize < (readOpenRequest t req.payload).fileSize) :
    Confined host (handleFileOpen (t := t)) tree none req ↔
      MakesInside (host.writeDirs t tree) tree parent ∧
        (tree.node parent ≠ none → Inside (host.writeDirs t tree) (parent ++ [name])) := by
  have hvalid := (validateWritePath_system host t hdown hnames ⟨tree, []⟩).trans (if_pos hcan)
  simp only [hacc, if_true] at hvalid
  have hmasked : validateWritePath (host.confinedReads t) ⟨tree, []⟩ path =
    validateWritePath (host.system t) ⟨tree, []⟩ path := rfl
  rw [Confined, (handleFileOpen_put_ok huri hput hvalid).trans (if_neg hfits),
    (handleFileOpen_put_ok huri hput (hmasked.trans hvalid)).trans (if_neg hfits)]
  constructor
  · rintro (⟨herr, -⟩ | ⟨htouched, hpath, -⟩)
    · cases herr
    · refine ⟨(reach_touched_inside _ hcan).1 htouched, fun _ => ?_⟩
      rcases hpath with hsame | hpath
      · cases hsame
      · obtain ⟨names, hnames', hin⟩ := hpath _ rfl _ rfl
        rw [pathNames_pathString] at hnames'
        exact Option.some.inj hnames' ▸ hin
  · rintro ⟨hmakes, hin⟩
    refine .inr ⟨(reach_touched_inside _ hcan).2 hmakes, .inr ?_, rfl⟩
    intro file hfile writePath hwrite
    cases hfile
    cases hwrite
    refine ⟨parent ++ [name], pathNames_pathString _, ?_⟩
    by_cases hnode : tree.node parent = none
    · exact (inside_of_made hmakes hnode hcan).of_isPrefix (List.prefix_append _ _)
    · exact hin hnode

theorem put_confined_iff (huri : resolveSoxUri (readOpenRequest t req.payload).uri = .ok path)
    (hdown : hasTraversal path.toList = false)
    (hput : (readOpenRequest t req.payload).method = "p") :
    Confined host (handleFileOpen (t := t)) tree none req ↔
      PutConfined host t tree path (readOpenRequest t req.payload).fileSize := by
  unfold PutConfined
  by_cases hsplit : ∃ parent name, pathNames path = some (parent ++ [name])
  · obtain ⟨parent, name, hnames⟩ := hsplit
    rw [forall_split_iff hnames]
    cases hcan : reachable tree parent with
    | false =>
      have hthere : tree.node parent = none := by
        by_contra hne
        simp [reachable, hne] at hcan
      have hvalid := (validateWritePath_system host t hdown hnames ⟨tree, []⟩).trans
        (if_neg (by simp [hcan]))
      exact iff_of_true (confined_of_unchanged host t (errorMsg req "cannot create directory") rfl
        (handleFileOpen_put_error huri hput hvalid))
        ⟨makesInside_of_unreachable hcan, fun h => absurd hthere h⟩
    | true =>
      by_cases hopened : accepted (host.writeDirs t tree) parent = true ∧
          ¬ maxPutSize < (readOpenRequest t req.payload).fileSize
      · rw [put_opened_iff host t huri hdown hput hnames hcan hopened.1 hopened.2]
        simp [hopened.1, Nat.le_of_not_lt hopened.2]
      · have hrefused : accepted (host.writeDirs t tree) parent = true →
            maxPutSize < (readOpenRequest t req.payload).fileSize :=
          fun hacc => by_contra fun hfits => hopened ⟨hacc, hfits⟩
        rw [put_refused_iff host t huri hdown hput hnames hcan hrefused]
        refine ⟨fun h => ⟨h, fun _ hacc hfits => ?_⟩, fun h => h.1⟩
        exact absurd (hrefused hacc) (Nat.not_lt.2 hfits)
  · have hvalid : validateWritePath (host.system t) ⟨tree, []⟩ path = _ :=
      validateWritePath_rejected host t ⟨tree, []⟩ fun parent name _ h => hsplit ⟨parent, name, h⟩
    exact iff_of_true (confined_of_unchanged host t (errorMsg req "invalid path") rfl
      (handleFileOpen_put_error huri hput hvalid))
      fun parent name h => absurd ⟨parent, name, h⟩ hsplit

theorem open_confined_iff (tree : FileTree) (xfer : Option SoxFileXfer) (req : SoxRequest) :
    Confined host (handleFileOpen (t := t)) tree xfer req ↔ OpenConfined host t tree xfer req := by
  unfold OpenConfined
  dsimp only
  cases huri : resolveSoxUri (readOpenRequest t req.payload).uri with
  | error msg =>
    refine iff_of_true (confined_of_unchanged host t (errorMsg req msg) rfl ?_)
      fun path h => absurd h (by simp)
    unfold handleFileOpen
    simp [huri]
  | ok path =>
    cases xfer with
    | some file =>
      refine iff_of_true (confined_of_unchanged host t (errorMsg req "busy") rfl ?_)
        fun _ _ h => absurd h (by simp)
      unfold handleFileOpen
      simp [huri]
    | none =>
      simp only [Except.ok.injEq, forall_eq', forall_const]
      by_cases hget : (readOpenRequest t req.payload).method = "g"
      · cases hdown : hasTraversal path.toList with
        | true =>
          refine iff_of_true (confined_of_unchanged host t (errorMsg req "invalid path") rfl ?_)
            fun h => absurd h (by simp)
          unfold handleFileOpen
          simp [huri, hget, validateReadPath, hdown]
        | false =>
          rw [get_confined_iff host t huri hdown hget]
          simp [hget]
      · by_cases hput : (readOpenRequest t req.payload).method = "p"
        · cases hdown : hasTraversal path.toList with
          | true =>
            have hvalid : validateWritePath (host.system t) ⟨tree, []⟩ path = _ :=
              validateWritePath_rejected host t ⟨tree, []⟩ fun _ _ h => by simp [hdown] at h
            exact iff_of_true (confined_of_unchanged host t (errorMsg req "invalid path") rfl
              (handleFileOpen_put_error huri hput hvalid)) fun h => absurd h (by simp)
          | false =>
            rw [put_confined_iff host t huri hdown hput]
            simp [hput]
        · refine iff_of_true (confined_of_unchanged host t (errorMsg req "bad method") rfl ?_)
            fun _ => ⟨fun h => absurd h hget, fun h => absurd h hput⟩
          unfold handleFileOpen
          simp [huri, hget, hput]

end Opening

section Renaming

variable (host : Host) (t : Target)

def renameInto {t : Target} {S : Type} (sys : FileSystem t S) (s : FileServer S) (req : SoxRequest)
    (source toPath : String) : FileServer S × SoxResponse :=
  match validateWritePath sys s.fs toPath with
  | (fs, .error msg) => ({ s with fs := fs }, errorMsg req msg)
  | (fs, .ok dest) => match sys.rename fs source dest with
    | (fs, true) => ({ s with fs := fs }, SoxResponse.success .fileRename req.reqId)
    | (fs, false) => ({ s with fs := fs }, errorMsg req "rename failed")

def renameFrom {t : Target} {S : Type} (sys : FileSystem t S) (s : FileServer S) (req : SoxRequest)
    (fromPath toPath : String) : FileServer S × SoxResponse :=
  match validateWritePath sys s.fs fromPath with
  | (fs, .error msg) => ({ s with fs := fs }, errorMsg req msg)
  | (fs, .ok source) =>
    if !sys.pathExists fs source then ({ s with fs := fs }, errorMsg req "not found")
    else renameInto sys { s with fs := fs } req source toPath

theorem handleFileRename_eq {t : Target} {S : Type} (sys : FileSystem t S) (s : FileServer S)
    (req : SoxRequest) :
    handleFileRename sys s req =
      if (renameUris req).1 = "" ∨ (renameUris req).2 = "" then (s, errorMsg req "empty path")
      else match resolveSoxUri (renameUris req).1 with
        | .error msg => (s, errorMsg req msg)
        | .ok fromPath => match resolveSoxUri (renameUris req).2 with
          | .error msg => (s, errorMsg req msg)
          | .ok toPath => renameFrom sys s req fromPath toPath := by
  rfl

theorem rename_move (s : TreeState) (source dest : List Name) :
    (host.system t).rename s (pathString source) (pathString dest) =
      match s.tree.move source dest with
      | none => (s, false)
      | some tree => (⟨tree, s.touched ++ [source, dest]⟩, true) := by
  dsimp only [Host.system]
  rewrite [pathNames_pathString, pathNames_pathString]
  rfl

theorem move_reach {tree : FileTree} {source parent : List Name} (name : Name)
    (hsource : tree.node source ≠ none) (hcan : reachable tree parent = true) :
    ((TreeState.reach ⟨tree, []⟩ parent).tree.move source (parent ++ [name])).isSome =
      tree.movable source (parent ++ [name]) := by
  by_cases hnode : tree.node parent = none
  · obtain ⟨tree', hmade, heq⟩ := reach_of_missing [] hnode hcan
    obtain ⟨hmovable, hdir⟩ := DirectoryTree.movable_makeDirs name hmade hsource hnode
    rw [heq, DirectoryTree.move_isSome, List.dropLast_concat, hmovable, hdir, Bool.and_true]
  · rw [reach_of_exists hnode]
    exact DirectoryTree.move_isSome_of_exists name hnode

theorem renameInto_kept_iff {tree : FileTree} {source : List Name} {toPath : String}
    (xfer : Option SoxFileXfer) (req : SoxRequest) (hsource : tree.node source ≠ none) :
    Kept (host.writeDirs t tree) tree
        (renameInto (host.system t) ⟨⟨tree, []⟩, xfer⟩ req (pathString source) toPath) ↔
      MovesInside (host.writeDirs t tree) tree source toPath := by
  unfold MovesInside
  by_cases hsplit : hasTraversal toPath.toList = false ∧
      ∃ parent name, pathNames toPath = some (parent ++ [name])
  · obtain ⟨hdown, parent, name, hnames⟩ := hsplit
    have hvalid := validateWritePath_system host t hdown hnames ⟨tree, []⟩
    simp only [hdown, forall_const]
    rw [forall_split_iff hnames, renameInto, hvalid]
    cases hcan : reachable tree parent with
    | false =>
      simp only [Bool.false_eq_true, if_false, false_implies, and_true]
      exact iff_of_true (.inl ⟨rfl, rfl⟩) (makesInside_of_unreachable hcan)
    | true =>
      cases hacc : accepted (host.writeDirs t tree) parent with
      | false =>
        simp only [if_true, Bool.false_eq_true, if_false, false_implies, implies_true, and_true]
        exact kept_reach_iff hcan
      | true =>
        simp only [if_true, forall_const]
        rw [rename_move]
        have hmove := move_reach name hsource hcan
        cases hmoved : (TreeState.reach ⟨tree, []⟩ parent).tree.move source (parent ++ [name]) with
        | none =>
          rw [hmoved] at hmove
          rw [← hmove]
          simp only [Option.isSome_none, Bool.false_eq_true, false_implies, and_true]
          exact kept_reach_iff hcan
        | some tree' =>
          rw [hmoved] at hmove
          rw [← hmove, ← reach_touched_inside _ hcan]
          simp only [Option.isSome_some, forall_const]
          constructor
          · rintro (⟨herr, -⟩ | hall)
            · cases herr
            · exact ⟨fun names hnames => hall names (List.mem_append_left _ hnames),
                hall source (by simp), hall (parent ++ [name]) (by simp)⟩
          · rintro ⟨hmade, hin, hin'⟩
            refine .inr fun names hnames => ?_
            simp only [List.mem_append, List.mem_cons, List.not_mem_nil, or_false] at hnames
            rcases hnames with hnames | rfl | rfl
            · exact hmade names hnames
            · exact hin
            · exact hin'
  · have hvalid : validateWritePath (host.system t) ⟨tree, []⟩ toPath = _ :=
      validateWritePath_rejected host t ⟨tree, []⟩ fun parent name hdown h =>
        hsplit ⟨hdown, parent, name, h⟩
    refine iff_of_true ?_ fun hdown parent name h => absurd ⟨hdown, parent, name, h⟩ hsplit
    rw [renameInto, hvalid]
    exact .inl ⟨rfl, rfl⟩

theorem reach_node_missing {tree : FileTree} {parent : List Name} (name : Name)
    (h : tree.node parent = none) (hcan : reachable tree parent = true) :
    (TreeState.reach ⟨tree, []⟩ parent).tree.node (parent ++ [name]) = none := by
  obtain ⟨tree', hmade, heq⟩ := reach_of_missing [] h hcan
  have hchild : tree.node (parent ++ [name]) = none := by
    by_contra hne
    exact DirectoryTree.exists_of_prefix (List.prefix_append parent [name]) hne h
  rw [heq, DirectoryTree.makeDirs_node hmade, if_neg, hchild]
  intro hle
  have hlen := hle.length_le
  simp only [List.length_append, List.length_singleton] at hlen
  omega

theorem rename_confined_kept (tree : FileTree) (xfer : Option SoxFileXfer) (req : SoxRequest) :
    Confined host (handleFileRename (t := t)) tree xfer req ↔
      Kept (host.writeDirs t tree) tree
        (handleFileRename (host.system t) ⟨⟨tree, []⟩, xfer⟩ req) := by
  have hxfer := handleFileRename_xfer (host.system t) ⟨⟨tree, []⟩, xfer⟩ req
  have hreads : handleFileRename (host.confinedReads t) ⟨⟨tree, []⟩, xfer⟩ req =
      handleFileRename (host.system t) ⟨⟨tree, []⟩, xfer⟩ req := rfl
  rw [Confined, Kept, hreads]
  simp [hxfer]

theorem pathExists_pathString (s : TreeState) (names : List Name) :
    (host.system t).pathExists s (pathString names) = decide (s.tree.node names ≠ none) := by
  change (host.resolve s.tree (pathString names)).isSome = _
  rw [resolve_pathString]
  split_ifs with hnode <;> simp [hnode]

theorem renameFrom_kept_iff {tree : FileTree} {fromPath toPath : String}
    (xfer : Option SoxFileXfer) (req : SoxRequest) :
    Kept (host.writeDirs t tree) tree
        (renameFrom (host.system t) ⟨⟨tree, []⟩, xfer⟩ req fromPath toPath) ↔
      (hasTraversal fromPath.toList = false →
        ∀ parent name, pathNames fromPath = some (parent ++ [name]) →
          MakesInside (host.writeDirs t tree) tree parent ∧
            (accepted (host.writeDirs t tree) parent = true →
              tree.node (parent ++ [name]) ≠ none →
              MovesInside (host.writeDirs t tree) tree (parent ++ [name]) toPath)) := by
  by_cases hsplit : hasTraversal fromPath.toList = false ∧
      ∃ parent name, pathNames fromPath = some (parent ++ [name])
  swap
  · have hvalid : validateWritePath (host.system t) ⟨tree, []⟩ fromPath = _ :=
      validateWritePath_rejected host t ⟨tree, []⟩ fun parent name hdown h =>
        hsplit ⟨hdown, parent, name, h⟩
    refine iff_of_true ?_ fun hdown parent name h => absurd ⟨hdown, parent, name, h⟩ hsplit
    rw [renameFrom, hvalid]
    exact .inl ⟨rfl, rfl⟩
  obtain ⟨hdown, parent, name, hnames⟩ := hsplit
  have hvalid := validateWritePath_system host t hdown hnames ⟨tree, []⟩
  have hchild : tree.node parent = none → tree.node (parent ++ [name]) = none := fun hmissing =>
    by_contra fun hne =>
      DirectoryTree.exists_of_prefix (List.prefix_append parent [name]) hne hmissing
  simp only [hdown, forall_const]
  rw [forall_split_iff hnames, renameFrom, hvalid]
  cases hcan : reachable tree parent with
  | false =>
    have hmissing : tree.node parent = none := by
      by_contra hne
      simp [reachable, hne] at hcan
    exact iff_of_true (.inl ⟨rfl, rfl⟩)
      ⟨makesInside_of_unreachable hcan, fun _ h => absurd (hchild hmissing) h⟩
  | true =>
    cases hacc : accepted (host.writeDirs t tree) parent with
    | false =>
      simp only [if_true, Bool.false_eq_true, if_false, false_implies, and_true]
      exact kept_reach_iff hcan
    | true =>
      simp only [if_true, forall_const]
      rw [pathExists_pathString]
      by_cases hmissing : tree.node parent = none
      · rw [reach_node_missing name hmissing hcan]
        simp only [hchild hmissing, ne_eq, not_true_eq_false, decide_false, Bool.not_false, if_true,
          false_implies, and_true]
        exact kept_reach_iff hcan
      · rw [reach_of_exists hmissing]
        have hmakes : MakesInside (host.writeDirs t tree) tree parent :=
          fun h => absurd h hmissing
        by_cases hsource : tree.node (parent ++ [name]) = none
        · simp only [hsource, ne_eq, not_true_eq_false, decide_false, Bool.not_false, if_true,
            false_implies, and_true]
          exact iff_of_true (.inl ⟨rfl, rfl⟩) hmakes
        · simp only [hsource, ne_eq, not_false_eq_true, decide_true, Bool.not_true,
            Bool.false_eq_true, if_false, forall_const]
          rw [renameInto_kept_iff host t xfer req hsource]
          exact ⟨fun h => ⟨hmakes, h⟩, fun h => h.2⟩

theorem rename_confined_iff (tree : FileTree) (xfer : Option SoxFileXfer) (req : SoxRequest) :
    Confined host (handleFileRename (t := t)) tree xfer req ↔ RenameConfined host t tree req := by
  rw [rename_confined_kept, handleFileRename_eq]
  unfold RenameConfined
  dsimp only
  by_cases hempty : (renameUris req).1 = "" ∨ (renameUris req).2 = ""
  · rw [if_pos hempty]
    refine iff_of_true (.inl ⟨rfl, rfl⟩) fun hfrom hto => ?_
    rcases hempty with h | h
    · exact absurd h hfrom
    · exact absurd h hto
  rw [if_neg hempty]
  push Not at hempty
  simp only [ne_eq, hempty, not_false_eq_true, forall_const]
  cases hfrom : resolveSoxUri (renameUris req).1 with
  | error msg => exact iff_of_true (.inl ⟨rfl, rfl⟩) fun fromPath h => absurd h (by simp)
  | ok fromPath =>
    cases hto : resolveSoxUri (renameUris req).2 with
    | error msg => exact iff_of_true (.inl ⟨rfl, rfl⟩) fun _ _ toPath h => absurd h (by simp)
    | ok toPath =>
      simp only [Except.ok.injEq, forall_eq']
      exact renameFrom_kept_iff host t xfer req

/-- Exactly when a file request stays where it is allowed to be. -/
theorem fileRequest_confined_iff (tree : FileTree) (xfer : Option SoxFileXfer) (req : SoxRequest) :
    (Confined host (handleFileOpen (t := t)) tree xfer req ↔
      OpenConfined host t tree xfer req) ∧
    (Confined host (handleFileRename (t := t)) tree xfer req ↔
      RenameConfined host t tree req) :=
  ⟨open_confined_iff host t tree xfer req, rename_confined_iff host t tree xfer req⟩

end Renaming

/-- A PUT into a directory whose name begins like that of an allowed one. -/
def openBesideTmp : SoxRequest :=
  ⟨.fileOpen, 1, asBytes "p" ++ [0] ++ asBytes "/tmpx/a" ++ [0] ++ [0, 0, 0, 1] ++ [0, 1] ++ [0]⟩

/-- The directory is made and the transfer opened. -/
theorem open_beside_tmp_escapes :
    ¬ ∀ req, Confined ⟨"/tmp", []⟩ (handleFileOpen (t := ⟨.bits64, .release⟩))
      (DirectoryTree.empty Name (List UInt8)) none req := by
  intro h
  rcases h openBesideTmp with ⟨herr, -⟩ | ⟨hall, -, -⟩
  · revert herr
    decide +kernel
  · have hmade : [⟨"tmpx", by decide⟩] ∈ (handleFileOpen
        ((Host.mk "/tmp" []).system ⟨.bits64, .release⟩)
        ⟨⟨DirectoryTree.empty Name (List UInt8), []⟩, none⟩ openBesideTmp).1.fs.touched := by
      decide +kernel
    have hin := hall _ hmade
    revert hin
    decide +kernel

end Sandstar.FileTransfer
