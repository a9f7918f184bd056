import Sandstar.SoxReads
import Sandstar.Subscriptions
import Sandstar.FileTransfer

set_option autoImplicit false

/-!
# The SOX command dispatch (sox_handlers.rs)

`handle_sox_request` over everything a request can reach: the component tree, the
subscriptions and the file transfer. The order in which the tree's map iterates is
an input; it shows only in the order in which components are subscribed.
-/
namespace Sandstar.SoxDispatch
open SoxProtocol SoxSlots TreeRequests SoxReads FileTransfer Machine

section Subtree

variable (tree : ComponentTree)

/-- The component and its descendants, those already in `out` left out. Every
    level of the recursion has put a new id in `out`, so the ids bound its depth. -/
def collectSubtree : ℕ → UInt16 → List UInt16 → List UInt16
  | 0, _, out => out
  | depth + 1, compId, out =>
    if compId ∈ out then out
    else match tree.get compId with
      | none => out ++ [compId]
      | some comp =>
        comp.children.foldl (fun out childId => collectSubtree depth childId out) (out ++ [compId])

def maxDepth : ℕ := 65537

end Subtree

def readCompIds : ℕ → SoxReader → List UInt16
  | 0, _ => []
  | count + 1, r =>
    match r.readU16 with
    | (some compId, r) => compId :: readCompIds count r
    | (none, r) => readCompIds count r

def handleSubscribe (order : List UInt16) (req : SoxRequest) (subs : SubscriptionManager)
    (sessionId : UInt16) (tree : ComponentTree) : SubscriptionManager × SoxResponse :=
  let r : SoxReader := ⟨req.payload⟩
  let resp := SoxResponse.success .subscribe req.reqId
  if req.payload.length = 3 then
    let compId := r.readU16.1.getD 0
    let what := r.readU16.2.readU8.1.getD 116
    let allIds := collectSubtree tree maxDepth compId []
    ((subs.subscribe sessionId compId).subscribeEach sessionId allIds,
      match tree.get compId with
      | some comp => writeView ((resp.writeU16 compId).writeU8 what) comp what
      | none => resp)
  else
    let r := r.readU8.2
    let count := r.readU8.1.getD 0
    let compIds := if count = 0 then order else readCompIds count.toNat r.readU8.2
    let allIds := compIds.foldl (fun out compId => collectSubtree tree maxDepth compId out) []
    (subs.subscribeEach sessionId allIds, resp.writeU8 (UInt8.ofNat (min allIds.length 255)))

def handleUnsubscribe (req : SoxRequest) (subs : SubscriptionManager) (sessionId : UInt16) :
    SubscriptionManager × SoxResponse :=
  match (SoxReader.mk req.payload).readU16.1 with
  | none => (subs, errorMsg req "missing compId")
  | some compId =>
    (subs.unsubscribe sessionId compId, SoxResponse.success .unsubscribe req.reqId)

/-- What the requests of all sessions share. -/
structure SoxServer (S : Type) where
  tree : ComponentTree
  subs : SubscriptionManager
  files : FileServer S

section Dispatch

variable {t : Target} {S : Type}

def withTree (s : SoxServer S) (r : ComponentTree × SoxResponse) : SoxServer S × SoxResponse :=
  ({ s with tree := r.1 }, r.2)

def withSubs (s : SoxServer S) (r : SubscriptionManager × SoxResponse) :
    SoxServer S × SoxResponse :=
  ({ s with subs := r.1 }, r.2)

def withFiles (s : SoxServer S) (r : FileServer S × SoxResponse) : SoxServer S × SoxResponse :=
  ({ s with files := r.1 }, r.2)

def withChunk (s : SoxServer S) (r : XferResult) : Except Fault (SoxServer S × SoxResponse) := do
  let (xfer, resp) ← r
  .ok ({ s with files := { s.files with xfer := xfer } }, resp)

def handleSoxRequestWithDyn (sys : FileSystem t S) (f64 : F64Ops) (order : List UInt16)
    (req : SoxRequest) (s : SoxServer S) (sessionId : UInt16) (dynStore : Option DynSlotStore) :
    Except Fault (SoxServer S × SoxResponse) :=
  match req.cmd with
  | .readSchema => .ok (s, handleReadSchema req)
  | .readVersion => .ok (s, handleReadVersion req)
  | .readComp => .ok (s, handleReadComp f64 req s.tree dynStore)
  | .readProp => .ok (s, handleReadProp req s.tree)
  | .subscribe => .ok (withSubs s (handleSubscribe order req s.subs sessionId s.tree))
  | .unsubscribe => .ok (withSubs s (handleUnsubscribe req s.subs sessionId))
  | .write => .ok (withTree s (handleWrite req s.tree))
  | .add => .ok (withTree s (handleAdd req s.tree))
  | .delete => .ok (withTree s (handleDelete req s.tree))
  | .rename => .ok (withTree s (handleRename req s.tree))
  | .link => .ok (withTree s (handleLink req s.tree))
  | .reorder => .ok (withTree s (handleReorder req s.tree))
  | .invoke => .ok (withTree s (handleInvoke req s.tree))
  | .fileOpen => .ok (withFiles s (handleFileOpen sys s.files req))
  | .fileRead => withChunk s (handleFileRead t s.files.xfer req)
  | .fileWrite => withChunk s (handleFileWrite t s.files.xfer req)
  | .fileClose => .ok (withFiles s (handleFileClose sys s.files req))
  | .fileRename => .ok (withFiles s (handleFileRename sys s.files req))
  | .event => .ok (s, errorMsg req "unsupported command")

end Dispatch

section Depth

variable {tree : ComponentTree}

theorem foldl_grows {f : List UInt16 → UInt16 → List UInt16}
    (hf : ∀ out id, out.Nodup → (f out id).Nodup ∧ out.length ≤ (f out id).length)
    (ids : List UInt16) {out : List UInt16} (h : out.Nodup) :
    (ids.foldl f out).Nodup ∧ out.length ≤ (ids.foldl f out).length := by
  induction ids generalizing out with
  | nil => exact ⟨h, le_refl _⟩
  | cons id ids ih =>
    obtain ⟨hnodup, hlen⟩ := hf out id h
    obtain ⟨hnodup', hlen'⟩ := ih hnodup
    exact ⟨hnodup', hlen.trans hlen'⟩

theorem nodup_push {out : List UInt16} {compId : UInt16} (h : out.Nodup) (hmem : compId ∉ out) :
    (out ++ [compId]).Nodup :=
  List.Nodup.append h (List.nodup_singleton _) (by simpa using hmem)

theorem collectSubtree_grows (depth : ℕ) (compId : UInt16) {out : List UInt16} (h : out.Nodup) :
    (collectSubtree tree depth compId out).Nodup ∧
      out.length ≤ (collectSubtree tree depth compId out).length := by
  induction depth generalizing compId out with
  | zero => exact ⟨h, le_refl _⟩
  | succ depth ih =>
    unfold collectSubtree
    split_ifs with hmem
    · exact ⟨h, le_refl _⟩
    · have hlen : out.length ≤ (out ++ [compId]).length := by
        rw [List.length_append]
        exact Nat.le_add_right _ _
      split
      · exact ⟨nodup_push h hmem, hlen⟩
      · obtain ⟨hnodup, hlen'⟩ :=
          foldl_grows (fun out id hout => ih id hout) _ (nodup_push h hmem)
        exact ⟨hnodup, hlen.trans hlen'⟩

theorem length_le_of_nodup {out : List UInt16} (h : out.Nodup) : out.length ≤ 65536 := by
  have hfin := (h.map (f := UInt16.toFin) fun _ _ hab => UInt16.toFin_inj.1 hab).length_le_card
  rw [List.length_map, Fintype.card_fin] at hfin
  exact hfin

/-- Beyond the number of ids, more depth changes nothing: the walk is never cut short. -/
theorem collectSubtree_depth {depth : ℕ} (compId : UInt16) {out : List UInt16} (h : out.Nodup)
    (hdepth : 65536 < depth + out.length) :
    collectSubtree tree (depth + 1) compId out = collectSubtree tree depth compId out := by
  induction depth generalizing compId out with
  | zero =>
    have hlen := length_le_of_nodup h
    omega
  | succ depth ih =>
    have hfold : ∀ (ids : List UInt16) {out : List UInt16}, out.Nodup →
        65536 < depth + out.length →
        ids.foldl (fun out childId => collectSubtree tree (depth + 1) childId out) out =
          ids.foldl (fun out childId => collectSubtree tree depth childId out) out := by
      intro ids
      induction ids with
      | nil => exact fun _ _ => rfl
      | cons id ids ihIds =>
        intro out hout hlen
        obtain ⟨hnodup, hgrows⟩ := @collectSubtree_grows tree depth id _ hout
        rw [List.foldl_cons, List.foldl_cons, ih id hout hlen]
        exact ihIds hnodup (by omega)
    conv_lhs => rw [collectSubtree]
    conv_rhs => rw [collectSubtree]
    split_ifs with hmem
    · rfl
    · cases tree.get compId with
      | none => rfl
      | some comp =>
        apply hfold comp.children (nodup_push h hmem)
        rw [List.length_append, List.length_singleton]
        omega

theorem collectSubtree_maxDepth {depth : ℕ} (hdepth : maxDepth ≤ depth) (compId : UInt16)
    {out : List UInt16} (h : out.Nodup) :
    collectSubtree tree depth compId out = collectSubtree tree maxDepth compId out := by
  induction depth, hdepth using Nat.le_induction with
  | base => rfl
  | succ depth hle ih =>
    rw [collectSubtree_depth compId h, ih]
    have hmax : maxDepth = 65537 := rfl
    omega

end Depth
end Sandstar.SoxDispatch
