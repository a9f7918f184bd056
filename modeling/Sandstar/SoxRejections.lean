import Sandstar.SoxServerLoop
import Sandstar.SoxAnswers
import Sandstar.TreeLookup

set_option autoImplicit false

/-!
# Packets that are answered with an error (sox/mod.rs)

After a delete the loop clears the dynamic tags of the id that the request starts with,
without a look at the outcome; and the removal of a link reports what it finds on the
target alone. Every other rejected request leaves the tree and the tags as they were.
-/
namespace Sandstar.SoxServerLoop
open SoxProtocol SoxSlots TreeRequests TreeEdits SoxReads FileTransfer Machine SoxDispatch
  ComponentTree

def deleteCompId (req : SoxRequest) : Option UInt16 :=
  if req.cmd = .delete then leadingId req.payload else none

/-- The clean-up after a delete; `none` where a counter would go below zero. -/
def clearTags (req : SoxRequest) (dynStore : DynSlotStore) : Option DynSlotStore :=
  match deleteCompId req with
  | none => some dynStore
  | some compId =>
    if 0 < dynStore.tagCount compId then dynStore.removeAll compId else some dynStore

section Packet

variable {t : Target} {S : Type} (sys : FileSystem t S) (f64 : F64Ops)

/-- What a packet leaves of the server and of the tags, and how it is answered. -/
def handlePacket (order : List UInt16) (sessionId : UInt16) (payload : List UInt8)
    (s : SoxServer S) (dynStore : DynSlotStore) :
    Except Fault (SoxServer S × Option DynSlotStore × Option SoxResponse) :=
  if 2 ≤ payload.length ∧ payload.head? = some 107 ∧ isPutTransferActive s.files.xfer = true then do
    let xfer ← handlePutChunk t s.files.xfer (payload.drop 2)
    .ok ({ s with files := { s.files with xfer := xfer } }, some dynStore, none)
  else match SoxRequest.parse payload with
    | none => .ok (s, some dynStore, none)
    | some req => do
      let (s, resp) ← handleSoxRequestWithDyn sys f64 order req s sessionId (some dynStore)
      .ok (s, clearTags req dynStore, some resp)

theorem handlePayload_server (order : List UInt16) (sessionId : UInt16) (payload : List UInt8)
    (l : SoxLoop S) (dynStore : DynSlotStore) :
    (handlePayload sys f64 order dynStore sessionId payload l).map SoxLoop.server =
      (handlePacket sys f64 order sessionId payload l.server dynStore).map Prod.fst := by
  unfold handlePayload handlePacket
  split_ifs
  · cases handlePutChunk t l.server.files.xfer (payload.drop 2) <;> rfl
  · cases SoxRequest.parse payload with
    | none => rfl
    | some req =>
      unfold handleRequest
      dsimp only
      cases handleSoxRequestWithDyn sys f64 order req l.server sessionId (some dynStore) <;> rfl

end Packet

def Rejected (resp : SoxResponse) : Prop := resp.cmd = SoxCmd.errorByte

theorem responseByte_ne_errorByte (cmd : SoxCmd) : cmd.responseByte ≠ SoxCmd.errorByte := by
  cases cmd <;> decide

theorem not_rejected_success (cmd : SoxCmd) (reqId : UInt8) :
    ¬ Rejected (SoxResponse.success cmd reqId) := responseByte_ne_errorByte cmd

section Handlers

variable {req : SoxRequest} {t : ComponentTree}

theorem handleAdd_rejected (h : Rejected (handleAdd req t).2) : (handleAdd req t).1 = t := by
  unfold handleAdd at h ⊢
  cases hdecode : decodeAdd req t with
  | error msg => rfl
  | ok comp =>
    rw [hdecode] at h
    exact absurd h (not_rejected_success .add req.reqId)

theorem handleDelete_rejected (h : Rejected (handleDelete req t).2) :
    (handleDelete req t).1 = t := by
  unfold handleDelete at h ⊢
  cases hdecode : decodeDelete req with
  | error msg => rfl
  | ok compId =>
    rw [hdecode] at h
    dsimp only at h ⊢
    cases hcomp : t.get compId with
    | none => rw [remove_eq_none hcomp]
    | some comp =>
      unfold ComponentTree.remove at h
      rw [hcomp] at h
      exact absurd h (not_rejected_success .delete req.reqId)

theorem handleRename_rejected (h : Rejected (handleRename req t).2) :
    (handleRename req t).1 = t := by
  unfold handleRename at h ⊢
  cases hdecode : decodeRename req with
  | error msg => rfl
  | ok named =>
    rw [hdecode] at h
    dsimp only at h ⊢
    cases hcomp : t.get named.1 with
    | none => rw [rename_eq_none named.2 hcomp]
    | some comp =>
      unfold ComponentTree.rename at h
      rw [hcomp] at h
      exact absurd h (not_rejected_success .rename req.reqId)

theorem handleReorder_rejected (h : Rejected (handleReorder req t).2) :
    (handleReorder req t).1 = t := by
  unfold handleReorder at h ⊢
  cases hdecode : decodeReorder req with
  | error msg => rfl
  | ok order =>
    rw [hdecode] at h
    dsimp only at h ⊢
    rw [reorderChildren_eq] at h ⊢
    cases haccepted : reorderAccepted t order.1 order.2 with
    | false => rfl
    | true =>
      rw [haccepted] at h
      exact absurd h (not_rejected_success .reorder req.reqId)

theorem handleWrite_rejected (h : Rejected (handleWrite req t).2) : (handleWrite req t).1 = t := by
  unfold handleWrite at h ⊢
  rcases hid : (SoxReader.mk req.payload).readU16 with ⟨_ | compId, r⟩
  · rfl
  · rw [hid] at h
    dsimp only at h ⊢
    rcases hslot : r.readU8 with ⟨_ | slotId, r'⟩
    · rfl
    · rw [hslot] at h
      dsimp only at h ⊢
      cases hvalue : (decodeSlotValue r' (slotTypeAt t compId slotId.toNat)).1 with
      | none => rfl
      | some v =>
        rw [hvalue] at h
        dsimp only at h ⊢
        split_ifs at h ⊢
        · rfl
        · exact absurd h (not_rejected_success .write req.reqId)

/-- A link removal that the target knows nothing of still takes the source's copy. -/
theorem handleLink_rejected (h : Rejected (handleLink req t).2) :
    (handleLink req t).1 = t ↔ ∀ l, decodeLink req = .ok (100, l) →
      ∀ comp, t.get l.fromComp = some comp → l.fromComp ≠ l.toComp → l ∉ comp.links := by
  unfold handleLink at h ⊢
  cases hdecode : decodeLink req with
  | error msg => simp
  | ok given =>
    obtain ⟨subcmd, l⟩ := given
    rw [hdecode] at h
    dsimp only at h ⊢
    by_cases hadd : subcmd = 97
    · rw [if_pos hadd] at h ⊢
      subst hadd
      refine ⟨fun _ l' heq => by simp at heq, fun _ => ?_⟩
      split_ifs at h ⊢
      · rfl
      · rw [addLink_eq] at h ⊢
        cases haccepted : linkAccepted t l with
        | false => rfl
        | true =>
          rw [haccepted] at h
          exact absurd h (not_rejected_success .link req.reqId)
    · rw [if_neg hadd] at h ⊢
      by_cases hremove : subcmd = 100
      · rw [if_pos hremove] at h ⊢
        subst hremove
        have herase : t.removeLink l.fromComp l.fromSlot l.toComp l.toSlot =
            ((t.removeLink l.fromComp l.fromSlot l.toComp l.toSlot).1, t.eraseLink l) := rfl
        cases hfound : (t.removeLink l.fromComp l.fromSlot l.toComp l.toSlot).1 with
        | true =>
          rw [herase, hfound] at h
          exact absurd h (not_rejected_success .link req.reqId)
        | false =>
          rw [herase, hfound]
          have htarget : ∀ comp, t.get l.toComp = some comp → l ∉ comp.links := by
            intro comp hcomp hmem
            unfold ComponentTree.removeLink at hfound
            dsimp only at hfound
            rw [hcomp, Option.any_some, decide_eq_false_iff_not] at hfound
            exact hfound (List.length_filter_lt_length_iff_exists.2 ⟨l, hmem, by simp⟩)
          change t.eraseLink l = t ↔ _
          rw [eraseLink_eq_self]
          constructor
          · rintro hall l' ⟨⟩ comp hcomp -
            exact hall comp (Or.inr hcomp)
          · rintro hall comp (hcomp | hcomp)
            · exact htarget comp hcomp
            · by_cases hsame : l.fromComp = l.toComp
              · exact htarget comp (hsame ▸ hcomp)
              · exact hall l rfl comp hcomp hsame
      · rw [if_neg hremove]
        refine ⟨fun _ l' heq => ?_, fun _ => rfl⟩
        cases heq
        exact absurd rfl hremove

end Handlers

def isFileCmd : SoxCmd → Bool
  | .fileOpen | .fileRead | .fileWrite | .fileClose | .fileRename => true
  | _ => false

/-- The component that a delete names has no tags, and the source of a link to be removed
    stores no copy of its own. -/
structure LeavesNothing (req : SoxRequest) (t : ComponentTree) (dynStore : DynSlotStore) : Prop where
  delete : ∀ compId, deleteCompId req = some compId → dynStore.tagCount compId = 0
  link : req.cmd = .link → ∀ l, decodeLink req = .ok (100, l) →
    ∀ comp, t.get l.fromComp = some comp → l.fromComp ≠ l.toComp → l ∉ comp.links

theorem removeAll_ne {dynStore : DynSlotStore} {compId : UInt16}
    (h : 0 < dynStore.tagCount compId) : dynStore.removeAll compId ≠ some dynStore := by
  intro heq
  unfold DynSlotStore.removeAll at heq
  cases htags : dynStore.slots.get compId with
  | none => simp [DynSlotStore.tagCount, htags] at h
  | some tags =>
    rw [htags] at heq
    dsimp only at heq
    split at heq
    · cases heq
    · have hslots := congrArg (fun s => s.slots.get compId) (Option.some.inj heq)
      simp [htags] at hslots

theorem clearTags_eq_self {req : SoxRequest} {dynStore : DynSlotStore} :
    clearTags req dynStore = some dynStore ↔
      ∀ compId, deleteCompId req = some compId → dynStore.tagCount compId = 0 := by
  unfold clearTags
  cases deleteCompId req with
  | none => simp
  | some compId =>
    simp only [Option.some.injEq, forall_eq']
    by_cases hcount : 0 < dynStore.tagCount compId
    · rw [if_pos hcount]
      exact iff_of_false (removeAll_ne hcount) (Nat.pos_iff_ne_zero.1 hcount)
    · rw [if_neg hcount]
      exact iff_of_true rfl (Nat.eq_zero_of_not_pos hcount)

section Rejection

variable {t : Target} {S : Type} {sys : FileSystem t S} {f64 : F64Ops} {order : List UInt16}
  {sessionId : UInt16} {payload : List UInt8} {s s' : SoxServer S}
  {dynStore : DynSlotStore} {dynStore' : Option DynSlotStore} {req : SoxRequest}
  {resp : SoxResponse}

/-- A rejected request leaves the tree, but for the copy of a link on its source. -/
theorem rejected_tree (hfile : isFileCmd req.cmd = false) (hreject : Rejected resp)
    (h : handleSoxRequestWithDyn sys f64 order req s sessionId (some dynStore) = .ok (s', resp)) :
    s'.tree = s.tree ↔ (req.cmd = .link → ∀ l, decodeLink req = .ok (100, l) →
      ∀ comp, s.tree.get l.fromComp = some comp → l.fromComp ≠ l.toComp → l ∉ comp.links) := by
  unfold handleSoxRequestWithDyn at h
  cases hcmd : req.cmd with
  | link =>
    rw [hcmd] at h
    cases h
    rw [forall_prop_of_true rfl]
    exact handleLink_rejected hreject
  | fileOpen | fileRead | fileWrite | fileClose | fileRename =>
    rw [hcmd] at hfile
    cases hfile
  | add =>
    rw [hcmd] at h
    cases h
    exact iff_of_true (handleAdd_rejected hreject) nofun
  | delete =>
    rw [hcmd] at h
    cases h
    exact iff_of_true (handleDelete_rejected hreject) nofun
  | rename =>
    rw [hcmd] at h
    cases h
    exact iff_of_true (handleRename_rejected hreject) nofun
  | reorder =>
    rw [hcmd] at h
    cases h
    exact iff_of_true (handleReorder_rejected hreject) nofun
  | write =>
    rw [hcmd] at h
    cases h
    exact iff_of_true (handleWrite_rejected hreject) nofun
  | invoke =>
    rw [hcmd] at h
    cases h
    exact absurd hreject (not_rejected_success .invoke req.reqId)
  | readSchema | readVersion | readComp | readProp | subscribe | unsubscribe | event =>
    rw [hcmd] at h
    cases h
    exact iff_of_true rfl nofun

/-- A packet that is answered with an error leaves the tree and the tags as they were,
    exactly unless it deletes where there are tags or removes a link that only the source
    has stored. -/
theorem rejected_unchanged_iff (hparse : SoxRequest.parse payload = some req)
    (hfile : isFileCmd req.cmd = false)
    (hpacket : handlePacket sys f64 order sessionId payload s dynStore =
      .ok (s', dynStore', some resp)) (hreject : Rejected resp) :
    (s'.tree = s.tree ∧ dynStore' = some dynStore) ↔ LeavesNothing req s.tree dynStore := by
  unfold handlePacket at hpacket
  split_ifs at hpacket
  · obtain ⟨xfer, -, heq⟩ := bind_ok hpacket
    cases heq
  · rw [hparse] at hpacket
    obtain ⟨⟨s₁, resp₁⟩, hhandle, heq⟩ := bind_ok hpacket
    cases heq
    rw [rejected_tree hfile hreject hhandle, clearTags_eq_self]
    exact ⟨fun h => ⟨h.2, h.1⟩, fun h => ⟨h.link, h.delete⟩⟩

end Rejection

def treeServer (tree : ComponentTree) : SoxServer Disk := ⟨tree, SubscriptionManager.new, ⟨[], none⟩⟩

def taggedStore : DynSlotStore := (DynSlotStore.withDefaults.set 3 "dis" (.str "users")).1

def deletePacket (compId : UInt8) : List UInt8 := [100, 1, 0, compId]

def packetResult (compId : UInt8) :
    Except Fault (SoxServer Disk × Option DynSlotStore × Option SoxResponse) :=
  handlePacket (diskFileSystem ⟨.bits64, .debug⟩) nativeF64 [] 1 (deletePacket compId)
    (treeServer (systemTree ManifestDb.new)) taggedStore

/-- Component 9 does not exist, and has no tags: its delete is rejected without a trace. -/
theorem rejected_unchanged_missing :
    ∃ s' dynStore' resp, packetResult 9 = .ok (s', dynStore', some resp) ∧ Rejected resp ∧
      s'.tree = systemTree ManifestDb.new ∧ dynStore' = some taggedStore := by
  have hpacket : packetResult 9 = .ok (treeServer (systemTree ManifestDb.new), some taggedStore,
      some (errorMsg ⟨.delete, 1, [0, 9]⟩ "bad compId")) := by rfl
  have hleaves : LeavesNothing ⟨.delete, 1, [0, 9]⟩ (systemTree ManifestDb.new) taggedStore := by
    refine ⟨?_, nofun⟩
    rintro compId ⟨⟩
    rfl
  exact ⟨_, _, _, hpacket, rfl, (rejected_unchanged_iff rfl rfl hpacket rfl).2 hleaves⟩

/-- The delete of component 3 is rejected, and its tags are gone. -/
theorem rejected_delete_clears_tags :
    ¬ ∀ (req : SoxRequest) (payload : List UInt8) (s s' : SoxServer Disk)
        (dynStore : DynSlotStore) (dynStore' : Option DynSlotStore) (resp : SoxResponse),
      SoxRequest.parse payload = some req → isFileCmd req.cmd = false →
      handlePacket (diskFileSystem ⟨.bits64, .debug⟩) nativeF64 [] 1 payload s dynStore =
        .ok (s', dynStore', some resp) → Rejected resp →
      s'.tree = s.tree ∧ dynStore' = some dynStore := by
  intro h
  have hpacket : packetResult 3 = .ok (treeServer (systemTree ManifestDb.new),
      taggedStore.removeAll 3,
      some (errorMsg ⟨.delete, 1, [0, 3]⟩ "cannot delete system component")) := by rfl
  have hsame := (h _ (deletePacket 3) _ _ _ _ _ rfl rfl hpacket rfl).2
  have hcount : 0 < taggedStore.tagCount 3 := by decide
  exact removeAll_ne hcount hsame

end Sandstar.SoxServerLoop
