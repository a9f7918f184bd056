import Sandstar.SoxDispatch
import Sandstar.FileSafety

set_option autoImplicit false

namespace Sandstar.SoxDispatch
open SoxProtocol SoxSlots TreeRequests SoxReads FileTransfer Machine Utf8

section Heads

def Headed (cmd reqId : UInt8) (resp : SoxResponse) : Prop := resp.cmd = cmd ∧ resp.reqId = reqId

variable {cmd reqId : UInt8} {resp : SoxResponse}

theorem Headed.writeU8 (h : Headed cmd reqId resp) (v : UInt8) :
    Headed cmd reqId (resp.writeU8 v) := h

theorem Headed.writeU16 (h : Headed cmd reqId resp) (v : UInt16) :
    Headed cmd reqId (resp.writeU16 v) := h

theorem Headed.writeU32 (h : Headed cmd reqId resp) (v : UInt32) :
    Headed cmd reqId (resp.writeU32 v) := h

theorem Headed.writeStr (h : Headed cmd reqId resp) (s : String) :
    Headed cmd reqId (resp.writeStr s) := h

theorem Headed.writeBytes (h : Headed cmd reqId resp) (data : List UInt8) :
    Headed cmd reqId (resp.writeBytes data) := h

theorem Headed.foldl {α : Type} {f : SoxResponse → α → SoxResponse}
    (hf : ∀ resp a, Headed cmd reqId resp → Headed cmd reqId (f resp a)) (xs : List α)
    (h : Headed cmd reqId resp) : Headed cmd reqId (xs.foldl f resp) := by
  induction xs generalizing resp with
  | nil => exact h
  | cons a xs ih => exact ih (hf resp a h)

theorem Headed.encodeSlotValue (h : Headed cmd reqId resp) (v : SlotValue) :
    Headed cmd reqId (encodeSlotValue resp v) := by
  cases v <;> exact h

theorem Headed.encodeDynValue (f64 : F64Ops) (h : Headed cmd reqId resp) (v : DynValue) :
    Headed cmd reqId (encodeDynValue f64 resp v) := by
  cases v <;> exact h

theorem Headed.writeTag (f64 : F64Ops) (tags : Tags) (h : Headed cmd reqId resp) (key : String) :
    Headed cmd reqId (writeTag f64 tags resp key) := by
  unfold SoxReads.writeTag
  cases tags.get key with
  | none => exact h
  | some value => exact (h.writeStr key).encodeDynValue f64 value

theorem Headed.handleReadCompDynamic (f64 : F64Ops) (compId : UInt16)
    (dynStore : Option DynSlotStore) (h : Headed cmd reqId resp) :
    Headed cmd reqId (handleReadCompDynamic f64 compId dynStore resp) := by
  cases dynStore with
  | none => exact h.writeU16 0
  | some store =>
    exact Headed.foldl (fun _ key hr => hr.writeTag f64 _ key) _ (h.writeU16 _)

theorem Headed.writeView (h : Headed cmd reqId resp) (comp : VirtualComponent) (what : UInt8) :
    Headed cmd reqId (writeView resp comp what) := by
  have hslots : ∀ slots, Headed cmd reqId (writeSlots resp slots) := fun slots =>
    Headed.foldl (fun _ slot hr => hr.encodeSlotValue slot.value) slots h
  unfold SoxReads.writeView
  split_ifs
  · exact Headed.foldl (fun _ childId hr => hr.writeU16 childId) _ h
  · exact hslots _
  · exact hslots _
  · apply Headed.writeU16
    apply Headed.foldl _ comp.links h
    intro resp link hr
    exact (((hr.writeU16 _).writeU8 _).writeU16 _).writeU8 _
  · exact h

end Heads

section Answers

variable {t : Target} {S : Type}

def Answers (req : SoxRequest) (resp : SoxResponse) : Prop :=
  Headed SoxCmd.errorByte req.reqId resp ∨ Headed req.cmd.responseByte req.reqId resp

theorem errorMsg_answers (req : SoxRequest) (msg : String) : Answers req (errorMsg req msg) :=
  .inl ⟨rfl, rfl⟩

theorem success_headed {req : SoxRequest} {cmd : SoxCmd} (h : req.cmd = cmd) :
    Headed req.cmd.responseByte req.reqId (SoxResponse.success cmd req.reqId) := by
  rw [h]
  exact ⟨rfl, rfl⟩

theorem success_answers {req : SoxRequest} {cmd : SoxCmd} (h : req.cmd = cmd) :
    Answers req (SoxResponse.success cmd req.reqId) :=
  .inr (success_headed h)

theorem handleReadSchema_answers {req : SoxRequest} (h : req.cmd = .readSchema) :
    Answers req (handleReadSchema req) := by
  unfold handleReadSchema
  generalize defaultKits = kits
  right
  apply Headed.foldl
  · intro resp kit hr
    exact (hr.writeStr kit.name).writeU32 kit.checksum
  · exact (success_headed h).writeU8 _

theorem handleReadVersion_answers {req : SoxRequest} (h : req.cmd = .readVersion) :
    Answers req (handleReadVersion req) := by
  unfold handleReadVersion
  generalize defaultKits = kits
  right
  apply Headed.writeStr
  apply Headed.writeStr
  apply Headed.writeU8
  apply Headed.foldl
  · intro resp kit hr
    exact hr.writeStr kit.version
  · exact ((success_headed h).writeStr "EacIo").writeU8 0

theorem handleReadComp_answers (f64 : F64Ops) {req : SoxRequest} (h : req.cmd = .readComp)
    (tree : ComponentTree) (dynStore : Option DynSlotStore) :
    Answers req (handleReadComp f64 req tree dynStore) := by
  unfold handleReadComp
  split
  · exact errorMsg_answers req _
  · dsimp only
    cases tree.get _ with
    | none => exact errorMsg_answers req _
    | some comp =>
      have hhead := (success_headed h).writeU16 comp.compId
      dsimp only
      split_ifs
      · exact .inr ((hhead.writeU8 _).handleReadCompDynamic f64 _ dynStore)
      · exact .inr ((hhead.writeU8 _).writeView comp _)

theorem handleReadProp_answers {req : SoxRequest} (h : req.cmd = .readProp)
    (tree : ComponentTree) : Answers req (handleReadProp req tree) := by
  unfold handleReadProp
  split
  · exact errorMsg_answers req _
  · split
    · exact errorMsg_answers req _
    · cases tree.get _ with
      | none => exact errorMsg_answers req _
      | some comp =>
        have hhead := success_headed h
        dsimp only
        split
        · exact .inr hhead
        · exact .inr ((((hhead.writeU16 _).writeU8 _).writeU8 _).encodeSlotValue _)

theorem handleSubscribe_answers (order : List UInt16) {req : SoxRequest}
    (h : req.cmd = .subscribe) (subs : SubscriptionManager) (sessionId : UInt16)
    (tree : ComponentTree) :
    Answers req (handleSubscribe order req subs sessionId tree).2 := by
  have hhead := success_headed h
  unfold handleSubscribe
  dsimp only
  split_ifs
  · dsimp only
    cases tree.get _ with
    | none => exact .inr hhead
    | some comp => exact .inr (((hhead.writeU16 _).writeU8 _).writeView comp _)
  · exact .inr hhead
  · exact .inr hhead

theorem handleUnsubscribe_answers {req : SoxRequest} (h : req.cmd = .unsubscribe)
    (subs : SubscriptionManager) (sessionId : UInt16) :
    Answers req (handleUnsubscribe req subs sessionId).2 := by
  unfold handleUnsubscribe
  split
  · exact errorMsg_answers req _
  · exact success_answers h

theorem handleWrite_answers {req : SoxRequest} (h : req.cmd = .write) (tree : ComponentTree) :
    Answers req (handleWrite req tree).2 := by
  unfold handleWrite
  split
  · exact errorMsg_answers req _
  · split
    · exact errorMsg_answers req _
    · dsimp only
      split
      · exact errorMsg_answers req _
      · split_ifs
        · exact errorMsg_answers req _
        · exact success_answers h

theorem handleAdd_answers {req : SoxRequest} (h : req.cmd = .add) (tree : ComponentTree) :
    Answers req (handleAdd req tree).2 := by
  unfold handleAdd
  split
  · exact errorMsg_answers req _
  · exact .inr ((success_headed h).writeU16 _)

theorem handleDelete_answers {req : SoxRequest} (h : req.cmd = .delete) (tree : ComponentTree) :
    Answers req (handleDelete req tree).2 := by
  unfold handleDelete
  split
  · exact errorMsg_answers req _
  · split
    · exact errorMsg_answers req _
    · exact success_answers h

theorem handleRename_answers {req : SoxRequest} (h : req.cmd = .rename) (tree : ComponentTree) :
    Answers req (handleRename req tree).2 := by
  unfold handleRename
  split
  · exact errorMsg_answers req _
  · split
    · exact errorMsg_answers req _
    · exact success_answers h

theorem handleLink_answers {req : SoxRequest} (h : req.cmd = .link) (tree : ComponentTree) :
    Answers req (handleLink req tree).2 := by
  unfold handleLink
  split
  · exact errorMsg_answers req _
  · split_ifs
    · exact errorMsg_answers req _
    · split
      · exact success_answers h
      · exact errorMsg_answers req _
    · split
      · exact success_answers h
      · exact errorMsg_answers req _
    · exact errorMsg_answers req _

theorem handleReorder_answers {req : SoxRequest} (h : req.cmd = .reorder) (tree : ComponentTree) :
    Answers req (handleReorder req tree).2 := by
  unfold handleReorder
  split
  · exact errorMsg_answers req _
  · split
    · exact success_answers h
    · exact errorMsg_answers req _

theorem handleFileOpen_answers (sys : FileSystem t S) {req : SoxRequest} (h : req.cmd = .fileOpen)
    (s : FileServer S) : Answers req (handleFileOpen sys s req).2 := by
  have hreply : ∀ size chunkSize, Answers req (openReply req size chunkSize) := fun _ _ =>
    .inr ((((success_headed h).writeU32 _).writeU16 _).writeU8 _)
  unfold handleFileOpen
  dsimp only
  split
  · exact errorMsg_answers req _
  · split
    · exact errorMsg_answers req _
    · split
      · split
        · exact errorMsg_answers req _
        · split
          · exact errorMsg_answers req _
          · exact hreply _ _
      · split
        · split
          · exact errorMsg_answers req _
          · split
            · exact errorMsg_answers req _
            · exact hreply _ _
        · exact errorMsg_answers req _

theorem handleFileClose_answers (sys : FileSystem t S) {req : SoxRequest}
    (h : req.cmd = .fileClose) (s : FileServer S) : Answers req (handleFileClose sys s req).2 := by
  unfold handleFileClose
  split
  · exact success_answers h
  · split_ifs
    · split
      · exact success_answers h
      · split
        · exact success_answers h
        · exact errorMsg_answers req _
    · exact success_answers h

theorem handleFileRename_answers (sys : FileSystem t S) {req : SoxRequest}
    (h : req.cmd = .fileRename) (s : FileServer S) :
    Answers req (handleFileRename sys s req).2 := by
  unfold handleFileRename
  dsimp only
  split_ifs
  · exact errorMsg_answers req _
  · split
    · exact errorMsg_answers req _
    · split
      · exact errorMsg_answers req _
      · split
        · exact errorMsg_answers req _
        · split_ifs
          · exact errorMsg_answers req _
          · split
            · exact errorMsg_answers req _
            · split
              · exact success_answers h
              · exact errorMsg_answers req _

theorem handleFileRead_answers {req : SoxRequest} (h : req.cmd = .fileRead)
    {xfer : Option SoxFileXfer} {r : Option SoxFileXfer × SoxResponse}
    (hr : handleFileRead t xfer req = .ok r) : Answers req r.2 := by
  unfold handleFileRead at hr
  dsimp only at hr
  cases xfer with
  | none =>
    cases hr
    exact errorMsg_answers req _
  | some file =>
    dsimp only at hr
    split_ifs at hr
    · cases hr
      exact errorMsg_answers req _
    · split at hr
      · cases hr
        exact errorMsg_answers req _
      · obtain ⟨start, -, hr⟩ := bind_ok hr
        obtain ⟨stop, -, hr⟩ := bind_ok hr
        obtain ⟨fileEnd, -, hr⟩ := bind_ok hr
        split_ifs at hr
        · obtain ⟨bytes, -, hr⟩ := bind_ok hr
          cases hr
          exact .inr ((success_headed h).writeBytes bytes)
        · cases hr
          exact errorMsg_answers req _

theorem handleFileWrite_answers {req : SoxRequest} (h : req.cmd = .fileWrite)
    {xfer : Option SoxFileXfer} {r : Option SoxFileXfer × SoxResponse}
    (hr : handleFileWrite t xfer req = .ok r) : Answers req r.2 := by
  have herror : ∀ msg, Answers req (writeError req.reqId msg) := fun _ => .inl ⟨rfl, rfl⟩
  unfold handleFileWrite handleFileWriteChunkInner at hr
  split at hr
  · cases hr
    exact herror _
  · cases xfer with
    | none =>
      cases hr
      exact herror _
    | some file =>
      dsimp only at hr
      split_ifs at hr
      · cases hr
        exact herror _
      · obtain ⟨product, -, hr⟩ := bind_ok hr
        obtain ⟨start, -, hr⟩ := bind_ok hr
        obtain ⟨stop, -, hr⟩ := bind_ok hr
        split_ifs at hr
        · cases hr
          exact herror _
        · obtain ⟨data, -, hr⟩ := bind_ok hr
          obtain ⟨received, -, hr⟩ := bind_ok hr
          cases hr
          exact success_answers h

theorem withChunk_ok {s s' : SoxServer S} {r : XferResult} {resp : SoxResponse}
    (h : withChunk s r = .ok (s', resp)) : ∃ xfer, r = .ok (xfer, resp) := by
  obtain ⟨⟨xfer, resp'⟩, hr, h⟩ := bind_ok h
  cases h
  exact ⟨xfer, hr⟩

/-- Whatever the command, the payload and the state: the request's id, and the error
    mark or the command's letter. -/
theorem handleSoxRequestWithDyn_answers {sys : FileSystem t S} {f64 : F64Ops}
    {order : List UInt16} {req : SoxRequest} {s s' : SoxServer S} {sessionId : UInt16}
    {dynStore : Option DynSlotStore} {resp : SoxResponse}
    (h : handleSoxRequestWithDyn sys f64 order req s sessionId dynStore = .ok (s', resp)) :
    Answers req resp := by
  unfold handleSoxRequestWithDyn at h
  cases hcmd : req.cmd with
  | fileRead =>
    rw [hcmd] at h
    obtain ⟨xfer, hr⟩ := withChunk_ok h
    exact handleFileRead_answers hcmd hr
  | fileWrite =>
    rw [hcmd] at h
    obtain ⟨xfer, hr⟩ := withChunk_ok h
    exact handleFileWrite_answers hcmd hr
  | readSchema =>
    rw [hcmd] at h
    cases h
    exact handleReadSchema_answers hcmd
  | readVersion =>
    rw [hcmd] at h
    cases h
    exact handleReadVersion_answers hcmd
  | readComp =>
    rw [hcmd] at h
    cases h
    exact handleReadComp_answers f64 hcmd s.tree dynStore
  | readProp =>
    rw [hcmd] at h
    cases h
    exact handleReadProp_answers hcmd s.tree
  | subscribe =>
    rw [hcmd] at h
    cases h
    exact handleSubscribe_answers order hcmd s.subs sessionId s.tree
  | unsubscribe =>
    rw [hcmd] at h
    cases h
    exact handleUnsubscribe_answers hcmd s.subs sessionId
  | write =>
    rw [hcmd] at h
    cases h
    exact handleWrite_answers hcmd s.tree
  | add =>
    rw [hcmd] at h
    cases h
    exact handleAdd_answers hcmd s.tree
  | delete =>
    rw [hcmd] at h
    cases h
    exact handleDelete_answers hcmd s.tree
  | rename =>
    rw [hcmd] at h
    cases h
    exact handleRename_answers hcmd s.tree
  | link =>
    rw [hcmd] at h
    cases h
    exact handleLink_answers hcmd s.tree
  | reorder =>
    rw [hcmd] at h
    cases h
    exact handleReorder_answers hcmd s.tree
  | invoke =>
    rw [hcmd] at h
    cases h
    exact success_answers hcmd
  | fileOpen =>
    rw [hcmd] at h
    cases h
    exact handleFileOpen_answers sys hcmd s.files
  | fileClose =>
    rw [hcmd] at h
    cases h
    exact handleFileClose_answers sys hcmd s.files
  | fileRename =>
    rw [hcmd] at h
    cases h
    exact handleFileRename_answers sys hcmd s.files
  | event =>
    rw [hcmd] at h
    cases h
    exact errorMsg_answers req _

theorem handleSoxRequestWithDyn_tree {sys : FileSystem t S} {f64 : F64Ops}
    {order : List UInt16} {req : SoxRequest} {s s' : SoxServer S} {sessionId : UInt16}
    {dynStore : Option DynSlotStore} {resp : SoxResponse}
    (h : handleSoxRequestWithDyn sys f64 order req s sessionId dynStore = .ok (s', resp)) :
    s'.tree = handleSoxRequest req s.tree := by
  have hchunk : ∀ {r : XferResult}, withChunk s r = .ok (s', resp) → s'.tree = s.tree := by
    intro r hr
    obtain ⟨⟨xfer, resp'⟩, -, hr⟩ := bind_ok hr
    cases hr
    rfl
  unfold handleSoxRequestWithDyn at h
  unfold handleSoxRequest
  cases hcmd : req.cmd with
  | fileRead =>
    rw [hcmd] at h
    exact hchunk h
  | fileWrite =>
    rw [hcmd] at h
    exact hchunk h
  | _ =>
    rw [hcmd] at h
    cases h
    rfl

end Answers

section Letters

variable {t : Target} {S : Type}

/-- `to_ascii_uppercase` on a byte. -/
def toAsciiUppercase (b : UInt8) : UInt8 := if 97 ≤ b ∧ b ≤ 122 then b - 32 else b

theorem ite_some {p : Prop} [Decidable p] {cmd c : SoxCmd} {rest : Option SoxCmd}
    (h : (if p then some c else rest) = some cmd) : (p ∧ c = cmd) ∨ rest = some cmd := by
  split_ifs at h with hp
  · exact .inl ⟨hp, Option.some.inj h⟩
  · exact .inr h

theorem eq_byte_of_fromByte {b : UInt8} {cmd : SoxCmd} (h : SoxCmd.fromByte b = some cmd) :
    b = cmd.byte ∨ (b = 107 ∧ cmd = .invoke) ∨ (b = 113 ∧ cmd = .fileClose) := by
  unfold SoxCmd.fromByte at h
  obtain ⟨hb, rfl⟩ | h := ite_some h
  · exact .inl hb
  obtain ⟨hb, rfl⟩ | h := ite_some h
  · exact .inl hb
  obtain ⟨hb, rfl⟩ | h := ite_some h
  · exact .inl hb
  obtain ⟨hb, rfl⟩ | h := ite_some h
  · exact .inl hb
  obtain ⟨hb, rfl⟩ | h := ite_some h
  · exact .inl hb
  obtain ⟨hb, rfl⟩ | h := ite_some h
  · exact .inl hb
  obtain ⟨hb, rfl⟩ | h := ite_some h
  · exact .inl hb
  obtain ⟨hb, rfl⟩ | h := ite_some h
  · exact .inl hb
  obtain ⟨hk | hi, rfl⟩ | h := ite_some h
  · exact .inr (.inl ⟨hk, rfl⟩)
  · exact .inl hi
  obtain ⟨hb, rfl⟩ | h := ite_some h
  · exact .inl hb
  obtain ⟨hb, rfl⟩ | h := ite_some h
  · exact .inl hb
  obtain ⟨hb, rfl⟩ | h := ite_some h
  · exact .inl hb
  obtain ⟨hb, rfl⟩ | h := ite_some h
  · exact .inl hb
  obtain ⟨hb, rfl⟩ | h := ite_some h
  · exact .inl hb
  obtain ⟨hb, rfl⟩ | h := ite_some h
  · exact .inl hb
  obtain ⟨hb, rfl⟩ | h := ite_some h
  · exact .inl hb
  obtain ⟨hz | hq, rfl⟩ | h := ite_some h
  · exact .inl hz
  · exact .inr (.inr ⟨hq, rfl⟩)
  obtain ⟨hb, rfl⟩ | h := ite_some h
  · exact .inl hb
  obtain ⟨hb, rfl⟩ | h := ite_some h
  · exact .inl hb
  cases h

theorem parse_cons {b reqId : UInt8} {payload : List UInt8} {req : SoxRequest}
    (h : SoxRequest.parse (b :: reqId :: payload) = some req) :
    SoxCmd.fromByte b = some req.cmd ∧ req.reqId = reqId := by
  obtain ⟨cmd, hcmd, rfl⟩ := Option.map_eq_some_iff.1 h
  exact ⟨hcmd, rfl⟩

/-- A close finds an open PUT whose buffer the file system does not take. -/
def WriteFails (sys : FileSystem t S) (s : FileServer S) : Prop :=
  ∃ file path, s.xfer = some file ∧ file.mode = .put ∧ file.writePath = some path ∧
    (sys.write s.fs path file.data).2 = false

theorem handleFileClose_cmd (sys : FileSystem t S) (s : FileServer S) (req : SoxRequest) :
    ((handleFileClose sys s req).2.cmd = SoxCmd.errorByte ∧ WriteFails sys s) ∨
      ((handleFileClose sys s req).2.cmd = 90 ∧ ¬ WriteFails sys s) := by
  unfold handleFileClose WriteFails
  cases hx : s.xfer with
  | none =>
    refine .inr ⟨rfl, ?_⟩
    rintro ⟨file, path, hfile, -⟩
    cases hfile
  | some file =>
    dsimp only
    by_cases hmode : file.mode = .put
    · rw [if_pos hmode]
      cases hpath : file.writePath with
      | none =>
        refine .inr ⟨rfl, ?_⟩
        rintro ⟨file', path, hfile, -, hpath', -⟩
        cases hfile
        rw [hpath] at hpath'
        cases hpath'
      | some path =>
        dsimp only
        rcases hwrite : sys.write s.fs path file.data with ⟨fs, _ | _⟩
        · exact .inl ⟨rfl, file, path, rfl, hmode, hpath, by rw [hwrite]⟩
        · refine .inr ⟨rfl, ?_⟩
          rintro ⟨file', path', hfile, -, hpath', hfails⟩
          cases hfile
          rw [hpath] at hpath'
          cases hpath'
          rw [hwrite] at hfails
          cases hfails
    · rw [if_neg hmode]
      refine .inr ⟨rfl, ?_⟩
      rintro ⟨file', path, hfile, hmode', -⟩
      cases hfile
      exact hmode hmode'

/-- The response carries the request's id, and the error mark or the upper case of the
    byte the client sent, exactly when that byte is not 'k', and not 'q' unless the close
    fails to write. -/
theorem response_correlates_iff {sys : FileSystem t S} {f64 : F64Ops} {order : List UInt16}
    {b reqId : UInt8} {payload : List UInt8} {req : SoxRequest} {s s' : SoxServer S}
    {sessionId : UInt16} {dynStore : Option DynSlotStore} {resp : SoxResponse}
    (hparse : SoxRequest.parse (b :: reqId :: payload) = some req)
    (hresp : handleSoxRequestWithDyn sys f64 order req s sessionId dynStore = .ok (s', resp)) :
    (resp.reqId = reqId ∧ (resp.cmd = SoxCmd.errorByte ∨ resp.cmd = toAsciiUppercase b)) ↔
      b ≠ 107 ∧ (b = 113 → WriteFails sys s.files) := by
  obtain ⟨hbyte, hid⟩ := parse_cons hparse
  have hanswers := handleSoxRequestWithDyn_answers hresp
  have hreqId : resp.reqId = reqId := by
    rcases hanswers with h | h
    · exact h.2.trans hid
    · exact h.2.trans hid
  rw [and_iff_right hreqId]
  obtain hb | ⟨rfl, hcmd⟩ | ⟨rfl, hcmd⟩ := eq_byte_of_fromByte hbyte
  · -- the command's own byte
    have hne : b ≠ 107 ∧ b ≠ 113 := by
      rw [hb]
      cases req.cmd <;> decide
    refine ⟨fun _ => ⟨hne.1, fun hq => absurd hq hne.2⟩, fun _ => ?_⟩
    rw [hb]
    rcases hanswers with h | h
    · exact .inl h.1
    · exact .inr h.1
  · -- 'k' is answered as 'i' is
    unfold handleSoxRequestWithDyn at hresp
    rw [hcmd] at hresp
    cases hresp
    change (SoxCmd.invoke.responseByte = _ ∨ SoxCmd.invoke.responseByte = _) ↔ _
    constructor
    · intro hletter
      rcases hletter with h | h
      · exact absurd h (by decide)
      · exact absurd h (by decide)
    · rintro ⟨hk, -⟩
      exact absurd rfl hk
  · -- 'q' is answered as 'z' is
    unfold handleSoxRequestWithDyn at hresp
    rw [hcmd] at hresp
    cases hresp
    change ((handleFileClose sys s.files req).2.cmd = _ ∨
      (handleFileClose sys s.files req).2.cmd = _) ↔ _
    rcases handleFileClose_cmd sys s.files req with ⟨h, hfails⟩ | ⟨h, hfails⟩
    · exact ⟨fun _ => ⟨by decide, fun _ => hfails⟩, fun _ => .inl h⟩
    · rw [h]
      constructor
      · intro hletter
        rcases hletter with h | h
        · exact absurd h (by decide)
        · exact absurd h (by decide)
      · rintro ⟨-, hq⟩
        exact absurd (hq rfl) hfails

def nativeF64 : F64Ops where
  add a b := (Float.ofBits a + Float.ofBits b).toBits
  sub a b := (Float.ofBits a - Float.ofBits b).toBits
  mul a b := (Float.ofBits a * Float.ofBits b).toBits
  div a b := (Float.ofBits a / Float.ofBits b).toBits
  isZero a := Float.ofBits a == 0
  ofInt i := (Float.ofInt i.toInt).toBits
  toF32 a := (Float.ofBits a).toFloat32.toBits
  display a := toString (Float.ofBits a)

/-- A server with an empty tree and an empty disk. -/
def emptyServer : SoxServer Disk := ⟨ComponentTree.new, SubscriptionManager.new, ⟨[], none⟩⟩

/-- A version request under its own letter is answered under 'Y'. -/
theorem response_correlates_readVersion :
    (handleReadVersion ⟨.readVersion, 5, []⟩).reqId = 5 ∧
      ((handleReadVersion ⟨.readVersion, 5, []⟩).cmd = SoxCmd.errorByte ∨
        (handleReadVersion ⟨.readVersion, 5, []⟩).cmd = toAsciiUppercase 121) := by
  have hresp : handleSoxRequestWithDyn (diskFileSystem ⟨.bits64, .debug⟩) nativeF64 []
      ⟨.readVersion, 5, []⟩ emptyServer 1 none =
        .ok (emptyServer, handleReadVersion ⟨.readVersion, 5, []⟩) := rfl
  have hparse : SoxRequest.parse (121 :: 5 :: []) = some ⟨.readVersion, 5, []⟩ := rfl
  exact (response_correlates_iff hparse hresp).2 ⟨by decide, fun hq => absurd hq (by decide)⟩

/-- An invoke sent as 'k' is answered under 'I'. -/
theorem invoke_answered_under_another_letter :
    ¬ ∀ (b reqId : UInt8) (payload : List UInt8) (req : SoxRequest) (s' : SoxServer Disk)
        (resp : SoxResponse), SoxRequest.parse (b :: reqId :: payload) = some req →
      handleSoxRequestWithDyn (diskFileSystem ⟨.bits64, .debug⟩) nativeF64 [] req emptyServer 1
        none = .ok (s', resp) →
      resp.reqId = reqId ∧ (resp.cmd = SoxCmd.errorByte ∨ resp.cmd = toAsciiUppercase b) := by
  intro h
  obtain ⟨-, hletter⟩ := h 107 5 [] ⟨.invoke, 5, []⟩ _ _ rfl rfl
  revert hletter
  change ¬ (SoxCmd.invoke.responseByte = _ ∨ SoxCmd.invoke.responseByte = _)
  decide

end Letters
end Sandstar.SoxDispatch
