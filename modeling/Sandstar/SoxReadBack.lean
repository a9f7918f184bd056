import Sandstar.Reading
import Sandstar.SoxAnswers

set_option autoImplicit false

namespace Sandstar.SoxReads
open SoxProtocol SoxSlots SoxDispatch Reading Utf8

section Fields

variable {α : Type}

def field (read : SoxReader → Option α × SoxReader) : Reader UInt8 α := fun bytes =>
  match read ⟨bytes⟩ with
  | (some a, r) => some (a, r.rest)
  | (none, _) => none

def u8 : Reader UInt8 UInt8 := field SoxReader.readU8
def u16 : Reader UInt8 UInt16 := field SoxReader.readU16
def u32 : Reader UInt8 UInt32 := field SoxReader.readU32
def i32 : Reader UInt8 Int32 := field SoxReader.readI32
def str : Reader UInt8 String := field SoxReader.readStr

theorem reads_field {read : SoxReader → Option α × SoxReader} {bytes : List UInt8} {a : α}
    (h : ∀ rest, read ⟨bytes ++ rest⟩ = (some a, ⟨rest⟩)) : Reads (field read) bytes a := by
  intro rest
  change (match read ⟨bytes ++ rest⟩ with
    | (some a, r) => some (a, r.rest)
    | (none, _) => none) = _
  rw [h]

theorem reads_u8 (b : UInt8) : Reads u8 [b] b := fun _ => rfl

theorem reads_u16 (v : UInt16) : Reads u16 (beBytes16 v) v := reads_field (readU16_beBytes16 v)

theorem reads_u32 (v : UInt32) : Reads u32 (beBytes32 v) v := reads_field (readU32_beBytes32 v)

theorem reads_i32 (v : Int32) : Reads i32 (beBytes32 v.toUInt32) v := by
  apply reads_field
  intro rest
  unfold SoxReader.readI32
  rw [readU32_beBytes32]
  rfl

def NulFree (s : String) : Prop := '\x00' ∉ s.toList

instance (s : String) : Decidable (NulFree s) := inferInstanceAs (Decidable (_ ∉ _))

theorem reads_str {s : String} (h : NulFree s) : Reads str (asBytes s ++ [0]) s := by
  apply reads_field
  intro rest
  have hbytes : ∀ b ∈ asBytes s, decide (b ≠ 0) = true := by
    intro b hb
    refine decide_eq_true ?_
    rintro rfl
    exact h (nul_of_mem_asBytes hb)
  have htake : (asBytes s ++ 0 :: rest).takeWhile (· ≠ 0) = asBytes s := by
    rw [List.takeWhile_append_of_pos hbytes]
    simp
  have hdrop : (asBytes s ++ 0 :: rest).dropWhile (· ≠ 0) = 0 :: rest := by
    rw [List.dropWhile_append_of_pos hbytes]
    rfl
  unfold SoxReader.readStr
  rw [List.append_assoc, List.singleton_append]
  dsimp only
  rw [if_pos (by simp), htake, hdrop, fromUtf8Lossy_asBytes]
  rfl

end Fields

structure TreeView where
  kitId : UInt8
  typeId : UInt8
  name : String
  parentId : UInt16
  permissions : UInt8
  children : List UInt16
deriving DecidableEq

def readTree : Reader UInt8 TreeView := do
  let kitId ← u8
  let typeId ← u8
  let name ← str
  let parentId ← u16
  let permissions ← u8
  let count ← u8
  let children ← many u16 count.toNat
  pure ⟨kitId, typeId, name, parentId, permissions, children⟩

def readLink : Reader UInt8 (Option Link) := do
  let fromComp ← u16
  if fromComp = 0xFFFF then pure none
  else do
    let fromSlot ← u8
    let toComp ← u16
    let toSlot ← u8
    pure (some ⟨fromComp, fromSlot, toComp, toSlot⟩)

def readLinks : Reader UInt8 (List Link) := fun bytes =>
  (manyUntil readLink bytes.length).run bytes

inductive WireValue
  | null
  | marker
  | bool (b : Bool)
  | int (i : Int32)
  | float (bits : UInt32)
  | str (s : String)
  | ref (r : String)
deriving DecidableEq

def readValue : Reader UInt8 WireValue := do
  let code ← u8
  if code = 0 then pure .null
  else if code = 1 then pure .marker
  else if code = 2 then (fun b => .bool (b ≠ 0)) <$> u8
  else if code = 3 then .int <$> i32
  else if code = 4 then .float <$> u32
  else if code = 5 then .str <$> str
  else if code = 6 then .ref <$> str
  else failure

def readTag : Reader UInt8 (String × WireValue) := do
  let key ← str
  let value ← readValue
  pure (key, value)

def readTags : Reader UInt8 (List (String × WireValue)) := do
  let count ← u16
  many readTag count.toNat

/-- The response to a view: the component's id, the letter of the view, and the view. -/
def readView {α : Type} (view : Reader UInt8 α) : Reader UInt8 (UInt16 × UInt8 × α) := do
  let compId ← u16
  let what ← u8
  let a ← view
  pure (compId, what, a)

section Written

variable (f64 : F64Ops)

def wireValue : DynValue → WireValue
  | .null => .null
  | .marker => .marker
  | .bool b => .bool b
  | .int i => .int i.toInt32
  | .float bits => .float (f64.toF32 bits)
  | .str s => .str s
  | .ref r => .ref r

def valueBytes : WireValue → List UInt8
  | .null => [0]
  | .marker => [1]
  | .bool b => [2, if b then 1 else 0]
  | .int i => 3 :: beBytes32 i.toUInt32
  | .float bits => 4 :: beBytes32 bits
  | .str s => 5 :: (asBytes s ++ [0])
  | .ref r => 6 :: (asBytes r ++ [0])

def linkBytes (l : Link) : List UInt8 :=
  beBytes16 l.fromComp ++ [l.fromSlot] ++ beBytes16 l.toComp ++ [l.toSlot]

def tagBytes (tag : String × WireValue) : List UInt8 :=
  asBytes tag.1 ++ [0] ++ valueBytes tag.2

def tagsOf (dynStore : Option DynSlotStore) (compId : UInt16) : Tags :=
  match dynStore with
  | none => Table.empty
  | some store => getAllWithComputed f64 store compId

def wireTags (tags : Tags) : List (String × WireValue) :=
  (tags.keys.sort (· ≤ ·)).filterMap fun key =>
    (tags.get key).map fun value => (key, wireValue f64 value)

theorem encodeDynValue_payload (resp : SoxResponse) (value : DynValue) :
    (encodeDynValue f64 resp value).payload = resp.payload ++ valueBytes (wireValue f64 value) := by
  cases value with
  | null | marker => rfl
  | bool b | int i | float bits => exact List.append_assoc _ _ _
  | str s | ref r =>
    change (resp.payload ++ [_] ++ asBytes _) ++ [0] = _
    simp [wireValue, valueBytes]

theorem writeTags_payload (tags : Tags) (keys : List String) (resp : SoxResponse) :
    (keys.foldl (writeTag f64 tags) resp).payload = resp.payload ++
      (keys.filterMap fun key =>
        (tags.get key).map fun value => (key, wireValue f64 value)).flatMap tagBytes := by
  induction keys generalizing resp with
  | nil => simp
  | cons key keys ih =>
    rw [List.foldl_cons, ih]
    unfold writeTag
    cases hget : tags.get key with
    | none => simp [hget]
    | some value =>
      dsimp only
      rw [encodeDynValue_payload]
      simp [hget, tagBytes, SoxResponse.writeStr]

theorem writeLinks_payload (links : List Link) (resp : SoxResponse) :
    (links.foldl writeLink resp).payload = resp.payload ++ links.flatMap linkBytes := by
  induction links generalizing resp with
  | nil => simp
  | cons l links ih =>
    rw [List.foldl_cons, ih]
    simp [writeLink, linkBytes, SoxResponse.writeU16, SoxResponse.writeU8]

theorem writeIds_payload (ids : List UInt16) (resp : SoxResponse) :
    (ids.foldl (fun resp id => resp.writeU16 id) resp).payload =
      resp.payload ++ ids.flatMap beBytes16 := by
  induction ids generalizing resp with
  | nil => simp
  | cons id ids ih =>
    rw [List.foldl_cons, ih]
    simp [SoxResponse.writeU16]

end Written

section ReadBack

variable (f64 : F64Ops)

def treeView (comp : VirtualComponent) : TreeView :=
  ⟨comp.kitId, comp.typeId, comp.name, comp.parentId, 0xFF, comp.children⟩

def treeBytes (comp : VirtualComponent) : List UInt8 :=
  [comp.kitId] ++ ([comp.typeId] ++ ((asBytes comp.name ++ [0]) ++ (beBytes16 comp.parentId ++
    ([0xFF] ++ ([UInt8.ofNat comp.children.length] ++ (comp.children.flatMap beBytes16 ++ []))))))

theorem reads_tree {comp : VirtualComponent} (hname : NulFree comp.name)
    (hcount : comp.children.length ≤ 255) : Reads readTree (treeBytes comp) (treeView comp) := by
  have hlength : (UInt8.ofNat comp.children.length).toNat = comp.children.length := by
    rw [UInt8.toNat_ofNat']
    exact Nat.mod_eq_of_lt (by omega)
  refine (reads_u8 _).bind ((reads_u8 _).bind ((reads_str hname).bind ((reads_u16 _).bind
    ((reads_u8 _).bind ((reads_u8 _).bind (Reads.bind ?_ (reads_pure _)))))))
  rw [hlength]
  exact reads_many comp.children fun id _ => reads_u16 id

theorem reads_link {l : Link} (h : l.fromComp ≠ 0xFFFF) : Reads readLink (linkBytes l) (some l) := by
  have hrest : Reads (do
      let fromSlot ← u8
      let toComp ← u16
      let toSlot ← u8
      pure (some (⟨l.fromComp, fromSlot, toComp, toSlot⟩ : Link)))
      ([l.fromSlot] ++ (beBytes16 l.toComp ++ ([l.toSlot] ++ []))) (some l) :=
    (reads_u8 _).bind ((reads_u16 _).bind ((reads_u8 _).bind (reads_pure _)))
  have hall := (reads_u16 l.fromComp).bind (q := fun fromComp =>
    if fromComp = 0xFFFF then pure none
    else do
      let fromSlot ← u8
      let toComp ← u16
      let toSlot ← u8
      pure (some (⟨fromComp, fromSlot, toComp, toSlot⟩ : Link))) (by rw [if_neg h]; exact hrest)
  simp only [List.append_nil] at hall
  simp only [linkBytes, List.append_assoc]
  exact hall

theorem reads_terminator : Reads readLink (beBytes16 0xFFFF) none := fun _ => rfl

theorem reads_links {links : List Link} (h : ∀ l ∈ links, l.fromComp ≠ 0xFFFF) :
    readLinks.run (links.flatMap linkBytes ++ beBytes16 0xFFFF) = some (links, []) := by
  have hcount : links.length < (links.flatMap linkBytes ++ beBytes16 0xFFFF).length := by
    have hlinks : links.length ≤ (links.flatMap linkBytes).length := by
      rw [List.length_flatMap]
      calc links.length = (links.map fun _ => 1).sum := by simp
        _ ≤ _ := List.sum_le_sum fun l _ => by
          simp only [linkBytes, List.length_append, List.length_singleton]
          omega
    have hstop : (beBytes16 0xFFFF).length = 2 := rfl
    rw [List.length_append, hstop]
    omega
  exact (reads_manyUntil links (fun l hl => reads_link (h l hl)) reads_terminator hcount).whole

/-- The texts of a value end where the terminating zero stands. -/
def WireSafe : WireValue → Prop
  | .str s => NulFree s
  | .ref r => NulFree r
  | _ => True

theorem reads_value {v : WireValue} (h : WireSafe v) : Reads readValue (valueBytes v) v := by
  cases v with
  | null | marker => exact fun _ => rfl
  | bool b => cases b <;> exact fun _ => rfl
  | int i => exact (reads_u8 3).bind ((reads_i32 i).map _)
  | float bits => exact (reads_u8 4).bind ((reads_u32 bits).map _)
  | str s => exact (reads_u8 5).bind ((reads_str h).map _)
  | ref r => exact (reads_u8 6).bind ((reads_str h).map _)

theorem reads_tag {tag : String × WireValue} (hkey : NulFree tag.1) (hvalue : WireSafe tag.2) :
    Reads readTag (tagBytes tag) tag := by
  have hall := (reads_str hkey).bind (q := fun key => do
    let value ← readValue
    pure (key, value)) ((reads_value hvalue).bind (reads_pure _))
  rw [List.append_nil] at hall
  exact hall

theorem reads_tags {tags : List (String × WireValue)} (hcount : tags.length ≤ 65535)
    (h : ∀ tag ∈ tags, NulFree tag.1 ∧ WireSafe tag.2) :
    Reads readTags (beBytes16 (UInt16.ofNat tags.length) ++ tags.flatMap tagBytes) tags := by
  have hlength : (UInt16.ofNat tags.length).toNat = tags.length := by
    rw [UInt16.toNat_ofNat']
    exact Nat.mod_eq_of_lt (by omega)
  refine (reads_u16 _).bind ?_
  rw [hlength]
  exact reads_many tags fun tag htag => reads_tag (h tag htag).1 (h tag htag).2

theorem run_view {α : Type} {view : Reader UInt8 α} (compId : UInt16) (what : UInt8)
    {bytes : List UInt8} {a : α} (h : view.run bytes = some (a, [])) :
    (readView view).run (beBytes16 compId ++ ([what] ++ bytes)) =
      some ((compId, what, a), []) := by
  unfold readView
  rw [StateT.run_bind, reads_u16 compId]
  change ((u8 >>= fun what => view >>= fun a => pure (compId, what, a)).run ([what] ++ bytes)) = _
  rw [StateT.run_bind, reads_u8 what]
  change ((view >>= fun a => pure (compId, what, a)).run bytes) = _
  rw [StateT.run_bind, h]
  rfl

def readCompRequest (reqId : UInt8) (compId : UInt16) (what : UInt8) : SoxRequest :=
  ⟨.readComp, reqId, beBytes16 compId ++ [what]⟩

section Response

variable (reqId : UInt8) {compId : UInt16} {tree : ComponentTree} (dynStore : Option DynSlotStore)
  {comp : VirtualComponent}

theorem handleReadComp_known (what : UInt8) (h : tree.get compId = some comp) :
    handleReadComp f64 (readCompRequest reqId compId what) tree dynStore =
      let resp := ((SoxResponse.success .readComp reqId).writeU16 comp.compId).writeU8 what
      if what = 100 then handleReadCompDynamic f64 compId dynStore resp
      else writeView resp comp what := by
  unfold handleReadComp readCompRequest
  dsimp only
  rw [readU16_beBytes16]
  dsimp only [SoxReader.readU8]
  rw [h]
  rfl

theorem treePayload (h : tree.get compId = some comp) :
    (handleReadComp f64 (readCompRequest reqId compId 116) tree dynStore).payload =
      beBytes16 comp.compId ++ ([116] ++ treeBytes comp) := by
  rw [handleReadComp_known f64 reqId dynStore 116 h]
  dsimp only
  rw [if_neg (by decide), writeView, if_pos rfl, writeTree, writeIds_payload]
  simp [treeBytes, SoxResponse.writeU8, SoxResponse.writeU16, SoxResponse.writeStr,
    SoxResponse.success]

theorem linksPayload (h : tree.get compId = some comp) :
    (handleReadComp f64 (readCompRequest reqId compId 108) tree dynStore).payload =
      beBytes16 comp.compId ++ ([108] ++ (comp.links.flatMap linkBytes ++ beBytes16 0xFFFF)) := by
  rw [handleReadComp_known f64 reqId dynStore 108 h]
  dsimp only
  rw [if_neg (by decide), writeView, if_neg (by decide), if_neg (by decide), if_neg (by decide),
    if_pos rfl, SoxResponse.writeU16]
  dsimp only
  rw [writeLinks_payload]
  simp [SoxResponse.writeU8, SoxResponse.writeU16, SoxResponse.success]

theorem wireTags_keys (tags : Tags) :
    (wireTags f64 tags).map Prod.fst = tags.keys.sort (· ≤ ·) := by
  have hall : ∀ keys : List String, (∀ key ∈ keys, key ∈ tags.keys) →
      (keys.filterMap fun key =>
        (tags.get key).map fun value => (key, wireValue f64 value)).map Prod.fst = keys := by
    intro keys hkeys
    induction keys with
    | nil => rfl
    | cons key keys ih =>
      have hkey := (Table.mem_keys tags key).1 (hkeys key List.mem_cons_self)
      rcases hkey with ⟨value, hget⟩
      have htail := ih fun k hk => hkeys k (List.mem_cons_of_mem _ hk)
      simp [hget, htail]
  exact hall _ fun key hkey => (Finset.mem_sort _).1 hkey

theorem mem_wireTags (tags : Tags) (key : String) (v : WireValue) :
    (key, v) ∈ wireTags f64 tags ↔ ∃ value, tags.get key = some value ∧ v = wireValue f64 value := by
  have hkeys : key ∈ tags.keys.sort (· ≤ ·) ↔ ∃ value, tags.get key = some value :=
    (Finset.mem_sort _).trans (Table.mem_keys tags key)
  unfold wireTags
  rw [List.mem_filterMap]
  constructor
  · rintro ⟨key', -, hvalue⟩
    cases hget : tags.get key' with
    | none => simp [hget] at hvalue
    | some value =>
      rw [hget] at hvalue
      injection hvalue with hpair
      injection hpair with hname hv
      exact ⟨value, hname ▸ hget, hv.symm⟩
  · rintro ⟨value, hget, rfl⟩
    exact ⟨key, hkeys.2 ⟨value, hget⟩, by rw [hget]; rfl⟩

theorem wireTags_length (tags : Tags) : (wireTags f64 tags).length = tags.size := by
  rw [← List.length_map (f := Prod.fst), wireTags_keys, Finset.length_sort]
  rfl

theorem tagsPayload (h : tree.get compId = some comp) :
    (handleReadComp f64 (readCompRequest reqId compId 100) tree dynStore).payload =
      beBytes16 comp.compId ++ ([100] ++
        (beBytes16 (UInt16.ofNat (wireTags f64 (tagsOf f64 dynStore compId)).length) ++
          (wireTags f64 (tagsOf f64 dynStore compId)).flatMap tagBytes)) := by
  rw [handleReadComp_known f64 reqId dynStore 100 h]
  dsimp only
  rw [if_pos rfl, wireTags_length]
  unfold handleReadCompDynamic tagsOf
  cases dynStore with
  | none =>
    have hsort : (Table.empty : Tags).keys.sort (· ≤ ·) = [] := by
      exact Finset.sort_empty _
    simp only [wireTags, hsort]
    simp [SoxResponse.writeU8, SoxResponse.writeU16, SoxResponse.success, Table.size]
    rfl
  | some store =>
    dsimp only
    rw [writeTags_payload]
    simp [SoxResponse.writeU8, SoxResponse.writeU16, SoxResponse.success, wireTags]

end Response

/-- What is read back of a component: everything of the tree view, every link, and every tag
    once with the value that travels. -/
theorem readComp_readBack (reqId : UInt8) {compId : UInt16} {tree : ComponentTree}
    (dynStore : Option DynSlotStore) {comp : VirtualComponent} (h : tree.get compId = some comp) :
    (NulFree comp.name → comp.children.length ≤ 255 →
      (readView readTree).run
          (handleReadComp f64 (readCompRequest reqId compId 116) tree dynStore).payload =
        some ((comp.compId, 116, treeView comp), [])) ∧
    ((∀ l ∈ comp.links, l.fromComp ≠ 0xFFFF) →
      (readView readLinks).run
          (handleReadComp f64 (readCompRequest reqId compId 108) tree dynStore).payload =
        some ((comp.compId, 108, comp.links), [])) ∧
    ((tagsOf f64 dynStore compId).size ≤ 65535 →
      (∀ key value, (tagsOf f64 dynStore compId).get key = some value →
        NulFree key ∧ WireSafe (wireValue f64 value)) →
      ∃ tags, (readView readTags).run
          (handleReadComp f64 (readCompRequest reqId compId 100) tree dynStore).payload =
        some ((comp.compId, 100, tags), []) ∧ (tags.map Prod.fst).Nodup ∧
        ∀ key v, (key, v) ∈ tags ↔
          ∃ value, (tagsOf f64 dynStore compId).get key = some value ∧
            v = wireValue f64 value) := by
  refine ⟨fun hname hcount => ?_, fun hlinks => ?_, fun hcount hsafe => ?_⟩
  · rw [treePayload f64 reqId dynStore h]
    exact run_view _ 116 (reads_tree hname hcount).whole
  · rw [linksPayload f64 reqId dynStore h]
    exact run_view _ 108 (reads_links hlinks)
  · rw [tagsPayload f64 reqId dynStore h]
    refine ⟨_, run_view _ 100 (reads_tags ?_ ?_).whole, ?_, mem_wireTags f64 _⟩
    · rwa [wireTags_length]
    · intro tag htag
      obtain ⟨value, hget, hv⟩ := (mem_wireTags f64 _ tag.1 tag.2).1 htag
      rw [hv]
      exact hsafe tag.1 value hget
    · rw [wireTags_keys]
      exact Finset.sort_nodup _ _

theorem wireTags_single (key : String) (value : DynValue) :
    wireTags f64 (Table.empty.insert key value) = [(key, wireValue f64 value)] := by
  have hkeys : ((Table.empty : Tags).insert key value).keys.sort (· ≤ ·) = [key] := by
    rw [Table.keys_insert]
    exact Finset.sort_singleton _ key
  unfold wireTags
  rw [hkeys]
  simp [Table.get_insert]

end ReadBack

def plant : VirtualComponent :=
  ⟨1, noParent, "plant", "sys::Folder", 0, 11, [2, 3], [], [⟨2, 0, 1, 4⟩]⟩

def plantTree : ComponentTree := (ComponentTree.newWithManifest ManifestDb.new).add plant

theorem get_plantTree : plantTree.get 1 = some plant := by
  change (Table.insert Table.empty (1 : UInt16) plant).get 1 = _
  rw [Table.get_insert, if_pos rfl]

def runHours (value : DynValue) : DynSlotStore :=
  (DynSlotStore.withDefaults.set 1 "runHours" value).1

theorem tagsOf_runHours (value : DynValue) :
    tagsOf nativeF64 (some (runHours value)) 1 = Table.empty.insert "runHours" value := by
  rfl

theorem readComp_readBack_plant :
    (readView readTree).run
        (handleReadComp nativeF64 (readCompRequest 9 1 116) plantTree none).payload =
      some ((1, 116, ⟨0, 11, "plant", noParent, 0xFF, [2, 3]⟩), []) ∧
    (readView readLinks).run
        (handleReadComp nativeF64 (readCompRequest 9 1 108) plantTree none).payload =
      some ((1, 108, [⟨2, 0, 1, 4⟩]), []) ∧
    ∃ tags, (readView readTags).run (handleReadComp nativeF64 (readCompRequest 9 1 100) plantTree
        (some (runHours (.int 4294967337)))).payload = some ((1, 100, tags), []) ∧
      (tags.map Prod.fst).Nodup ∧ ∀ key v, (key, v) ∈ tags ↔ key = "runHours" ∧ v = .int 41 := by
  have hback := readComp_readBack nativeF64 9 none get_plantTree
  obtain ⟨-, -, htags⟩ :=
    readComp_readBack nativeF64 9 (some (runHours (.int 4294967337))) get_plantTree
  rw [tagsOf_runHours] at htags
  have honly : ∀ key value, (Table.empty.insert "runHours" (DynValue.int 4294967337)).get key =
      some value ↔ key = "runHours" ∧ value = .int 4294967337 := by
    intro key value
    rw [Table.get_insert]
    split_ifs with hkey
    · simp [hkey, eq_comm]
    · simp [hkey, Table.get_empty]
  obtain ⟨tags, hrun, hnodup, hmem⟩ := htags (by decide) fun key value hget => by
    obtain ⟨rfl, rfl⟩ := (honly key value).1 hget
    exact ⟨by decide, trivial⟩
  refine ⟨hback.1 (by decide) (by decide), hback.2.1 ?_, tags, hrun, hnodup, fun key v => ?_⟩
  · intro l hl
    rw [List.mem_singleton.1 hl]
    decide
  · rw [hmem]
    constructor
    · rintro ⟨value, hget, rfl⟩
      obtain ⟨rfl, rfl⟩ := (honly key value).1 hget
      exact ⟨rfl, rfl⟩
    · rintro ⟨rfl, rfl⟩
      exact ⟨_, (honly _ _).2 ⟨rfl, rfl⟩, rfl⟩

/-- Run hours of 2^32 and run hours of zero give one response, so no reading of it finds the
    tags. -/
theorem no_tags_reading :
    ¬ ∃ read : List UInt8 → List (String × DynValue), ∀ store key value,
      (key, value) ∈ read
          (handleReadComp nativeF64 (readCompRequest 9 1 100) plantTree (some store)).payload ↔
        (tagsOf nativeF64 (some store) 1).get key = some value := by
  rintro ⟨read, hread⟩
  have hwire : ∀ i : Int64, i.toInt32 = 0 →
      (handleReadComp nativeF64 (readCompRequest 9 1 100) plantTree
          (some (runHours (.int i)))).payload =
        (handleReadComp nativeF64 (readCompRequest 9 1 100) plantTree
          (some (runHours (.int 0)))).payload := by
    intro i hi
    rw [tagsPayload nativeF64 9 _ get_plantTree, tagsPayload nativeF64 9 _ get_plantTree,
      tagsOf_runHours, tagsOf_runHours, wireTags_single, wireTags_single]
    simp only [wireValue, hi]
    rfl
  have hzero := (hread (runHours (.int 0)) "runHours" (.int 0)).2 (by
    rw [tagsOf_runHours, Table.get_insert, if_pos rfl])
  rw [← hwire 4294967296 (by decide)] at hzero
  have hlarge := (hread (runHours (.int 4294967296)) "runHours" (.int 0)).1 hzero
  rw [tagsOf_runHours, Table.get_insert, if_pos rfl] at hlarge
  injection hlarge with hvalue
  injection hvalue with hint
  exact absurd hint (by decide)

end Sandstar.SoxReads
