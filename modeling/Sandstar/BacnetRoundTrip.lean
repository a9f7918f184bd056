import Sandstar.BacnetFrames

set_option autoImplicit false

namespace Sandstar.Bacnet

open Decoding SoxProtocol

section Grouping

variable {R : Type} (object : R → UInt16 × UInt32)

def firstObjects (rs : List R) : List (UInt16 × UInt32) := (rs.map object).reverse.dedup.reverse

/-- The entries object by object. -/
def grouped (rs : List R) : List R :=
  (firstObjects object rs).flatMap fun key => rs.filter (object · = key)

variable {object}

theorem addToGroup_absent {key : UInt16 × UInt32} {r : R}
    {groups : List ((UInt16 × UInt32) × List R)} (h : key ∉ groups.map Prod.fst) :
    addToGroup key r groups = groups ++ [(key, [r])] := by
  induction groups with
  | nil => rfl
  | cons g groups ih =>
    rw [List.map_cons, List.mem_cons, not_or] at h
    rw [addToGroup, if_neg (Ne.symm h.1), ih h.2]
    rfl

theorem addToGroup_present {key : UInt16 × UInt32} {r : R} {f : UInt16 × UInt32 → List R}
    {keys : List (UInt16 × UInt32)} (hnodup : keys.Nodup) (h : key ∈ keys) :
    addToGroup key r (keys.map fun k => (k, f k)) =
      keys.map fun k => (k, if k = key then f k ++ [r] else f k) := by
  induction keys with
  | nil => cases h
  | cons k keys ih =>
    rw [List.nodup_cons] at hnodup
    rw [List.map_cons, addToGroup, List.map_cons]
    by_cases hk : k = key
    · have hrest : ∀ k' ∈ keys, ¬k' = key := by
        rintro k' hk' rfl
        exact hnodup.1 (hk ▸ hk')
      rw [if_pos hk, if_pos hk]
      congr 1
      apply List.map_congr_left
      intro k' hk'
      rw [if_neg (hrest k' hk')]
    · rw [if_neg hk, if_neg hk, ih hnodup.2 ((List.mem_cons.1 h).resolve_left (Ne.symm hk))]

theorem mem_firstObjects {rs : List R} {key : UInt16 × UInt32} :
    key ∈ firstObjects object rs ↔ ∃ r ∈ rs, object r = key := by
  simp [firstObjects]

theorem firstObjects_concat (rs : List R) (r : R) :
    firstObjects object (rs ++ [r]) =
      if object r ∈ rs.map object then firstObjects object rs
      else firstObjects object rs ++ [object r] := by
  unfold firstObjects
  rw [List.map_append, List.reverse_append]
  change (object r :: (rs.map object).reverse).dedup.reverse = _
  split_ifs with h
  · rw [List.dedup_cons_of_mem (List.mem_reverse.2 h)]
  · rw [List.dedup_cons_of_notMem (fun hm => h (List.mem_reverse.1 hm)), List.reverse_cons]

theorem groupByObject_eq (rs : List R) :
    groupByObject object rs =
      (firstObjects object rs).map fun key => (key, rs.filter (object · = key)) := by
  unfold groupByObject
  induction rs using List.reverseRecOn with
  | nil => rfl
  | append_singleton rs r ih =>
    rw [List.foldl_append, ih, List.foldl_cons, List.foldl_nil, firstObjects_concat]
    have hnodup : (firstObjects object rs).Nodup := List.nodup_reverse.2 (List.nodup_dedup _)
    split_ifs with h
    · rw [addToGroup_present hnodup (mem_firstObjects.2 (by simpa using h))]
      apply List.map_congr_left
      intro key _
      rw [List.filter_append]
      split_ifs with hkey
      · subst hkey
        simp
      · simp [Ne.symm hkey]
    · have habsent : object r ∉ ((firstObjects object rs).map fun key =>
          (key, rs.filter (object · = key))).map Prod.fst := by
        simpa [mem_firstObjects] using h
      have hnone : rs.filter (object · = object r) = [] := by
        rw [List.filter_eq_nil_iff]
        intro r' hr'
        rw [decide_eq_true_iff]
        intro heq
        exact h (heq ▸ List.mem_map_of_mem hr')
      rw [addToGroup_absent habsent, List.map_append]
      congr 1
      · apply List.map_congr_left
        intro key hkey
        have hne : ¬object r = key := by
          rintro rfl
          obtain ⟨r', hr', heq⟩ := mem_firstObjects.1 hkey
          exact h (heq ▸ List.mem_map_of_mem hr')
        simp [List.filter_append, hne]
      · simp [List.filter_append, hnone]

theorem mem_grouped {rs : List R} {r : R} : r ∈ grouped object rs ↔ r ∈ rs := by
  unfold grouped
  rw [List.mem_flatMap]
  constructor
  · rintro ⟨key, -, hr⟩
    exact List.mem_of_mem_filter hr
  · intro hr
    exact ⟨object r, mem_firstObjects.2 ⟨r, hr, rfl⟩, List.mem_filter.2 ⟨hr, by simp⟩⟩

theorem grouped_map {f : R → R} (hf : ∀ r, object (f r) = object r) (rs : List R) :
    grouped object (rs.map f) = (grouped object rs).map f := by
  have hfirst : firstObjects object (rs.map f) = firstObjects object rs := by
    unfold firstObjects
    rw [List.map_map, show object ∘ f = object from funext hf]
  unfold grouped
  rw [hfirst, List.map_flatMap]
  congr 1
  funext key
  rw [List.filter_map]
  congr 2
  funext r
  simp [hf]

end Grouping

section Tags

variable {data payload rest : List UInt8} {pos : ℕ}

def InnerTag (tag : UInt8) : Prop := tag = 0 ∨ tag = 1 ∨ tag = 2 ∨ tag = 3 ∨ tag = 4

theorem readContextUnsigned_of_tag {tag tagByte : UInt8} {tl : List UInt8} {len : ℕ} {val : UInt32}
    (hclass : tagByte >>> 3 &&& 0x01 = 1) (hnumber : tagNumber tagByte = tag)
    (hlength : tagLength tagByte = len) (hlen : len ≤ tl.length)
    (hval : ∀ expected, contextValue (tagByte :: tl) len expected = .ok val) :
    readContextUnsigned (tagByte :: tl) tag = .ok (val, 1 + len) := by
  unfold readContextUnsigned
  dsimp only
  rw [hlength, if_neg (by simp [hclass]), if_neg (by simp [hnumber]),
    if_neg (by simp only [List.length_cons]; omega), hval]
  rfl

/-- The tag byte the encoder builds names its tag and its length. -/
theorem contextTag_read {tag : UInt8} (htag : InnerTag tag) {len : UInt8}
    (hlen : len = 1 ∨ len = 2 ∨ len = 4) :
    (tag <<< 4 ||| 0x08 ||| len) >>> 3 &&& 0x01 = 1 ∧
      tagNumber (tag <<< 4 ||| 0x08 ||| len) = tag ∧
      tagLength (tag <<< 4 ||| 0x08 ||| len) = len.toNat := by
  rcases htag with rfl | rfl | rfl | rfl | rfl <;> rcases hlen with rfl | rfl | rfl <;> decide

theorem readContextUnsigned_read {tag : UInt8} (htag : InnerTag tag) (val : UInt32)
    (rest : List UInt8) :
    readContextUnsigned (encodeContextUnsigned tag val ++ rest) tag =
      .ok (val, (encodeContextUnsigned tag val).length) := by
  unfold encodeContextUnsigned
  split_ifs with hone htwo
  · obtain ⟨hclass, hnumber, hlength⟩ := contextTag_read htag (Or.inl rfl)
    refine readContextUnsigned_of_tag hclass hnumber hlength (by simp) fun _ => ?_
    exact congrArg Except.ok (toUInt8_toUInt32 hone)
  · obtain ⟨hclass, hnumber, hlength⟩ := contextTag_read htag (Or.inr (Or.inl rfl))
    refine readContextUnsigned_of_tag hclass hnumber hlength (by simp [beBytes16]) fun _ => ?_
    change Except.ok (beU16 (val.toUInt16 >>> 8).toUInt8 val.toUInt16.toUInt8).toUInt32 = _
    rw [beU16_beBytes16, toUInt16_toUInt32_iff.2 htwo]
  · obtain ⟨hclass, hnumber, hlength⟩ := contextTag_read htag (Or.inr (Or.inr rfl))
    refine readContextUnsigned_of_tag hclass hnumber hlength (by simp [beBytes32]) fun _ => ?_
    exact congrArg Except.ok (beU32_beBytes32 val)

theorem readContextAt_read {tag : UInt8} (htag : InnerTag tag) {val : UInt32}
    (h : At payload pos (encodeContextUnsigned tag val ++ rest)) :
    readContextAt payload pos tag = .ok (val, pos + (encodeContextUnsigned tag val).length) := by
  unfold readContextAt
  rw [h.suffix]
  change (readContextUnsigned (encodeContextUnsigned tag val ++ rest) tag >>= _) = _
  rw [readContextUnsigned_read htag]
  rfl

/-- The first byte of a context tag. -/
theorem encodeContextUnsigned_head (tag : UInt8) (val : UInt32) :
    ∃ len tl, (len = 1 ∨ len = 2 ∨ len = 4) ∧
      encodeContextUnsigned tag val = (tag <<< 4 ||| 0x08 ||| len) :: tl := by
  unfold encodeContextUnsigned
  split_ifs
  · exact ⟨1, _, .inl rfl, rfl⟩
  · exact ⟨2, _, .inr (.inl rfl), rfl⟩
  · exact ⟨4, _, .inr (.inr rfl), rfl⟩

theorem readOptional_read {tag : UInt8} (htag : InnerTag tag) {accepted : UInt8 → Bool}
    {val : Option UInt32}
    (haccepted : ∀ len : UInt8, len = 1 ∨ len = 2 ∨ len = 4 →
      accepted (tag <<< 4 ||| 0x08 ||| len) = true)
    (hrest : ∀ b ∈ rest.head?, accepted b = false)
    (h : At payload pos (encodeContextOption tag val ++ rest)) :
    readOptional payload pos tag accepted =
      .ok (val, pos + (encodeContextOption tag val).length) := by
  unfold readOptional
  cases val with
  | none =>
    cases rest with
    | nil =>
      rw [show payload[pos]? = none from h.end?]
      rfl
    | cons b rest =>
      rw [show payload[pos]? = some b from h.head?]
      change (if accepted b = true then _ else _) = _
      rw [if_neg (by simp [hrest b rfl])]
      rfl
  | some v =>
    obtain ⟨len, tl, hlen, hhead⟩ := encodeContextUnsigned_head tag v
    have hat : At payload pos (encodeContextUnsigned tag v ++ rest) := h
    have hfirst : payload[pos]? = some (tag <<< 4 ||| 0x08 ||| len) := by
      rw [hhead] at hat
      exact hat.head?
    rw [hfirst]
    change (if accepted _ = true then _ else _) = _
    rw [if_pos (haccepted len hlen), readContextAt_read htag hat]
    rfl

theorem decodeValueAt_read {v : BacnetValue} (hv : Encodable v)
    (h : At payload pos (encodeBacnetValue v ++ rest)) :
    decodeValueAt payload pos = .ok (v, pos + (encodeBacnetValue v).length) := by
  unfold decodeValueAt
  rw [h.suffix]
  change (decodeApplicationTag (encodeBacnetValue v ++ rest) >>= _) = _
  rw [decode_encodable hv]
  rfl

theorem decodeEnumeratedAt_read {n : UInt32} (h : At payload pos (encodeAppEnumerated n ++ rest)) :
    decodeEnumeratedAt payload pos =
      .ok (n.toUInt16.toUInt32, pos + (encodeAppEnumerated n).length) := by
  unfold decodeEnumeratedAt decodeValueAt
  rw [h.suffix]
  change (((decodeApplicationTag (encodeAppEnumerated n ++ rest) >>= _) :
    Decoder BacnetError _) >>= _) = _
  rw [decode_enumerated]
  rfl

/-- An object identifier that fits its ten and twenty-two bits. -/
def Fits (object : UInt16 × UInt32) : Prop := object.1 < 1024 ∧ object.2 < 0x400000

theorem length_encodeObject (objectType : UInt16) (inst : UInt32) :
    (encodeObject objectType inst).length = 5 := rfl

theorem payloadObject_read {object : UInt16 × UInt32} (hfits : Fits object)
    {truncated wrong : String} :
    payloadObject (encodeObject object.1 object.2 ++ rest) truncated wrong = .ok object := by
  have hat : At (encodeObject object.1 object.2 ++ rest) 1
      (beBytes32 (objectIdRaw object.1 object.2) ++ rest) := (at_zero _).next
  have hfirst : index (E := BacnetError) (encodeObject object.1 object.2 ++ rest) 0 = .ok 0x0C := rfl
  unfold payloadObject
  rw [if_neg (by simp [length_encodeObject]), hfirst, ok_bind, if_neg (by decide), indexU32_at hat,
    ok_bind, objectTypeOf_raw_iff.2 hfits.1, instanceOf_raw_iff.2 hfits.2]

theorem rpmObject_read {object : UInt16 × UInt32} (hfits : Fits object) {who opening : String}
    (h : At payload pos (encodeObject object.1 object.2 ++ 0x1E :: rest)) :
    rpmObject payload pos who opening = .ok object := by
  have hlength := h.length
  have hat : At payload (pos + 1) (beBytes32 (objectIdRaw object.1 object.2) ++ 0x1E :: rest) :=
    At.next h
  have hfirst : index (E := BacnetError) payload (pos + 0) = .ok 0x0C := h.index rfl
  have hopening : payload[pos + 5]? = some 0x1E := h.get? 5
  unfold rpmObject
  rw [if_neg (by simp [length_encodeObject] at hlength; omega),
    show index (E := BacnetError) payload pos = .ok 0x0C from hfirst, ok_bind, if_neg (by decide),
    indexU32_at hat, ok_bind, if_neg (by simp [hopening]), objectTypeOf_raw_iff.2 hfits.1,
    instanceOf_raw_iff.2 hfits.2]

theorem notYet_true {stop b : UInt8} (h : At data pos (b :: rest)) (hb : b ≠ stop) :
    notYet data stop pos = true := by
  unfold notYet
  rw [h.head?]
  simpa using hb

theorem notYet_false {stop : UInt8} (h : At data pos (stop :: rest)) :
    notYet data stop pos = false := by
  unfold notYet
  rw [h.head?]
  simp

end Tags

section Lists

variable {payload rest : List UInt8} {pos : ℕ}

theorem length_le_flatMap {R : Type} {enc : R → List UInt8} (rs : List R)
    (h : ∀ r ∈ rs, enc r ≠ []) : rs.length ≤ (rs.flatMap enc).length := by
  induction rs with
  | nil => simp
  | cons r rs ih =>
    have hr := List.length_pos_of_ne_nil (h r List.mem_cons_self)
    have hrs := ih fun r' hr' => h r' (List.mem_cons_of_mem _ hr')
    simp only [List.flatMap_cons, List.length_append, List.length_cons]
    omega

theorem length_encodeGroup {R : Type} (enc : R → List UInt8) (g : (UInt16 × UInt32) × List R) :
    (encodeGroup enc g).length = (g.2.flatMap enc).length + 7 := by
  simp only [encodeGroup, List.length_append, List.length_cons, length_encodeObject,
    List.length_nil]
  omega

theorem rpmObjects_read {R T : Type} {who opening closing : String} {enc : R → List UInt8}
    {entry : UInt16 × UInt32 → ℕ × List T → Decoder BacnetError (ℕ × List T)}
    (back : UInt16 × UInt32 → R → T) (next : List UInt8 → Prop)
    (groups : List ((UInt16 × UInt32) × List R)) (hfits : ∀ g ∈ groups, Fits g.1)
    (hclosing : ∀ rest, next (0x1F :: rest))
    (hfirst : ∀ g ∈ groups, ∀ r ∈ g.2, (∀ rest, next (enc r ++ rest)) ∧
      ∃ b tl, enc r = b :: tl ∧ b ≠ 0x1F)
    (hentry : ∀ g ∈ groups, ∀ r ∈ g.2, ∀ pos acc rest,
      At (groups.flatMap (encodeGroup enc)) pos (enc r ++ rest) → next rest →
      entry g.1 (pos, acc) = .ok (pos + (enc r).length, acc ++ [back g.1 r])) :
    rpmObjects (groups.flatMap (encodeGroup enc)) who opening closing entry =
      .ok (groups.flatMap fun g => g.2.map (back g.1)) := by
  generalize hpayload : groups.flatMap (encodeGroup enc) = payload at hentry ⊢
  have hnonempty : ∀ g ∈ groups, encodeGroup enc g ≠ [] := fun g _ h => by cases h
  have hrounds := length_le_flatMap groups hnonempty
  rw [hpayload] at hrounds
  have hat : At payload 0 (groups.flatMap (encodeGroup enc) ++ []) := by
    rw [hpayload, List.append_nil]
    exact at_zero payload
  unfold rpmObjects
  rw [whileLoop_entries (fun _ => True) groups ?_ (fun _ _ _ => trivial) trivial ?_ hat (by omega)]
  · rfl
  · intro g hg pos acc rest hat _
    have hlength := hat.length
    have hgroup : At payload pos (encodeObject g.1.1 g.1.2 ++
        0x1E :: (g.2.flatMap enc ++ 0x1F :: rest)) := by
      simpa [encodeGroup] using hat
    have hentries : At payload (pos + 6) (g.2.flatMap enc ++ 0x1F :: rest) := hgroup.skip.next
    have hsome : ∀ r ∈ g.2, enc r ≠ [] := by
      intro r hr h
      obtain ⟨b, tl, hhead, -⟩ := (hfirst g hg r hr).2
      rw [hhead] at h
      cases h
    have hinner := length_le_flatMap g.2 hsome
    have hend : At payload (pos + 6 + (g.2.flatMap enc).length) (0x1F :: rest) := hentries.skip
    constructor
    · simp [encodeGroup] at hlength
      simp
      omega
    · dsimp only
      rw [rpmObject_read (hfits g hg) hgroup, ok_bind,
        @whileLoop_entries _ _ _ _ _ _ _ _ (fun r => [back g.1 r]) next g.2 ?_
          (fun r hr => (hfirst g hg r hr).1) _ (hclosing rest) (fun _ _ h => notYet_false h) _ _ _
          hentries ?_,
        ok_bind, if_neg (not_not.2 hend.head?), length_encodeGroup, List.map_eq_flatMap]
      · congr 2
        omega
      · intro r hr pos acc rest hat hnext
        obtain ⟨b, tl, hhead, hb⟩ := (hfirst g hg r hr).2
        refine ⟨?_, hentry g hg r hr pos acc rest hat hnext⟩
        rw [hhead] at hat
        exact notYet_true hat hb
      · have := hentries.length
        simp only [List.length_append] at this
        omega
  · intro pos acc hend
    have hlength := hend.length
    simp at hlength
    simp
    omega

def NoIndexTag (rest : List UInt8) : Prop :=
  ∀ b ∈ rest.head?, (isContext b && tagNumber b = 1 && b ≠ 0x1E && b ≠ 0x1F) = false

theorem encodeSpec_head (s : RpmRequestSpec) :
    ∃ b tl, encodeSpec s = b :: tl ∧ (b = 0x09 ∨ b = 0x0A ∨ b = 0x0C) := by
  obtain ⟨len, tl, hlen, hhead⟩ := encodeContextUnsigned_head 0 s.propertyId
  refine ⟨(0 : UInt8) <<< 4 ||| 0x08 ||| len, tl ++ encodeContextOption 1 s.arrayIndex, ?_, ?_⟩
  · unfold encodeSpec
    rw [hhead]
    rfl
  · rcases hlen with rfl | rfl | rfl <;> decide

theorem encodeResult_head (r : RpmResult) :
    ∃ b tl, encodeResult r = b :: tl ∧ b ≠ 0x1F := by
  obtain ⟨len, tl, hlen, hhead⟩ := encodeContextUnsigned_head 2 r.propertyId
  refine ⟨(2 : UInt8) <<< 4 ||| 0x08 ||| len,
    tl ++ (encodeContextOption 3 r.arrayIndex ++ encodeResultValue r.value), ?_, ?_⟩
  · unfold encodeResult
    rw [hhead]
    rfl
  · rcases hlen with rfl | rfl | rfl <;> decide

theorem rpmSpec_read {s : RpmRequestSpec} {object : UInt16 × UInt32} {acc : List RpmRequestSpec}
    (h : At payload pos (encodeSpec s ++ rest)) (hrest : NoIndexTag rest) :
    rpmSpec payload object (pos, acc) = .ok (pos + (encodeSpec s).length,
      acc ++ [⟨object.1, object.2, s.propertyId, s.arrayIndex⟩]) := by
  unfold encodeSpec at h ⊢
  rw [List.append_assoc] at h
  have hoptional := readOptional_read (.inr (.inl rfl)) (fun len hlen => by
    rcases hlen with rfl | rfl | rfl <;> decide) hrest h.skip
  unfold rpmSpec
  rw [readContextAt_read (.inl rfl) h, ok_bind]
  dsimp only
  rw [hoptional, ok_bind, List.length_append, Nat.add_assoc]

def cutOutcome : Except (UInt32 × UInt32) BacnetValue → Except (UInt32 × UInt32) BacnetValue
  | .ok v => .ok v
  | .error (errorClass, code) => .error (errorClass.toUInt16.toUInt32, code.toUInt16.toUInt32)

theorem rpmOutcome_read {outcome : Except (UInt32 × UInt32) BacnetValue}
    (hvalue : ∀ v, outcome = .ok v → Encodable v)
    (h : At payload pos (encodeResultValue outcome ++ rest)) :
    rpmOutcome payload pos =
      .ok (cutOutcome outcome, pos + (encodeResultValue outcome).length) := by
  unfold rpmOutcome
  cases outcome with
  | ok v =>
    have hopening : At payload pos (0x4E :: (encodeBacnetValue v ++ 0x4F :: rest)) := by
      simpa [encodeResultValue] using h
    rw [hopening.head?]
    dsimp only
    rw [if_pos rfl, decodeValueAt_read (hvalue v rfl) hopening.next, ok_bind]
    dsimp only
    rw [if_neg (not_not.2 hopening.next.skip.head?)]
    simp [cutOutcome, encodeResultValue]
    omega
  | error codes =>
    obtain ⟨errorClass, code⟩ := codes
    have hopening : At payload pos (0x5E :: (encodeAppEnumerated errorClass ++
        (encodeAppEnumerated code ++ 0x5F :: rest))) := by
      simpa [encodeResultValue] using h
    rw [hopening.head?]
    dsimp only
    rw [if_neg (by decide), if_pos rfl, decodeEnumeratedAt_read hopening.next, ok_bind]
    dsimp only
    rw [decodeEnumeratedAt_read hopening.next.skip, ok_bind]
    dsimp only
    rw [if_neg (not_not.2 hopening.next.skip.skip.head?)]
    simp [cutOutcome, encodeResultValue]
    omega

theorem rpmResult_read {r : RpmResult} {object : UInt16 × UInt32} {acc : List RpmResult}
    (hvalue : ∀ v, r.value = .ok v → Encodable v) (h : At payload pos (encodeResult r ++ rest)) :
    rpmResult payload object (pos, acc) = .ok (pos + (encodeResult r).length,
      acc ++ [⟨object.1, object.2, r.propertyId, r.arrayIndex, cutOutcome r.value⟩]) := by
  unfold encodeResult at h ⊢
  rw [List.append_assoc, List.append_assoc] at h
  have hrest : ∀ b ∈ (encodeResultValue r.value ++ rest).head?,
      (tagNumber b = 3 && isContext b && b ≠ 0x3E && b ≠ 0x3F) = false := by
    intro b hb
    cases hr : r.value with
    | ok v =>
      rw [hr] at hb
      cases hb
      decide
    | error codes =>
      rw [hr] at hb
      cases hb
      decide
  have hoptional := readOptional_read (.inr (.inr (.inr (.inl rfl)))) (fun len hlen => by
    rcases hlen with rfl | rfl | rfl <;> decide) hrest h.skip
  unfold rpmResult
  rw [readContextAt_read (.inr (.inr (.inl rfl))) h, ok_bind]
  dsimp only
  rw [hoptional, ok_bind]
  dsimp only
  rw [rpmOutcome_read hvalue h.skip.skip, ok_bind]
  simp only [List.length_append, Nat.add_assoc]

end Lists

end Sandstar.Bacnet
