import Sandstar.DaspWire

set_option autoImplicit false

namespace Sandstar.Dasp
open SoxProtocol Utf8 Cursor

theorem readField_bounds (data : List UInt8) (pos : ℕ) :
    readField data pos = .error .malformed ∨
      ∃ id value stop, readField data pos = .ok (id, value, stop) ∧ stop ≤ data.length := by
  unfold readField
  split_ifs with h
  · exact Or.inl rfl
  · obtain ⟨id, hid⟩ := byteAt_of_lt data pos (Nat.lt_of_not_le h)
    rw [hid]
    change (if id &&& 3 = 0 then _ else _) = _ ∨ ∃ _ _ _, (if id &&& 3 = 0 then _ else _) = _ ∧ _
    split_ifs with h0 h1 hlen h2 hend
    · exact Or.inr ⟨id, .nil, pos + 1, rfl, by omega⟩
    · exact Or.inl rfl
    · obtain ⟨hi, hhi⟩ := byteAt_of_lt data (pos + 1) (by omega)
      obtain ⟨lo, hlo⟩ := byteAt_of_lt data (pos + 1 + 1) (by omega)
      rw [hhi]
      refine Or.inr ⟨id, .u2 (beU16 hi lo), pos + 1 + 2, ?_, by omega⟩
      change (byteAt data (pos + 1 + 1) >>= fun lo => _) = _
      rw [hlo]
      rfl
    · obtain ⟨stop, hstop, hle, hend⟩ :=
        scanTo_bounds (0 : UInt8) data (data.length - (pos + 1)) (pos + 1) (by omega)
      rw [hstop]
      change (if data.length ≤ stop then _ else _) = _ ∨
        ∃ _ _ _, (if data.length ≤ stop then _ else _) = _ ∧ _
      split_ifs with hfull
      · exact Or.inl rfl
      · obtain ⟨s, hs⟩ := slice_of_le data _ _ hle hend
        rw [hs]
        exact Or.inr ⟨id, .str (fromUtf8Lossy s), stop + 1, rfl, by omega⟩
    · exact Or.inl rfl
    · obtain ⟨blen, hblen⟩ := byteAt_of_lt data (pos + 1) (by omega)
      rw [hblen]
      change (if data.length < pos + 1 + 1 + blen.toNat then _ else _) = _ ∨
        ∃ _ _ _, (if data.length < pos + 1 + 1 + blen.toNat then _ else _) = _ ∧ _
      split_ifs with hfull
      · exact Or.inl rfl
      · obtain ⟨b, hb⟩ := slice_of_le data (pos + 1 + 1)
          (pos + 1 + 1 + blen.toNat) (by omega) (by omega)
        rw [hb]
        exact Or.inr ⟨id, .bytes b, pos + 1 + 1 + blen.toNat, rfl, by omega⟩

theorem parseFields_bounds (data : List UInt8) (count pos : ℕ) (hdr : DaspHeader)
    (h : pos ≤ data.length) :
    parseFields data count pos hdr = .error .malformed ∨
      ∃ hdr' stop, parseFields data count pos hdr = .ok (hdr', stop) ∧ stop ≤ data.length := by
  induction count generalizing pos hdr with
  | zero => exact Or.inr ⟨hdr, pos, rfl, h⟩
  | succ count ih =>
    unfold parseFields
    rcases readField_bounds data pos with hf | ⟨id, value, stop, hf, hstop⟩
    · rw [hf]
      exact Or.inl rfl
    · rw [hf]
      exact ih stop (hdr.setField id value) hstop

/-- A packet is rejected, or its payload starts inside it; no index is out of bounds. -/
theorem parseHeader_bounds (data : List UInt8) :
    parseHeader data = .error .malformed ∨
      ∃ hdr, parseHeader data = .ok hdr ∧ hdr.payloadOffset ≤ data.length := by
  unfold parseHeader
  split_ifs with h
  · exact Or.inl rfl
  · obtain ⟨b0, h0⟩ := byteAt_of_lt data 0 (by omega)
    obtain ⟨b1, h1⟩ := byteAt_of_lt data 1 (by omega)
    obtain ⟨b2, h2⟩ := byteAt_of_lt data 2 (by omega)
    obtain ⟨b3, h3⟩ := byteAt_of_lt data 3 (by omega)
    obtain ⟨b4, h4⟩ := byteAt_of_lt data 4 (by omega)
    simp only [h0, h1, h2, h3, h4, bind, Except.bind]
    cases DaspMsgType.fromU8 (b4 >>> 4) with
    | none => exact Or.inl rfl
    | some msgType =>
      rcases parseFields_bounds data (b4 &&& 0x0f).toNat 5
        (DaspHeader.bare (beU16 b0 b1) (beU16 b2 b3) msgType) (by omega) with
        hf | ⟨hdr, stop, hf, hstop⟩
      · exact Or.inl (by simp only [hf])
      · simp only [hf]
        exact Or.inr ⟨_, rfl, hstop⟩

/-- The low bits of the id announce the type of the value, and the value fits its form. -/
def FieldFits : UInt8 × FieldValue → Prop
  | (id, .nil) => id &&& 3 = 0
  | (id, .u2 _) => id &&& 3 = 1
  | (id, .str s) => id &&& 3 = 2 ∧ (0 : UInt8) ∉ asBytes s
  | (id, .bytes b) => id &&& 3 = 3 ∧ b.length ≤ 255

section OneField

variable {data : List UInt8} (pre : List UInt8) {id : UInt8} (post : List UInt8)

theorem readField_nil (hdata : data = pre ++ (encodeField (id, .nil) ++ post))
    (h0 : id &&& 3 = 0) :
    readField data pre.length = .ok (id, .nil, pre.length + (encodeField (id, .nil)).length) := by
  have hid := byteAt_append data pre id post hdata
  have hlt : ¬ data.length ≤ pre.length := by simp [hdata, encodeField]
  unfold readField
  rw [if_neg hlt, hid]
  change (if id &&& 3 = 0 then _ else _) = _
  rw [if_pos h0]
  rfl

theorem readField_u2 (v : UInt16) (hdata : data = pre ++ (encodeField (id, .u2 v) ++ post))
    (h1 : id &&& 3 = 1) :
    readField data pre.length =
      .ok (id, .u2 v, pre.length + (encodeField (id, .u2 v)).length) := by
  have hid := byteAt_append data pre id (beBytes16 v ++ post) hdata
  have hhi : byteAt data (pre.length + 1) = .ok (v >>> 8).toUInt8 := by
    have h := byteAt_append data (pre ++ [id]) (v >>> 8).toUInt8 (v.toUInt8 :: post)
      (by rw [hdata]; simp [encodeField, beBytes16])
    rwa [List.length_append, List.length_singleton] at h
  have hlo : byteAt data (pre.length + 1 + 1) = .ok v.toUInt8 := by
    have h := byteAt_append data (pre ++ [id, (v >>> 8).toUInt8]) v.toUInt8 post
      (by rw [hdata]; simp [encodeField, beBytes16])
    rwa [List.length_append] at h
  have hlen : data.length = pre.length + 3 + post.length := by
    rw [hdata]
    simp [encodeField, beBytes16]
    omega
  unfold readField
  rw [if_neg (by omega), hid]
  change (if id &&& 3 = 0 then _ else _) = _
  rw [h1, if_neg (by decide), if_pos rfl, if_neg (by omega), hhi]
  change (byteAt data (pre.length + 1 + 1) >>= fun lo => _) = _
  rw [hlo]
  change Except.ok (id, FieldValue.u2 (beU16 (v >>> 8).toUInt8 v.toUInt8), pre.length + 1 + 2) = _
  rw [beU16_beBytes16]
  rfl

theorem readField_str (s : String) (hdata : data = pre ++ (encodeField (id, .str s) ++ post))
    (h2 : id &&& 3 = 2) (hnul : (0 : UInt8) ∉ asBytes s) :
    readField data pre.length =
      .ok (id, .str s, pre.length + (encodeField (id, .str s)).length) := by
  have hid := byteAt_append data pre id (asBytes s ++ [0] ++ post) (by rw [hdata]; rfl)
  have hlen : data.length = pre.length + 1 + (asBytes s).length + 1 + post.length := by
    rw [hdata]
    simp [encodeField]
    omega
  have happ : data = (pre ++ [id]) ++ (asBytes s ++ 0 :: post) := by
    rw [hdata]
    simp [encodeField]
  have hscan : scanTo 0 data (data.length - (pre.length + 1)) (pre.length + 1) =
      .ok (pre.length + 1 + (asBytes s).length) := by
    have h := scanTo_append (pre ++ [id]) (asBytes s) post (data.length - (pre.length + 1)) happ
      hnul (by omega)
    rwa [List.length_append, List.length_singleton] at h
  have hslice : slice data (pre.length + 1) (pre.length + 1 + (asBytes s).length) =
      .ok (asBytes s) := by
    have h := slice_append data (pre ++ [id]) (asBytes s) (0 :: post) happ
    rwa [List.length_append, List.length_singleton] at h
  unfold readField
  rw [if_neg (by omega), hid]
  change (if id &&& 3 = 0 then _ else _) = _
  rw [h2, if_neg (by decide), if_neg (by decide), if_pos rfl, hscan]
  change (if data.length ≤ pre.length + 1 + (asBytes s).length then _ else _) = _
  rw [if_neg (by omega), hslice]
  change Except.ok (id, FieldValue.str (fromUtf8Lossy (asBytes s)), _) = _
  rw [fromUtf8Lossy_asBytes]
  refine congrArg (fun n => Except.ok (id, FieldValue.str s, n)) ?_
  simp [encodeField]
  omega

theorem readField_bytes (b : List UInt8)
    (hdata : data = pre ++ (encodeField (id, .bytes b) ++ post)) (h3 : id &&& 3 = 3)
    (hb : b.length ≤ 255) :
    readField data pre.length =
      .ok (id, .bytes b, pre.length + (encodeField (id, .bytes b)).length) := by
  have hblen : (UInt8.ofNat b.length).toNat = b.length := by
    rw [UInt8.toNat_ofNat']
    exact Nat.mod_eq_of_lt (by omega)
  have hid := byteAt_append data pre id (UInt8.ofNat b.length :: b ++ post) hdata
  have hlen : data.length = pre.length + 2 + b.length + post.length := by
    rw [hdata]
    simp [encodeField]
    omega
  have hsize : byteAt data (pre.length + 1) = .ok (UInt8.ofNat b.length) := by
    have h := byteAt_append data (pre ++ [id]) (UInt8.ofNat b.length) (b ++ post)
      (by rw [hdata]; simp [encodeField])
    rwa [List.length_append, List.length_singleton] at h
  have hslice : slice data (pre.length + 1 + 1) (pre.length + 1 + 1 + b.length) = .ok b := by
    have h := slice_append data (pre ++ [id, UInt8.ofNat b.length]) b post
      (by rw [hdata]; simp [encodeField])
    rwa [List.length_append] at h
  unfold readField
  rw [if_neg (by omega), hid]
  change (if id &&& 3 = 0 then _ else _) = _
  rw [h3, if_neg (by decide), if_neg (by decide), if_neg (by decide), if_neg (by omega), hsize]
  change (if data.length < pre.length + 1 + 1 + (UInt8.ofNat b.length).toNat then _ else _) = _
  rw [hblen, if_neg (by omega), hslice]
  refine congrArg (fun n => Except.ok (id, FieldValue.bytes b, n)) ?_
  simp [encodeField]
  omega

end OneField

theorem readField_encodeField (data pre : List UInt8) (f : UInt8 × FieldValue)
    (post : List UInt8) (hdata : data = pre ++ (encodeField f ++ post)) (hf : FieldFits f) :
    readField data pre.length = .ok (f.1, f.2, pre.length + (encodeField f).length) := by
  obtain ⟨id, value⟩ := f
  cases value with
  | nil => exact readField_nil pre post hdata hf
  | u2 v => exact readField_u2 pre post v hdata hf
  | str s => exact readField_str pre post s hdata hf.1 hf.2
  | bytes b => exact readField_bytes pre post b hdata hf.1 hf.2

theorem parseFields_encode (fs : List (UInt8 × FieldValue))
    (data pre post : List UInt8) (hdr : DaspHeader) (hfits : ∀ f ∈ fs, FieldFits f)
    (hdata : data = pre ++ (fs.flatMap encodeField ++ post)) :
    parseFields data fs.length pre.length hdr =
      .ok (fs.foldl (fun h f => h.setField f.1 f.2) hdr,
        pre.length + (fs.flatMap encodeField).length) := by
  induction fs generalizing pre hdr with
  | nil => rfl
  | cons f fs ih =>
    have hread := readField_encodeField data pre f (fs.flatMap encodeField ++ post)
      (by rw [hdata]; simp) (hfits f List.mem_cons_self)
    have hrest := ih (pre ++ encodeField f) (hdr.setField f.1 f.2)
      (fun g hg => hfits g (List.mem_cons_of_mem _ hg)) (by rw [hdata]; simp)
    rw [List.length_append] at hrest
    rw [List.length_cons]
    unfold parseFields
    rw [hread]
    change parseFields data fs.length (pre.length + (encodeField f).length) _ = _
    rw [hrest, List.foldl_cons, List.flatMap_cons, List.length_append, Nat.add_assoc]

/-- The header as the encoder sends it: default tuning fields are absent. -/
def DaspHeader.normalized (hdr : DaspHeader) : DaspHeader :=
  { hdr with
    idealMax := hdr.idealMax.filter (· ≠ idealMaxDefault)
    absMax := hdr.absMax.filter (· ≠ absMaxDefault)
    receiveMax := hdr.receiveMax.filter (· ≠ receiveMaxDefault)
    receiveTimeoutSecs := hdr.receiveTimeoutSecs.filter (· ≠ receiveTimeoutSecsDefault) }

def setOption (hdr : DaspHeader) (o : Option (UInt8 × FieldValue)) : DaspHeader :=
  o.elim hdr fun f => hdr.setField f.1 f.2

theorem foldl_reduceOption (os : List (Option (UInt8 × FieldValue))) (hdr : DaspHeader) :
    os.reduceOption.foldl (fun h f => h.setField f.1 f.2) hdr = os.foldl setOption hdr := by
  induction os generalizing hdr with
  | nil => rfl
  | cons o os ih =>
    cases o with
    | none => exact ih hdr
    | some f => exact ih (hdr.setField f.1 f.2)

/-- An optional field, met on the wire or not, ends up in its place. -/
theorem setOption_map {α : Type} (id : UInt8) (value : α → FieldValue)
    (set : DaspHeader → Option α → DaspHeader) (hnone : ∀ h, set h none = h)
    (hsome : ∀ h v, h.setField id (value v) = set h (some v)) (hdr : DaspHeader) (o : Option α) :
    setOption hdr (o.map fun v => (id, value v)) = set hdr o := by
  cases o with
  | none => exact (hnone hdr).symm
  | some v => exact hsome hdr v

theorem foldl_fields (hdr : DaspHeader) :
    hdr.fields.foldl setOption (DaspHeader.bare hdr.sessionId hdr.seqNum hdr.msgType) =
      { hdr.normalized with payloadOffset := 0 } := by
  have hversion := setOption_map FieldId.version .u2
    (fun h o => { h with version := o.or h.version }) (fun _ => rfl) (fun _ _ => rfl)
  have hremoteId := setOption_map FieldId.remoteId .u2
    (fun h o => { h with remoteId := o.or h.remoteId }) (fun _ => rfl) (fun _ _ => rfl)
  have hdigestAlgorithm := setOption_map FieldId.digestAlgorithm .str
    (fun h o => { h with digestAlgorithm := o.or h.digestAlgorithm }) (fun _ => rfl)
    (fun _ _ => rfl)
  have hnonce := setOption_map FieldId.nonce .bytes
    (fun h o => { h with nonce := o.or h.nonce }) (fun _ => rfl) (fun _ _ => rfl)
  have husername := setOption_map FieldId.username .str
    (fun h o => { h with username := o.or h.username }) (fun _ => rfl) (fun _ _ => rfl)
  have hdigest := setOption_map FieldId.digest .bytes
    (fun h o => { h with digest := o.or h.digest }) (fun _ => rfl) (fun _ _ => rfl)
  have hidealMax := setOption_map FieldId.idealMax .u2
    (fun h o => { h with idealMax := o.or h.idealMax }) (fun _ => rfl) (fun _ _ => rfl)
  have habsMax := setOption_map FieldId.absMax .u2
    (fun h o => { h with absMax := o.or h.absMax }) (fun _ => rfl) (fun _ _ => rfl)
  have hack := setOption_map FieldId.ack .u2
    (fun h o => { h with ack := o.or h.ack }) (fun _ => rfl) (fun _ _ => rfl)
  have hackMore := setOption_map FieldId.ackMore .bytes
    (fun h o => { h with ackMore := o.or h.ackMore }) (fun _ => rfl) (fun _ _ => rfl)
  have hreceiveMax := setOption_map FieldId.receiveMax .u2
    (fun h o => { h with receiveMax := o.or h.receiveMax }) (fun _ => rfl) (fun _ _ => rfl)
  have hreceiveTimeoutSecs := setOption_map FieldId.receiveTimeout .u2
    (fun h o => { h with receiveTimeoutSecs := o.or h.receiveTimeoutSecs }) (fun _ => rfl)
    (fun _ _ => rfl)
  have herrorCode := setOption_map FieldId.errorCode .u2
    (fun h o => { h with errorCode := o.or h.errorCode }) (fun _ => rfl) (fun _ _ => rfl)
  have hplatformId := setOption_map FieldId.platformId .str
    (fun h o => { h with platformId := o.or h.platformId }) (fun _ => rfl) (fun _ _ => rfl)
  unfold DaspHeader.fields
  simp only [List.foldl_cons, List.foldl_nil, hversion, hremoteId, hdigestAlgorithm, hnonce,
    husername, hdigest, hidealMax, habsMax, hack, hackMore, hreceiveMax, hreceiveTimeoutSecs,
    herrorCode, hplatformId]
  simp [DaspHeader.bare, DaspHeader.normalized]

/-- A header that has a form on the wire: strings without NUL, byte fields whose length
    fits one byte. -/
structure Encodable (hdr : DaspHeader) : Prop where
  strings : ∀ s, hdr.digestAlgorithm = some s ∨ hdr.username = some s ∨
    hdr.platformId = some s → '\x00' ∉ s.toList
  bytes : ∀ b, hdr.nonce = some b ∨ hdr.digest = some b ∨ hdr.ackMore = some b → b.length ≤ 255

theorem fields_fit {hdr : DaspHeader} (h : Encodable hdr) :
    ∀ f ∈ hdr.fields.reduceOption, FieldFits f := by
  have hu2 : ∀ (o : Option UInt16) (id : UInt8), id &&& 3 = 1 →
      ∀ f, o.map (fun v => (id, FieldValue.u2 v)) = some f → FieldFits f := by
    rintro o id hid f hf
    obtain ⟨v, -, rfl⟩ := Option.map_eq_some_iff.1 hf
    exact hid
  have hstr : ∀ (o : Option String) (id : UInt8), id &&& 3 = 2 →
      (∀ s, o = some s → '\x00' ∉ s.toList) →
      ∀ f, o.map (fun s => (id, FieldValue.str s)) = some f → FieldFits f := by
    rintro o id hid hs f hf
    obtain ⟨s, ho, rfl⟩ := Option.map_eq_some_iff.1 hf
    exact ⟨hid, fun hnul => hs s ho (nul_of_mem_asBytes hnul)⟩
  have hbytes : ∀ (o : Option (List UInt8)) (id : UInt8), id &&& 3 = 3 →
      (∀ b, o = some b → b.length ≤ 255) →
      ∀ f, o.map (fun b => (id, FieldValue.bytes b)) = some f → FieldFits f := by
    rintro o id hid hb f hf
    obtain ⟨b, ho, rfl⟩ := Option.map_eq_some_iff.1 hf
    exact ⟨hid, hb b ho⟩
  intro f hf
  rw [List.reduceOption_mem_iff] at hf
  simp only [DaspHeader.fields, List.mem_cons, List.not_mem_nil, or_false] at hf
  rcases hf with hf | hf | hf | hf | hf | hf | hf | hf | hf | hf | hf | hf | hf | hf
  · exact hu2 _ _ (by decide) f hf.symm
  · exact hu2 _ _ (by decide) f hf.symm
  · exact hstr _ _ (by decide) (fun s hs => h.strings s (Or.inl hs)) f hf.symm
  · exact hbytes _ _ (by decide) (fun b hb => h.bytes b (Or.inl hb)) f hf.symm
  · exact hstr _ _ (by decide) (fun s hs => h.strings s (Or.inr (Or.inl hs))) f hf.symm
  · exact hbytes _ _ (by decide) (fun b hb => h.bytes b (Or.inr (Or.inl hb))) f hf.symm
  · exact hu2 _ _ (by decide) f hf.symm
  · exact hu2 _ _ (by decide) f hf.symm
  · exact hu2 _ _ (by decide) f hf.symm
  · exact hbytes _ _ (by decide) (fun b hb => h.bytes b (Or.inr (Or.inr hb))) f hf.symm
  · exact hu2 _ _ (by decide) f hf.symm
  · exact hu2 _ _ (by decide) f hf.symm
  · exact hu2 _ _ (by decide) f hf.symm
  · exact hstr _ _ (by decide) (fun s hs => h.strings s (Or.inr (Or.inr hs))) f hf.symm

theorem fields_length (hdr : DaspHeader) : hdr.fields.reduceOption.length < 16 := by
  have h : hdr.fields.reduceOption.length ≤ hdr.fields.length := List.reduceOption_length_le _
  have h14 : hdr.fields.length = 14 := rfl
  omega

theorem typeFields_split (msgType : DaspMsgType) {count : ℕ} (h : count < 16) :
    DaspMsgType.fromU8 ((msgType.byte <<< 4 ||| (UInt8.ofNat count &&& 0x0f)) >>> 4) =
        some msgType ∧
      ((msgType.byte <<< 4 ||| (UInt8.ofNat count &&& 0x0f)) &&& 0x0f).toNat = count := by
  interval_cases count <;> cases msgType <;> exact ⟨rfl, rfl⟩

theorem parseHeader_encodeMessage {hdr : DaspHeader} (h : Encodable hdr) (payload : List UInt8) :
    parseHeader (encodeMessage hdr payload) =
      .ok { hdr.normalized with
        payloadOffset := 5 + (hdr.fields.reduceOption.flatMap encodeField).length } := by
  have hfields := parseFields_encode hdr.fields.reduceOption (encodeMessage hdr payload)
    (beBytes16 hdr.sessionId ++ beBytes16 hdr.seqNum ++
      [hdr.msgType.byte <<< 4 ||| (UInt8.ofNat hdr.fields.reduceOption.length &&& 0x0f)])
    payload (DaspHeader.bare hdr.sessionId hdr.seqNum hdr.msgType) (fields_fit h)
    (by simp [encodeMessage])
  rw [foldl_reduceOption, foldl_fields] at hfields
  change parseFields _ _ 5 _ = .ok (_, 5 + _) at hfields
  obtain ⟨htype, hcount⟩ := typeFields_split hdr.msgType (fields_length hdr)
  have hlen : ¬ (encodeMessage hdr payload).length < 5 := by
    simp [encodeMessage, beBytes16]
  unfold parseHeader
  rw [if_neg hlen]
  have h0 : byteAt (encodeMessage hdr payload) 0 = .ok (hdr.sessionId >>> 8).toUInt8 := rfl
  have h1 : byteAt (encodeMessage hdr payload) 1 = .ok hdr.sessionId.toUInt8 := rfl
  have h2 : byteAt (encodeMessage hdr payload) 2 = .ok (hdr.seqNum >>> 8).toUInt8 := rfl
  have h3 : byteAt (encodeMessage hdr payload) 3 = .ok hdr.seqNum.toUInt8 := rfl
  have h4 : byteAt (encodeMessage hdr payload) 4 =
      .ok (hdr.msgType.byte <<< 4 ||| (UInt8.ofNat hdr.fields.reduceOption.length &&& 0x0f)) := rfl
  simp only [h0, h1, h2, h3, h4, bind, Except.bind, htype, hcount, beU16_beBytes16,
    hfields]

theorem drop_encodeMessage (hdr : DaspHeader) (payload : List UInt8) :
    (encodeMessage hdr payload).drop
      (5 + (hdr.fields.reduceOption.flatMap encodeField).length) = payload := by
  have hlen : (beBytes16 hdr.sessionId ++ beBytes16 hdr.seqNum ++
      [hdr.msgType.byte <<< 4 ||| (UInt8.ofNat hdr.fields.reduceOption.length &&& 0x0f)] ++
      hdr.fields.reduceOption.flatMap encodeField).length =
      5 + (hdr.fields.reduceOption.flatMap encodeField).length := by
    rw [List.length_append]
    rfl
  rw [← hlen]
  exact List.drop_left

/-- The wire format loses nothing but default tuning fields, and no packet whatsoever
    leads the parser out of its bounds. -/
theorem wire_roundTrip :
    (∀ (hdr : DaspHeader) (payload : List UInt8), Encodable hdr →
      ∃ offset, parseHeader (encodeMessage hdr payload) =
          .ok { hdr.normalized with payloadOffset := offset } ∧
        (encodeMessage hdr payload).drop offset = payload) ∧
      ∀ data : List UInt8, parseHeader data = .error .malformed ∨
        ∃ hdr, parseHeader data = .ok hdr ∧ hdr.payloadOffset ≤ data.length := by
  exact ⟨fun hdr payload h => ⟨_, parseHeader_encodeMessage h payload,
    drop_encodeMessage hdr payload⟩, parseHeader_bounds⟩

def sampleHeader : DaspHeader :=
  { DaspHeader.bare 1 2 .challenge with
    nonce := some [7, 0, 9], username := some "admin", idealMax := some 512 }

theorem sampleHeader_roundTrip :
    Encodable sampleHeader ∧
      ∃ offset, parseHeader (encodeMessage sampleHeader [1, 2]) =
          .ok { sampleHeader.normalized with payloadOffset := offset } ∧
        (encodeMessage sampleHeader [1, 2]).drop offset = [1, 2] := by
  have h : Encodable sampleHeader := by
    refine ⟨fun s hs => ?_, fun b hb => ?_⟩
    · rcases hs with hs | hs | hs
      · cases hs
      · cases hs
        decide
      · cases hs
    · rcases hb with hb | hb | hb
      · cases hb
        decide
      · cases hb
      · cases hb
  exact ⟨h, wire_roundTrip.1 sampleHeader [1, 2] h⟩

end Sandstar.Dasp
