import Sandstar.BacnetFrames

set_option autoImplicit false

/-!
# No packet crashes the decoder

Each decoder returns or rejects: it checks a length before it indexes, every round
of a loop moves its position forward, and the positions it slices at are inside the
data. `decode_packet` alone slices before it has compared the two ends, the start
behind the BVLL header and the end the header names.
-/
namespace Sandstar.Bacnet

open Decoding

variable {data payload : List UInt8} {pos : ℕ}

theorem lt_of_getElem? {α : Type} {l : List α} {i : ℕ} {a : α} (h : l[i]? = some a) :
    i < l.length := (List.getElem?_eq_some_iff.1 h).1

theorem lt_of_notYet {stop : UInt8} (h : notYet data stop pos = true) : pos < data.length := by
  unfold notYet at h
  cases hb : data[pos]? with
  | none =>
    rw [hb] at h
    cases h
  | some b => exact lt_of_getElem? hb

theorem decodeBvllHeader_safe (data : List UInt8) :
    Safe (decodeBvllHeader data) fun h =>
      h.length.toNat ≤ data.length ∧ data[0]? = some bvllBacnetIp ∧
        ∃ hi lo, data[2]? = some hi ∧ data[3]? = some lo ∧ h.length = SoxProtocol.beU16 hi lo := by
  unfold decodeBvllHeader
  refine safe_ite (fun _ => malformed_safe) fun hlen => ?_
  refine safe_bind (safe_index (by omega)) fun magic hmagic => ?_
  refine safe_ite (fun _ => malformed_safe) fun hip => ?_
  refine safe_bind (safe_index (by omega)) fun hi hhi => ?_
  refine safe_bind (safe_index (by omega)) fun lo hlo => ?_
  refine safe_ite (fun _ => malformed_safe) fun hlength => ?_
  refine safe_bind (safe_index (by omega)) fun bvllType _ => ?_
  refine ⟨Nat.le_of_not_lt hlength, ?_, hi, lo, hhi, hlo, rfl⟩
  rw [hmagic, not_not.1 hip]

theorem skipAddress_safe {consumed extra : ℕ} {fields address : String} :
    Safe (skipAddress data consumed extra fields address) (· ≤ data.length) := by
  unfold skipAddress
  refine safe_ite (fun _ => malformed_safe) fun _ => ?_
  refine safe_bind (safe_index (by omega)) fun len _ => ?_
  exact safe_ite (fun _ => malformed_safe) fun h => Nat.le_of_not_lt h

theorem skipAddressIf_safe {present : Bool} {consumed extra : ℕ} {fields address : String}
    (h : consumed ≤ data.length) :
    Safe (skipAddressIf present data consumed extra fields address) (· ≤ data.length) := by
  unfold skipAddressIf
  exact safe_ite (fun _ => skipAddress_safe) fun _ => h

theorem decodeNpdu_safe (data : List UInt8) :
    Safe (decodeNpdu data) fun r => r.2 ≤ data.length := by
  unfold decodeNpdu
  refine safe_ite (fun _ => malformed_safe) fun hlen => ?_
  refine safe_bind (safe_index (by omega)) fun version _ => ?_
  refine safe_ite (fun _ => malformed_safe) fun _ => ?_
  refine safe_bind (safe_index (by omega)) fun control _ => ?_
  refine safe_bind (skipAddressIf_safe (Nat.le_of_not_lt hlen)) fun consumed hconsumed => ?_
  exact safe_bind (skipAddressIf_safe hconsumed) fun _ h => h

theorem contextValue_safe {lvt : ℕ} {expected : String} (h : 1 + lvt ≤ data.length) :
    Safe (contextValue data lvt expected) fun _ => True := by
  unfold contextValue
  split
  · trivial
  · exact safe_bind (safe_index (by omega)) fun _ _ => trivial
  · refine safe_bind (safe_index (by omega)) fun _ _ => ?_
    exact safe_bind (safe_index (by omega)) fun _ _ => trivial
  · refine safe_bind (safe_index (by omega)) fun _ _ => ?_
    refine safe_bind (safe_index (by omega)) fun _ _ => ?_
    exact safe_bind (safe_index (by omega)) fun _ _ => trivial
  · exact indexU32_safe (by omega)
  · exact malformed_safe

theorem readContextUnsigned_safe (data : List UInt8) (expectedTag : UInt8) :
    Safe (readContextUnsigned data expectedTag) fun r => 1 ≤ r.2 ∧ r.2 ≤ data.length := by
  cases data with
  | nil => exact malformed_safe
  | cons tagByte rest =>
    unfold readContextUnsigned
    refine safe_ite (fun _ => malformed_safe) fun _ => ?_
    refine safe_ite (fun _ => malformed_safe) fun _ => ?_
    refine safe_ite (fun _ => malformed_safe) fun hlen => ?_
    have hconsumed : 1 ≤ 1 + tagLength tagByte ∧
        1 + tagLength tagByte ≤ (tagByte :: rest).length := by omega
    exact safe_bind (contextValue_safe hconsumed.2) fun _ _ => hconsumed

def Forward {α : Type} (data : List UInt8) (pos : ℕ) (r : α × ℕ) : Prop :=
  pos < r.2 ∧ r.2 ≤ data.length

theorem readContextAt_safe {expectedTag : UInt8} (h : pos ≤ data.length) :
    Safe (readContextAt data pos expectedTag) (Forward data pos) := by
  unfold readContextAt
  refine safe_bind (safe_suffix h) ?_
  rintro rest rfl
  refine safe_bind (readContextUnsigned_safe _ _) fun r hr => ?_
  rw [List.length_drop] at hr
  change pos < pos + r.2 ∧ pos + r.2 ≤ data.length
  omega

theorem decodeValueAt_safe (h : pos ≤ data.length) :
    Safe (decodeValueAt data pos) (Forward data pos) := by
  unfold decodeValueAt
  refine safe_bind (safe_suffix h) ?_
  rintro rest rfl
  refine safe_bind (decodeApplicationTag_safe _) fun r hr => ?_
  unfold Consumes at hr
  rw [List.length_drop] at hr
  change pos < pos + r.2 ∧ pos + r.2 ≤ data.length
  omega

/-- An optional tag leaves the position or moves it forward. -/
theorem readOptional_safe {expectedTag : UInt8} {accepted : UInt8 → Bool} (h : pos ≤ data.length) :
    Safe (readOptional data pos expectedTag accepted) fun r => pos ≤ r.2 ∧ r.2 ≤ data.length := by
  unfold readOptional
  split
  · exact ⟨le_rfl, h⟩
  · refine safe_ite (fun _ => ?_) fun _ => ⟨le_rfl, h⟩
    exact safe_bind (readContextAt_safe h) fun r hr => ⟨hr.1.le, hr.2⟩

theorem decodeEnumeratedAt_safe (h : pos ≤ data.length) :
    Safe (decodeEnumeratedAt data pos) (Forward data pos) := by
  unfold decodeEnumeratedAt
  refine safe_bind (decodeValueAt_safe h) ?_
  rintro ⟨val, stop⟩ hstop
  cases val with
  | enumerated v => exact hstop
  | unsigned v => exact hstop
  | _ => exact malformed_safe

theorem covUnsigned_safe {expectedTag : UInt8} :
    Safe (covUnsigned data pos expectedTag) (Forward data pos) := by
  unfold covUnsigned
  split
  · exact malformed_safe
  · rename_i tagByte _
    refine safe_ite (fun _ => malformed_safe) fun _ => ?_
    refine safe_ite (fun _ => malformed_safe) fun hlen => ?_
    have hforward : pos < pos + 1 + tagLength tagByte ∧
        pos + 1 + tagLength tagByte ≤ data.length := by omega
    have hbytes : ∀ (is : List ℕ) (val : UInt32), (∀ i ∈ is, i < tagLength tagByte) →
        Safe (is.foldlM (fun (val : UInt32) i => do
          pure (val <<< 8 ||| (← index data (pos + 1 + i)).toUInt32)) val :
            Decoder BacnetError UInt32) fun _ => True := by
      intro is
      induction is with
      | nil => exact fun _ _ => trivial
      | cons i is ih =>
        intro val his
        have hi := his i List.mem_cons_self
        rw [List.foldlM_cons]
        have hbyte : Safe (do pure (val <<< 8 ||| (← index data (pos + 1 + i)).toUInt32) :
            Decoder BacnetError UInt32) fun _ => True :=
          safe_bind (safe_index (by omega)) fun _ _ => trivial
        exact safe_bind hbyte fun val _ => ih val fun j hj => his j (List.mem_cons_of_mem _ hj)
    exact safe_bind (hbytes _ 0 fun i hi => List.mem_range.1 hi) fun _ _ => hforward

theorem covObjectId_safe {expectedTag : UInt8} :
    Safe (covObjectId data pos expectedTag) (Forward data pos) := by
  unfold covObjectId
  split
  · exact malformed_safe
  · refine safe_ite (fun _ => malformed_safe) fun _ => ?_
    refine safe_ite (fun _ => malformed_safe) fun hlen => ?_
    refine safe_bind (indexU32_safe (by omega)) fun _ _ => ?_
    change pos < pos + 1 + 4 ∧ pos + 1 + 4 ≤ data.length
    omega

theorem covTimeRemaining_safe (h : pos ≤ data.length) :
    Safe (covTimeRemaining data pos) fun r => pos ≤ r.2 ∧ r.2 ≤ data.length := by
  unfold covTimeRemaining
  split
  · exact ⟨le_rfl, h⟩
  · refine safe_ite (fun _ => ?_) fun _ => ⟨le_rfl, h⟩
    exact safe_bind covUnsigned_safe fun r hr => ⟨hr.1.le, hr.2⟩

theorem covArrayIndex_safe (h : pos ≤ data.length) :
    Safe (covArrayIndex data pos) fun r => pos ≤ r.2 ∧ r.2 ≤ data.length := by
  unfold covArrayIndex
  split
  · exact ⟨le_rfl, h⟩
  · refine safe_ite (fun _ => ?_) fun _ => ⟨le_rfl, h⟩
    exact safe_bind covUnsigned_safe fun r hr => ⟨hr.1.le, hr.2⟩

theorem covValue_safe (h : pos ≤ data.length) :
    Safe (covValue data pos) fun r => pos ≤ r.2 ∧ r.2 ≤ data.length := by
  unfold covValue
  refine safe_ite (fun _ => ?_) fun _ => ⟨le_rfl, h⟩
  exact (decodeValueAt_safe h).mono fun r hr => ⟨hr.1.le, hr.2⟩

theorem le_covSkipPriority : pos ≤ covSkipPriority data pos := by
  unfold covSkipPriority
  split
  · exact le_rfl
  · split <;> omega

/-- Each entry moves forward. A skipped priority may leave the position behind the
    end of the data, where the loop stops. -/
theorem covEntry_safe {s : ℕ × List CovPropertyValue} :
    Safe (covEntry data s) fun s' => s.1 < s'.1 := by
  unfold covEntry
  refine safe_bind covUnsigned_safe ?_
  rintro ⟨propertyId, pos⟩ ⟨hprop, hpos⟩
  refine safe_bind (covArrayIndex_safe hpos) ?_
  rintro ⟨arrayIndex, pos'⟩ ⟨hindex, -⟩
  refine safe_ite (fun _ => malformed_safe) fun hopening => ?_
  have hlt := lt_of_getElem? (not_not.1 hopening)
  refine safe_bind (covValue_safe (by omega)) ?_
  rintro ⟨value, pos''⟩ ⟨hvalue, -⟩
  refine safe_ite (fun _ => malformed_safe) fun _ => ?_
  have hskip := @le_covSkipPriority data (pos'' + 1)
  change s.1 < covSkipPriority data (pos'' + 1)
  dsimp only at hprop hindex hvalue
  omega

theorem covValues_safe : Safe (covValues data pos) fun _ => True := by
  unfold covValues
  refine safe_ite (fun _ => ?_) fun _ => trivial
  refine safe_bind (safe_whileLoop (fun _ => True) (fun s => data.length - s.1) ?_ trivial
    (by dsimp only; omega)) fun _ _ => trivial
  intro s _ hmore
  have hlt := lt_of_notYet hmore
  exact covEntry_safe.mono fun s' hs' => ⟨trivial, by omega⟩

theorem decodeCovNotificationPayload_safe (data : List UInt8) :
    Safe (decodeCovNotificationPayload data) fun _ => True := by
  unfold decodeCovNotificationPayload
  refine safe_bind covUnsigned_safe fun r hr => ?_
  refine safe_bind covObjectId_safe fun r hr => ?_
  refine safe_bind covObjectId_safe fun r hr => ?_
  refine safe_bind (covTimeRemaining_safe hr.2) fun r hr => ?_
  exact safe_bind covValues_safe fun _ _ => trivial

theorem rpmObject_safe {who opening : String} :
    Safe (rpmObject data pos who opening) fun _ => pos + 6 ≤ data.length := by
  unfold rpmObject
  refine safe_ite (fun _ => malformed_safe) fun hlen => ?_
  refine safe_bind (safe_index (by omega)) fun tagByte _ => ?_
  refine safe_ite (fun _ => malformed_safe) fun _ => ?_
  refine safe_bind (indexU32_safe (by omega)) fun _ _ => ?_
  refine safe_ite (fun _ => malformed_safe) fun hopening => ?_
  have hlt := lt_of_getElem? (not_not.1 hopening)
  change pos + 6 ≤ data.length
  omega

/-- The nested loops end: an entry moves forward and an object is longer than its
    opening and closing tags. -/
theorem rpmObjects_safe {R : Type} {who opening closing : String}
    {entry : UInt16 × UInt32 → ℕ × List R → Decoder BacnetError (ℕ × List R)}
    (hentry : ∀ object s, s.1 ≤ data.length →
      Safe (entry object s) fun s' => s.1 < s'.1 ∧ s'.1 ≤ data.length) :
    Safe (rpmObjects data who opening closing entry) fun _ => True := by
  unfold rpmObjects
  refine safe_bind (safe_whileLoop (fun s => s.1 ≤ data.length) (fun s => data.length - s.1) ?_
    (Nat.zero_le _) (by dsimp only; omega)) fun _ _ => trivial
  intro s hs hmore
  have hlt : s.1 < data.length := by simpa using hmore
  refine safe_bind rpmObject_safe fun object hobject => ?_
  refine safe_bind (safe_whileLoop (fun s' => s.1 + 6 ≤ s'.1 ∧ s'.1 ≤ data.length)
    (fun s' => data.length - s'.1) ?_ ⟨le_rfl, hobject⟩ (by dsimp only; omega)) ?_
  rotate_left
  · rintro s' ⟨⟨hforward, -⟩, -⟩
    refine safe_ite (fun _ => malformed_safe) fun hclosing => ?_
    have hlt' := lt_of_getElem? (not_not.1 hclosing)
    change s'.1 + 1 ≤ data.length ∧ data.length - (s'.1 + 1) < data.length - s.1
    omega
  · rintro s' ⟨hforward, hinside⟩ hmore
    have hlt' := lt_of_notYet hmore
    refine (hentry object s' hinside).mono fun s'' hs'' => ?_
    omega

theorem rpmSpec_safe {object : UInt16 × UInt32} {s : ℕ × List RpmRequestSpec}
    (h : s.1 ≤ data.length) :
    Safe (rpmSpec data object s) fun s' => s.1 < s'.1 ∧ s'.1 ≤ data.length := by
  unfold rpmSpec
  refine safe_bind (readContextAt_safe h) fun r hr => ?_
  refine safe_bind (readOptional_safe hr.2) fun r' hr' => ?_
  exact ⟨hr.1.trans_le hr'.1, hr'.2⟩

theorem rpmOutcome_safe : Safe (rpmOutcome data pos) (Forward data pos) := by
  unfold rpmOutcome
  split
  · exact malformed_safe
  · rename_i tb htb
    have hlt := lt_of_getElem? htb
    refine safe_ite (fun _ => ?_) fun _ => safe_ite (fun _ => ?_) fun _ => malformed_safe
    · refine safe_bind (decodeValueAt_safe (by omega)) fun r hr => ?_
      refine safe_ite (fun _ => malformed_safe) fun hclosing => ?_
      have hlt' := lt_of_getElem? (not_not.1 hclosing)
      unfold Forward at hr
      change pos < r.2 + 1 ∧ r.2 + 1 ≤ data.length
      omega
    · refine safe_bind (decodeEnumeratedAt_safe (by omega)) fun r hr => ?_
      refine safe_bind (decodeEnumeratedAt_safe hr.2) fun r' hr' => ?_
      refine safe_ite (fun _ => malformed_safe) fun hclosing => ?_
      have hlt' := lt_of_getElem? (not_not.1 hclosing)
      unfold Forward at hr hr'
      change pos < r'.2 + 1 ∧ r'.2 + 1 ≤ data.length
      omega

theorem rpmResult_safe {object : UInt16 × UInt32} {s : ℕ × List RpmResult}
    (h : s.1 ≤ data.length) :
    Safe (rpmResult data object s) fun s' => s.1 < s'.1 ∧ s'.1 ≤ data.length := by
  unfold rpmResult
  refine safe_bind (readContextAt_safe h) fun r hr => ?_
  refine safe_bind (readOptional_safe hr.2) fun r' hr' => ?_
  refine safe_bind rpmOutcome_safe fun r'' hr'' => ?_
  exact ⟨hr.1.trans_le (hr'.1.trans hr''.1.le), hr''.2⟩

theorem decodeWhoIs_safe (payload : List UInt8) : Safe (decodeWhoIs payload) fun _ => True := by
  unfold decodeWhoIs
  refine safe_ite (fun _ => trivial) fun _ => ?_
  refine safe_bind (readContextAt_safe (Nat.zero_le _)) fun r hr => ?_
  exact safe_bind (readContextAt_safe hr.2) fun _ _ => trivial

theorem iAmUnsigned_safe {expected : String} (val : BacnetValue) :
    Safe (iAmUnsigned expected val) fun _ => True := by
  cases val <;> trivial

theorem iAmEnumerated_safe {expected : String} (val : BacnetValue) :
    Safe (iAmEnumerated expected val) fun _ => True := by
  cases val <;> trivial

theorem iAmObject_safe {expected : String} (val : BacnetValue) :
    Safe (iAmObject expected val) fun _ => True := by
  cases val <;> trivial

theorem decodeIAm_safe (payload : List UInt8) : Safe (decodeIAm payload) fun _ => True := by
  unfold decodeIAm
  refine safe_bind (decodeValueAt_safe (Nat.zero_le _)) fun r hr => ?_
  refine safe_bind (iAmObject_safe r.1) fun _ _ => ?_
  refine safe_bind (decodeValueAt_safe hr.2) fun r hr => ?_
  refine safe_bind (iAmUnsigned_safe r.1) fun _ _ => ?_
  refine safe_bind (decodeValueAt_safe hr.2) fun r hr => ?_
  refine safe_bind (iAmEnumerated_safe r.1) fun _ _ => ?_
  refine safe_bind (decodeValueAt_safe hr.2) fun r hr => ?_
  exact safe_bind (iAmUnsigned_safe r.1) fun _ _ => trivial

theorem payloadObject_safe {truncated wrong : String} :
    Safe (payloadObject payload truncated wrong) fun _ => 5 ≤ payload.length := by
  unfold payloadObject
  refine safe_ite (fun _ => malformed_safe) fun hlen => ?_
  refine safe_bind (safe_index (by omega)) fun tagByte _ => ?_
  refine safe_ite (fun _ => malformed_safe) fun _ => ?_
  exact safe_bind (indexU32_safe (by omega)) fun _ _ => Nat.le_of_not_lt hlen

theorem decodeReadPropertyRequest_safe (invokeId : UInt8) (payload : List UInt8) :
    Safe (decodeReadPropertyRequest invokeId payload) fun _ => True := by
  unfold decodeReadPropertyRequest
  refine safe_bind payloadObject_safe fun object hlen => ?_
  refine safe_bind (readContextAt_safe hlen) fun r hr => ?_
  exact safe_bind (readOptional_safe hr.2) fun _ _ => trivial

theorem decodeWritePropertyRequest_safe (invokeId : UInt8) (payload : List UInt8) :
    Safe (decodeWritePropertyRequest invokeId payload) fun _ => True := by
  unfold decodeWritePropertyRequest
  refine safe_bind payloadObject_safe fun object hlen => ?_
  refine safe_bind (readContextAt_safe hlen) fun r hr => ?_
  refine safe_bind (readOptional_safe hr.2) ?_
  rintro ⟨arrayIndex, pos⟩ -
  refine safe_ite (fun _ => malformed_safe) fun _ => ?_
  refine safe_ite (fun _ => malformed_safe) fun hvalue => ?_
  refine safe_bind (decodeValueAt_safe (by omega)) ?_
  rintro ⟨value, pos'⟩ -
  refine safe_ite (fun _ => malformed_safe) fun hclosing => ?_
  have hlt := lt_of_getElem? (not_not.1 hclosing)
  exact safe_bind (readOptional_safe hlt) fun _ _ => trivial

theorem ackValue_safe {s : ℕ × List BacnetValue} (h : s.1 ≤ payload.length) :
    Safe (ackValue payload s) fun s' => s.1 < s'.1 ∧ s'.1 ≤ payload.length := by
  unfold ackValue
  exact safe_bind (decodeValueAt_safe h) fun _ hr => hr

theorem decodeReadPropertyAck_safe (invokeId : UInt8) (payload : List UInt8) :
    Safe (decodeReadPropertyAck invokeId payload) fun _ => True := by
  unfold decodeReadPropertyAck
  refine safe_bind payloadObject_safe fun object hlen => ?_
  refine safe_bind (readContextAt_safe hlen) ?_
  rintro ⟨propertyId, pos⟩ -
  refine safe_ite (fun _ => malformed_safe) fun hopening => ?_
  have hlt := lt_of_getElem? (not_not.1 hopening)
  refine safe_bind (safe_whileLoop (fun s => s.1 ≤ payload.length) (fun s => payload.length - s.1)
    ?_ hlt (by dsimp only; omega)) fun _ _ => trivial
  intro s hs hmore
  have hlt' := lt_of_notYet hmore
  exact (ackValue_safe hs).mono fun s' hs' => ⟨hs'.2, by omega⟩

theorem decodeConfirmedRequest_safe (data : List UInt8) :
    Safe (decodeConfirmedRequest data) fun _ => True := by
  unfold decodeConfirmedRequest
  refine safe_ite (fun _ => malformed_safe) fun hlen => ?_
  refine safe_bind (safe_index (by omega)) fun invokeId _ => ?_
  refine safe_bind (safe_index (by omega)) fun service _ => ?_
  refine safe_bind (safe_suffix (by omega)) fun payload _ => ?_
  refine safe_ite (fun _ => decodeReadPropertyRequest_safe invokeId payload) fun _ => ?_
  refine safe_ite (fun _ => decodeWritePropertyRequest_safe invokeId payload) fun _ => ?_
  refine safe_ite (fun _ => ?_) fun _ => safe_ite (fun _ => ?_) fun _ => ?_
  · exact safe_bind (rpmObjects_safe fun _ _ hs => rpmSpec_safe hs) fun _ _ => trivial
  · exact safe_bind (decodeCovNotificationPayload_safe payload) fun _ _ => trivial
  · exact safe_bind (safe_index (by omega)) fun _ _ => trivial

theorem decodeUnconfirmedRequest_safe (data : List UInt8) :
    Safe (decodeUnconfirmedRequest data) fun _ => True := by
  unfold decodeUnconfirmedRequest
  refine safe_ite (fun _ => malformed_safe) fun hlen => ?_
  refine safe_bind (safe_index (by omega)) fun service _ => ?_
  refine safe_bind (safe_suffix (by omega)) fun payload _ => ?_
  refine safe_ite (fun _ => decodeWhoIs_safe payload) fun _ => ?_
  refine safe_ite (fun _ => decodeIAm_safe payload) fun _ => ?_
  refine safe_ite (fun _ => ?_) fun _ => ?_
  · exact safe_bind (decodeCovNotificationPayload_safe payload) fun _ _ => trivial
  · exact safe_bind (safe_index (by omega)) fun _ _ => trivial

theorem decodeComplexAck_safe (data : List UInt8) : Safe (decodeComplexAck data) fun _ => True := by
  unfold decodeComplexAck
  refine safe_ite (fun _ => malformed_safe) fun hlen => ?_
  refine safe_bind (safe_index (by omega)) fun invokeId _ => ?_
  refine safe_bind (safe_index (by omega)) fun service _ => ?_
  refine safe_bind (safe_suffix (by omega)) fun payload _ => ?_
  refine safe_ite (fun _ => decodeReadPropertyAck_safe invokeId payload) fun _ => ?_
  refine safe_ite (fun _ => ?_) fun _ => ?_
  · exact safe_bind (rpmObjects_safe fun _ _ hs => rpmResult_safe hs) fun _ _ => trivial
  · exact safe_bind (safe_index (by omega)) fun _ _ => trivial

theorem decodeSimpleAck_safe (data : List UInt8) : Safe (decodeSimpleAck data) fun _ => True := by
  unfold decodeSimpleAck
  refine safe_ite (fun _ => malformed_safe) fun hlen => ?_
  refine safe_bind (safe_index (by omega)) fun _ _ => ?_
  exact safe_bind (safe_index (by omega)) fun _ _ => trivial

theorem decodeErrorPdu_safe (data : List UInt8) : Safe (decodeErrorPdu data) fun _ => True := by
  unfold decodeErrorPdu
  refine safe_ite (fun _ => malformed_safe) fun hlen => ?_
  refine safe_bind (safe_index (by omega)) fun _ _ => ?_
  refine safe_bind (safe_index (by omega)) fun _ _ => ?_
  refine safe_bind (decodeEnumeratedAt_safe (by omega)) fun r hr => ?_
  exact safe_bind (decodeEnumeratedAt_safe hr.2) fun _ _ => trivial

theorem decodeApdu_safe (data : List UInt8) : Safe (decodeApdu data) fun _ => True := by
  cases data with
  | nil => exact malformed_safe
  | cons first rest =>
    unfold decodeApdu
    refine safe_ite (fun _ => decodeConfirmedRequest_safe _) fun _ => ?_
    refine safe_ite (fun _ => decodeUnconfirmedRequest_safe _) fun _ => ?_
    refine safe_ite (fun _ => decodeSimpleAck_safe _) fun _ => ?_
    refine safe_ite (fun _ => decodeComplexAck_safe _) fun _ => ?_
    exact safe_ite (fun _ => decodeErrorPdu_safe _) fun _ => trivial

/-- A BACnet/IP packet whose BVLL length is less than that of the header itself. -/
def ShortBvll (data : List UInt8) : Prop :=
  data[0]? = some bvllBacnetIp ∧
    ∃ hi lo, data[2]? = some hi ∧ data[3]? = some lo ∧ (SoxProtocol.beU16 hi lo).toNat < 4

theorem decodeBvllHeader_short (h : ShortBvll data) :
    ∃ bvll, decodeBvllHeader data = .ok bvll ∧ bvll.length.toNat < 4 := by
  obtain ⟨hmagic, hi, lo, hhi, hlo, hshort⟩ := h
  have hlen := lt_of_getElem? hlo
  have hbvllType : data[1]? = some data[1] := List.getElem?_eq_getElem (by omega)
  refine ⟨⟨data[1], SoxProtocol.beU16 hi lo⟩, ?_, hshort⟩
  unfold decodeBvllHeader index
  rw [if_neg (by omega), hmagic, hhi, hlo, hbvllType]
  simp only [bind, Except.bind, ne_eq, not_true_eq_false, if_false]
  rw [if_neg (by omega)]

/-- `decode_packet` returns or rejects, without an index or a slice out of bounds
    and with every loop ended, exactly on the packets whose BVLL length covers the
    header. -/
theorem decodePacket_total_iff (data : List UInt8) :
    Safe (decodePacket data) (fun _ => True) ↔ ¬ShortBvll data := by
  constructor
  · intro hsafe hshort
    obtain ⟨bvll, hbvll, hlength⟩ := decodeBvllHeader_short hshort
    unfold decodePacket at hsafe
    rw [hbvll] at hsafe
    change Safe (range data 4 bvll.length.toNat >>= _) _ at hsafe
    rw [range, if_neg (by omega)] at hsafe
    exact hsafe
  · intro hlong
    unfold decodePacket
    refine safe_bind (decodeBvllHeader_safe data) ?_
    rintro bvll ⟨hlength, hmagic, hi, lo, hhi, hlo, hbvll⟩
    have hcovers : 4 ≤ bvll.length.toNat := by
      by_contra hshort
      rw [hbvll] at hshort
      exact hlong ⟨hmagic, hi, lo, hhi, hlo, by omega⟩
    refine safe_bind (safe_range hcovers hlength) fun packet _ => ?_
    refine safe_bind (decodeNpdu_safe packet) fun npdu hnpdu => ?_
    refine safe_bind (safe_suffix hnpdu) fun rest _ => ?_
    exact safe_bind (decodeApdu_safe rest) fun _ _ => trivial

/-- Four bytes that crash the decoder. -/
theorem decodePacket_short_panics : decodePacket [0x81, 0x0A, 0x00, 0x00] = .error .panic := rfl

end Sandstar.Bacnet
