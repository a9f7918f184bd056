import Sandstar.Crc

set_option autoImplicit false

/-!
# Pressure sensors on the bus (sandstar-hal-linux/src/crc.rs, i2c.rs)

How a measurement is asked for, read and checked, with the calls of the operating system as
parameters. A value is the integer that is turned into a float at the end.
-/
namespace Sandstar.I2c

section Model

def crcBit (crc : UInt8) : UInt8 :=
  let shifted := crc <<< 1
  if crc &&& 0x80 ≠ 0 then shifted ^^^ 0x31 else shifted

def sensirionCrc8 (data : List UInt8) (init : UInt8) : UInt8 :=
  data.foldl (fun crc byte => crcBit^[8] (crc ^^^ byte)) init

inductive SensorProtocol
  | sdp510
  | sdp810Dp
  | sdp810Temp
deriving DecidableEq

def detectProtocolWithAddress (label : List Char) (address : UInt32) : SensorProtocol :=
  let lower := label.map Char.toLower
  if "sdp810".toList <:+: lower then
    if "_temp".toList <:+: lower then .sdp810Temp else .sdp810Dp
  else if address = 0x25 then
    if "temp".toList <:+: lower then .sdp810Temp else .sdp810Dp
  else .sdp510

inductive Word
  | sdp510
  | dp
  | temp
  | scale
deriving DecidableEq

inductive ReadError
  | bus (message : String)
  | slave (errno : ℤ)
  | sdp510Write (written : ℤ)
  | sdp810Trigger
  | shortRead (protocol : String) (n expected : ℤ)
  | crc (word : Word) (computed expected : UInt8)
deriving DecidableEq

structure Port (σ : Type) where
  select : σ → UInt32 → UInt32 → σ × Option ReadError
  write : σ → List UInt8 → σ × ℤ
  read : σ → (n : ℕ) → σ × ℤ × (Fin n → UInt8)

variable {σ : Type} (port : Port σ)

def checkWord (word : Word) (init hi lo crc : UInt8) : Except ReadError Unit :=
  let computed := sensirionCrc8 [hi, lo] init
  if computed ≠ crc then .error (.crc word computed crc) else .ok ()

def decodeSdp510 (buf : Fin 3 → UInt8) : Except ReadError ℤ := do
  checkWord .sdp510 0x00 (buf 0) (buf 1) (buf 2)
  return (((buf 0).toUInt16 <<< 8 ||| (buf 1).toUInt16).toNat : ℤ)

def signedWord (hi lo : UInt8) : ℤ := (hi.toUInt16.toInt16 <<< 8 ||| lo.toUInt16.toInt16).toInt

def decodeSdp810 (buf : Fin 9 → UInt8) : Except ReadError (ℤ × ℤ) := do
  checkWord .dp 0xFF (buf 0) (buf 1) (buf 2)
  checkWord .temp 0xFF (buf 3) (buf 4) (buf 5)
  checkWord .scale 0xFF (buf 6) (buf 7) (buf 8)
  return (signedWord (buf 0) (buf 1), signedWord (buf 3) (buf 4))

def readSdp510 (s : σ) : σ × Except ReadError ℤ :=
  let (s, written) := port.write s [0xF1]
  if written ≠ 1 then (s, .error (.sdp510Write written))
  else
    let (s, n, buf) := port.read s 3
    if n ≠ 3 then (s, .error (.shortRead "SDP510" n 3)) else (s, decodeSdp510 buf)

def trigger (s : σ) : σ × Bool :=
  let (s, written) := port.write s [0x36, 0x2F]
  if written ≠ 2 then
    let (s, _) := port.write s [0x3F, 0xF9]
    let (s, retry) := port.write s [0x36, 0x2F]
    (s, retry = 2)
  else (s, true)

def readSdp810 (s : σ) : σ × Except ReadError (ℤ × ℤ) :=
  let (s, triggered) := trigger port s
  if !triggered then (s, .error .sdp810Trigger)
  else
    let (s, n, buf) := port.read s 9
    if n ≠ 9 then (s, .error (.shortRead "SDP810" n 9)) else (s, decodeSdp810 buf)

def tryRead (device address : UInt32) (protocol : SensorProtocol) (s : σ) : σ × Except ReadError ℤ :=
  match port.select s device address with
  | (s, some e) => (s, .error e)
  | (s, none) => match protocol with
    | .sdp510 => readSdp510 port s
    | .sdp810Dp => (readSdp810 port s).map id (Except.map Prod.fst)
    | .sdp810Temp => (readSdp810 port s).map id (Except.map Prod.snd)

def attempts (device address : UInt32) (protocol : SensorProtocol) :
    ℕ → ReadError → σ → σ × Except ReadError ℤ
  | 0, lastErr, s => (s, .error lastErr)
  | n + 1, _, s => match tryRead port device address protocol s with
    | (s, .ok value) => (s, .ok value)
    | (s, .error e) => attempts device address protocol n e s

def maxRetries : ℕ := 3

def readMeasurement (device address : UInt32) (label : List Char) (s : σ) : σ × Except ReadError ℤ :=
  attempts port device address (detectProtocolWithAddress label address) maxRetries
    (.bus "no attempts made") s

end Model

section Noise

open Crc

theorem crcBit_toBitVec (crc : UInt8) : (crcBit crc).toBitVec = shiftBit 0x31#8 crc.toBitVec := by
  obtain ⟨b⟩ := crc
  revert b
  decide +kernel

theorem sensirionCrc8_toBitVec (data : List UInt8) (init : UInt8) :
    (sensirionCrc8 data init).toBitVec = check 0x31#8 8 init.toBitVec (data.map UInt8.toBitVec) := by
  have hbits : ∀ n c, (crcBit^[n] c).toBitVec = shiftBits 0x31#8 n c.toBitVec := by
    intro n
    unfold shiftBits
    induction n with
    | zero => exact fun c => rfl
    | succ n ih =>
      intro c
      rw [Function.iterate_succ_apply, ih, crcBit_toBitVec, Function.iterate_succ_apply]
  induction data generalizing init with
  | nil => rfl
  | cons byte data ih =>
    change (sensirionCrc8 data (crcBit^[8] (init ^^^ byte))).toBitVec = _
    rw [ih, hbits]
    rfl

theorem parity_shiftBit : ∀ b : BitVec 8, parity (shiftBit 0x31#8 b) = parity b := by
  decide +kernel

/-- The bits of a word and its check as they are sent. -/
def errorByte (e : BitVec 24) (k : ℕ) : BitVec 8 := e.extractLsb' (16 - 8 * k) 8

def syndrome (e : BitVec 24) : BitVec 8 :=
  check 0x31#8 8 0#8 [errorByte e 0, errorByte e 1] ^^^ errorByte e 2

inductive Noticeable : BitVec 24 → Prop
  | odd {e : BitVec 24} (h : parity e = true) : Noticeable e
  | two {i j : Fin 24} (h : i < j) : Noticeable (1#24 <<< i.val ^^^ 1#24 <<< j.val)

theorem parity_bytes (e : BitVec 24) : parity e =
    (parity (errorByte e 0) ^^ (parity (errorByte e 1) ^^ parity (errorByte e 2))) := by
  have hbytes : e = errorByte e 0 ++ (errorByte e 1 ++ errorByte e 2) := by
    refine BitVec.eq_of_getLsbD_eq fun i hi => ?_
    simp only [errorByte, BitVec.getLsbD_append, BitVec.getLsbD_extractLsb']
    split_ifs <;> simp <;> grind
  conv_lhs => rw [hbytes]
  rw [parity_append, parity_append]

theorem syndrome_two : ∀ i j : Fin 24, i < j →
    syndrome (1#24 <<< i.val ^^^ 1#24 <<< j.val) ≠ 0#8 := by
  decide +kernel

theorem Noticeable.syndrome_ne {e : BitVec 24} (h : Noticeable e) : syndrome e ≠ 0#8 := by
  cases h with
  | odd h =>
    intro hzero
    have hparity : parity (syndrome e) = parity e := by
      rw [syndrome, parity_xor, parity_check 0x31#8 parity_shiftBit, parity_bytes]
      change ((parity 0#8 ^^ (parity (errorByte e 0) ^^ (parity (errorByte e 1) ^^ false))) ^^
        parity (errorByte e 2)) = _
      rw [Bool.xor_false, Bool.xor_assoc, Bool.xor_assoc]
      exact Bool.false_xor _
    rw [hzero, h] at hparity
    cases hparity
  | two h => exact syndrome_two _ _ h

def Garbled (init hi lo : UInt8) (hi' lo' crc' : UInt8) : Prop := ∃ e : BitVec 24, (e = 0#24 ∨ Noticeable e) ∧
  hi'.toBitVec = hi.toBitVec ^^^ errorByte e 0 ∧ lo'.toBitVec = lo.toBitVec ^^^ errorByte e 1 ∧
    crc'.toBitVec = (sensirionCrc8 [hi, lo] init).toBitVec ^^^ errorByte e 2

theorem checkWord_ok {word : Word} {init hi lo hi' lo' crc' : UInt8}
    (hgarbled : Garbled init hi lo hi' lo' crc') (hok : checkWord word init hi' lo' crc' = .ok ()) :
    hi' = hi ∧ lo' = lo := by
  obtain ⟨e, he, hhi, hlo, hcrc⟩ := hgarbled
  unfold checkWord at hok
  dsimp only at hok
  split_ifs at hok with hdiffers
  have hsame := congrArg UInt8.toBitVec (not_not.1 hdiffers)
  rw [sensirionCrc8_toBitVec, hcrc, sensirionCrc8_toBitVec] at hsame
  simp only [List.map_cons, List.map_nil, hhi, hlo] at hsame
  have hzero : check 0x31#8 8 0#8 [errorByte e 0, errorByte e 1] = errorByte e 2 :=
    (@check_errors 8 0x31#8 8 init.toBitVec [hi.toBitVec, lo.toBitVec]
      [errorByte e 0, errorByte e 1] (errorByte e 2) rfl).1 hsame
  rcases he with rfl | hnoticeable
  · exact ⟨UInt8.toBitVec_inj.1 (by rw [hhi]; exact BitVec.xor_zero),
      UInt8.toBitVec_inj.1 (by rw [hlo]; exact BitVec.xor_zero)⟩
  · refine absurd ?_ hnoticeable.syndrome_ne
    rw [syndrome, hzero, BitVec.xor_self]

end Noise

section Measurements

variable {σ : Type} {port : Port σ} {words : σ → ℕ → UInt8 × UInt8} {s s' : σ} {value : ℤ}

/-- Replies come from the words that the sensor has when it is read, however few or odd a number
of bits of each goes wrong. -/
structure Replies (port : Port σ) (words : σ → ℕ → UInt8 × UInt8) : Prop where
  sdp510 : ∀ s s' buf, port.read s 3 = (s', 3, buf) →
    Garbled 0x00 (words s 0).1 (words s 0).2 (buf 0) (buf 1) (buf 2)
  sdp810 : ∀ s s' buf, port.read s 9 = (s', 9, buf) →
    Garbled 0xFF (words s 0).1 (words s 0).2 (buf 0) (buf 1) (buf 2) ∧
      Garbled 0xFF (words s 1).1 (words s 1).2 (buf 3) (buf 4) (buf 5)

def SensorProtocol.measured (protocol : SensorProtocol) (words : ℕ → UInt8 × UInt8) : ℤ :=
  match protocol with
  | .sdp510 => ((words 0).1.toUInt16 <<< 8 ||| (words 0).2.toUInt16).toNat
  | .sdp810Dp => signedWord (words 0).1 (words 0).2
  | .sdp810Temp => signedWord (words 1).1 (words 1).2

theorem checked_ok {α β : Type} {x : Except ReadError α} {f : α → Except ReadError β} {r : β}
    (h : x >>= f = .ok r) : ∃ a, x = .ok a ∧ f a = .ok r := by
  cases x with
  | error e => cases h
  | ok a => exact ⟨a, rfl, h⟩

theorem readSdp510_true (h : Replies port words) (hread : readSdp510 port s = (s', .ok value)) :
    ∃ s₀ buf, port.read s₀ 3 = (s', 3, buf) ∧
      value = SensorProtocol.sdp510.measured (words s₀) := by
  rcases hsent : port.write s [0xF1] with ⟨s₁, written⟩
  rcases hreply : port.read s₁ 3 with ⟨s₂, n, buf⟩
  simp only [readSdp510, hsent, hreply] at hread
  by_cases hwritten : written ≠ 1
  · rw [if_pos hwritten] at hread
    cases hread
  · rw [if_neg hwritten] at hread
    by_cases hn : n ≠ 3
    · rw [if_pos hn] at hread
      cases hread
    · rw [if_neg hn] at hread
      obtain rfl := not_not.1 hn
      have hdecode : decodeSdp510 buf = .ok value := congrArg Prod.snd hread
      unfold decodeSdp510 at hdecode
      obtain ⟨⟨⟩, hcheck, hvalue⟩ := checked_ok hdecode
      obtain ⟨hhi, hlo⟩ := checkWord_ok (h.sdp510 s₁ s₂ buf hreply) hcheck
      obtain rfl := congrArg Prod.fst hread
      refine ⟨s₁, buf, hreply, ?_⟩
      rw [← Except.ok.inj hvalue, hhi, hlo]
      rfl

theorem readSdp810_true (h : Replies port words) {values : ℤ × ℤ}
    (hread : readSdp810 port s = (s', .ok values)) :
    ∃ s₀ buf, port.read s₀ 9 = (s', 9, buf) ∧
      values = (SensorProtocol.sdp810Dp.measured (words s₀),
        SensorProtocol.sdp810Temp.measured (words s₀)) := by
  rcases hstarted : trigger port s with ⟨s₁, triggered⟩
  rcases hreply : port.read s₁ 9 with ⟨s₂, n, buf⟩
  simp only [readSdp810, hstarted, hreply] at hread
  cases triggered with
  | false => cases hread
  | true =>
    rw [if_neg (by decide)] at hread
    by_cases hn : n ≠ 9
    · rw [if_pos hn] at hread
      cases hread
    · rw [if_neg hn] at hread
      obtain rfl := not_not.1 hn
      have hdecode : decodeSdp810 buf = .ok values := congrArg Prod.snd hread
      unfold decodeSdp810 at hdecode
      obtain ⟨⟨⟩, hdp, hdecode⟩ := checked_ok hdecode
      obtain ⟨⟨⟩, htemp, hdecode⟩ := checked_ok hdecode
      obtain ⟨⟨⟩, -, hvalue⟩ := checked_ok hdecode
      obtain ⟨hgarbled, hgarbled'⟩ := h.sdp810 s₁ s₂ buf hreply
      obtain ⟨hhi, hlo⟩ := checkWord_ok hgarbled hdp
      obtain ⟨hhi', hlo'⟩ := checkWord_ok hgarbled' htemp
      obtain rfl := congrArg Prod.fst hread
      refine ⟨s₁, buf, hreply, ?_⟩
      rw [← Except.ok.inj hvalue, hhi, hlo, hhi', hlo']
      rfl

theorem tryRead_true (h : Replies port words) {device address : UInt32} {protocol : SensorProtocol}
    (hread : tryRead port device address protocol s = (s', .ok value)) :
    ∃ s₀ n buf, port.read s₀ n = (s', (n : ℤ), buf) ∧ value = protocol.measured (words s₀) := by
  unfold tryRead at hread
  generalize port.select s device address = selected at hread
  obtain ⟨s₁, failed⟩ := selected
  cases failed with
  | some e => cases hread
  | none =>
    cases protocol with
    | sdp510 =>
      obtain ⟨s₀, buf, hreply, hvalue⟩ := readSdp510_true h hread
      exact ⟨s₀, 3, buf, hreply, hvalue⟩
    | sdp810Dp =>
      cases hreply : readSdp810 port s₁ with
      | mk s₂ r =>
        dsimp only at hread
        rw [hreply] at hread
        cases r with
        | error e => cases hread
        | ok values =>
          obtain ⟨s₀, buf, hlast, rfl⟩ := readSdp810_true h hreply
          obtain rfl := congrArg Prod.fst hread
          exact ⟨s₀, 9, buf, hlast, (Except.ok.inj (congrArg Prod.snd hread)).symm⟩
    | sdp810Temp =>
      cases hreply : readSdp810 port s₁ with
      | mk s₂ r =>
        dsimp only at hread
        rw [hreply] at hread
        cases r with
        | error e => cases hread
        | ok values =>
          obtain ⟨s₀, buf, hlast, rfl⟩ := readSdp810_true h hreply
          obtain rfl := congrArg Prod.fst hread
          exact ⟨s₀, 9, buf, hlast, (Except.ok.inj (congrArg Prod.snd hread)).symm⟩

theorem attempts_true (h : Replies port words) {device address : UInt32} {protocol : SensorProtocol}
    {n : ℕ} {lastErr : ReadError}
    (hread : attempts port device address protocol n lastErr s = (s', .ok value)) :
    ∃ s₀ n buf, port.read s₀ n = (s', (n : ℤ), buf) ∧ value = protocol.measured (words s₀) := by
  induction n generalizing s lastErr with
  | zero => cases hread
  | succ n ih =>
    unfold attempts at hread
    cases htry : tryRead port device address protocol s with
    | mk s₁ r =>
      rw [htry] at hread
      cases r with
      | error e => exact ih hread
      | ok v =>
        obtain rfl := congrArg Prod.fst hread
        obtain rfl := Except.ok.inj (congrArg Prod.snd hread)
        exact tryRead_true h htry

/-- With up to three bits of a word wrong, or any odd number, in any of its attempts, a
measurement is what the sensor had measured when it was read last, or fails. -/
theorem readMeasurement_true (h : Replies port words) {device address : UInt32} {label : List Char}
    (hread : readMeasurement port device address label s = (s', .ok value)) :
    ∃ s₀ n buf, port.read s₀ n = (s', (n : ℤ), buf) ∧
      value = (detectProtocolWithAddress label address).measured (words s₀) :=
  attempts_true h hread

/-- A bus on which the first reply has one wrong bit in every word and the others none. -/
def noisyPort : Port Bool where
  select s _ _ := (s, none)
  write s data := (s, data.length)
  read s n := (true, n, fun i =>
    if i.val % 3 = 0 then (if s then 0x00 else 0x01)
    else if i.val % 3 = 2 ∧ n = 9 then 0x81
    else 0x00)

theorem noisyPort_replies : Replies noisyPort fun _ _ => (0, 0) := by
  have hbuf : ∀ s n s' r buf, noisyPort.read s n = (s', r, buf) → buf = (noisyPort.read s n).2.2 := by
    intro s n s' r buf h
    rw [h]
  refine ⟨fun s s' buf h => ?_, fun s s' buf h => ?_⟩
  · obtain rfl := hbuf _ _ _ _ _ h
    cases s with
    | false => exact ⟨1#24 <<< 16, .inr (.odd (by decide +kernel)), by decide +kernel⟩
    | true => exact ⟨0#24, .inl rfl, by decide +kernel⟩
  · obtain rfl := hbuf _ _ _ _ _ h
    cases s with
    | false =>
      exact ⟨⟨1#24 <<< 16, .inr (.odd (by decide +kernel)), by decide +kernel⟩,
        1#24 <<< 16, .inr (.odd (by decide +kernel)), by decide +kernel⟩
    | true => exact ⟨⟨0#24, .inl rfl, by decide +kernel⟩, 0#24, .inl rfl, by decide +kernel⟩

theorem noisyPort_measured : ∃ s₀ n buf, noisyPort.read s₀ n = (true, (n : ℤ), buf) ∧
    0 = (detectProtocolWithAddress "CFM Flow".toList 0x25).measured fun _ => (0, 0) :=
  @readMeasurement_true Bool noisyPort (fun _ _ => (0, 0)) false true 0 noisyPort_replies 1 0x25
    "CFM Flow".toList (Prod.ext (by decide +kernel) (by decide +kernel))

end Measurements

end Sandstar.I2c
