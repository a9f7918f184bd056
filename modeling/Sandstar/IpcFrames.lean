import Mathlib

set_option autoImplicit false

/-!
# Frames between the client and the server (sandstar-ipc/protocol.rs)

A value is written as four bytes of length and its bytes. The serializer is a parameter. A stream
is the bytes that still come before its end.
-/
namespace Sandstar.Ipc

section Model

variable {α : Type}

structure Serializer (α : Type) where
  serialize : α → Option (List UInt8)
  deserialize : List UInt8 → Option α

inductive FrameError
  | encode
  | decode
  | tooLarge (len : ℕ)
  | unexpectedEof
deriving DecidableEq

def maxFrameSize : ℕ := 1048576

def lengthBytes (n : ℕ) : List UInt8 := (List.range 4).map fun i => UInt8.ofNat (n / 256 ^ i)

def lengthOf (bytes : List UInt8) : ℕ := Nat.ofDigits 256 (bytes.map UInt8.toNat)

def writeFrame (s : Serializer α) (value : α) : Except FrameError (List UInt8) :=
  match s.serialize value with
  | none => .error .encode
  | some payload => .ok (lengthBytes payload.length ++ payload)

def readExact (n : ℕ) (input : List UInt8) : Option (List UInt8 × List UInt8) :=
  if n ≤ input.length then some (input.take n, input.drop n) else none

/-- What is read, or nothing where the stream ends, and what is left of the stream. -/
def readFrame (s : Serializer α) (input : List UInt8) :
    Except FrameError (Option α × List UInt8) :=
  match readExact 4 input with
  | none => .ok (none, [])
  | some (lenBuf, input) =>
    let len := lengthOf lenBuf
    if maxFrameSize < len then .error (.tooLarge len)
    else match readExact len input with
      | none => .error .unexpectedEof
      | some (payload, input) => match s.deserialize payload with
        | none => .error .decode
        | some value => .ok (some value, input)

/-- Reads frames until the stream ends or a frame cannot be read. -/
def readFrames (s : Serializer α) : ℕ → List UInt8 → List α × Except FrameError Unit
  | 0, _ => ([], .ok ())
  | fuel + 1, input => match readFrame s input with
    | .error e => ([], .error e)
    | .ok (none, _) => ([], .ok ())
    | .ok (some value, rest) =>
      let (values, ending) := readFrames s fuel rest
      (value :: values, ending)

variable {Command Response : Type}

def handleConnection (commands : Serializer Command) (responses : Serializer Response)
    (execute : Command → Response) (sent : List UInt8) : Except FrameError (List UInt8) :=
  match readFrame commands sent with
  | .error e => .error e
  | .ok (none, _) => .ok []
  | .ok (some cmd, _) => writeFrame responses (execute cmd)

/-- What `send_command` makes of the answer. -/
inductive Answer (Response : Type)
  | response (r : Response)
  | noResponse
  | failed (e : FrameError)
deriving DecidableEq

/-- `send_command`, the connection being closed by a server that fails. -/
def sendCommand (commands : Serializer Command) (responses : Serializer Response)
    (execute : Command → Response) (cmd : Command) : Answer Response :=
  match writeFrame commands cmd with
  | .error e => .failed e
  | .ok sent =>
    let received := match handleConnection commands responses execute sent with
      | .ok received => received
      | .error _ => []
    match readFrame responses received with
    | .error e => .failed e
    | .ok (none, _) => .noResponse
    | .ok (some r, _) => .response r

end Model

section Frames

variable {α : Type} {s : Serializer α} {value : α} {payload rest frame : List UInt8}

theorem lengthBytes_length (n : ℕ) : (lengthBytes n).length = 4 := by
  rw [lengthBytes, List.length_map, List.length_range]

/-- What is read back of a length is its last 32 bits. -/
theorem lengthOf_lengthBytes (n : ℕ) : lengthOf (lengthBytes n) = n % 2 ^ 32 := by
  simp only [lengthOf, lengthBytes, List.range_succ, List.range_zero, List.nil_append,
    List.map_cons, List.map_nil, List.cons_append, Nat.ofDigits_cons,
    Nat.ofDigits_nil, UInt8.toNat_ofNat']
  omega

theorem readExact_append (bytes rest : List UInt8) :
    readExact bytes.length (bytes ++ rest) = some (bytes, rest) := by
  rw [readExact, if_pos (by rw [List.length_append]; exact Nat.le_add_right _ _), List.take_left,
    List.drop_left]

theorem readExact_short {n : ℕ} (h : rest.length < n) : readExact n rest = none :=
  if_neg (not_le.2 h)

theorem readFrame_length (s : Serializer α) (n : ℕ) (rest : List UInt8) :
    readFrame s (lengthBytes n ++ rest) =
      if maxFrameSize < n % 2 ^ 32 then .error (.tooLarge (n % 2 ^ 32))
      else match readExact (n % 2 ^ 32) rest with
        | none => .error .unexpectedEof
        | some (payload, rest) => match s.deserialize payload with
          | none => .error .decode
          | some value => .ok (some value, rest) := by
  have hlen := readExact_append (lengthBytes n) rest
  rw [lengthBytes_length] at hlen
  unfold readFrame
  rw [hlen]
  dsimp only
  rw [lengthOf_lengthBytes]

theorem mod_of_le {n : ℕ} (h : n ≤ maxFrameSize) : n % 2 ^ 32 = n :=
  Nat.mod_eq_of_lt (h.trans_lt (by decide))

/-- A frame of allowed size is taken off the front of the stream. -/
theorem readFrame_payload (h : payload.length ≤ maxFrameSize) (rest : List UInt8) :
    readFrame s (lengthBytes payload.length ++ payload ++ rest) =
      match s.deserialize payload with
      | none => .error .decode
      | some value => .ok (some value, rest) := by
  rw [List.append_assoc, readFrame_length, mod_of_le h, if_neg (not_lt.2 h), readExact_append]

/-- A value is read back exactly where its bytes fit into a frame: the size is only checked on
reading. -/
theorem frame_round_trip_iff (hpayload : s.serialize value = some payload)
    (hinverse : s.deserialize payload = some value) (hframe : writeFrame s value = .ok frame) :
    readFrame s frame = .ok (some value, []) ↔ payload.length ≤ maxFrameSize := by
  unfold writeFrame at hframe
  rw [hpayload] at hframe
  obtain rfl := Except.ok.inj hframe
  constructor
  · intro hread
    by_contra hlarge
    rw [readFrame_length] at hread
    split_ifs at hread with hmax
    unfold readExact at hread
    split_ifs at hread with hlen
    dsimp only at hread
    split at hread
    · cases hread
    · have hrest : payload.drop (payload.length % 2 ^ 32) = [] :=
        congrArg Prod.snd (Except.ok.inj hread)
      have hle := List.drop_eq_nil_iff.1 hrest
      exact hlarge (hle.trans (not_lt.1 hmax))
  · intro hfits
    have hread := @readFrame_payload _ s _ hfits []
    rw [List.append_nil, hinverse] at hread
    exact hread

end Frames

/-- A channel number as `bincode` writes it: four bytes, and what follows them is ignored. -/
def channelNumber : Serializer UInt32 where
  serialize n := some (lengthBytes n.toNat)
  deserialize bytes := (readExact 4 bytes).map fun r => UInt32.ofNat (lengthOf r.1)

theorem frame_1113 :
    readFrame channelNumber [4, 0, 0, 0, 89, 4, 0, 0] = .ok (some 1113, []) ↔ 4 ≤ maxFrameSize :=
  frame_round_trip_iff (show channelNumber.serialize 1113 = some [89, 4, 0, 0] by decide)
    (by decide) (by decide)

section Streams

variable {α : Type} {s : Serializer α}

/-- Values whose bytes can be read back. -/
structure Sendable (s : Serializer α) (value : α) (payload : List UInt8) : Prop where
  written : s.serialize value = some payload
  read : s.deserialize payload = some value
  fits : payload.length ≤ maxFrameSize

def framed (payload : List UInt8) : List UInt8 := lengthBytes payload.length ++ payload

theorem framed_length (payload : List UInt8) : (framed payload).length = payload.length + 4 := by
  rw [framed, List.length_append, lengthBytes_length, Nat.add_comm]

theorem readFrame_framed {value : α} {payload : List UInt8} (h : Sendable s value payload)
    (rest : List UInt8) : readFrame s (framed payload ++ rest) = .ok (some value, rest) := by
  rw [framed, readFrame_payload h.fits, h.read]

theorem readFrame_cut {payload : List UInt8} (hfits : payload.length ≤ maxFrameSize) {n : ℕ}
    (hn : n < (framed payload).length) :
    readFrame s ((framed payload).take n) =
      if n < 4 then .ok (none, []) else .error .unexpectedEof := by
  by_cases hshort : n < 4
  · rw [if_pos hshort]
    unfold readFrame
    rw [readExact_short ((List.length_take_le _ _).trans_lt hshort)]
  · rw [framed_length] at hn
    have htake : (framed payload).take n =
        lengthBytes payload.length ++ payload.take (n - 4) := by
      rw [framed, List.take_append, lengthBytes_length,
        List.take_of_length_le (by rw [lengthBytes_length]; omega)]
    rw [if_neg hshort, htake, readFrame_length, mod_of_le hfits, if_neg (not_lt.2 hfits),
      readExact_short (by rw [List.length_take]; omega)]

def stream (payloads : List (List UInt8)) : List UInt8 := payloads.flatMap framed

/-- Where a stream of frames is cut off, exactly the values that came whole are read; then the
stream ends, or a value is missing if its length has come. -/
theorem readFrames_cut {values : List α} {payloads : List (List UInt8)}
    (h : List.Forall₂ (Sendable s) values payloads) (n fuel : ℕ) (hfuel : values.length < fuel) :
    ∃ k ≤ values.length, (stream (payloads.take k)).length ≤ n ∧
      (k < values.length → n < (stream (payloads.take (k + 1))).length) ∧
      readFrames s fuel ((stream payloads).take n) = (values.take k,
        if k = values.length ∨ n < (stream (payloads.take k)).length + 4 then .ok ()
        else .error .unexpectedEof) := by
  induction h generalizing n fuel with
  | nil =>
    obtain ⟨fuel, rfl⟩ := Nat.exists_eq_succ_of_ne_zero hfuel.ne'
    refine ⟨0, le_rfl, Nat.zero_le _, fun hlt => absurd hlt (Nat.lt_irrefl _), ?_⟩
    rw [stream, List.flatMap_nil, List.take_nil]
    rfl
  | @cons value payload values payloads hvalue hrest ih =>
    obtain ⟨fuel, rfl⟩ := Nat.exists_eq_succ_of_ne_zero (Nat.ne_zero_of_lt hfuel)
    have hstream : stream (payload :: payloads) = framed payload ++ stream payloads :=
      List.flatMap_cons
    by_cases hwhole : (framed payload).length ≤ n
    · obtain ⟨k, hk, hle, hlt, hread⟩ := ih (n - (framed payload).length) fuel
        (Nat.lt_of_succ_lt_succ hfuel)
      have htaken : ∀ j, (stream ((payload :: payloads).take (j + 1))).length =
          (framed payload).length + (stream (payloads.take j)).length := by
        intro j
        rw [List.take_succ_cons, stream, List.flatMap_cons, List.length_append]
        rfl
      refine ⟨k + 1, Nat.succ_le_succ hk, ?_, fun hlast => ?_, ?_⟩
      · rw [htaken]
        omega
      · have hmore := hlt (Nat.lt_of_succ_lt_succ hlast)
        rw [htaken]
        omega
      · have hcut : (stream (payload :: payloads)).take n =
            framed payload ++ (stream payloads).take (n - (framed payload).length) := by
          rw [hstream, List.take_append, List.take_of_length_le hwhole]
        rw [hcut, readFrames, readFrame_framed hvalue]
        dsimp only
        rw [hread, htaken, List.take_succ_cons, List.length_cons]
        refine congrArg (Prod.mk (value :: values.take k)) (if_congr ?_ rfl rfl)
        omega
    · have hcut : (stream (payload :: payloads)).take n = (framed payload).take n := by
        rw [hstream, List.take_append_of_le_length (le_of_not_ge hwhole)]
      refine ⟨0, Nat.zero_le _, Nat.zero_le _, fun _ => ?_, ?_⟩
      · rw [List.take_succ_cons, List.take_zero, stream, List.flatMap_cons, List.flatMap_nil,
          List.append_nil]
        exact not_le.1 hwhole
      · rw [hcut, readFrames, readFrame_cut hvalue.fits (not_le.1 hwhole)]
        by_cases hshort : n < 4
        · rw [if_pos hshort, if_pos (.inr (by simpa [stream] using hshort))]
          rfl
        · rw [if_neg hshort, if_neg (by simpa [stream] using not_lt.1 hshort)]
          rfl

/-- Two frames, the second without its last byte. -/
theorem frames_cut_1113 : ∃ k ≤ 2, (stream ([[89, 4, 0, 0], [100, 2, 0, 0]].take k)).length ≤ 15 ∧
    (k < 2 → 15 < (stream ([[89, 4, 0, 0], [100, 2, 0, 0]].take (k + 1))).length) ∧
    readFrames channelNumber 3 ((stream [[89, 4, 0, 0], [100, 2, 0, 0]]).take 15) =
      ([1113, 612].take k,
        if k = 2 ∨ 15 < (stream ([[89, 4, 0, 0], [100, 2, 0, 0]].take k)).length + 4 then .ok ()
        else .error .unexpectedEof) :=
  readFrames_cut (.cons ⟨by decide, by decide, by decide⟩
    (.cons ⟨by decide, by decide, by decide⟩ .nil)) 15 3 (by decide)

end Streams

section Exchange

variable {Command Response : Type} {commands : Serializer Command} {responses : Serializer Response}

/-- A client gets the response to its own command exactly where that fits into a frame. -/
theorem sendCommand_iff (execute : Command → Response) {cmd : Command} {sent answer : List UInt8}
    (hcmd : Sendable commands cmd sent)
    (hanswer : responses.serialize (execute cmd) = some answer)
    (hinverse : responses.deserialize answer = some (execute cmd)) (hword : answer.length < 2 ^ 32) :
    sendCommand commands responses execute cmd = .response (execute cmd) ↔
      answer.length ≤ maxFrameSize := by
  have hreceived : handleConnection commands responses execute (framed sent) = .ok (framed answer) := by
    have hread := readFrame_framed hcmd []
    rw [List.append_nil] at hread
    unfold handleConnection writeFrame
    rw [hread]
    dsimp only
    rw [hanswer]
    rfl
  have hsend : sendCommand commands responses execute cmd =
      match readFrame responses (framed answer) with
      | .error e => .failed e
      | .ok (none, _) => .noResponse
      | .ok (some r, _) => .response r := by
    have hwrite : writeFrame commands cmd = .ok (framed sent) := by
      rw [writeFrame, hcmd.written]
      rfl
    rw [sendCommand, hwrite]
    dsimp only
    rw [hreceived]
  rw [hsend]
  constructor
  · intro h
    by_contra hlarge
    rw [framed, readFrame_length, Nat.mod_eq_of_lt hword, if_pos (not_le.1 hlarge)] at h
    cases h
  · intro hfits
    have hread := readFrame_framed ⟨hanswer, hinverse, hfits⟩ []
    rw [List.append_nil] at hread
    rw [hread]

theorem answer_to_1113 :
    sendCommand channelNumber channelNumber (· + 1) 1113 = .response 1114 ↔ 4 ≤ maxFrameSize :=
  @sendCommand_iff _ _ channelNumber channelNumber (· + 1) 1113 [89, 4, 0, 0] [90, 4, 0, 0]
    ⟨by decide, by decide, by decide⟩ (by decide) (by decide) (by decide)

end Exchange

end Sandstar.Ipc
