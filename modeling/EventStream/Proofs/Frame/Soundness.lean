import EventStream.Proofs.Frame.Corruption

/-!
What an answer says of the bytes that it was read from. A frame is read exactly where the bytes open
with one: the lengths agree with each other and with the limit, the whole frame is there, its header
block is read to the end, and the checksums are right where they are compared. Whatever the answer
is, further bytes do not change it, and there is one as soon as there are as many bytes as the limit
allows.
-/

set_option autoImplicit false

namespace EventStream.Frame

def declaredHeadersLength (bytes : Bytes) : Nat :=
  ofBigEndian (slice 4 8 bytes)

/-- The bytes begin with a whole frame that a reader so configured admits. -/
structure OpensWith (config : Config) (bytes : Bytes) (frame : Frame) : Prop where
  totalLength_eq : frame.totalLength = declaredLength bytes
  headersLength_eq : frame.headersLength = declaredHeadersLength bytes
  lengths : overhead + frame.headersLength + frame.payload.length = frame.totalLength
  within : frame.totalLength ≤ min bytes.length config.maxLength
  headers : Header.Block.parse
    (slice preludeLength (preludeLength + frame.headersLength) bytes) = ⟨frame.headers, none⟩
  payload : frame.payload =
    slice (preludeLength + frame.headersLength) (frame.totalLength - checksumLength) bytes
  checksums : config.verifyChecksums = true →
    Checks 0 8 bytes ∧ Checks 0 (frame.totalLength - checksumLength) bytes

variable {config : Config} {bytes wire : Bytes} {prelude : Prelude} {frame : Frame}

theorem Prelude.read?_eq_some_iff : Prelude.read? bytes = some prelude ↔
    preludeLength ≤ bytes.length ∧ prelude = {
      totalLength := declaredLength bytes
      headersLength := declaredHeadersLength bytes
      checksum := UInt32.ofNat (ofBigEndian (slice 8 12 bytes)) } := by
  constructor
  · intro hread
    have hl := Prelude.read?_length hread
    rw [Prelude.read?_of_length hl] at hread
    exact ⟨hl, (Option.some.inj hread).symm⟩
  · rintro ⟨hl, rfl⟩
    exact Prelude.read?_of_length hl

theorem Prelude.error?_eq_none_iff (hread : Prelude.read? bytes = some prelude) :
    prelude.error? config bytes = none ↔
      prelude.headersLength + overhead ≤ prelude.totalLength ∧
        prelude.totalLength ≤ config.maxLength ∧
        (config.verifyChecksums = true → Checks 0 8 bytes) := by
  constructor
  · intro hsound
    exact ⟨Prelude.overhead_le hsound, Prelude.totalLength_le_maxLength hsound,
      fun hstrict => checks_of_error?_eq_none hstrict hread hsound⟩
  · rintro ⟨hlengths, hmax, hchecks⟩
    have hstored : UInt32.ofNat (ofBigEndian (slice 8 12 bytes)) = prelude.checksum := by
      rw [(Prelude.read?_eq_some_iff.1 hread).2]
    have hagree : prelude.payloadLength?.isNone = false := by
      rw [Prelude.payloadLength?, if_pos hlengths]
      rfl
    rw [Prelude.error?, hagree, if_neg Bool.false_ne_true, if_neg (Nat.not_lt.2 hmax)]
    by_cases hstrict : config.verifyChecksums = true
    · rw [if_pos hstrict]
      exact if_pos ((hchecks hstrict).symm.trans hstored)
    · exact if_neg hstrict

theorem Checks.take_iff {start stop n : Nat} (h : stop + checksumLength ≤ n) :
    Checks start stop (bytes.take n) ↔ Checks start stop bytes := by
  rw [Checks, Checks, slice_take h, slice_take (Nat.le_trans (Nat.le_add_right _ _) h)]

/-- A whole message is sound if its last checksum is, or if that is not compared. -/
theorem messageError?_take_eq_none_iff {total : Nat} (ht : checksumLength ≤ total) :
    messageError? config total (bytes.take total) = none ↔
      (config.verifyChecksums = true → Checks 0 (total - checksumLength) bytes) := by
  by_cases hstrict : config.verifyChecksums = true
  · have hstop : total - checksumLength + checksumLength ≤ total :=
      Nat.le_of_eq (Nat.sub_add_cancel ht)
    rw [messageError?_eq_none_iff hstrict ht, Checks.take_iff hstop]
    exact ⟨fun hchecks _ => hchecks, fun hchecks => hchecks hstrict⟩
  · rw [messageError?, if_neg hstrict]
    exact ⟨fun _ hverify => absurd hverify hstrict, fun _ => rfl⟩

theorem ofWire_eq_ok_iff : ofWire prelude wire = .ok frame ↔
    frame.totalLength = prelude.totalLength ∧ frame.headersLength = prelude.headersLength ∧
      Header.Block.parse (slice preludeLength (preludeLength + prelude.headersLength) wire) =
        ⟨frame.headers, none⟩ ∧
      frame.payload = slice (preludeLength + prelude.headersLength)
        (prelude.totalLength - checksumLength) wire := by
  obtain ⟨total, headersLength, headers, payload⟩ := frame
  rw [ofWire]
  generalize Header.Block.parse _ = block
  obtain ⟨found, fault⟩ := block
  cases fault with
  | some fault => simp
  | none =>
    simp only [Except.ok.injEq, Frame.mk.injEq, Header.Block.mk.injEq, and_true]
    constructor
    · rintro ⟨rfl, rfl, rfl, rfl⟩
      exact ⟨rfl, rfl, rfl, rfl⟩
    · rintro ⟨rfl, rfl, rfl, rfl⟩
      exact ⟨rfl, rfl, rfl, rfl⟩

theorem opensWith_of_decode (h : decode config bytes = .ok (some frame)) :
    OpensWith config bytes frame := by
  obtain ⟨prelude, hread, hsound, hl, hmessage, hframe⟩ := decode_frame_inv h
  obtain ⟨hlengths, hmax, hprelude⟩ := (Prelude.error?_eq_none_iff hread).1 hsound
  obtain ⟨htotal, hheaders, hblock, hpayload⟩ := ofWire_eq_ok_iff.1 hframe
  obtain ⟨-, hfields⟩ := Prelude.read?_eq_some_iff.1 hread
  rw [← htotal, ← hheaders] at hlengths hblock hpayload
  rw [← htotal] at hl hmax hmessage
  rw [overhead] at hlengths
  -- The header block and the payload end before the checksum, and so within the frame.
  rw [slice_take (by omega)] at hblock hpayload
  have hlength : frame.payload.length =
      frame.totalLength - checksumLength - (preludeLength + frame.headersLength) := by
    rw [hpayload, slice_length (by omega)]
  refine ⟨?_, ?_, ?_, Nat.le_min.2 ⟨hl, hmax⟩, hblock, hpayload, fun hstrict => ?_⟩
  · rw [htotal, hfields]
  · rw [hheaders, hfields]
  · rw [overhead]
    omega
  · have hend := (messageError?_take_eq_none_iff (by omega)).1 hmessage
    exact ⟨hprelude hstrict, hend hstrict⟩

theorem OpensWith.decode_eq (h : OpensWith config bytes frame) :
    decode config bytes = .ok (some frame) := by
  have hlengths := h.lengths
  obtain ⟨hl, hmax⟩ := Nat.le_min.1 h.within
  rw [overhead] at hlengths
  have hprelude : preludeLength ≤ bytes.length := by omega
  obtain ⟨prelude, hread⟩ := Prelude.exists_read? hprelude
  obtain ⟨-, hfields⟩ := Prelude.read?_eq_some_iff.1 hread
  have htotal : frame.totalLength = prelude.totalLength := by rw [h.totalLength_eq, hfields]
  have hheaders : frame.headersLength = prelude.headersLength := by
    rw [h.headersLength_eq, hfields]
  have hsound : prelude.error? config bytes = none := by
    rw [Prelude.error?_eq_none_iff hread, ← htotal, ← hheaders, overhead]
    exact ⟨by omega, hmax, fun hstrict => (h.checksums hstrict).1⟩
  have hmessage : messageError? config frame.totalLength (bytes.take frame.totalLength) = none :=
    (messageError?_take_eq_none_iff (by omega)).2 fun hstrict => (h.checksums hstrict).2
  have hframe : ofWire prelude (bytes.take frame.totalLength) = .ok frame := by
    rw [ofWire_eq_ok_iff, ← htotal, ← hheaders, slice_take (by omega), slice_take (by omega)]
    exact ⟨rfl, rfl, h.headers, h.payload⟩
  rw [decode_of_whole hread hsound (htotal ▸ hl), ← htotal, hmessage]
  simp only [hframe]
  rfl

/-- What is read of the front of a byte string is settled: no further bytes change it. It is waited
for only below the limit of the reader, and a frame is read exactly where the bytes open with it. -/
theorem decode_settled (config : Config) (bytes : Bytes) :
    (decode config bytes ≠ .ok none →
      ∀ more, decode config (bytes ++ more) = decode config bytes) ∧
    (max preludeLength config.maxLength ≤ bytes.length → decode config bytes ≠ .ok none) ∧
    ∀ frame, decode config bytes = .ok (some frame) ↔ OpensWith config bytes frame := by
  refine ⟨decode_append, ?_, fun frame => ⟨opensWith_of_decode, OpensWith.decode_eq⟩⟩
  intro hl hnone
  exact Nat.not_lt.2 hl (length_lt_of_decode_none hnone)

/-- Exactly as many bytes as the limit allows, all of them of one frame. -/
theorem decode_settled_forty :
    let config : Config := { verifyChecksums := true, maxLength := 40 }
    max preludeLength config.maxLength ≤ mixedWire.length ∧
    decode config mixedWire ≠ .ok none ∧
    decode config (mixedWire ++ [0, 0, 0]) = .ok (some (ofContents mixedHeaders [123])) ∧
    OpensWith config mixedWire (ofContents mixedHeaders [123]) := by
  intro config
  obtain ⟨hstays, hlimit, hframes⟩ := decode_settled config mixedWire
  have hmax : max preludeLength config.maxLength ≤ mixedWire.length := by decide
  have hanswered := hlimit hmax
  have hdecode : decode config mixedWire = .ok (some (ofContents mixedHeaders [123])) := by
    decide +kernel
  exact ⟨hmax, hanswered, (hstays hanswered [0, 0, 0]).trans hdecode, (hframes _).1 hdecode⟩

end EventStream.Frame
