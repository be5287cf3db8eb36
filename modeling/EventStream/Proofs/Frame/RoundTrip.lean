import EventStream.Proofs.Frame.Extension
import EventStream.Proofs.Header.RoundTrip
import Mathlib.Control.Monad.Basic

/-!
A frame that was written is read back with its lengths, whether checksums are compared or not and
whatever follows it. While a part of it is missing, the reader waits and knows how much is missing.
-/

set_option autoImplicit false

namespace EventStream.Frame

section parts

variable (block payload : Bytes)

def lengthFields : Bytes :=
  bigEndian 4 (overhead + block.length + payload.length) ++ bigEndian 4 block.length

def checkedPart : Bytes :=
  lengthFields block payload ++ bigEndian 4 (crc32 (lengthFields block payload)).toNat ++ block ++
    payload

theorem wire_eq :
    wire block payload =
      checkedPart block payload ++ bigEndian 4 (crc32 (checkedPart block payload)).toNat := rfl

theorem lengthFields_length : (lengthFields block payload).length = 8 := by
  rw [lengthFields, List.length_append, bigEndian_length, bigEndian_length]

theorem checkedPart_length :
    (checkedPart block payload).length = preludeLength + block.length + payload.length := by
  simp only [checkedPart, List.length_append, lengthFields_length, bigEndian_length]
  rfl

theorem wire_length :
    (wire block payload).length = overhead + block.length + payload.length := by
  rw [wire_eq, List.length_append, checkedPart_length, bigEndian_length]
  simp only [overhead, preludeLength, checksumLength]
  omega

def writtenPrelude : Prelude where
  totalLength := overhead + block.length + payload.length
  headersLength := block.length
  checksum := crc32 (lengthFields block payload)

end parts

variable {block payload : Bytes}

theorem ofBigEndian_word (word : UInt32) :
    UInt32.ofNat (ofBigEndian (bigEndian 4 word.toNat)) = word := by
  have hw : word.toNat < 256 ^ 4 := word.toNat_lt
  rw [ofBigEndian_bigEndian hw, UInt32.ofNat_toNat]

theorem wire_eq_lengths :
    wire block payload = lengthFields block payload ++
      (bigEndian 4 (crc32 (lengthFields block payload)).toNat ++ (block ++ (payload ++
        bigEndian 4 (crc32 (checkedPart block payload)).toNat))) := by
  simp only [wire_eq, checkedPart, List.append_assoc]

theorem slice_lengthFields : slice 0 8 (wire block payload) = lengthFields block payload := by
  rw [wire_eq_lengths]
  exact slice_front (lengthFields_length block payload) _

theorem read?_wire (h : overhead + block.length + payload.length ≤ lengthLimit) :
    Prelude.read? (wire block payload) = some (writtenPrelude block payload) := by
  have hlimit : lengthLimit < 256 ^ 4 := by decide
  have hl : preludeLength ≤ (wire block payload).length := by
    rw [wire_length, overhead]
    omega
  have htotal : slice 0 4 (wire block payload) =
      bigEndian 4 (overhead + block.length + payload.length) := by
    rw [wire_eq_lengths, lengthFields, List.append_assoc]
    exact slice_front (bigEndian_length 4 _) _
  have hheaders : slice 4 8 (wire block payload) = bigEndian 4 block.length := by
    rw [wire_eq_lengths, lengthFields, List.append_assoc]
    exact slice_append_self (bigEndian_length 4 _) (by rw [bigEndian_length]) _
  have hchecksum : slice 8 12 (wire block payload) =
      bigEndian 4 (crc32 (lengthFields block payload)).toNat := by
    rw [wire_eq_lengths]
    exact slice_append_self (lengthFields_length block payload) (by rw [bigEndian_length]) _
  rw [Prelude.read?, if_pos (by rw [List.length_take]; omega), htotal, hheaders, hchecksum,
    ofBigEndian_bigEndian (by omega), ofBigEndian_bigEndian (by omega), ofBigEndian_word]
  rfl

theorem error?_wire {config : Config}
    (h : overhead + block.length + payload.length ≤ config.maxLength) :
    (writtenPrelude block payload).error? config (wire block payload) = none := by
  have hp : (writtenPrelude block payload).payloadLength?.isNone = false := by
    rw [Prelude.payloadLength?, if_pos]
    · rfl
    · simp only [writtenPrelude]
      omega
  have ht : ¬ config.maxLength < (writtenPrelude block payload).totalLength := Nat.not_lt.2 h
  rw [Prelude.error?, slice_lengthFields, if_neg (by simp [hp]), if_neg ht]
  split
  · exact if_pos rfl
  · rfl

theorem messageError?_wire {config : Config} :
    messageError? config (wire block payload).length (wire block payload) = none := by
  have hchecked : slice 0 ((wire block payload).length - checksumLength) (wire block payload) =
      checkedPart block payload := by
    rw [wire_eq]
    exact slice_front (by rw [List.length_append, bigEndian_length]; rfl) _
  have hstored : slice ((wire block payload).length - checksumLength)
      (wire block payload).length (wire block payload) =
        bigEndian 4 (crc32 (checkedPart block payload)).toNat := by
    have hl : (wire block payload).length = (checkedPart block payload).length + 4 := by
      rw [wire_eq, List.length_append, bigEndian_length]
    rw [hl, wire_eq, checksumLength, Nat.add_sub_cancel,
      ← List.append_nil (bigEndian 4 (crc32 (checkedPart block payload)).toNat)]
    exact slice_append_self rfl (by rw [bigEndian_length]) _
  rw [messageError?, hchecked, hstored, ofBigEndian_word]
  split
  · exact if_pos rfl
  · rfl

theorem ofWire_wire {headers : Headers} (h : headers.write.fault = none)
    (hl : overhead + headers.write.bytes.length + payload.length ≤ lengthLimit) :
    ofWire (writtenPrelude headers.write.bytes payload) (wire headers.write.bytes payload) =
      .ok (ofContents headers payload) := by
  have hlength := Headers.write_length h
  have hblock : slice preludeLength (preludeLength + headers.write.bytes.length)
      (wire headers.write.bytes payload) = headers.write.bytes := by
    rw [wire_eq_lengths, ← List.append_assoc]
    exact slice_append_self (by rw [List.length_append, lengthFields_length, bigEndian_length]; rfl)
      rfl _
  have hpayload : slice (preludeLength + headers.write.bytes.length)
      (overhead + headers.write.bytes.length + payload.length - checksumLength)
      (wire headers.write.bytes payload) = payload := by
    rw [wire_eq, checkedPart, List.append_assoc]
    refine slice_append_self ?_ ?_ _
    · simp only [List.length_append, lengthFields_length, bigEndian_length]
      rfl
    · simp only [overhead, checksumLength]
      omega
  simp only [ofWire, writtenPrelude, hblock, hpayload, Headers.parse_write h]
  rw [ofContents, ← hlength, Nat.min_eq_left hl, Nat.min_eq_left (by omega)]

/-- A written frame is read back whatever follows. -/
theorem decode_wire {config : Config} {headers : Headers} (h : headers.write.fault = none)
    (hl : overhead + headers.write.bytes.length + payload.length ≤ lengthLimit)
    (hm : overhead + headers.write.bytes.length + payload.length ≤ config.maxLength)
    (more : Bytes) :
    decode config (wire headers.write.bytes payload ++ more) =
      .ok (some (ofContents headers payload)) := by
  have hw : decode config (wire headers.write.bytes payload) =
      .ok (some (ofContents headers payload)) := by
    have ht : (writtenPrelude headers.write.bytes payload).totalLength =
        (wire headers.write.bytes payload).length := (wire_length _ _).symm
    rw [decode_of_whole (read?_wire hl) (error?_wire hm) (Nat.le_of_eq ht), ht, List.take_length,
      messageError?_wire]
    simp only [ofWire_wire h hl]
    rfl
  rw [decode_append (by rw [hw]; exact fun hc => by cases hc), hw]

/-- Writing succeeds only if every part fits, and then appends the wire form. -/
theorem encode_ok {headers : Headers} {before written : Bytes}
    (h : encode headers payload before = .ok written) :
    headers.write.fault = none ∧
      overhead + headers.write.bytes.length + payload.length ≤ lengthLimit ∧
      written = before ++ wire headers.write.bytes payload := by
  unfold encode at h
  cases hf : headers.write.fault with
  | some cause =>
    simp only [hf] at h
    cases h
  | none =>
    simp only [hf] at h
    by_cases hl : overhead + headers.write.bytes.length + payload.length ≤ lengthLimit
    · rw [if_pos hl] at h
      cases h
      exact ⟨rfl, hl, rfl⟩
    · rw [if_neg hl] at h
      cases h

/-- A frame that was written is read back as it was, whatever stands before it and whatever follows,
by every reader whose limit it keeps. -/
theorem decode_encoded {headers : Headers} {payload before after : Bytes}
    (h : encode headers payload before = .ok after) :
    ∃ written, after = before ++ written ∧
      (ofContents headers payload).totalLength = written.length ∧
      (ofContents headers payload).headersLength = headers.encodedLength ∧
      ∀ config : Config, written.length ≤ config.maxLength → ∀ more,
        decode config (written ++ more) = .ok (some (ofContents headers payload)) := by
  obtain ⟨hfault, hlimit, hafter⟩ := encode_ok h
  have hlength := wire_length headers.write.bytes payload
  have hblock := Headers.write_length hfault
  refine ⟨wire headers.write.bytes payload, hafter, ?_, ?_, ?_⟩
  · rw [hlength, hblock]
    exact Nat.min_eq_left (hblock ▸ hlimit)
  · exact Nat.min_eq_left (by omega)
  · intro config hmax more
    exact decode_wire hfault hlimit (by omega) more

def mixedHeaders : Headers :=
  .ofList [("z", .bool false), ("é", .string "ü"), ("a", .short (-2)), ("u", .bytes [0, 255])]

def mixedWire : Bytes :=
  [0, 0, 0, 40, 0, 0, 0, 23, 23, 64, 62, 107, 1, 97, 3, 255, 254, 1, 117, 6, 0, 2, 0, 255, 1, 122,
    1, 2, 195, 169, 7, 0, 2, 195, 188, 123, 54, 179, 110, 9]

/-- Behind other bytes, and with the beginning of a further frame behind it. -/
theorem decode_encoded_mixed :
    encode mixedHeaders [123] [1, 2, 3] = .ok ([1, 2, 3] ++ mixedWire) ∧
    mixedWire.length ≤ Config.strict.maxLength ∧
    decode .strict (mixedWire ++ [0, 0, 0]) = .ok (some (ofContents mixedHeaders [123])) := by
  have hencode : encode mixedHeaders [123] [1, 2, 3] = .ok ([1, 2, 3] ++ mixedWire) := by
    decide +kernel
  have hmax : mixedWire.length ≤ Config.strict.maxLength := by decide
  obtain ⟨written, hwritten, -, -, hdecode⟩ := decode_encoded hencode
  cases List.append_cancel_left hwritten
  exact ⟨hencode, hmax, hdecode .strict hmax [0, 0, 0]⟩

end EventStream.Frame
