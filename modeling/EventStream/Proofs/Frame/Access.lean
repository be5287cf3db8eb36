import EventStream.Guarded.Frame
import EventStream.Proofs.Frame.Extension
import EventStream.Proofs.Header.Access

/-!
The length fields of a prelude are looked at before they are used: what is read of a frame lies in
the bytes that are there, whatever the fields say.
-/

set_option autoImplicit false

namespace EventStream.Frame.Guarded

theorem word_slice {start stop : Nat} {bytes : Bytes} (h : start + 4 = stop)
    (hl : stop ≤ bytes.length) :
    Guarded.word (slice start stop bytes) = .ok (ofBigEndian (slice start stop bytes)) := by
  have hlength : (slice start stop bytes).length = 4 := by
    rw [slice_length hl]
    omega
  rw [Guarded.word_ok (by omega), slice_zero, List.take_of_length_le (by omega)]

theorem prelude?_eq (bytes : Bytes) : prelude? bytes = .ok (Prelude.read? bytes) := by
  rw [prelude?]
  by_cases h : bytes.length < preludeLength
  · have hr : Prelude.read? bytes = none := by
      rw [Prelude.read?, List.length_take, if_neg (by omega)]
    rw [if_pos h, hr]
    rfl
  · have hl : 12 ≤ bytes.length := Nat.le_of_not_lt h
    rw [if_neg h, Guarded.slice_ok (Nat.zero_le 4) (by omega), Guarded.ok_bind,
      word_slice rfl (by omega), Guarded.ok_bind,
      Guarded.slice_ok (by omega) (by omega), Guarded.ok_bind, word_slice rfl (by omega),
      Guarded.ok_bind, Guarded.slice_ok (by omega) hl, Guarded.ok_bind, word_slice rfl hl,
      Guarded.ok_bind, Prelude.read?_of_length hl]
    rfl

/-- No sum that is made of the length fields of a prelude is too large for a word of 64 bits. -/
theorem read?_sums_lt {bytes : Bytes} {prelude : Prelude} (h : Prelude.read? bytes = some prelude) :
    prelude.headersLength + overhead < 2 ^ 64 ∧ preludeLength + prelude.headersLength < 2 ^ 64 ∧
      preludeLength + prelude.totalLength < 2 ^ 64 := by
  have hl := Prelude.read?_length h
  rw [Prelude.read?_of_length hl] at h
  cases h
  have htotal := ofBigEndian_lt (slice 0 4 bytes)
  have hheaders := ofBigEndian_lt (slice 4 8 bytes)
  have hword : ∀ start stop, stop ≤ 12 → (slice start stop bytes).length = stop - start :=
    fun start stop hstop => slice_length (Nat.le_trans hstop hl)
  rw [hword 0 4 (by omega)] at htotal
  rw [hword 4 8 (by omega)] at hheaders
  have hoverhead : overhead = 16 := rfl
  have hprelude : preludeLength = 12 := rfl
  simp only [declaredLength] at htotal hheaders ⊢
  omega

theorem payloadLength?_eq (prelude : Prelude) :
    payloadLength? prelude = .ok prelude.payloadLength? := by
  rw [payloadLength?, Prelude.payloadLength?]
  by_cases h : prelude.headersLength + overhead ≤ prelude.totalLength
  · rw [if_pos h, if_pos h, Guarded.sub_ok h]
    rfl
  · rw [if_neg h, if_neg h]
    rfl

variable {config : Config} {bytes : Bytes} {prelude : Prelude}

theorem preludeError?_eq (hl : preludeLength ≤ bytes.length) :
    preludeError? config bytes prelude = .ok (prelude.error? config bytes) := by
  have hs : Guarded.slice 0 8 bytes = .ok (slice 0 8 bytes) :=
    Guarded.slice_ok (Nat.zero_le 8) (Nat.le_trans (by decide) hl)
  rw [preludeError?, payloadLength?_eq, Guarded.ok_bind, Prelude.error?, hs]
  split
  · rfl
  · split
    · rfl
    · split
      · exact (apply_ite Except.ok _ _ _).symm
      · rfl

theorem messageError?_eq {total : Nat} {wire : Bytes} (h : overhead ≤ total)
    (hl : wire.length = total) :
    messageError? config total wire = .ok (Frame.messageError? config total wire) := by
  have hc : checksumLength ≤ total := Nat.le_trans (by decide) h
  have hstop : total - checksumLength + 4 = total := Nat.sub_add_cancel hc
  rw [messageError?, Frame.messageError?]
  split
  · rw [Guarded.sub_ok hc, Guarded.ok_bind, hl,
      Guarded.slice_ok (Nat.sub_le _ _) (Nat.le_of_eq hl.symm), Guarded.ok_bind,
      word_slice hstop (Nat.le_of_eq hl.symm), Guarded.ok_bind,
      Guarded.slice_ok (Nat.zero_le _) (hl ▸ Nat.sub_le _ _), Guarded.ok_bind]
    exact (apply_ite Except.ok _ _ _).symm
  · rfl

/-- The header block and the payload of a frame lie between its prelude and its last checksum. -/
theorem ofWire_eq {wire : Bytes} (h : prelude.headersLength + overhead ≤ prelude.totalLength)
    (hl : wire.length = prelude.totalLength) :
    ofWire prelude wire = .ok (Frame.ofWire prelude wire) := by
  have hoverhead : overhead = preludeLength + checksumLength := rfl
  rw [ofWire, Frame.ofWire]
  simp only [Guarded.sub_ok (show checksumLength ≤ prelude.totalLength by omega),
    Guarded.slice_ok (show preludeLength ≤ preludeLength + prelude.headersLength by omega)
      (show preludeLength + prelude.headersLength ≤ wire.length by omega),
    Guarded.slice_ok
      (show preludeLength + prelude.headersLength ≤ prelude.totalLength - checksumLength by omega)
      (show prelude.totalLength - checksumLength ≤ wire.length by omega),
    Guarded.ok_bind, Header.Scan.parse_eq]
  generalize Header.Block.parse _ = block
  obtain ⟨headers, fault⟩ := block
  cases fault <;> rfl

theorem decode_eq (config : Config) (bytes : Bytes) :
    decode config bytes = .ok (Frame.decode config bytes) := by
  rw [decode, prelude?_eq, Guarded.ok_bind]
  cases hread : Prelude.read? bytes with
  | none =>
    rw [Frame.decode, hread]
    rfl
  | some prelude =>
    have hl := Prelude.read?_length hread
    simp only [preludeError?_eq hl, Guarded.ok_bind]
    cases hsound : prelude.error? config bytes with
    | some error =>
      rw [decode_of_prelude_error hread hsound]
      rfl
    | none =>
      have hover := Prelude.overhead_le hsound
      by_cases ht : bytes.length < prelude.totalLength
      · rw [decode_of_unfinished hread hsound ht]
        exact if_pos ht
      · have ht : prelude.totalLength ≤ bytes.length := Nat.le_of_not_lt ht
        have hw : (bytes.take prelude.totalLength).length = prelude.totalLength :=
          List.length_take_of_le ht
        rw [decode_of_whole hread hsound ht]
        simp only [if_neg (Nat.not_lt.2 ht), Guarded.slice_ok (Nat.zero_le _) ht, Guarded.ok_bind,
          slice_zero, messageError?_eq (Nat.le_of_add_left_le hover) hw]
        cases Frame.messageError? config prelude.totalLength (bytes.take prelude.totalLength) with
        | some error => rfl
        | none =>
          simp only [ofWire_eq hover hw]
          rfl

end EventStream.Frame.Guarded
