import EventStream.Frame.Wire
import EventStream.Proofs.Bytes

/-!
Reading the frame at the front of a byte string looks no farther than it has to: once there is an
answer, a frame or an error, further bytes do not change it. The length field alone says where the
next frame is expected.
-/

set_option autoImplicit false

namespace EventStream.Frame

def declaredLength (bytes : Bytes) : Nat :=
  ofBigEndian (slice 0 4 bytes)

theorem Prelude.read?_append {bytes : Bytes} (h : preludeLength ≤ bytes.length) (more : Bytes) :
    Prelude.read? (bytes ++ more) = Prelude.read? bytes := by
  have hl : 12 ≤ bytes.length := h
  unfold Prelude.read?
  rw [List.take_append_of_le_length h, slice_append_left (by omega), slice_append_left (by omega),
    slice_append_left (by omega)]

theorem Prelude.error?_append {bytes : Bytes} (h : preludeLength ≤ bytes.length) (more : Bytes)
    (config : Config) (prelude : Prelude) :
    prelude.error? config (bytes ++ more) = prelude.error? config bytes := by
  have hl : 8 ≤ bytes.length := Nat.le_trans (by decide) h
  unfold Prelude.error?
  rw [slice_append_left hl]

theorem Prelude.read?_of_length {bytes : Bytes} (h : preludeLength ≤ bytes.length) :
    Prelude.read? bytes = some {
      totalLength := declaredLength bytes
      headersLength := ofBigEndian (slice 4 8 bytes)
      checksum := UInt32.ofNat (ofBigEndian (slice 8 12 bytes)) } := by
  apply if_pos
  rw [List.length_take]
  omega

theorem Prelude.exists_read? {bytes : Bytes} (h : preludeLength ≤ bytes.length) :
    ∃ prelude, Prelude.read? bytes = some prelude :=
  ⟨_, Prelude.read?_of_length h⟩

theorem Prelude.read?_totalLength {bytes : Bytes} {prelude : Prelude}
    (h : Prelude.read? bytes = some prelude) : prelude.totalLength = declaredLength bytes := by
  unfold Prelude.read? at h
  split at h
  · cases h
    rfl
  · cases h

theorem decode_of_short {config : Config} {bytes : Bytes} (h : bytes.length < preludeLength) :
    decode config bytes = .ok none := by
  have hr : Prelude.read? bytes = none := by
    rw [Prelude.read?, if_neg]
    rw [List.length_take]
    omega
  rw [decode, hr]

section steps

variable {config : Config} {bytes : Bytes} {prelude : Prelude} {error : Error}

theorem decode_of_prelude_error (hread : Prelude.read? bytes = some prelude)
    (herror : prelude.error? config bytes = some error) : decode config bytes = .error error := by
  rw [decode, hread]
  simp only [herror]

theorem decode_of_unfinished (hread : Prelude.read? bytes = some prelude)
    (hsound : prelude.error? config bytes = none) (hl : bytes.length < prelude.totalLength) :
    decode config bytes = .ok none := by
  have htake : (bytes.take prelude.totalLength).length < prelude.totalLength := by
    rw [List.length_take]
    omega
  rw [decode, hread]
  simp only [hsound, if_pos htake]

/-- Once a frame is whole, its last checksum is looked at, and then its contents. -/
theorem decode_of_whole (hread : Prelude.read? bytes = some prelude)
    (hsound : prelude.error? config bytes = none) (hl : prelude.totalLength ≤ bytes.length) :
    decode config bytes =
      match messageError? config prelude.totalLength (bytes.take prelude.totalLength) with
      | some error => .error error
      | none => (ofWire prelude (bytes.take prelude.totalLength)).map some := by
  have htake : ¬ (bytes.take prelude.totalLength).length < prelude.totalLength := by
    rw [List.length_take]
    omega
  rw [decode, hread]
  simp only [hsound]
  exact if_neg htake

/-- There is an answer once the prelude is there and as many bytes as it declares. -/
theorem decode_ne_none (hl : preludeLength ≤ bytes.length) (hd : declaredLength bytes ≤ bytes.length) :
    decode config bytes ≠ .ok none := by
  intro h
  obtain ⟨prelude, hread⟩ := Prelude.exists_read? hl
  cases hsound : prelude.error? config bytes with
  | some error =>
    rw [decode_of_prelude_error hread hsound] at h
    cases h
  | none =>
    rw [decode_of_whole hread hsound (Prelude.read?_totalLength hread ▸ hd)] at h
    split at h
    · cases h
    · cases hw : ofWire prelude (bytes.take prelude.totalLength) with
      | error error =>
        rw [hw] at h
        cases h
      | ok frame =>
        rw [hw] at h
        cases h

theorem Prelude.totalLength_le_maxLength (h : prelude.error? config bytes = none) :
    prelude.totalLength ≤ config.maxLength := by
  unfold Prelude.error? at h
  split at h
  · cases h
  · split at h
    · cases h
    · next hmax => exact Nat.not_lt.1 hmax

/-- Bytes are only waited for as long as the frame that they begin can be within the limit. -/
theorem length_lt_of_decode_none (h : decode config bytes = .ok none) :
    bytes.length < max preludeLength config.maxLength := by
  by_cases hl : preludeLength ≤ bytes.length
  · obtain ⟨prelude, hread⟩ := Prelude.exists_read? hl
    cases hsound : prelude.error? config bytes with
    | some error =>
      rw [decode_of_prelude_error hread hsound] at h
      cases h
    | none =>
      have hmax := Prelude.totalLength_le_maxLength hsound
      have hunfinished : bytes.length < prelude.totalLength := by
        by_contra hd
        rw [Prelude.read?_totalLength hread] at hd
        exact decode_ne_none hl (Nat.not_lt.1 hd) h
      omega
  · exact Nat.lt_of_lt_of_le (Nat.not_le.1 hl) (Nat.le_max_left _ _)

/-- An answer stays whatever bytes follow. -/
theorem decode_append (h : decode config bytes ≠ .ok none) (more : Bytes) :
    decode config (bytes ++ more) = decode config bytes := by
  have hl : preludeLength ≤ bytes.length := by
    by_contra hs
    exact h (decode_of_short (Nat.not_le.1 hs))
  obtain ⟨prelude, hread⟩ := Prelude.exists_read? hl
  have hread' : Prelude.read? (bytes ++ more) = some prelude :=
    (Prelude.read?_append hl more).trans hread
  have herror := Prelude.error?_append hl more config prelude
  cases hsound : prelude.error? config bytes with
  | some error =>
    rw [decode_of_prelude_error hread hsound,
      decode_of_prelude_error hread' (herror.trans hsound)]
  | none =>
    have ht : prelude.totalLength ≤ bytes.length := by
      by_contra hs
      exact h (decode_of_unfinished hread hsound (Nat.not_le.1 hs))
    have ht' : prelude.totalLength ≤ (bytes ++ more).length := by
      rw [List.length_append]
      omega
    rw [decode_of_whole hread hsound ht, decode_of_whole hread' (herror.trans hsound) ht',
      List.take_append_of_le_length ht]

end steps

/-- A frame is read behind a sound prelude, from as many bytes as it declares. -/
theorem decode_frame_inv {config : Config} {bytes : Bytes} {frame : Frame}
    (h : decode config bytes = .ok (some frame)) :
    ∃ prelude, Prelude.read? bytes = some prelude ∧ prelude.error? config bytes = none ∧
      prelude.totalLength ≤ bytes.length ∧
      messageError? config prelude.totalLength (bytes.take prelude.totalLength) = none ∧
      ofWire prelude (bytes.take prelude.totalLength) = .ok frame := by
  unfold decode at h
  split at h
  · cases h
  · next prelude hr =>
    split at h
    · cases h
    · next he =>
      simp only at h
      split at h
      · cases h
      · next hl =>
        split at h
        · cases h
        · next hm =>
          refine ⟨prelude, hr, he, ?_, hm, ?_⟩
          · rw [List.length_take] at hl
            omega
          · cases hw : ofWire prelude (bytes.take prelude.totalLength) with
            | error e =>
              rw [hw] at h
              cases h
            | ok f =>
              rw [hw] at h
              cases h
              rfl

theorem decode_error_inv {config : Config} {bytes : Bytes} {error : Error}
    (h : decode config bytes = .error error) :
    ∃ prelude, Prelude.read? bytes = some prelude ∧
      (prelude.error? config bytes = some error ∨
        messageError? config prelude.totalLength (bytes.take prelude.totalLength) = some error ∨
        ofWire prelude (bytes.take prelude.totalLength) = .error error) := by
  unfold decode at h
  split at h
  · cases h
  · next prelude hr =>
    refine ⟨prelude, hr, ?_⟩
    split at h
    · next he =>
      cases h
      exact Or.inl he
    · simp only at h
      split at h
      · cases h
      · split at h
        · next hm =>
          cases h
          exact Or.inr (Or.inl hm)
        · cases hw : ofWire prelude (bytes.take prelude.totalLength) with
          | error e =>
            rw [hw] at h
            cases h
            exact Or.inr (Or.inr rfl)
          | ok f =>
            rw [hw] at h
            cases h

theorem Prelude.error?_declaredLength? {config : Config} {bytes : Bytes} {prelude : Prelude}
    {error : Error} (h : prelude.error? config bytes = some error) :
    error.declaredLength? = some prelude.totalLength := by
  unfold Prelude.error? at h
  split at h
  · cases h
    rfl
  · split at h
    · cases h
      rfl
    · simp only [Option.ite_none_right_eq_some, Option.ite_none_left_eq_some] at h
      obtain ⟨-, -, he⟩ := h
      cases he
      rfl

theorem messageError?_declaredLength? {config : Config} {total : Nat} {wire : Bytes}
    {error : Error} (h : messageError? config total wire = some error) :
    error.declaredLength? = some total := by
  simp only [messageError?, Option.ite_none_right_eq_some, Option.ite_none_left_eq_some] at h
  obtain ⟨-, -, he⟩ := h
  cases he
  rfl

theorem ofWire_error_declaredLength? {prelude : Prelude} {wire : Bytes} {error : Error}
    (h : ofWire prelude wire = .error error) :
    error.declaredLength? = some prelude.totalLength := by
  unfold ofWire at h
  simp only at h
  split at h
  · cases h
    rfl
  · cases h

theorem ofWire_totalLength {prelude : Prelude} {wire : Bytes} {frame : Frame}
    (h : ofWire prelude wire = .ok frame) : frame.totalLength = prelude.totalLength := by
  unfold ofWire at h
  simp only at h
  split at h
  · cases h
  · cases h
    rfl

theorem decode_frame_totalLength {config : Config} {bytes : Bytes} {frame : Frame}
    (h : decode config bytes = .ok (some frame)) : frame.totalLength = declaredLength bytes := by
  obtain ⟨prelude, hr, -, -, -, hw⟩ := decode_frame_inv h
  rw [ofWire_totalLength hw, Prelude.read?_totalLength hr]

theorem decode_error_declaredLength? {config : Config} {bytes : Bytes} {error : Error}
    (h : decode config bytes = .error error) :
    error.declaredLength? = some (declaredLength bytes) := by
  obtain ⟨prelude, hr, he | hm | hw⟩ := decode_error_inv h
  · rw [Prelude.error?_declaredLength? he, Prelude.read?_totalLength hr]
  · rw [messageError?_declaredLength? hm, Prelude.read?_totalLength hr]
  · rw [ofWire_error_declaredLength? hw, Prelude.read?_totalLength hr]

/-- An error of reading always tells how far to skip. -/
theorem decode_error_resyncLength? {config : Config} {bytes : Bytes} {error : Error}
    (h : decode config bytes = .error error) :
    error.resyncLength? = some (max (declaredLength bytes) preludeLength) := by
  rw [Error.resyncLength?, decode_error_declaredLength? h]
  rfl

/-- Errors of writing do not arise from reading. -/
theorem decode_error_ne {config : Config} {bytes : Bytes} {error : Error}
    (h : decode config bytes = .error error) :
    (∀ size, error ≠ .encodeTooLarge size) ∧ ∀ cause, error ≠ .oversize cause := by
  have hdeclared := decode_error_declaredLength? h
  constructor
  · rintro size rfl
    cases hdeclared
  · rintro cause rfl
    cases hdeclared

end EventStream.Frame
