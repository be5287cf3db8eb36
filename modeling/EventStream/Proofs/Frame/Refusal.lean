import EventStream.Proofs.Frame.Extension

/-!
What a reader answers depends on its configuration only where it refuses a frame, for its length or
for a checksum. Any other answer is that of a lenient reader, which refuses nothing.
-/

set_option autoImplicit false

namespace EventStream.Frame

def Error.isRefusal : Error → Bool
  | .tooLarge .. => true
  | .checksumMismatch .. => true
  | _ => false

def Config.lenient (total : Nat) : Config where
  verifyChecksums := false
  maxLength := total

variable {config other : Config} {bytes : Bytes} {prelude : Prelude}

theorem Prelude.error?_lenient_or_refusal (config : Config) (bytes : Bytes) (prelude : Prelude) :
    prelude.error? config bytes = prelude.error? (.lenient prelude.totalLength) bytes ∨
      ∃ error, prelude.error? config bytes = some error ∧ error.isRefusal = true := by
  unfold Prelude.error?
  by_cases hlengths : prelude.payloadLength?.isNone = true
  · left
    rw [if_pos hlengths, if_pos hlengths]
  · -- A frame too long for the limit is refused before its checksum is looked at.
    rw [if_neg hlengths, if_neg hlengths]
    by_cases hlarge : config.maxLength < prelude.totalLength
    · right
      rw [if_pos hlarge]
      exact ⟨_, rfl, rfl⟩
    · have hadmitted : ¬ (Config.lenient prelude.totalLength).maxLength < prelude.totalLength :=
        Nat.lt_irrefl _
      rw [if_neg hlarge, if_neg hadmitted]
      by_cases hsum : crc32 (slice 0 8 bytes) = prelude.checksum
      · left
        simp only [hsum, if_true, ite_self]
      · by_cases hverify : config.verifyChecksums = true
        · right
          simp only [hverify, hsum, if_true, if_false]
          exact ⟨_, rfl, rfl⟩
        · left
          rw [if_neg hverify]
          rfl

theorem messageError?_none_or_refusal (config : Config) (total : Nat) (wire : Bytes) :
    messageError? config total wire = none ∨
      ∃ error, messageError? config total wire = some error ∧ error.isRefusal = true := by
  cases he : messageError? config total wire with
  | none => exact Or.inl rfl
  | some error =>
    refine Or.inr ⟨error, rfl, ?_⟩
    simp only [messageError?, Option.ite_none_right_eq_some, Option.ite_none_left_eq_some] at he
    obtain ⟨-, -, he⟩ := he
    cases he
    rfl

/-- Unless it refuses, a reader answers as a lenient one does. -/
theorem decode_lenient_or_refusal (config : Config) (bytes : Bytes) :
    decode config bytes = decode (.lenient (declaredLength bytes)) bytes ∨
      ∃ error, decode config bytes = .error error ∧ error.isRefusal = true := by
  cases hread : Prelude.read? bytes with
  | none =>
    left
    rw [decode, decode, hread]
  | some prelude =>
    rw [← Prelude.read?_totalLength hread]
    obtain hsame | ⟨error, herror, hrefusal⟩ := prelude.error?_lenient_or_refusal config bytes
    · cases hsound : prelude.error? config bytes with
      | some error =>
        left
        rw [decode_of_prelude_error hread hsound, decode_of_prelude_error hread (hsame ▸ hsound)]
      | none =>
        by_cases hl : bytes.length < prelude.totalLength
        · left
          rw [decode_of_unfinished hread hsound hl, decode_of_unfinished hread (hsame ▸ hsound) hl]
        · rw [decode_of_whole hread hsound (Nat.not_lt.1 hl),
            decode_of_whole hread (hsame ▸ hsound) (Nat.not_lt.1 hl)]
          obtain hnone | ⟨error, herror, hrefusal⟩ := messageError?_none_or_refusal config
            prelude.totalLength (bytes.take prelude.totalLength)
          · left
            rw [hnone]
            rfl
          · right
            rw [herror]
            exact ⟨error, rfl, hrefusal⟩
    · right
      exact ⟨error, decode_of_prelude_error hread herror, hrefusal⟩

/-- Two readers of the same bytes give the same answer, or one of them refuses. -/
theorem decode_agree_or_refusal (config other : Config) (bytes : Bytes) :
    decode config bytes = decode other bytes ∨
      (∃ error, decode config bytes = .error error ∧ error.isRefusal = true) ∨
      ∃ error, decode other bytes = .error error ∧ error.isRefusal = true := by
  obtain hconfig | hrefusal := decode_lenient_or_refusal config bytes
  · obtain hother | hrefusal := decode_lenient_or_refusal other bytes
    · exact Or.inl (hconfig.trans hother.symm)
    · exact Or.inr (Or.inr hrefusal)
  · exact Or.inr (Or.inl hrefusal)

end EventStream.Frame
