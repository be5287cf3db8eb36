import EventStream.Stream.Item

/-!
One step over the bytes of a stream. A step passes a frame, passes a damaged frame as far as it is
there, or passes bytes that a damaged frame left to be skipped. Every step passes at least one
byte and never more than there are.
-/

set_option autoImplicit false

namespace EventStream.Stream

structure Segment where
  consumed : Nat
  /-- Bytes that are still to be skipped behind them. -/
  skip : Nat
  item : Option Item

def itemOf (frame : Frame) : Item :=
  (classify frame).mapError .event

theorem itemOf_eq (frame : Frame) : itemOf frame = (classify frame).mapError .event := rfl

/-- The next step over `bytes`, of which the first `skip` are to be skipped. None while more bytes
are needed. -/
def segment (config : Frame.Config) (skip : Nat) (bytes : Bytes) : Option Segment :=
  if 0 < skip then
    if bytes.isEmpty then none
    else
      let consumed := min skip bytes.length
      some ⟨consumed, skip - consumed, none⟩
  else match Frame.decode config bytes with
    | .ok none => none
    | .ok (some frame) => some ⟨frame.totalLength, 0, some (itemOf frame)⟩
    | .error error =>
      let length := error.resyncLength?.getD Frame.preludeLength
      let consumed := min length bytes.length
      some ⟨consumed, length - consumed, some (.error (.frame error))⟩

/-- The bytes that would complete what `bytes` begins. -/
def missingBytes (skip : Nat) (bytes : Bytes) : Nat :=
  if 0 < skip then skip
  else match Frame.Prelude.read? bytes with
    | some prelude => prelude.totalLength - bytes.length
    | none => Frame.preludeLength - bytes.length

theorem segment_consumed {config : Frame.Config} {skip : Nat} {bytes : Bytes} {s : Segment}
    (h : segment config skip bytes = some s) : 0 < s.consumed ∧ s.consumed ≤ bytes.length := by
  unfold segment at h
  split at h
  · split at h
    · cases h
    · next hs he =>
      cases h
      have : bytes.length ≠ 0 := fun hl => he (by simpa using hl)
      simp only
      omega
  · split at h
    · cases h
    · next hd =>
      cases h
      have := Frame.decode_frame_length hd
      simp only [Frame.overhead, Frame.preludeLength] at this ⊢
      omega
    · next error hd =>
      cases h
      have h₁ := Frame.decode_error_length hd
      have h₂ := Frame.Error.resyncLength_pos error
      simp only [Frame.preludeLength] at h₁ h₂ ⊢
      omega

theorem segment_rest_length {config : Frame.Config} {skip : Nat} {bytes : Bytes} {s : Segment}
    (h : segment config skip bytes = some s) :
    bytes.length - s.consumed < bytes.length := by
  have := segment_consumed h
  omega

end EventStream.Stream
