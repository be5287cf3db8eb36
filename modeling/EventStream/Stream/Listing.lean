import EventStream.Frame.Wire

/-!
A listing of the frames in a byte string, without a look at what they mean: each frame or frame
error with its offset, and how many bytes of an unfinished frame are left over.
-/

set_option autoImplicit false

namespace EventStream.Stream

inductive Entry where
  | frame (frame : Frame)
  /-- A damaged frame, and the bytes skipped for it. -/
  | error (error : Frame.Error) (skipped : Nat)
  deriving DecidableEq

def Entry.size : Entry → Nat
  | .frame f => f.totalLength
  | .error _ n => n

def Entry.isFrame : Entry → Bool
  | .frame _ => true
  | .error _ _ => false

/-- The entry at the front of a byte string; none while bytes of it are missing. -/
def Entry.first? (config : Frame.Config) (bytes : Bytes) : Option Entry :=
  match Frame.decode config bytes with
  | .ok none => none
  | .ok (some f) => some (.frame f)
  | .error e => some (.error e (min (e.resyncLength?.getD bytes.length) bytes.length))

theorem Entry.first?_size {config : Frame.Config} {bytes : Bytes} {entry : Entry}
    (h : Entry.first? config bytes = some entry) :
    0 < entry.size ∧ entry.size ≤ bytes.length := by
  unfold Entry.first? at h
  split at h
  · cases h
  · next hd =>
    cases h
    have := Frame.decode_frame_length hd
    simp only [Frame.overhead, Frame.preludeLength, Entry.size] at this ⊢
    omega
  · next error hd =>
    cases h
    have h₁ := Frame.decode_error_length hd
    have h₂ := Frame.Error.resyncLength_pos error
    cases hr : error.resyncLength? with
    | none =>
      simp only [Frame.preludeLength, Entry.size, Option.getD_none] at h₁ ⊢
      omega
    | some n =>
      simp only [Frame.preludeLength, Entry.size, hr, Option.getD_some] at h₁ h₂ ⊢
      omega

theorem Entry.first?_rest_length {config : Frame.Config} {bytes : Bytes} {entry : Entry}
    (h : Entry.first? config bytes = some entry) :
    bytes.length - entry.size < bytes.length := by
  have := Entry.first?_size h
  omega

/-- Entries with their offsets, and the bytes left over. -/
structure Listing where
  entries : List (Nat × Entry)
  trailing : Nat
  deriving DecidableEq

def Listing.isSound (listing : Listing) : Bool :=
  listing.trailing == 0 && listing.entries.all (·.2.isFrame)

def Listing.from (config : Frame.Config) (offset : Nat) (bytes : Bytes) : Listing :=
  match found : Entry.first? config bytes with
  | none => ⟨[], bytes.length⟩
  | some entry =>
    have : bytes.length - entry.size < bytes.length := Entry.first?_rest_length found
    let rest := Listing.from config (offset + entry.size) (bytes.drop entry.size)
    ⟨(offset, entry) :: rest.entries, rest.trailing⟩
termination_by bytes.length

def Listing.of (config : Frame.Config) (bytes : Bytes) : Listing :=
  Listing.from config 0 bytes

end EventStream.Stream
