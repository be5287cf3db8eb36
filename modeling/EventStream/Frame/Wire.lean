import EventStream.Checksum
import EventStream.Frame.Error

/-!
Frames on the wire: a prelude of two lengths and their checksum, the header block, the payload,
and a checksum of all that. Reading answers with a frame, an error, or nothing while bytes are
missing; a length field that cannot be right is reported as soon as the prelude is there.

Lengths are natural numbers here. On the wire they have 32 bits, and a machine is assumed to count
with words of 64 bits, so that what is added to a length never exceeds a word.
-/

set_option autoImplicit false

namespace EventStream

structure Frame where
  totalLength : Nat
  headersLength : Nat
  headers : Headers
  payload : Bytes
  deriving DecidableEq

namespace Frame

/-- A frame with the lengths that its contents ask for, as far as a length field can tell. -/
def ofContents (headers : Headers) (payload : Bytes) : Frame where
  totalLength := min (overhead + headers.encodedLength + payload.length) lengthLimit
  headersLength := min headers.encodedLength lengthLimit
  headers := headers
  payload := payload

structure Config where
  verifyChecksums : Bool := false
  maxLength : Nat := 16 * 1024 * 1024
  deriving DecidableEq, Repr

def Config.strict : Config := { verifyChecksums := true }

structure Prelude where
  totalLength : Nat
  headersLength : Nat
  checksum : UInt32
  deriving DecidableEq, Repr

def Prelude.read? (bytes : Bytes) : Option Prelude :=
  if (bytes.take preludeLength).length = preludeLength then
    some {
      totalLength := ofBigEndian (slice 0 4 bytes)
      headersLength := ofBigEndian (slice 4 8 bytes)
      checksum := UInt32.ofNat (ofBigEndian (slice 8 12 bytes)) }
  else none

/-- The payload length that the two length fields leave, if they agree. The sum is one of 64 bits
and never too large for a word, since the field has 32 bits only. -/
def Prelude.payloadLength? (prelude : Prelude) : Option Nat :=
  if prelude.headersLength + overhead ≤ prelude.totalLength then
    some (prelude.totalLength - (prelude.headersLength + overhead))
  else none

/-- What the prelude alone tells to be wrong. The lengths come first, so a damaged length is
reported as such even where checksums are compared. -/
def Prelude.error? (config : Config) (bytes : Bytes) (prelude : Prelude) : Option Error :=
  if prelude.payloadLength?.isNone then
    some (.lengthMismatch prelude.totalLength prelude.headersLength)
  else if config.maxLength < prelude.totalLength then
    some (.tooLarge prelude.totalLength config.maxLength)
  else if config.verifyChecksums then
    let actual := crc32 (slice 0 8 bytes)
    if actual = prelude.checksum then none
    else some (.checksumMismatch prelude.totalLength .prelude prelude.checksum actual)
  else none

def messageError? (config : Config) (total : Nat) (wire : Bytes) : Option Error :=
  if config.verifyChecksums then
    let expected := UInt32.ofNat (ofBigEndian (slice (total - checksumLength) total wire))
    let actual := crc32 (slice 0 (total - checksumLength) wire)
    if actual = expected then none
    else some (.checksumMismatch total .message expected actual)
  else none

def ofWire (prelude : Prelude) (wire : Bytes) : Except Error Frame :=
  let total := prelude.totalLength
  let headersEnd := preludeLength + prelude.headersLength
  let block := Header.Block.parse (slice preludeLength headersEnd wire)
  match block.fault with
  | some fault => .error (.headerTruncated total fault block.headers)
  | none => .ok {
      totalLength := total
      headersLength := prelude.headersLength
      headers := block.headers
      payload := slice headersEnd (total - checksumLength) wire }

/-- Reads the frame at the start of the bytes; none while bytes of it are missing. -/
def decode (config : Config) (bytes : Bytes) : Except Error (Option Frame) :=
  match Prelude.read? bytes with
  | none => .ok none
  | some prelude =>
    match prelude.error? config bytes with
    | some error => .error error
    | none =>
      let wire := bytes.take prelude.totalLength
      if wire.length < prelude.totalLength then .ok none
      else match messageError? config prelude.totalLength wire with
        | some error => .error error
        | none => (ofWire prelude wire).map some

theorem Prelude.read?_length {bytes : Bytes} {prelude : Prelude}
    (h : Prelude.read? bytes = some prelude) : preludeLength ≤ bytes.length := by
  unfold Prelude.read? at h
  split at h
  · next hl =>
    rw [List.length_take] at hl
    omega
  · cases h

theorem Prelude.overhead_le {config : Config} {bytes : Bytes} {prelude : Prelude}
    (h : prelude.error? config bytes = none) :
    prelude.headersLength + overhead ≤ prelude.totalLength := by
  by_cases hl : prelude.headersLength + overhead ≤ prelude.totalLength
  · exact hl
  · simp [Prelude.error?, Prelude.payloadLength?, hl] at h

theorem decode_frame_length {config : Config} {bytes : Bytes} {frame : Frame}
    (h : decode config bytes = .ok (some frame)) :
    overhead ≤ frame.totalLength ∧ frame.totalLength ≤ bytes.length := by
  unfold decode at h
  split at h
  · cases h
  · next prelude _ =>
    split at h
    · cases h
    · next herr =>
      have := Prelude.overhead_le herr
      simp only at h
      split at h
      · cases h
      · next hlen =>
        rw [List.length_take] at hlen
        split at h
        · cases h
        · unfold ofWire at h
          simp only at h
          split at h
          · cases h
          · cases h
            simp only
            omega

theorem decode_error_length {config : Config} {bytes : Bytes} {error : Error}
    (h : decode config bytes = .error error) : preludeLength ≤ bytes.length := by
  unfold decode at h
  split at h
  · cases h
  · next hp => exact Prelude.read?_length hp

def wire (block payload : Bytes) : Bytes :=
  let total := overhead + block.length + payload.length
  let lengths := bigEndian 4 total ++ bigEndian 4 block.length
  let checked := lengths ++ bigEndian 4 (crc32 lengths).toNat ++ block ++ payload
  checked ++ bigEndian 4 (crc32 checked).toNat

/-- Appends a frame to what was written before. Nothing is appended if any part is too long. -/
def encode (headers : Headers) (payload before : Bytes) : Except Error Bytes :=
  let block := headers.write
  match block.fault with
  | some cause => .error (.oversize cause)
  | none =>
    let size := overhead + block.bytes.length + payload.length
    if size ≤ lengthLimit then .ok (before ++ wire block.bytes payload)
    else .error (.encodeTooLarge size)

end Frame

end EventStream
