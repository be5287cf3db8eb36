import EventStream.Header.Block

/-!
What can be wrong with a frame. Each error has one text, a short label, and, where it arose from
reading, the distance to the place where the next frame is expected.
-/

set_option autoImplicit false

namespace EventStream.Frame

def preludeLength : Nat := 12

def checksumLength : Nat := 4

def overhead : Nat := preludeLength + checksumLength

def lengthLimit : Nat := 0xFFFFFFFF

inductive Checked where
  | prelude
  | message
  deriving DecidableEq, Repr

def Checked.name : Checked → String
  | .prelude => "prelude"
  | .message => "message"

inductive Error where
  | lengthMismatch (total headers : Nat)
  | tooLarge (total max : Nat)
  /-- The header block could not be read to its end; `found` was read before the fault. -/
  | headerTruncated (total : Nat) (fault : Header.Fault) (found : Headers)
  | checksumMismatch (total : Nat) (part : Checked) (expected actual : UInt32)
  | encodeTooLarge (size : Nat)
  | oversize (cause : Header.Oversize)
  deriving DecidableEq

def hexWord (word : UInt32) : String :=
  "0x" ++ hex (bigEndian 4 word.toNat)

namespace Error

def message : Error → String
  | .lengthMismatch total headers =>
    s!"inconsistent frame lengths (total {total}, headers {headers})"
  | .tooLarge total max => s!"frame too large ({total} bytes, max {max})"
  | .headerTruncated _ fault _ => s!"malformed header block: {fault.message}"
  | .checksumMismatch _ part expected actual =>
    s!"{part.name} checksum mismatch (expected {hexWord expected}, computed {hexWord actual})"
  | .encodeTooLarge size => s!"frame too large to encode ({size} bytes)"
  | .oversize cause => cause.message

def label : Error → String
  | .lengthMismatch .. => "frame_integrity"
  | .tooLarge .. => "frame_integrity"
  | .headerTruncated .. => "header_truncation"
  | .checksumMismatch .. => "checksum_mismatch"
  | .encodeTooLarge .. => "encode"
  | .oversize .. => "encode"

def declaredLength? : Error → Option Nat
  | .lengthMismatch total _ => some total
  | .tooLarge total _ => some total
  | .headerTruncated total _ _ => some total
  | .checksumMismatch total _ _ _ => some total
  | .encodeTooLarge _ => none
  | .oversize _ => none

/-- Bytes from the start of the failed frame to where the next one is expected. It is at least a
prelude, so that a reader gets ahead whatever length was declared. -/
def resyncLength? (error : Error) : Option Nat :=
  error.declaredLength?.map (max · preludeLength)

theorem resyncLength_pos (error : Error) : 0 < error.resyncLength?.getD preludeLength := by
  cases error <;>
    simp only [resyncLength?, declaredLength?, preludeLength, Option.map_some, Option.map_none,
      Option.getD_some, Option.getD_none] <;>
    omega

end Error

end EventStream.Frame
