import EventStream.Frame.Wire
import EventStream.Guarded.Header

/-!
The frame at the start of a byte string, read with every access guarded.
-/

set_option autoImplicit false

namespace EventStream.Frame.Guarded

def prelude? (bytes : Bytes) : Guarded (Option Prelude) := do
  if bytes.length < preludeLength then return none
  else
    let total ← Guarded.word (← Guarded.slice 0 4 bytes)
    let headers ← Guarded.word (← Guarded.slice 4 8 bytes)
    let checksum ← Guarded.word (← Guarded.slice 8 12 bytes)
    return some {
      totalLength := total
      headersLength := headers
      checksum := UInt32.ofNat checksum }

def payloadLength? (prelude : Prelude) : Guarded (Option Nat) := do
  -- the field has 32 bits, so that the sum is not too large for a word of 64
  if prelude.headersLength + overhead ≤ prelude.totalLength then
    return some (← Guarded.sub prelude.totalLength (prelude.headersLength + overhead))
  else return none

def preludeError? (config : Config) (bytes : Bytes) (prelude : Prelude) :
    Guarded (Option Error) := do
  if (← payloadLength? prelude).isNone then
    return some (.lengthMismatch prelude.totalLength prelude.headersLength)
  else if config.maxLength < prelude.totalLength then
    return some (.tooLarge prelude.totalLength config.maxLength)
  else if config.verifyChecksums then
    let actual := crc32 (← Guarded.slice 0 8 bytes)
    if actual = prelude.checksum then return none
    else return some (.checksumMismatch prelude.totalLength .prelude prelude.checksum actual)
  else return none

def messageError? (config : Config) (total : Nat) (wire : Bytes) : Guarded (Option Error) := do
  if config.verifyChecksums then
    let stop ← Guarded.sub total checksumLength
    let expected := UInt32.ofNat (← Guarded.word (← Guarded.slice stop wire.length wire))
    let actual := crc32 (← Guarded.slice 0 stop wire)
    if actual = expected then return none
    else return some (.checksumMismatch total .message expected actual)
  else return none

def ofWire (prelude : Prelude) (wire : Bytes) : Guarded (Except Error Frame) := do
  let total := prelude.totalLength
  let headersEnd := preludeLength + prelude.headersLength
  let block ← Header.Scan.parse (← Guarded.slice preludeLength headersEnd wire)
  match block.fault with
  | some fault => return .error (.headerTruncated total fault block.headers)
  | none =>
    let payload ← Guarded.slice headersEnd (← Guarded.sub total checksumLength) wire
    return .ok {
      totalLength := total
      headersLength := prelude.headersLength
      headers := block.headers
      payload := payload }

def decode (config : Config) (bytes : Bytes) : Guarded (Except Error (Option Frame)) := do
  match ← prelude? bytes with
  | none => return .ok none
  | some prelude =>
    match ← preludeError? config bytes prelude with
    | some error => return .error error
    | none =>
      let total := prelude.totalLength
      if bytes.length < total then return .ok none
      else
        let wire ← Guarded.slice 0 total bytes
        match ← messageError? config total wire with
        | some error => return .error error
        | none => return (← ofWire prelude wire).map some

end EventStream.Frame.Guarded
