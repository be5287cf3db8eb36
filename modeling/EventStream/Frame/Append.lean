import EventStream.Frame.Wire

/-!
Appending a frame to a buffer in use, field by field. The header block is gathered apart, so that a
block that breaks off leaves nothing in the buffer, and both checksums are taken of what was
appended since the frame began.
-/

set_option autoImplicit false

namespace EventStream.Frame

/-- Appends to a buffer. What was appended before a failure would stay. -/
abbrev Writer := EStateM Error Bytes

namespace Writer

def put (bytes : Bytes) : Writer Unit :=
  modify (· ++ bytes)

def word (n : Nat) : Writer Unit :=
  put (bigEndian 4 n)

/-- Appends the check value of the bytes from an offset up to, not including, another. -/
def checksum (start stop : Nat) : Writer Unit := do
  word (crc32 (slice start stop (← get))).toNat

end Writer

def append (headers : Headers) (payload : Bytes) : Writer Unit := do
  let block := headers.write
  match block.fault with
  | some cause => throw (.oversize cause)
  | none =>
    let size := overhead + block.bytes.length + payload.length
    if lengthLimit < size then throw (.encodeTooLarge size)
    else
      let start := (← get).length
      Writer.word size
      Writer.word block.bytes.length
      Writer.checksum start (start + 8)
      Writer.put block.bytes
      Writer.put payload
      Writer.checksum start (← get).length

end EventStream.Frame
