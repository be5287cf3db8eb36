import EventStream.Bytes

/-!
The 32-bit cyclic redundancy check of the frame format: reflected polynomial `0xEDB88320`,
all ones before the first byte, complemented after the last.
-/

set_option autoImplicit false

namespace EventStream.Checksum

/-- Divides out one bit. -/
def bit (state : UInt32) : UInt32 :=
  if state &&& 1 = 1 then (state >>> 1) ^^^ 0xEDB88320 else state >>> 1

def update (state : UInt32) (b : UInt8) : UInt32 :=
  Nat.repeat bit 8 (state ^^^ b.toUInt32)

def run (state : UInt32) (bytes : Bytes) : UInt32 :=
  bytes.foldl update state

theorem run_append (state : UInt32) (a b : Bytes) : run state (a ++ b) = run (run state a) b :=
  List.foldl_append

end EventStream.Checksum

namespace EventStream

/-- The check value of a byte string. -/
def crc32 (bytes : Bytes) : UInt32 :=
  ~~~ Checksum.run 0xFFFFFFFF bytes

end EventStream
