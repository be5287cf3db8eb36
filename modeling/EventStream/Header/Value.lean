import EventStream.Text.Utf8

/-!
Typed header values: their wire tags, the size of their encoding, and their display text.
-/

set_option autoImplicit false

namespace EventStream.Header

structure Uuid where
  bytes : Bytes
  length_eq : bytes.length = 16
  deriving DecidableEq, Repr

inductive Value where
  | bool (value : Bool)
  | byte (value : Int8)
  | short (value : Int16)
  | int (value : Int32)
  | long (value : Int64)
  | bytes (value : Bytes)
  | string (value : String)
  /-- Milliseconds since 1970. -/
  | timestamp (value : Int64)
  | uuid (value : Uuid)
  deriving DecidableEq, Repr

namespace Value

/-- The byte that tells the type on the wire. The two truth values have a tag each. -/
def tag : Value → UInt8
  | .bool true => 0
  | .bool false => 1
  | .byte _ => 2
  | .short _ => 3
  | .int _ => 4
  | .long _ => 5
  | .bytes _ => 6
  | .string _ => 7
  | .timestamp _ => 8
  | .uuid _ => 9

def asString? : Value → Option String
  | .string s => some s
  | _ => none

/-- Bytes on the wire after the tag. Byte arrays and strings carry a two-byte count. -/
def encodedLength : Value → Nat
  | .bool _ => 0
  | .byte _ => 1
  | .short _ => 2
  | .int _ => 4
  | .long _ => 8
  | .bytes b => 2 + b.length
  | .string s => 2 + s.utf8ByteSize
  | .timestamp _ => 8
  | .uuid _ => 16

end Value

/-- Hexadecimal digits in groups of 8, 4, 4, 4 and 12. -/
def Uuid.display (id : Uuid) : String :=
  let part (start count : Nat) := hex ((id.bytes.drop start).take count)
  "-".intercalate [part 0 4, part 4 2, part 6 2, part 8 2, part 10 6]

namespace Value

def display : Value → String
  | .bool true => "true"
  | .bool false => "false"
  | .byte v => toString v.toInt
  | .short v => toString v.toInt
  | .int v => toString v.toInt
  | .long v => toString v.toInt
  | .bytes b => s!"<{b.length} bytes>"
  | .string s => s
  | .timestamp v => s!"{v.toInt}ms"
  | .uuid id => id.display

end Value

end EventStream.Header
