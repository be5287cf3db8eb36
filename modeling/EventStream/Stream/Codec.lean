import EventStream.Stream.Segment
import EventStream.Stream.Transport

/-!
The codec takes items from the front of a buffer that its owner fills, and a whole stream is such
a buffer filled from a transport: items are taken out before each read, and what the end leaves is
looked at once more.
-/

set_option autoImplicit false

namespace EventStream.Stream

structure Codec where
  config : Frame.Config := {}
  /-- How many bytes at the front of the buffer are to be skipped. -/
  skip : Nat := 0
  deriving DecidableEq, Repr

namespace Codec

/-- Takes an item from the front of the buffer; none while more bytes are needed. -/
def decode (c : Codec) (buffer : Bytes) : Option Item × Codec × Bytes :=
  match step : segment c.config c.skip buffer with
  | none => (none, c, buffer)
  | some s =>
    have : buffer.length - s.consumed < buffer.length := segment_rest_length step
    match s.item with
    | some item => (some item, { c with skip := s.skip }, buffer.drop s.consumed)
    | none => decode { c with skip := s.skip } (buffer.drop s.consumed)
termination_by buffer.length

/-- Takes an item from the front of a buffer to which nothing will be added. Bytes that are no
item are an error, and are thrown away. -/
def decodeEnd (c : Codec) (buffer : Bytes) : Except Error (Option Item) × Codec × Bytes :=
  match c.decode buffer with
  | (some item, c, buffer) => (.ok (some item), c, buffer)
  | (none, c, buffer) =>
    let done := { c with skip := 0 }
    if buffer.isEmpty then (.ok none, done, [])
    else (.error (.truncated buffer.length (missingBytes c.skip buffer)), done, [])

def take : Nat → Codec → Bytes → List Item × Codec × Bytes
  | 0, c, buffer => ([], c, buffer)
  | limit + 1, c, buffer =>
    match c.decode buffer with
    | (none, c, buffer) => ([], c, buffer)
    | (some item, c, buffer) =>
      let (items, c, buffer) := take limit c buffer
      (item :: items, c, buffer)

def takeEnd : Nat → Codec → Bytes → List Item
  | 0, _, _ => []
  | limit + 1, c, buffer =>
    match c.decodeEnd buffer with
    | (.ok none, _, _) => []
    | (.ok (some item), c, buffer) => item :: takeEnd limit c buffer
    | (.error error, _, _) => [.error error]

/-- The items of what is in the buffer and will be delivered. A failure ends the stream. -/
def itemsFrom (c : Codec) (buffer : Bytes) : List Delivery → List Item
  | [] => c.takeEnd (buffer.length + 1) buffer
  | .failure error :: _ => [.error (.transport error.message)]
  | .data chunk :: rest =>
    let (items, c, buffer) := c.take (buffer.length + chunk.length + 1) (buffer ++ chunk)
    items ++ itemsFrom c buffer rest

end Codec

def items (config : Frame.Config) (deliveries : List Delivery) : List Item :=
  Codec.itemsFrom { config } [] deliveries

end EventStream.Stream
