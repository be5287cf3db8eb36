import EventStream.Header.Headers

/-!
Header blocks on the wire. An entry is a length byte and a name, a type tag, and a value laid out
as its type asks. Reading keeps what it has read before a fault; writing stops at the first entry
that does not fit its length field.
-/

set_option autoImplicit false

namespace EventStream.Header

/-- Why reading a block stopped. Offsets count from the start of the block. -/
inductive Fault where
  | truncated (offset needed available : Nat)
  | unknownType (offset : Nat) (tag : UInt8)
  | invalidName (offset : Nat)
  deriving DecidableEq, Repr

def Fault.message : Fault → String
  | .truncated offset needed available =>
    s!"header block truncated at offset {offset} (needed {needed} bytes, {available} available)"
  | .unknownType offset tag => s!"unknown header value type {tag.toNat} at offset {offset}"
  | .invalidName offset => s!"header name at offset {offset} is not valid UTF-8"

structure Cursor where
  offset : Nat
  rest : Bytes

namespace Cursor

def take (n : Nat) (c : Cursor) : Except Fault (Bytes × Cursor) :=
  let taken := c.rest.take n
  if taken.length = n then .ok (taken, ⟨c.offset + n, c.rest.drop n⟩)
  else .error (.truncated c.offset n c.rest.length)

def number (width : Nat) (c : Cursor) : Except Fault (Nat × Cursor) := do
  let (digits, c) ← c.take width
  return (ofBigEndian digits, c)

def counted (c : Cursor) : Except Fault (Bytes × Cursor) := do
  let (n, c) ← c.number 2
  c.take n

def uuid (c : Cursor) : Except Fault (Uuid × Cursor) :=
  let taken := c.rest.take 16
  if h : taken.length = 16 then .ok (⟨taken, h⟩, ⟨c.offset + 16, c.rest.drop 16⟩)
  else .error (.truncated c.offset 16 c.rest.length)

end Cursor

/-- Reads the value that follows a tag; `tagOffset` is where the tag stood. -/
def readValue (tagOffset : Nat) (tag : UInt8) (c : Cursor) : Except Fault (Value × Cursor) :=
  match tag with
  | 0 => .ok (.bool true, c)
  | 1 => .ok (.bool false, c)
  | 2 => do
    let (n, c) ← c.number 1
    return (.byte (UInt8.ofNat n).toInt8, c)
  | 3 => do
    let (n, c) ← c.number 2
    return (.short (UInt16.ofNat n).toInt16, c)
  | 4 => do
    let (n, c) ← c.number 4
    return (.int (UInt32.ofNat n).toInt32, c)
  | 5 => do
    let (n, c) ← c.number 8
    return (.long (UInt64.ofNat n).toInt64, c)
  | 6 => do
    let (bytes, c) ← c.counted
    return (.bytes bytes, c)
  | 7 => do
    let (bytes, c) ← c.counted
    return (.string (Utf8.decodeLossy bytes), c)
  | 8 => do
    let (n, c) ← c.number 8
    return (.timestamp (UInt64.ofNat n).toInt64, c)
  | 9 => do
    let (id, c) ← c.uuid
    return (.uuid id, c)
  | tag => .error (.unknownType tagOffset tag)

def readName (c : Cursor) : Except Fault (String × Cursor) := do
  let (n, c₁) ← c.number 1
  let (raw, c₂) ← c₁.take n
  match Utf8.decode raw with
  | .ok name => return (name, c₂)
  | .error _ => throw (.invalidName c.offset)

def readEntry (c : Cursor) : Except Fault ((String × Value) × Cursor) := do
  let (name, c) ← readName c
  let (tag, c₁) ← c.number 1
  let (value, c₂) ← readValue c.offset (UInt8.ofNat tag) c₁
  return ((name, value), c₂)

theorem Cursor.take_ok {n : Nat} {c d : Cursor} {bytes : Bytes} (h : c.take n = .ok (bytes, d)) :
    d.rest.length + n = c.rest.length := by
  simp only [Cursor.take] at h
  split at h
  · next hl =>
    cases h
    simp only [List.length_take] at hl
    simp only [List.length_drop]
    omega
  · cases h

theorem Cursor.number_ok {width n : Nat} {c d : Cursor} (h : c.number width = .ok (n, d)) :
    d.rest.length + width = c.rest.length := by
  simp only [Cursor.number, bind, Except.bind] at h
  split at h
  · cases h
  · next heq =>
    cases h
    exact Cursor.take_ok heq

theorem Cursor.counted_ok {c d : Cursor} {bytes : Bytes} (h : c.counted = .ok (bytes, d)) :
    d.rest.length ≤ c.rest.length := by
  simp only [Cursor.counted, bind, Except.bind] at h
  split at h
  · cases h
  · next heq =>
    have h₁ := Cursor.number_ok heq
    have h₂ := Cursor.take_ok h
    omega

theorem Cursor.uuid_ok {c d : Cursor} {id : Uuid} (h : c.uuid = .ok (id, d)) :
    d.rest.length ≤ c.rest.length := by
  simp only [Cursor.uuid] at h
  split at h
  · cases h
    simp only [List.length_drop]
    omega
  · cases h

theorem readValue_ok {offset : Nat} {tag : UInt8} {c d : Cursor} {value : Value}
    (h : readValue offset tag c = .ok (value, d)) : d.rest.length ≤ c.rest.length := by
  unfold readValue at h
  split at h
  case h_1 | h_2 => cases h; exact Nat.le_refl _
  case h_11 => cases h
  all_goals
    simp only [bind, Except.bind] at h
    split at h
    · cases h
    · next heq =>
      cases h
      first
        | exact Nat.le_of_add_right_le (Nat.le_of_eq (Cursor.number_ok heq))
        | exact Cursor.counted_ok heq
        | exact Cursor.uuid_ok heq

theorem readName_ok {c d : Cursor} {name : String} (h : readName c = .ok (name, d)) :
    d.rest.length < c.rest.length := by
  simp only [readName, bind, Except.bind] at h
  split at h
  · cases h
  · next heq =>
    split at h
    · cases h
    · next heq₂ =>
      have h₁ := Cursor.number_ok heq
      have h₂ := Cursor.take_ok heq₂
      split at h
      · cases h
        omega
      · cases h

theorem readEntry_ok {c d : Cursor} {entry : String × Value} (h : readEntry c = .ok (entry, d)) :
    d.rest.length < c.rest.length := by
  simp only [readEntry, bind, Except.bind] at h
  split at h
  · cases h
  · next heq =>
    split at h
    · cases h
    · next heq₂ =>
      split at h
      · cases h
      · next heq₃ =>
        cases h
        have h₁ := readName_ok heq
        have h₂ := Cursor.number_ok heq₂
        have h₃ := readValue_ok heq₃
        omega

/-- The entries from the cursor on, behind those found so far, which are held in reverse. -/
def entriesFrom (found : List (String × Value)) (c : Cursor) :
    List (String × Value) × Option Fault :=
  if c.rest.isEmpty then (found.reverse, none)
  else match read : readEntry c with
    | .error fault => (found.reverse, some fault)
    | .ok (entry, next) =>
      have : next.rest.length < c.rest.length := readEntry_ok read
      entriesFrom (entry :: found) next
termination_by c.rest.length

/-- The entries of a block in wire order, up to the first fault. -/
def entries (block : Bytes) : List (String × Value) × Option Fault :=
  entriesFrom [] ⟨0, block⟩

structure Block where
  headers : Headers
  fault : Option Fault
  deriving DecidableEq

def Block.isComplete (block : Block) : Bool :=
  block.fault.isNone

/-- Reads a block. Of entries with one name the last counts. -/
def Block.parse (bytes : Bytes) : Block :=
  let (entries, fault) := Header.entries bytes
  ⟨Headers.ofList entries, fault⟩

inductive Oversize where
  | nameTooLong (name : String) (length : Nat)
  | valueTooLong (name : String) (length : Nat)
  deriving DecidableEq, Repr

def Oversize.message : Oversize → String
  | .nameTooLong name length => s!"header name too long ({length} bytes, max 255): {name}"
  | .valueTooLong name length => s!"header value for {name} too long ({length} bytes, max 65535)"

structure Written where
  bytes : Bytes
  fault : Option Oversize
  deriving DecidableEq, Repr

def writeCounted (name : String) (bytes : Bytes) : Written :=
  if bytes.length ≤ 65535 then ⟨bigEndian 2 bytes.length ++ bytes, none⟩
  else ⟨[], some (.valueTooLong name bytes.length)⟩

def writeValue (name : String) : Value → Written
  | .bool _ => ⟨[], none⟩
  | .byte v => ⟨bigEndian 1 v.toUInt8.toNat, none⟩
  | .short v => ⟨bigEndian 2 v.toUInt16.toNat, none⟩
  | .int v => ⟨bigEndian 4 v.toUInt32.toNat, none⟩
  | .long v => ⟨bigEndian 8 v.toUInt64.toNat, none⟩
  | .bytes b => writeCounted name b
  | .string s => writeCounted name (Utf8.encode s)
  | .timestamp v => ⟨bigEndian 8 v.toUInt64.toNat, none⟩
  | .uuid id => ⟨id.bytes, none⟩

def writeEntry (name : String) (value : Value) : Written :=
  let raw := Utf8.encode name
  if raw.length ≤ 255 then
    let body := writeValue name value
    ⟨bigEndian 1 raw.length ++ raw ++ [value.tag] ++ body.bytes, body.fault⟩
  else ⟨[], some (.nameTooLong name raw.length)⟩

/-- Writes entries up to the first that does not fit. -/
def writeEntries : List (String × Value) → Written
  | [] => ⟨[], none⟩
  | (name, value) :: rest =>
    let first := writeEntry name value
    match first.fault with
    | some _ => first
    | none =>
      let others := writeEntries rest
      ⟨first.bytes ++ others.bytes, others.fault⟩

end EventStream.Header

def EventStream.Headers.write (headers : EventStream.Headers) : EventStream.Header.Written :=
  EventStream.Header.writeEntries headers.entries
