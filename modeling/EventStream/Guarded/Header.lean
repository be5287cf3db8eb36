import EventStream.Guarded.Access
import EventStream.Header.Block

/-!
Header blocks read by position, every access guarded. A scan holds the whole block and the position
that it has come to.
-/

set_option autoImplicit false

namespace EventStream.Header

/-- Reads from a position in a block, and moves it on. -/
abbrev Scan := ReaderT Bytes (StateT Nat (ExceptT Fault Guarded))

namespace Scan

def take (n : Nat) : Scan Bytes := do
  let block ← read
  let position ← get
  let available ← Guarded.sub block.length position
  if available < n then throw (Fault.truncated position n available)
  else
    let taken ← Guarded.slice position (position + n) block
    set (position + n)
    return taken

def array (room : Nat) : Scan { filled : Bytes // filled.length = room } := do
  Guarded.array room (← take room)

def number (width : Nat) : Scan Nat := do
  return ofBigEndian (← array width).val

def counted : Scan Bytes := do
  take (← number 2)

/-- Reads the value that follows a tag; `tagOffset` is where the tag stood. -/
def value (tagOffset : Nat) (tag : UInt8) : Scan Value :=
  match tag with
  | 0 => return .bool true
  | 1 => return .bool false
  | 2 => return .byte (UInt8.ofNat (← number 1)).toInt8
  | 3 => return .short (UInt16.ofNat (← number 2)).toInt16
  | 4 => return .int (UInt32.ofNat (← number 4)).toInt32
  | 5 => return .long (UInt64.ofNat (← number 8)).toInt64
  | 6 => return .bytes (← counted)
  | 7 => return .string (Utf8.decodeLossy (← counted))
  | 8 => return .timestamp (UInt64.ofNat (← number 8)).toInt64
  | 9 => do
    let id ← array 16
    return .uuid ⟨id.val, id.property⟩
  | tag => throw (Fault.unknownType tagOffset tag)

def name : Scan String := do
  let nameOffset ← get
  match Utf8.decode (← take (← number 1)) with
  | .ok name => return name
  | .error _ => throw (Fault.invalidName nameOffset)

def entry : Scan (String × Value) := do
  let name ← name
  let tagOffset ← get
  let tag ← number 1
  let value ← value tagOffset (UInt8.ofNat tag)
  return (name, value)

/-- The entries from a position on, behind those found so far, which are held in reverse. -/
def entriesFrom (block : Bytes) (found : List (String × Value)) (position : Nat) :
    Guarded (List (String × Value) × Option Fault) := do
  if _hend : block.length ≤ position then return (found.reverse, none)
  else
    match ← entry block position with
    | .error fault => return (found.reverse, some fault)
    | .ok (entry, next) =>
      if _hnext : position < next then entriesFrom block (entry :: found) next
      else throw (.step position next block.length)
termination_by block.length - position

def parse (block : Bytes) : Guarded Block := do
  let (entries, fault) ← entriesFrom block [] 0
  return ⟨Headers.ofList entries, fault⟩

end Scan

end EventStream.Header
