import EventStream.Guarded.Frame
import EventStream.Stream.Codec
import EventStream.Stream.Reader

/-!
Assemblers, codecs and readers with every access guarded. A step is taken only if it gets ahead and
stays within the bytes that are there.
-/

set_option autoImplicit false

namespace EventStream.Stream

namespace Guarded

def segment (config : Frame.Config) (skip : Nat) (bytes : Bytes) : Guarded (Option Segment) := do
  if 0 < skip then
    if bytes.isEmpty then return none
    else
      let consumed := min skip bytes.length
      return some ⟨consumed, ← Guarded.sub skip consumed, none⟩
  else match ← Frame.Guarded.decode config bytes with
    | .ok none => return none
    | .ok (some frame) => return some ⟨frame.totalLength, 0, some (itemOf frame)⟩
    | .error error =>
      let length := error.resyncLength?.getD Frame.preludeLength
      let consumed := min length bytes.length
      return some ⟨consumed, ← Guarded.sub length consumed, some (.error (.frame error))⟩

/-- Where there is a prelude, a difference below zero counts as zero. -/
def missingBytes (skip : Nat) (bytes : Bytes) : Guarded Nat := do
  if 0 < skip then return skip
  else match ← Frame.Guarded.prelude? bytes with
    | some prelude => return prelude.totalLength - bytes.length
    | none => Guarded.sub Frame.preludeLength bytes.length

end Guarded

namespace Assembler.Guarded

def unread (a : Assembler) : Guarded Bytes :=
  Guarded.slice a.cursor a.buffer.length a.buffer

def buffered (a : Assembler) : Guarded Nat :=
  Guarded.sub a.buffer.length a.cursor

def compact (a : Assembler) : Guarded Assembler := do
  if a.cursor = 0 then return a
  else
    let unread ← unread a
    return { a with
      buffer := unread
      cursor := 0
      stats := { a.stats with compactions := a.stats.compactions + 1 } }

def settle (a : Assembler) : Guarded Assembler :=
  let all := a.cursor == a.buffer.length
  let many := a.config.compactThreshold ≤ a.cursor && a.buffer.length ≤ 2 * a.cursor
  if all || many then compact a else return a

def feed (a : Assembler) (chunk : Bytes) : Guarded (Except Error Assembler) := do
  if a.state = .draining ∨ a.state = .closed then return .error .closed
  else
    let a ← settle a
    return .ok { a with
      state := .receiving
      buffer := a.buffer ++ chunk
      stats := { a.stats with bytesFed := a.stats.bytesFed + chunk.length } }

def next (a : Assembler) : Guarded (Option Item × Assembler) := do
  if a.state = .closed then return (none, a)
  else
    match ← Guarded.segment a.config.frame a.skip (← unread a) with
    | none => return (none, a)
    | some s =>
      if _h : 0 < s.consumed ∧ a.cursor + s.consumed ≤ a.buffer.length then
        match s.item with
        | some item => return (some item, a.advance s)
        | none => next (a.advance s)
      else throw (.step a.cursor (a.cursor + s.consumed) a.buffer.length)
termination_by a.buffer.length - a.cursor
decreasing_by
  simp only [advance]
  omega

def take : Nat → Assembler → Guarded (List Item × Assembler)
  | 0, a => return ([], a)
  | limit + 1, a => do
    match ← next a with
    | (none, a) => return ([], a)
    | (some item, a) =>
      let (items, a) ← take limit a
      return (item :: items, a)

def drainSome (limit : Nat) (a : Assembler) : Guarded (List Item × Assembler) := do
  let (items, a) ← take limit a
  return (items, ← settle a)

def isPending (a : Assembler) (remaining : Bytes) : Guarded Bool := do
  if 0 < a.skip then return !remaining.isEmpty
  else match ← Frame.Guarded.decode a.config.frame remaining with
    | .ok none => return false
    | _ => return true

def finish (a : Assembler) : Guarded (Except Error Unit × Assembler) := do
  if a.state = .closed then return (.error .closed, a)
  else
    let a := { a with state := .draining }
    let remaining ← unread a
    if remaining.isEmpty then return (.ok (), a.close)
    else if ← isPending a remaining then return (.error (.undrained remaining.length), a)
    else
      let missing ← Guarded.missingBytes a.skip remaining
      return (.error (.truncated remaining.length missing), a.close)

end Assembler.Guarded

namespace Codec.Guarded

def decode (c : Codec) (buffer : Bytes) : Guarded (Option Item × Codec × Bytes) := do
  match ← Guarded.segment c.config c.skip buffer with
  | none => return (none, c, buffer)
  | some s =>
    if _h : 0 < s.consumed ∧ s.consumed ≤ buffer.length then
      match s.item with
      | some item => return (some item, { c with skip := s.skip }, buffer.drop s.consumed)
      | none => decode { c with skip := s.skip } (buffer.drop s.consumed)
    else throw (.step 0 s.consumed buffer.length)
termination_by buffer.length
decreasing_by
  rw [List.length_drop]
  omega

def decodeEnd (c : Codec) (buffer : Bytes) :
    Guarded (Except Error (Option Item) × Codec × Bytes) := do
  match ← decode c buffer with
  | (some item, c, buffer) => return (.ok (some item), c, buffer)
  | (none, c, buffer) =>
    let done := { c with skip := 0 }
    if buffer.isEmpty then return (.ok none, done, [])
    else
      let missing ← Guarded.missingBytes c.skip buffer
      return (.error (.truncated buffer.length missing), done, [])

end Codec.Guarded

namespace Reader.Guarded

/-- Takes bytes that a transport has put into a room. -/
def within (room : Nat) (chunk : Bytes) : Guarded Bytes :=
  if chunk.length ≤ room then return chunk else throw (.copy room chunk.length)

def conclude (r : Reader) : Guarded (Option Item × Reader) := do
  match ← Assembler.Guarded.finish r.assembler with
  | (.ok (), a) => return (none, { r with assembler := a, isDone := true })
  | (.error error, a) =>
    return (some (.error error), { r with assembler := a, isDone := true })

def next (r : Reader) : Guarded (Option Item × Reader) := do
  if r.isDone then return (none, r)
  else match ← Assembler.Guarded.drainSome 1 r.assembler with
    | (item :: _, a) => return (some item, { r with assembler := a })
    | ([], a) =>
      match got : r.fetch.1 with
      | .error error =>
        have : r.fetch.2.size < r.source.size := Transport.read_error_size got
        let r₁ := { r with assembler := a, source := r.fetch.2 }
        if error.kind = .interrupted then next r₁
        else return (some (.error (.transport error.message)), { r₁ with isDone := true })
      | .ok [] => conclude { r with assembler := a, source := r.fetch.2 }
      | .ok (b :: chunk) =>
        have : r.fetch.2.size < r.source.size :=
          Transport.read_ok_size got (List.cons_ne_nil b chunk)
        let received ← within (max r.chunkSize 1) (b :: chunk)
        match ← Assembler.Guarded.feed a received with
        | .error error =>
          return (some (.error error),
            { r with assembler := a, source := r.fetch.2, isDone := true })
        | .ok a => next { r with assembler := a, source := r.fetch.2 }
termination_by r.source.size

end Reader.Guarded

end EventStream.Stream
