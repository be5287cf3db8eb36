import EventStream.Stream.Segment

/-!
The assembler turns chunks of bytes into items. Chunks are fed in the order in which they arrive,
items are taken out, and at the end the stream is finished. The buffer keeps bytes that were
passed until enough of them have gathered.
-/

set_option autoImplicit false

namespace EventStream.Stream

namespace Assembler

structure Config where
  frame : Frame.Config := {}
  compactThreshold : Nat := 64 * 1024
  initialCapacity : Nat := 8 * 1024
  deriving DecidableEq, Repr

inductive State where
  | idle
  | receiving
  /-- The end has been announced, and whole frames are still to be taken out. -/
  | draining
  | closed
  deriving DecidableEq, Repr

structure Stats where
  bytesFed : Nat := 0
  framesDecoded : Nat := 0
  events : Nat := 0
  frameErrors : Nat := 0
  eventErrors : Nat := 0
  bytesSkipped : Nat := 0
  compactions : Nat := 0
  deriving DecidableEq, Repr

def Stats.count (stats : Stats) (s : Segment) : Stats :=
  match s.item with
  | none => { stats with bytesSkipped := stats.bytesSkipped + s.consumed }
  | some (.ok _) =>
    { stats with framesDecoded := stats.framesDecoded + 1, events := stats.events + 1 }
  | some (.error (.event _)) =>
    { stats with framesDecoded := stats.framesDecoded + 1, eventErrors := stats.eventErrors + 1 }
  | some (.error _) =>
    { stats with
      frameErrors := stats.frameErrors + 1
      bytesSkipped := stats.bytesSkipped + s.consumed }

end Assembler

structure Assembler where
  config : Assembler.Config := {}
  /-- Bytes that were fed, but for those dropped. -/
  buffer : Bytes := []
  cursor : Nat := 0
  /-- How many bytes behind the cursor are to be skipped. -/
  skip : Nat := 0
  state : Assembler.State := .idle
  stats : Assembler.Stats := {}
  deriving DecidableEq

namespace Assembler

def unread (a : Assembler) : Bytes :=
  a.buffer.drop a.cursor

def buffered (a : Assembler) : Nat :=
  a.unread.length

def compact (a : Assembler) : Assembler :=
  if a.cursor = 0 then a
  else
    { a with
      buffer := a.unread
      cursor := 0
      stats := { a.stats with compactions := a.stats.compactions + 1 } }

/-- Drops the passed bytes if they are all there are, or many and at least half. -/
def settle (a : Assembler) : Assembler :=
  let all := a.cursor == a.buffer.length
  let many := a.config.compactThreshold ≤ a.cursor && a.buffer.length ≤ 2 * a.cursor
  if all || many then a.compact else a

/-- Takes in the next chunk, unless the end has been announced. -/
def feed (a : Assembler) (chunk : Bytes) : Except Error Assembler :=
  if a.state = .draining ∨ a.state = .closed then .error .closed
  else
    let a := a.settle
    .ok { a with
      state := .receiving
      buffer := a.buffer ++ chunk
      stats := { a.stats with bytesFed := a.stats.bytesFed + chunk.length } }

def advance (a : Assembler) (s : Segment) : Assembler :=
  { a with cursor := a.cursor + s.consumed, skip := s.skip, stats := a.stats.count s }

theorem advance_unread_length {a : Assembler} {s : Segment}
    (h : segment a.config.frame a.skip a.unread = some s) :
    (a.advance s).unread.length < a.unread.length := by
  have hs := segment_consumed h
  simp only [advance, unread, List.length_drop] at hs ⊢
  omega

/-- Takes out the next item; none while more bytes are needed. -/
def next (a : Assembler) : Option Item × Assembler :=
  if a.state = .closed then (none, a)
  else match step : segment a.config.frame a.skip a.unread with
    | none => (none, a)
    | some s =>
      have : (a.advance s).unread.length < a.unread.length := advance_unread_length step
      match s.item with
      | some item => (some item, a.advance s)
      | none => (a.advance s).next
termination_by a.unread.length

def take : Nat → Assembler → List Item × Assembler
  | 0, a => ([], a)
  | limit + 1, a =>
    match a.next with
    | (none, a) => ([], a)
    | (some item, a) =>
      let (items, a) := take limit a
      (item :: items, a)

def drainSome (limit : Nat) (a : Assembler) : List Item × Assembler :=
  let (items, a) := a.take limit
  (items, a.settle)

/-- Takes out all items, and then drops passed bytes. Every item takes up bytes, so their number
bounds that of the items. -/
def drain (a : Assembler) : List Item × Assembler :=
  a.drainSome (a.buffered + 1)

def close (a : Assembler) : Assembler :=
  { a with state := .closed, buffer := [], cursor := 0, skip := 0 }

/-- Whether the unread bytes hold more than the beginning of a frame. -/
def isPending (a : Assembler) : Bool :=
  if 0 < a.skip then !a.unread.isEmpty
  else match Frame.decode a.config.frame a.unread with
    | .ok none => false
    | _ => true

/-- Announces the end of the stream. If no item is left to be taken out, the assembler closes, and
bytes that remain are an error; otherwise it waits for the items to be taken out. -/
def finish (a : Assembler) : Except Error Unit × Assembler :=
  if a.state = .closed then (.error .closed, a)
  else
    let a := { a with state := .draining }
    if a.unread.isEmpty then (.ok (), a.close)
    else if a.isPending then (.error (.undrained a.buffered), a)
    else (.error (.truncated a.buffered (missingBytes a.skip a.unread)), a.close)

end Assembler

end EventStream.Stream
