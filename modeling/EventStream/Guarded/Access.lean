import EventStream.Bytes

/-!
Byte strings accessed by index, and numbers subtracted, with every index and every difference looked
at before it is used. What would be out of its range is a breach, which ends the computation.

Sums are not looked at. They are made of lengths of 32 bits and of lengths of byte strings that are
in memory, and words are assumed to have 64 bits, so that no sum exceeds a word.
-/

set_option autoImplicit false

namespace EventStream

inductive Breach where
  /-- A slice that ends before its start, or behind the end of the bytes. -/
  | slice (start stop length : Nat)
  /-- A difference below zero. -/
  | difference (minuend subtrahend : Nat)
  /-- A copy of bytes that do not fill the room for them, or do not fit into it. -/
  | copy (room length : Nat)
  /-- A step that does not get ahead, or gets behind the end of the bytes. -/
  | step (start stop length : Nat)
  deriving DecidableEq, Repr

abbrev Guarded := Except Breach

namespace Guarded

def slice (start stop : Nat) (bytes : Bytes) : Guarded Bytes :=
  if start ≤ stop ∧ stop ≤ bytes.length then .ok (EventStream.slice start stop bytes)
  else .error (.slice start stop bytes.length)

def sub (minuend subtrahend : Nat) : Guarded Nat :=
  if subtrahend ≤ minuend then .ok (minuend - subtrahend)
  else .error (.difference minuend subtrahend)

/-- Fills an array with bytes. -/
def array (room : Nat) (bytes : Bytes) : Guarded { filled : Bytes // filled.length = room } :=
  if h : bytes.length = room then .ok ⟨bytes, h⟩ else .error (.copy room bytes.length)

/-- The number in the first four bytes. -/
def word (bytes : Bytes) : Guarded Nat := do
  let raw ← array 4 (← slice 0 4 bytes)
  return ofBigEndian raw.val

theorem slice_ok {start stop : Nat} {bytes : Bytes} (h : start ≤ stop) (hl : stop ≤ bytes.length) :
    slice start stop bytes = .ok (EventStream.slice start stop bytes) :=
  if_pos ⟨h, hl⟩

theorem sub_ok {minuend subtrahend : Nat} (h : subtrahend ≤ minuend) :
    sub minuend subtrahend = .ok (minuend - subtrahend) :=
  if_pos h

theorem array_ok {room : Nat} {bytes : Bytes} (h : bytes.length = room) :
    array room bytes = .ok ⟨bytes, h⟩ :=
  dif_pos h

theorem word_ok {bytes : Bytes} (h : 4 ≤ bytes.length) :
    word bytes = .ok (ofBigEndian (EventStream.slice 0 4 bytes)) := by
  have hl : (EventStream.slice 0 4 bytes).length = 4 := slice_length h
  rw [word, slice_ok (Nat.zero_le 4) h]
  show (array 4 (EventStream.slice 0 4 bytes) >>= _) = _
  rw [array_ok hl]
  rfl

end Guarded

end EventStream
