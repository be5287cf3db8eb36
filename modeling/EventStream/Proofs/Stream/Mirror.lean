import EventStream.Stream.Codec
import EventStream.Proofs.Stream.Progress

/-!
A codec with its buffer does what an assembler does with its unread bytes.
-/

set_option autoImplicit false

namespace EventStream.Stream

/-- A codec and its buffer stand where an assembler stands. -/
structure Mirrors (c : Codec) (buffer : Bytes) (a : Assembler) : Prop where
  config : c.config = a.config.frame
  skip : c.skip = a.skip
  buffer : buffer = a.unread

namespace Mirrors

variable {c : Codec} {buffer : Bytes} {a b : Assembler}

theorem fresh (config : Assembler.Config) : Mirrors { config := config.frame } [] { config } :=
  ⟨rfl, rfl, rfl⟩

theorem segment_eq (h : Mirrors c buffer a) :
    segment c.config c.skip buffer = segment a.config.frame a.skip a.unread := by
  rw [h.config, h.skip, h.buffer]

theorem advance (h : Mirrors c buffer a) (s : Segment) :
    Mirrors { c with skip := s.skip } (buffer.drop s.consumed) (a.advance s) :=
  ⟨h.config, rfl, by rw [Assembler.advance_unread, h.buffer]⟩

theorem feed {chunk : Bytes} (h : Mirrors c buffer a) (hb : a.cursor ≤ a.buffer.length)
    (hf : a.feed chunk = .ok b) : Mirrors c (buffer ++ chunk) b :=
  ⟨by rw [Assembler.feed_config hf]; exact h.config, by rw [Assembler.feed_skip hf]; exact h.skip,
    by rw [Assembler.feed_unread hb hf, h.buffer]⟩

end Mirrors

namespace Codec

variable {c : Codec} {buffer : Bytes}

theorem decode_idle (hs : segment c.config c.skip buffer = none) :
    c.decode buffer = (none, c, buffer) := by
  rw [decode]
  split
  · rfl
  · next hs' => rw [hs] at hs'; cases hs'

theorem decode_item {s : Segment} {item : Item} (hs : segment c.config c.skip buffer = some s)
    (hi : s.item = some item) :
    c.decode buffer = (some item, { c with skip := s.skip }, buffer.drop s.consumed) := by
  rw [decode]
  split
  · next hs' => rw [hs] at hs'; cases hs'
  · next hs' =>
    rw [hs] at hs'
    cases hs'
    simp only [hi]

theorem decode_skip {s : Segment} (hs : segment c.config c.skip buffer = some s)
    (hi : s.item = none) :
    c.decode buffer = decode { c with skip := s.skip } (buffer.drop s.consumed) := by
  rw [decode]
  split
  · next hs' => rw [hs] at hs'; cases hs'
  · next hs' =>
    rw [hs] at hs'
    cases hs'
    simp only [hi]

end Codec

namespace Mirrors

variable {c : Codec} {buffer : Bytes} {a b : Assembler}

/-- The codec gives the item that the assembler gives, or none like it. -/
theorem decode (h : Mirrors c buffer a) (ha : a.state ≠ .closed) :
    (c.decode buffer).1 = a.next.1 ∧
      Mirrors (c.decode buffer).2.1 (c.decode buffer).2.2 a.next.2 := by
  generalize hn : a.unread.length = n
  induction n using Nat.strongRecOn generalizing c buffer a with
  | _ n ih =>
    cases hs : segment a.config.frame a.skip a.unread with
    | none =>
      rw [Assembler.next_idle ha hs, Codec.decode_idle (h.segment_eq.trans hs)]
      exact ⟨rfl, h⟩
    | some s =>
      have hc := h.segment_eq.trans hs
      cases hi : s.item with
      | none =>
        rw [Assembler.next_skip ha hs hi, Codec.decode_skip hc hi]
        exact ih _ (hn ▸ Assembler.advance_unread_length hs) (h.advance s) ha rfl
      | some item =>
        rw [Assembler.next_item ha hs hi, Codec.decode_item hc hi]
        exact ⟨rfl, h.advance s⟩

theorem take (h : Mirrors c buffer a) (ha : a.state ≠ .closed) (limit : Nat) :
    (Codec.take limit c buffer).1 = (a.take limit).1 ∧
      Mirrors (Codec.take limit c buffer).2.1 (Codec.take limit c buffer).2.2
        (a.take limit).2 := by
  induction limit generalizing c buffer a with
  | zero => exact ⟨rfl, h⟩
  | succ limit ih =>
    obtain ⟨hitem, hnext⟩ := h.decode ha
    rw [Codec.take]
    cases hn : a.next.1 with
    | none =>
      rw [Assembler.take_of_none hn]
      rw [hn] at hitem
      generalize c.decode buffer = r at hitem hnext
      obtain ⟨found, c', buffer'⟩ := r
      cases hitem
      exact ⟨rfl, hnext⟩
    | some item =>
      rw [Assembler.take_of_some hn]
      rw [hn] at hitem
      obtain ⟨hitems, hrest⟩ := ih hnext (by rw [Assembler.next_state]; exact ha)
      generalize c.decode buffer = r at hitem hnext hitems hrest
      obtain ⟨found, c', buffer'⟩ := r
      cases hitem
      exact ⟨congrArg (item :: ·) hitems, hrest⟩

theorem settle (h : Mirrors c buffer a) : Mirrors c buffer a.settle :=
  ⟨by rw [Assembler.settle_config]; exact h.config, by rw [Assembler.settle_skip]; exact h.skip,
    by rw [Assembler.settle_unread]; exact h.buffer⟩

theorem drain (h : Mirrors c buffer a) (ha : a.state ≠ .closed) :
    (Codec.take (buffer.length + 1) c buffer).1 = a.drain.1 ∧
      Mirrors (Codec.take (buffer.length + 1) c buffer).2.1
        (Codec.take (buffer.length + 1) c buffer).2.2 a.drain.2 := by
  have hlimit : buffer.length + 1 = a.buffered + 1 := by rw [h.buffer, Assembler.buffered]
  obtain ⟨hitems, hrest⟩ := h.take ha (buffer.length + 1)
  rw [hlimit] at hitems hrest ⊢
  exact ⟨hitems, hrest.settle⟩

end Mirrors

end EventStream.Stream
