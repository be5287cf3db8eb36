import EventStream.Stream.Assembler
import EventStream.Proofs.Stream.Finding

/-!
What each operation of an assembler does to its unread bytes, and what it leaves as it was.
-/

set_option autoImplicit false

namespace EventStream.Stream.Assembler

/-- No step is possible until more bytes arrive. -/
def IsIdle (a : Assembler) : Prop :=
  segment a.config.frame a.skip a.unread = none

variable {a b : Assembler}

theorem advance_unread (a : Assembler) (s : Segment) :
    (a.advance s).unread = a.unread.drop s.consumed := by
  rw [unread, unread, advance, List.drop_drop]

theorem advance_bounded {s : Segment} (hb : a.cursor ≤ a.buffer.length)
    (hs : segment a.config.frame a.skip a.unread = some s) :
    (a.advance s).cursor ≤ (a.advance s).buffer.length := by
  have hc := (segment_consumed hs).2
  rw [unread, List.length_drop] at hc
  simp only [advance]
  omega

theorem next_idle (ha : a.state ≠ .closed) (hs : a.IsIdle) : a.next = (none, a) := by
  rw [next, if_neg ha]
  split
  · rfl
  · next hs' => rw [hs] at hs'; cases hs'

theorem next_item {s : Segment} {item : Item} (ha : a.state ≠ .closed)
    (hs : segment a.config.frame a.skip a.unread = some s) (hi : s.item = some item) :
    a.next = (some item, a.advance s) := by
  rw [next, if_neg ha]
  split
  · next hs' => rw [hs] at hs'; cases hs'
  · next hs' =>
    rw [hs] at hs'
    cases hs'
    simp only [hi]

theorem next_skip {s : Segment} (ha : a.state ≠ .closed)
    (hs : segment a.config.frame a.skip a.unread = some s) (hi : s.item = none) :
    a.next = (a.advance s).next := by
  rw [next, if_neg ha]
  split
  · next hs' => rw [hs] at hs'; cases hs'
  · next hs' =>
    rw [hs] at hs'
    cases hs'
    simp only [hi]

theorem isIdle_of_unread (hu : a.unread = []) : a.IsIdle := by
  have hd : Frame.decode a.config.frame [] = .ok none := Frame.decode_of_short (by decide)
  rw [IsIdle, hu, segment]
  split
  · rfl
  · rw [hd]

/-- Taking out an item leaves alone what passing bytes leaves alone. -/
theorem next_keeps {β : Type} (part : Assembler → β) (h : ∀ a s, part (a.advance s) = part a)
    (a : Assembler) : part a.next.2 = part a := by
  fun_induction next a with
  | case1 => rfl
  | case2 => rfl
  | case3 a _ s => exact h a s
  | case4 a _ s _ _ _ ih => exact ih.trans (h a s)

@[simp] theorem next_state (a : Assembler) : a.next.2.state = a.state :=
  next_keeps state (fun _ _ => rfl) a

@[simp] theorem next_config (a : Assembler) : a.next.2.config = a.config :=
  next_keeps config (fun _ _ => rfl) a

@[simp] theorem next_buffer (a : Assembler) : a.next.2.buffer = a.buffer :=
  next_keeps buffer (fun _ _ => rfl) a

/-- An item takes up no less than a prelude. -/
theorem next_unread_length {item : Item} (h : a.next.1 = some item) :
    Frame.preludeLength + a.next.2.unread.length ≤ a.unread.length := by
  fun_induction next a with
  | case1 => cases h
  | case2 => cases h
  | case3 a _ s hs hlt item hi =>
    have hprelude := segment_item_consumed hs hi
    have hconsumed := (segment_consumed hs).2
    rw [advance_unread, List.length_drop]
    omega
  | case4 a _ s hs hlt hi ih => exact Nat.le_trans (ih h) (Nat.le_of_lt hlt)

theorem next_unread_le (a : Assembler) : a.next.2.unread.length ≤ a.unread.length := by
  fun_induction next a with
  | case1 => exact Nat.le_refl _
  | case2 => exact Nat.le_refl _
  | case3 a _ s hs hlt item hi => exact Nat.le_of_lt hlt
  | case4 a _ s hs hlt hi ih => exact Nat.le_trans ih (Nat.le_of_lt hlt)

theorem next_bounded (hb : a.cursor ≤ a.buffer.length) :
    a.next.2.cursor ≤ a.next.2.buffer.length := by
  fun_induction next a with
  | case1 => exact hb
  | case2 => exact hb
  | case3 a _ s hs _ item hi => exact advance_bounded hb hs
  | case4 a _ s hs _ hi ih => exact ih (advance_bounded hb hs)

theorem take_of_none {limit : Nat} (h : a.next.1 = none) : a.take (limit + 1) = ([], a.next.2) := by
  rw [take]
  generalize a.next = r at h
  obtain ⟨item, b⟩ := r
  cases h
  rfl

theorem take_of_some {limit : Nat} {item : Item} (h : a.next.1 = some item) :
    a.take (limit + 1) = (item :: (a.next.2.take limit).1, (a.next.2.take limit).2) := by
  rw [take]
  generalize a.next = r at h
  obtain ⟨found, b⟩ := r
  cases h
  rfl

theorem take_idle (ha : a.state ≠ .closed) (hi : a.IsIdle) (limit : Nat) : a.take limit = ([], a) := by
  cases limit with
  | zero => rfl
  | succ limit => rw [take_of_none (congrArg Prod.fst (next_idle ha hi)), next_idle ha hi]

theorem take_keeps {β : Type} (part : Assembler → β) (h : ∀ a s, part (a.advance s) = part a)
    (limit : Nat) (a : Assembler) : part (a.take limit).2 = part a := by
  induction limit generalizing a with
  | zero => rfl
  | succ limit ih =>
    cases hn : a.next.1 with
    | none => rw [take_of_none hn, next_keeps part h]
    | some item => rw [take_of_some hn, ih, next_keeps part h]

@[simp] theorem take_state (limit : Nat) (a : Assembler) : (a.take limit).2.state = a.state :=
  take_keeps state (fun _ _ => rfl) limit a

@[simp] theorem take_config (limit : Nat) (a : Assembler) : (a.take limit).2.config = a.config :=
  take_keeps config (fun _ _ => rfl) limit a

@[simp] theorem take_buffer (limit : Nat) (a : Assembler) : (a.take limit).2.buffer = a.buffer :=
  take_keeps buffer (fun _ _ => rfl) limit a

theorem take_bounded (limit : Nat) (hb : a.cursor ≤ a.buffer.length) :
    (a.take limit).2.cursor ≤ (a.take limit).2.buffer.length := by
  induction limit generalizing a with
  | zero => exact hb
  | succ limit ih =>
    cases hn : a.next.1 with
    | none =>
      rw [take_of_none hn]
      exact next_bounded hb
    | some item =>
      rw [take_of_some hn]
      exact ih (next_bounded hb)

/-- The items taken out took up their bytes. -/
theorem take_length (limit : Nat) (a : Assembler) :
    Frame.preludeLength * (a.take limit).1.length + (a.take limit).2.unread.length ≤
      a.unread.length := by
  induction limit generalizing a with
  | zero => exact Nat.le_of_eq (Nat.zero_add _)
  | succ limit ih =>
    cases hn : a.next.1 with
    | none =>
      rw [take_of_none hn]
      exact (Nat.zero_add _).trans_le (next_unread_le a)
    | some item =>
      have hnext := next_unread_length hn
      have hrest := ih a.next.2
      rw [take_of_some hn, List.length_cons, Nat.mul_succ]
      show _ + (a.next.2.take limit).2.unread.length ≤ _
      omega

theorem compact_unread (a : Assembler) : a.compact.unread = a.unread := by
  unfold compact
  split
  · rfl
  · rw [unread]
    rfl

@[simp] theorem compact_state (a : Assembler) : a.compact.state = a.state := by
  unfold compact
  split <;> rfl

@[simp] theorem compact_config (a : Assembler) : a.compact.config = a.config := by
  unfold compact
  split <;> rfl

@[simp] theorem compact_skip (a : Assembler) : a.compact.skip = a.skip := by
  unfold compact
  split <;> rfl

theorem compact_stats (a : Assembler) :
    a.compact.stats = { a.stats with compactions := a.compact.stats.compactions } := by
  unfold compact
  split <;> rfl

theorem compact_bounded (hb : a.cursor ≤ a.buffer.length) :
    a.compact.cursor ≤ a.compact.buffer.length := by
  unfold compact
  split
  · exact hb
  · exact Nat.zero_le _

theorem settle_cases (a : Assembler) : a.settle = a.compact ∨ a.settle = a := by
  rw [settle]
  exact ite_eq_or_eq _ _ _

theorem settle_unread (a : Assembler) : a.settle.unread = a.unread := by
  rcases settle_cases a with h | h
  · rw [h, compact_unread]
  · rw [h]

@[simp] theorem settle_state (a : Assembler) : a.settle.state = a.state := by
  rcases settle_cases a with h | h
  · rw [h, compact_state]
  · rw [h]

@[simp] theorem settle_config (a : Assembler) : a.settle.config = a.config := by
  rcases settle_cases a with h | h
  · rw [h, compact_config]
  · rw [h]

@[simp] theorem settle_skip (a : Assembler) : a.settle.skip = a.skip := by
  rcases settle_cases a with h | h
  · rw [h, compact_skip]
  · rw [h]

theorem settle_bounded (hb : a.cursor ≤ a.buffer.length) :
    a.settle.cursor ≤ a.settle.buffer.length := by
  rcases settle_cases a with h | h
  · rw [h]
    exact compact_bounded hb
  · rw [h]
    exact hb

theorem drainSome_eq (limit : Nat) (a : Assembler) :
    a.drainSome limit = ((a.take limit).1, (a.take limit).2.settle) := rfl

@[simp] theorem drainSome_state (limit : Nat) (a : Assembler) :
    (a.drainSome limit).2.state = a.state := by
  rw [drainSome_eq, settle_state, take_state]

@[simp] theorem drainSome_config (limit : Nat) (a : Assembler) :
    (a.drainSome limit).2.config = a.config := by
  rw [drainSome_eq, settle_config, take_config]

@[simp] theorem drain_state (a : Assembler) : a.drain.2.state = a.state :=
  drainSome_state _ a

@[simp] theorem drain_config (a : Assembler) : a.drain.2.config = a.config :=
  drainSome_config _ a

theorem drainSome_one_of_none (h : a.next.1 = none) : a.drainSome 1 = ([], a.next.2.settle) := by
  rw [drainSome_eq, take_of_none h]

theorem drainSome_one_of_some {item : Item} (h : a.next.1 = some item) :
    a.drainSome 1 = ([item], a.next.2.settle) := by
  rw [drainSome_eq, take_of_some h]
  rfl

theorem compact_isIdle : a.compact.IsIdle ↔ a.IsIdle := by
  rw [IsIdle, compact_config, compact_skip, compact_unread]
  rfl

theorem settle_isIdle : a.settle.IsIdle ↔ a.IsIdle := by
  rw [IsIdle, settle_config, settle_skip, settle_unread]
  rfl

theorem feed_ok (chunk : Bytes) (hd : a.state ≠ .draining) (hc : a.state ≠ .closed) :
    a.feed chunk = .ok { a.settle with
      state := .receiving
      buffer := a.settle.buffer ++ chunk
      stats := { a.settle.stats with bytesFed := a.settle.stats.bytesFed + chunk.length } } := by
  rw [feed, if_neg (not_or.2 ⟨hd, hc⟩)]

theorem exists_feed (chunk : Bytes) (hd : a.state ≠ .draining) (hc : a.state ≠ .closed) :
    ∃ b, a.feed chunk = .ok b :=
  ⟨_, feed_ok chunk hd hc⟩

theorem feed_error (chunk : Bytes) (h : a.state = .draining ∨ a.state = .closed) :
    a.feed chunk = .error .closed := by
  rw [feed, if_pos h]

theorem feed_state {chunk : Bytes} (h : a.feed chunk = .ok b) : b.state = .receiving := by
  unfold feed at h
  split at h <;> cases h
  rfl

theorem feed_config {chunk : Bytes} (h : a.feed chunk = .ok b) : b.config = a.config := by
  unfold feed at h
  split at h <;> cases h
  exact settle_config a

theorem feed_skip {chunk : Bytes} (h : a.feed chunk = .ok b) : b.skip = a.skip := by
  unfold feed at h
  split at h <;> cases h
  exact settle_skip a

theorem feed_unread {chunk : Bytes} (hb : a.cursor ≤ a.buffer.length)
    (h : a.feed chunk = .ok b) : b.unread = a.unread ++ chunk := by
  unfold feed at h
  split at h <;> cases h
  rw [← settle_unread a]
  exact List.drop_append_of_le_length (settle_bounded hb)

theorem feed_bounded {chunk : Bytes} (hb : a.cursor ≤ a.buffer.length)
    (h : a.feed chunk = .ok b) : b.cursor ≤ b.buffer.length := by
  unfold feed at h
  split at h <;> cases h
  rw [List.length_append]
  exact Nat.le_trans (settle_bounded hb) (Nat.le_add_right _ _)

theorem feed_stats {chunk : Bytes} (h : a.feed chunk = .ok b) :
    b.stats = { a.settle.stats with bytesFed := a.settle.stats.bytesFed + chunk.length } := by
  unfold feed at h
  split at h <;> cases h
  rfl

theorem isPending_eq (a : Assembler) :
    a.isPending = (segment a.config.frame a.skip a.unread).isSome := by
  unfold isPending segment
  split
  · split
    · next he => rw [he]; rfl
    · next he => rw [Bool.not_eq_true] at he; rw [he]; rfl
  · split <;> split <;> simp_all

/-- The end closes an assembler from which nothing can be taken out, and is an error if bytes
remain; any other assembler waits, and keeps all it has. -/
theorem finish_cases (ha : a.state ≠ .closed) :
    (a.unread = [] ∧ a.finish = (.ok (), a.close)) ∨
    (¬ a.IsIdle ∧ a.finish = (.error (.undrained a.buffered), { a with state := .draining })) ∨
    (a.IsIdle ∧ a.unread ≠ [] ∧ a.skip = 0 ∧
      a.finish = (.error (.truncated a.buffered (missingBytes 0 a.unread)), a.close)) := by
  by_cases hu : a.unread = []
  · refine Or.inl ⟨hu, ?_⟩
    rw [finish, if_neg ha]
    exact if_pos (List.isEmpty_iff.2 hu)
  · have hne : ¬ a.unread.isEmpty = true := fun h => hu (List.isEmpty_iff.1 h)
    by_cases hi : a.IsIdle
    · have hz : a.skip = 0 := by
        rcases segment_eq_none hi with ⟨-, h⟩ | ⟨h, -⟩
        · exact absurd h hu
        · exact h
      have hp : ¬ a.isPending = true := by
        rw [isPending_eq, hi]
        exact Bool.false_ne_true
      refine Or.inr (Or.inr ⟨hi, hu, hz, ?_⟩)
      rw [finish, if_neg ha, ← hz]
      exact (if_neg hne).trans (if_neg hp)
    · have hp : a.isPending = true := by
        rw [isPending_eq]
        exact Option.isSome_iff_ne_none.2 hi
      refine Or.inr (Or.inl ⟨hi, ?_⟩)
      rw [finish, if_neg ha]
      exact (if_neg hne).trans (if_pos hp)

def ending (bytes : Bytes) : Except Error Unit :=
  if bytes.isEmpty then .ok () else .error (.truncated bytes.length (missingBytes 0 bytes))

theorem ending_eq_ok_iff (bytes : Bytes) : ending bytes = .ok () ↔ bytes.length = 0 := by
  rw [ending, List.length_eq_zero_iff, ← List.isEmpty_iff]
  split <;> simp_all

theorem ending_of_ne_zero {bytes : Bytes} (h : bytes.length ≠ 0) :
    ending bytes = .error (.truncated bytes.length (missingBytes 0 bytes)) := by
  rw [ending, if_neg]
  intro he
  exact h (List.length_eq_zero_iff.2 (List.isEmpty_iff.1 he))

theorem ending_ne_undrained (bytes : Bytes) (left : Nat) :
    ending bytes ≠ .error (.undrained left) := by
  rw [ending]
  split <;> exact fun he => by cases he

theorem finish_of_idle (ha : a.state ≠ .closed) (hi : a.IsIdle) :
    a.finish = (ending a.unread, a.close) := by
  rcases finish_cases ha with ⟨hu, hf⟩ | ⟨hn, -⟩ | ⟨-, hu, -, hf⟩
  · rw [hf, hu]
    rfl
  · exact absurd hi hn
  · rw [hf, ending, if_neg fun he => hu (List.isEmpty_iff.1 he)]
    rfl

@[simp] theorem finish_config (a : Assembler) : a.finish.2.config = a.config := by
  by_cases ha : a.state = .closed
  · rw [finish, if_pos ha]
  · rcases finish_cases ha with ⟨-, hf⟩ | ⟨-, hf⟩ | ⟨-, -, -, hf⟩ <;> rw [hf] <;> rfl

end EventStream.Stream.Assembler
