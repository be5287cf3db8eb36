import EventStream.Proofs.Stream.Lifecycle

/-!
How many bytes an assembler holds. Where no item is left to be taken out fewer bytes are unread
than the longest frame has, and of the passed bytes no more are kept than of these or than the
threshold. Fed chunk by chunk, with the items taken out between them, a buffer therefore stays
within a bound that does not depend on the length of the stream.
-/

set_option autoImplicit false

namespace EventStream.Stream

namespace Assembler

variable {a b : Assembler}

theorem IsIdle.buffered_lt (hi : a.IsIdle) :
    a.buffered < max Frame.preludeLength a.config.frame.maxLength := by
  rcases segment_eq_none hi with ⟨-, hu⟩ | ⟨-, hn⟩
  · rw [buffered, hu]
    exact Nat.lt_of_lt_of_le (by decide : 0 < Frame.preludeLength) (Nat.le_max_left _ _)
  · exact Frame.length_lt_of_decode_none (finding?_eq_none_iff.1 hn)

theorem buffer_length (hb : a.cursor ≤ a.buffer.length) :
    a.buffer.length = a.cursor + a.buffered := by
  rw [buffered, unread, List.length_drop]
  omega

theorem compact_cursor (a : Assembler) : a.compact.cursor = 0 := by
  unfold compact
  split
  · assumption
  · rfl

theorem compact_buffer_length_le (a : Assembler) : a.compact.buffer.length ≤ a.buffer.length := by
  unfold compact
  split
  · exact Nat.le_refl _
  · rw [unread, List.length_drop]
    exact Nat.sub_le _ _

theorem settle_buffer_length_le (a : Assembler) : a.settle.buffer.length ≤ a.buffer.length := by
  rcases settle_cases a with hs | hs
  · rw [hs]
    exact compact_buffer_length_le a
  · exact Nat.le_of_eq (congrArg (List.length ∘ buffer) hs)

/-- Passed bytes are kept only while they are few or fewer than half of the buffer. -/
theorem settle_cursor_le (hb : a.cursor ≤ a.buffer.length) :
    a.settle.cursor ≤ max a.config.compactThreshold a.buffered := by
  have hl := buffer_length hb
  rw [settle]
  split
  · rw [compact_cursor]
    exact Nat.zero_le _
  · next hkept =>
    simp only [Bool.or_eq_true, Bool.and_eq_true, beq_iff_eq, decide_eq_true_eq, not_or,
      not_and_or] at hkept
    omega

theorem settle_length_le (hb : a.cursor ≤ a.buffer.length) :
    a.settle.buffer.length ≤ a.buffered + max a.config.compactThreshold a.buffered := by
  have hc := settle_cursor_le hb
  have hl := buffer_length (settle_bounded hb)
  rw [buffered, settle_unread, ← buffered] at hl
  omega

/-- A chunk is put behind what is left of the buffer. -/
theorem feed_length_le {chunk : Bytes} (hb : a.cursor ≤ a.buffer.length)
    (hf : a.feed chunk = .ok b) :
    b.buffer.length ≤ a.buffered + max a.config.compactThreshold a.buffered + chunk.length := by
  have hs := settle_length_le hb
  unfold feed at hf
  split at hf <;> cases hf
  rw [List.length_append]
  omega

theorem drainSome_length_le (limit : Nat) (hb : a.cursor ≤ a.buffer.length) :
    (a.drainSome limit).2.buffer.length ≤ (a.drainSome limit).2.buffered +
      max a.config.compactThreshold (a.drainSome limit).2.buffered := by
  have hs := settle_length_le (take_bounded limit hb)
  rw [take_config, buffered, ← settle_unread, ← buffered] at hs
  exact hs

theorem finish_buffer (a : Assembler) :
    a.finish.2.buffer = [] ∨ a.finish.2.buffer = a.buffer := by
  by_cases hc : a.state = .closed
  · have hf : a.finish = (.error .closed, a) := if_pos hc
    rw [hf]
    exact Or.inr rfl
  · rcases finish_cases hc with ⟨-, hf⟩ | ⟨-, hf⟩ | ⟨-, -, -, hf⟩ <;> rw [hf]
    · exact Or.inl rfl
    · exact Or.inr rfl
    · exact Or.inl rfl

end Assembler

namespace History

open Assembler

variable {h : History} {config : Assembler.Config} {ops : List Op}

/-- Only a chunk makes the buffer longer. -/
theorem perform_length_le {op : Op} (hop : ∀ chunk, op ≠ .feed chunk) :
    (h.perform op).assembler.buffer.length ≤ h.assembler.buffer.length := by
  have htake : ∀ limit, (h.take limit).assembler.buffer.length ≤ h.assembler.buffer.length := by
    intro limit
    have hs := settle_buffer_length_le (h.assembler.take limit).2
    rw [take_buffer] at hs
    exact hs
  cases op with
  | feed chunk => exact absurd rfl (hop chunk)
  | take limit => exact htake limit
  | drain => exact htake (h.assembler.buffered + 1)
  | compact => exact compact_buffer_length_le h.assembler
  | finish =>
    rw [perform_finish]
    rcases finish_buffer h.assembler with hf | hf
    · rw [hf]
      exact Nat.zero_le _
    · exact Nat.le_of_eq (congrArg List.length hf)

theorem run_bounded (config : Assembler.Config) (ops : List Op) :
    (run config ops).assembler.cursor ≤ (run config ops).assembler.buffer.length := by
  obtain ⟨found, hopen | hclosed⟩ := run_standing config ops
  · exact hopen.progress.bounded
  · rw [hclosed.cursor]
    exact Nat.zero_le _

/-- Taking items out leaves no more passed bytes than unread ones, or than the threshold. -/
theorem exhausts_length_le (hb : h.assembler.cursor ≤ h.assembler.buffer.length) {last : Op}
    (hlast : last.Exhausts h.assembler) :
    (h.perform last).assembler.buffer.length ≤ (h.perform last).assembler.buffered +
      max h.assembler.config.compactThreshold (h.perform last).assembler.buffered := by
  cases last with
  | take limit => exact drainSome_length_le limit hb
  | drain => exact drainSome_length_le (h.assembler.buffered + 1) hb
  | feed chunk => exact hlast.elim
  | compact => exact hlast.elim
  | finish => exact hlast.elim

/-- Behind every chunk all items are taken out before the next one is fed. -/
def Paced (config : Assembler.Config) (ops : List Op) : Prop :=
  ∀ earlier chunk later, ops = earlier ++ .feed chunk :: later →
    (∀ other, .feed other ∉ earlier) ∨ Drained config earlier

/-- A chunk is only fed where no item is left. -/
theorem Paced.isIdle {chunk : Bytes} (hp : Paced config (ops ++ [.feed chunk])) :
    (run config ops).assembler.IsIdle := by
  rcases hp ops chunk [] rfl with hnone | hd
  · exact foldl_isIdle (start_idle config) hnone
  · exact hd.isIdle

theorem Paced.of_append {more : List Op} (hp : Paced config (ops ++ more)) : Paced config ops := by
  rintro earlier chunk later rfl
  exact hp earlier chunk (later ++ more) (by rw [List.append_assoc, List.cons_append])

theorem Paced.length_le (hp : Paced config ops) {size : Nat}
    (hsize : ∀ chunk, .feed chunk ∈ ops → chunk.length ≤ size) :
    (run config ops).assembler.buffer.length ≤
      2 * max Frame.preludeLength config.frame.maxLength + config.compactThreshold + size := by
  induction ops using List.reverseRecOn with
  | nil => exact Nat.zero_le _
  | append_singleton ops op ih =>
    have hbefore := ih hp.of_append fun chunk hm => hsize chunk (List.mem_append_left _ hm)
    rw [run_concat]
    by_cases hop : ∀ chunk, op ≠ .feed chunk
    · exact Nat.le_trans (perform_length_le hop) hbefore
    · obtain ⟨chunk, hchunk⟩ := not_forall_not.1 hop
      subst hchunk
      rw [perform]
      cases hf : (run config ops).assembler.feed chunk with
      | error error => exact hbefore
      | ok b =>
        have hunread := hp.isIdle.buffered_lt
        have hl := feed_length_le (run_bounded config ops) hf
        have hc := hsize chunk (List.mem_append_right _ List.mem_cons_self)
        rw [run_config] at hunread hl
        change b.buffer.length ≤ _
        omega

theorem eachDrained_split {chunks : List Bytes} {earlier later : List Op} {chunk : Bytes}
    (h : eachDrained chunks = earlier ++ .feed chunk :: later) :
    earlier = [] ∨ ∃ before, earlier = before ++ [.drain] := by
  induction chunks generalizing earlier with
  | nil =>
    rw [eachDrained, List.flatMap_nil] at h
    exact absurd h.symm (List.append_ne_nil_of_right_ne_nil _ (List.cons_ne_nil _ _))
  | cons first chunks ih =>
    have hcons : eachDrained (first :: chunks) = .feed first :: .drain :: eachDrained chunks := rfl
    rw [hcons] at h
    cases earlier with
    | nil => exact Or.inl rfl
    | cons op earlier =>
      cases earlier with
      | nil => cases h
      | cons second rest =>
        simp only [List.cons_append, List.cons.injEq] at h
        obtain ⟨hfirst, hsecond, hrest⟩ := h
        right
        rcases ih hrest with rfl | ⟨before, rfl⟩
        · exact ⟨[.feed first], by rw [← hfirst, ← hsecond]; rfl⟩
        · exact ⟨.feed first :: .drain :: before, by rw [← hfirst, ← hsecond]; rfl⟩

theorem paced_eachDrained (config : Assembler.Config) (chunks : List Bytes) :
    Paced config (eachDrained chunks) := by
  intro earlier chunk later hsplit
  rcases eachDrained_split hsplit with rfl | ⟨before, rfl⟩
  · exact Or.inl fun _ => List.not_mem_nil
  · exact Or.inr ⟨before, .drain, [], rfl, trivial, fun _ => List.not_mem_nil⟩

theorem mem_of_feed_mem {chunks : List Bytes} {chunk : Bytes}
    (h : .feed chunk ∈ eachDrained chunks) : chunk ∈ chunks := by
  obtain ⟨fed, hfed, hop⟩ := List.mem_flatMap.1 h
  simp only [List.mem_cons, Op.feed.injEq, reduceCtorEq, List.not_mem_nil, or_false] at hop
  exact hop ▸ hfed

/-- Buffers stay bounded on any input. Whenever all items were taken out, fewer bytes are unread
than the longest frame has, and the buffer holds at most as many passed bytes, or the threshold.
If that is done behind every chunk, the buffer never outgrows two frames, the threshold and a
chunk, not even while items are taken out. -/
theorem buffering_bounded (config : Assembler.Config) (ops : List Op) :
    let a := (run config ops).assembler
    let longest := max Frame.preludeLength config.frame.maxLength
    (∀ earlier last, ops = earlier ++ [last] → last.Exhausts (run config earlier).assembler →
      a.buffered < longest ∧
      a.buffer.length ≤ a.buffered + max config.compactThreshold a.buffered) ∧
    (Paced config ops → ∀ size, (∀ chunk, .feed chunk ∈ ops → chunk.length ≤ size) →
      a.buffer.length ≤ 2 * longest + config.compactThreshold + size ∧
      ∀ limit, (a.take limit).2.buffer.length ≤ 2 * longest + config.compactThreshold + size) := by
  intro a longest
  refine ⟨?_, ?_⟩
  · intro earlier last hops hlast
    have hidle : a.IsIdle := run_idle config hops hlast
    have hunread := hidle.buffered_lt
    have hkept := exhausts_length_le (run_bounded config earlier) hlast
    rw [run_config] at hunread
    rw [run_config, ← run_concat, ← hops] at hkept
    exact ⟨hunread, hkept⟩
  · intro hp size hsize
    have hl := hp.length_le hsize
    refine ⟨hl, fun limit => ?_⟩
    rw [take_buffer]
    exact hl

def trickle : List Bytes :=
  (List.replicate 4 [[0, 0, 0], [16, 0, 0], [0, 0, 0x05], [0xc2, 0x48, 0xeb], [0x7d, 0x98, 0xc8],
    [0xff]]).flatten

theorem buffering_bounded_trickle :
    trickle.flatten.length = 64 ∧
    Paced { frame := { maxLength := 16 }, compactThreshold := 4 } (eachDrained trickle) ∧
    (run { frame := { maxLength := 16 }, compactThreshold := 4 }
      (eachDrained trickle)).assembler.buffer.length ≤ 2 * 16 + 4 + 3 := by
  have hpaced := paced_eachDrained { frame := { maxLength := 16 }, compactThreshold := 4 } trickle
  have hsize : ∀ chunk, Op.feed chunk ∈ eachDrained trickle → chunk.length ≤ 3 :=
    fun chunk hm => (by decide : ∀ c ∈ trickle, c.length ≤ 3) chunk (mem_of_feed_mem hm)
  have hbounded := buffering_bounded { frame := { maxLength := 16 }, compactThreshold := 4 }
    (eachDrained trickle)
  exact ⟨by decide, hpaced, (hbounded.2 hpaced 3 hsize).1⟩

end History

end EventStream.Stream
