import EventStream.Proofs.Stream.Simulation

/-!
How many bytes an unfinished frame lacks. The number that the end of a stream reports is the least
that may complete the frame: with fewer bytes there would still have been no item, and with as many
there is exactly one, whatever the bytes are, once the lengths of the frame are known.
-/

set_option autoImplicit false

namespace EventStream

open EventStream.Frame

namespace Frame

variable {config : Config} {bytes : Bytes}

theorem declaredLength_append (h : preludeLength ≤ bytes.length) (more : Bytes) :
    declaredLength (bytes ++ more) = declaredLength bytes := by
  have hfield : 4 ≤ bytes.length := Nat.le_trans (by decide) h
  rw [declaredLength, slice_append_left hfield, declaredLength]

/-- A frame whose prelude is there waits for the bytes that its length field declares. -/
theorem lt_declaredLength (h : decode config bytes = .ok none)
    (hl : preludeLength ≤ bytes.length) : bytes.length < declaredLength bytes := by
  by_contra hd
  exact decode_ne_none hl (Nat.not_lt.1 hd) h

theorem Prelude.error?_of_decode_none {prelude : Prelude} (h : decode config bytes = .ok none)
    (hread : Prelude.read? bytes = some prelude) : prelude.error? config bytes = none := by
  cases hsound : prelude.error? config bytes with
  | none => rfl
  | some error =>
    rw [decode_of_prelude_error hread hsound] at h
    cases h

end Frame

namespace Stream

variable {config : Frame.Config} {rest more : Bytes}

theorem missingBytes_of_short (h : rest.length < preludeLength) :
    missingBytes 0 rest = preludeLength - rest.length := by
  have hread : Prelude.read? rest = none := by
    rw [Prelude.read?, if_neg]
    rw [List.length_take]
    omega
  rw [missingBytes, if_neg (Nat.lt_irrefl 0), hread]

theorem missingBytes_of_prelude (h : preludeLength ≤ rest.length) :
    missingBytes 0 rest = declaredLength rest - rest.length := by
  rw [missingBytes, if_neg (Nat.lt_irrefl 0), Prelude.read?_of_length h]

theorem missingBytes_pos (h : Frame.decode config rest = .ok none) : 1 ≤ missingBytes 0 rest := by
  by_cases hl : preludeLength ≤ rest.length
  · have hlt := lt_declaredLength h hl
    rw [missingBytes_of_prelude hl]
    omega
  · rw [missingBytes_of_short (Nat.not_le.1 hl)]
    omega

/-- With fewer bytes than are missing a frame goes on waiting. -/
theorem decode_of_fewer (h : Frame.decode config rest = .ok none)
    (hm : more.length < missingBytes 0 rest) : Frame.decode config (rest ++ more) = .ok none := by
  by_cases hl : preludeLength ≤ rest.length
  · rw [missingBytes_of_prelude hl] at hm
    obtain ⟨prelude, hread⟩ := Prelude.exists_read? hl
    have hread' := (Prelude.read?_append hl more).trans hread
    have hsound := (Prelude.error?_append hl more config prelude).trans
      (Prelude.error?_of_decode_none h hread)
    refine decode_of_unfinished hread' hsound ?_
    rw [Prelude.read?_totalLength hread, List.length_append]
    omega
  · rw [missingBytes_of_short (Nat.not_le.1 hl)] at hm
    apply decode_of_short
    rw [List.length_append]
    omega

/-- With the bytes that are missing there is one finding, which takes up all of them. -/
theorem findings_of_enough (h : Frame.decode config rest = .ok none)
    (hl : preludeLength ≤ rest.length) (hm : more.length = missingBytes 0 rest) :
    ∃ f, findings config (rest ++ more) = [f] ∧ f.extent = (rest ++ more).length := by
  have hlt := lt_declaredLength h hl
  have hdeclared : declaredLength (rest ++ more) = (rest ++ more).length := by
    rw [missingBytes_of_prelude hl] at hm
    rw [declaredLength_append hl, List.length_append]
    omega
  have hlength : preludeLength ≤ (rest ++ more).length := by
    rw [List.length_append]
    omega
  obtain ⟨f, hf⟩ := exists_finding? config hlength (Nat.le_of_eq hdeclared)
  have hextent : f.extent = (rest ++ more).length := by
    rw [finding?_extent hf, hdeclared]
    omega
  refine ⟨f, ?_, hextent⟩
  rw [findings_of_some hf, hextent, List.drop_length, findings_nil]

structure Lacks (config : Frame.Config) (rest : Bytes) (missing : Nat) : Prop where
  pos : 1 ≤ missing
  fewer : ∀ more : Bytes, more.length < missing →
    Frame.decode config (rest ++ more) = .ok none
  enough : preludeLength ≤ rest.length → ∀ more : Bytes, more.length = missing →
    ∀ reference : Assembler.Config, reference.frame = config →
      let h := History.run reference [.feed (rest ++ more), .drain]
      h.items.length = 1 ∧ h.assembler.buffered = 0 ∧ h.assembler.skip = 0

theorem lacks_missingBytes (h : Frame.decode config rest = .ok none) :
    Lacks config rest (missingBytes 0 rest) where
  pos := missingBytes_pos h
  fewer more hm := decode_of_fewer h hm
  enough hl more hm reference hreference := by
    subst hreference
    obtain ⟨f, hfindings, hextent⟩ := findings_of_enough h hl hm
    have hops : Op.finish ∉ [Op.feed (rest ++ more)] := by simp
    have hfed : History.fedBytes [.feed (rest ++ more)] = rest ++ more := List.append_nil _
    obtain ⟨hr, hidle, hall⟩ := History.run_drained reference hops
    obtain ⟨-, hskip, hunread⟩ := hr.progress.settled hidle
    have hitems := hr.items
    rw [hall, hfed, hfindings, span_cons, span_nil, hextent] at hskip hunread
    rw [hfed, hfindings] at hitems
    refine ⟨congrArg List.length hitems, ?_, ?_⟩
    · rw [Assembler.buffered]
      exact (congrArg List.length hunread).trans (by simp)
    · exact hskip.trans (by omega)

namespace Assembler

variable {a b : Assembler}

/-- The assembler as if the end of the stream had not been announced. -/
def unannounced (a : Assembler) : Assembler :=
  { a with state := .receiving }

theorem finish_of_truncated {buffered missing : Nat}
    (h : a.finish.1 = .error (.truncated buffered missing)) :
    a.IsIdle ∧ a.unread ≠ [] ∧ a.skip = 0 ∧ buffered = a.unread.length ∧
      missing = missingBytes 0 a.unread := by
  have hopen : a.state ≠ .closed := by
    intro hc
    rw [finish, if_pos hc] at h
    cases h
  rcases finish_cases hopen with ⟨-, hf⟩ | ⟨-, hf⟩ | ⟨hi, hu, hz, hf⟩
  · rw [hf] at h
    cases h
  · rw [hf] at h
    cases h
  · rw [hf] at h
    cases h
    exact ⟨hi, hu, hz, rfl, rfl⟩

theorem decode_of_idle (hi : a.IsIdle) (hz : a.skip = 0) :
    Frame.decode a.config.frame a.unread = .ok none := by
  rcases segment_eq_none hi with ⟨hpos, -⟩ | ⟨-, hn⟩
  · exact absurd hz (Nat.ne_of_gt hpos)
  · exact finding?_eq_none_iff.1 hn

theorem isIdle_of_decode (hz : a.skip = 0) (hd : Frame.decode a.config.frame a.unread = .ok none) :
    a.IsIdle := by
  rw [IsIdle, segment, if_neg (by omega), hd]

theorem drain_idle (ha : a.state ≠ .closed) (hi : a.IsIdle) : a.drain.1 = [] := by
  rw [drain, drainSome_eq, take_idle ha hi]

/-- Without bytes to skip, fewer bytes than are missing give no item. -/
theorem drain_of_fewer (hi : a.IsIdle) (hu : a.unread ≠ []) (hz : a.skip = 0) {more : Bytes}
    (hm : more.length < missingBytes 0 a.unread) :
    ∃ b, a.unannounced.feed more = .ok b ∧ b.drain.1 = [] := by
  have hbounded : a.cursor ≤ a.buffer.length := by
    by_contra hc
    exact hu (List.drop_eq_nil_of_le (by omega))
  obtain ⟨b, hb⟩ := exists_feed (a := a.unannounced) more State.noConfusion State.noConfusion
  have hunread : b.unread = a.unread ++ more := feed_unread (a := a.unannounced) hbounded hb
  have hconfig : b.config = a.config := feed_config (a := a.unannounced) hb
  have hskip : b.skip = 0 := (feed_skip (a := a.unannounced) hb).trans hz
  have hstate : b.state ≠ .closed := by
    rw [feed_state hb]
    exact State.noConfusion
  refine ⟨b, hb, drain_idle hstate (isIdle_of_decode hskip ?_)⟩
  rw [hconfig, hunread]
  exact decode_of_fewer (decode_of_idle hi hz) hm

end Assembler

namespace Codec

variable {c : Codec} {buffer : Bytes}

/-- A codec that decodes nothing has no step left, and its settings are as they were. -/
theorem segment_of_decode_none (h : (c.decode buffer).1 = none) :
    (c.decode buffer).2.1.config = c.config ∧
      segment c.config (c.decode buffer).2.1.skip (c.decode buffer).2.2 = none := by
  fun_induction decode c buffer with
  | case1 c buffer hs => exact ⟨rfl, hs⟩
  | case2 c buffer s hs hlt item hi => cases h
  | case3 c buffer s hs hlt hi ih => exact ih h

/-- Bytes that are skipped at the front are skipped whatever stands behind the rest. -/
theorem decode_append (h : (c.decode buffer).1 = none) (hrest : (c.decode buffer).2.2 ≠ [])
    (more : Bytes) :
    c.decode (buffer ++ more) =
      (c.decode buffer).2.1.decode ((c.decode buffer).2.2 ++ more) := by
  fun_induction decode c buffer with
  | case1 c buffer hs => rfl
  | case2 c buffer s hs hlt item hi => cases h
  | case3 c buffer s hs hlt hi ih =>
    rw [← ih h hrest]
    obtain ⟨hpos, -, hconsumed, hskip⟩ | ⟨-, f, -, hf, -⟩ := segment_inv hs
    · -- all of the buffer is skipped, or the same bytes are skipped of the longer one
      by_cases hall : buffer.length ≤ c.skip
      · have hdrop : buffer.drop s.consumed = [] := List.drop_eq_nil_of_le (by omega)
        have hidle : segment c.config s.skip [] = none := by
          rw [segment]
          split
          · rfl
          · rw [Frame.decode_of_short (by decide)]
        rw [hdrop, decode_idle (c := { c with skip := s.skip }) hidle] at hrest
        exact absurd rfl hrest
      · have hlong : segment c.config c.skip (buffer ++ more) = some s := by
          have hne : ¬ (buffer ++ more).isEmpty = true := by
            simp only [List.isEmpty_iff, List.append_eq_nil_iff]
            rintro ⟨rfl, -⟩
            exact hall (Nat.zero_le _)
          have hsame : min c.skip (buffer ++ more).length = s.consumed := by
            rw [List.length_append]
            omega
          rw [segment, if_pos hpos, if_neg hne]
          simp only [hsame, ← hskip, ← hi]
        rw [decode_skip hlong hi, List.drop_append_of_le_length (by omega)]
    · rw [hi] at hf
      cases hf

theorem decodeEnd_of_truncated {buffered missing : Nat}
    (h : (c.decodeEnd buffer).1 = .error (.truncated buffered missing)) :
    (c.decode buffer).1 = none ∧ (c.decode buffer).2.2 ≠ [] ∧
      (c.decode buffer).2.1.skip = 0 ∧
      Frame.decode c.config (c.decode buffer).2.2 = .ok none ∧
      buffered = (c.decode buffer).2.2.length ∧
      missing = missingBytes 0 (c.decode buffer).2.2 := by
  cases hd : (c.decode buffer).1 with
  | some item =>
    rw [decodeEnd_of_some hd] at h
    cases h
  | none =>
    rw [(decodeEnd_of_none hd).1] at h
    by_cases he : (c.decode buffer).2.2.isEmpty = true
    · rw [if_pos he] at h
      cases h
    · rw [if_neg he] at h
      have hne : (c.decode buffer).2.2 ≠ [] := fun hn => he (List.isEmpty_iff.2 hn)
      rcases segment_eq_none (segment_of_decode_none hd).2 with ⟨-, hn⟩ | ⟨hz, hn⟩
      · exact absurd hn hne
      · rw [hz] at h
        cases h
        exact ⟨rfl, hne, hz, finding?_eq_none_iff.1 hn, rfl, rfl⟩

theorem decode_of_fewer (hd : (c.decode buffer).1 = none) (hrest : (c.decode buffer).2.2 ≠ [])
    (hz : (c.decode buffer).2.1.skip = 0)
    (hnone : Frame.decode c.config (c.decode buffer).2.2 = .ok none) {more : Bytes}
    (hm : more.length < missingBytes 0 (c.decode buffer).2.2) :
    (c.decode (buffer ++ more)).1 = none := by
  have hwaits := Stream.decode_of_fewer hnone hm
  have hidle : segment (c.decode buffer).2.1.config (c.decode buffer).2.1.skip
      ((c.decode buffer).2.2 ++ more) = none := by
    rw [hz, (segment_of_decode_none hd).1, segment, if_neg (Nat.lt_irrefl 0), hwaits]
  rw [decode_append hd hrest, decode_idle hidle]

end Codec

/-- The number of missing bytes that an assembler or a codec reports at the end of its stream is
the least that may complete what is left: fewer bytes before the end would have given no item, and
if the lengths of the frame are there, just as many give one item and leave nothing. -/
theorem truncated_lacks :
    (∀ (a : Assembler) (buffered missing : Nat),
      a.finish.1 = .error (.truncated buffered missing) →
      a.unread.length = buffered ∧ Lacks a.config.frame a.unread missing ∧
      ∀ more : Bytes, more.length < missing →
        ∃ b, a.unannounced.feed more = .ok b ∧ b.drain.1 = []) ∧
    (∀ (c : Codec) (buffer : Bytes) (buffered missing : Nat),
      (c.decodeEnd buffer).1 = .error (.truncated buffered missing) →
      let rest := (c.decode buffer).2.2
      rest.length = buffered ∧ Lacks c.config rest missing ∧
      ∀ more : Bytes, more.length < missing → (c.decode (buffer ++ more)).1 = none) := by
  constructor
  · intro a buffered missing h
    obtain ⟨hi, hu, hz, rfl, rfl⟩ := Assembler.finish_of_truncated h
    have hlacks := lacks_missingBytes (Assembler.decode_of_idle hi hz)
    exact ⟨rfl, hlacks, fun more hm => Assembler.drain_of_fewer hi hu hz hm⟩
  · intro c buffer buffered missing h rest
    obtain ⟨hd, hne, hz, hnone, rfl, rfl⟩ := Codec.decodeEnd_of_truncated h
    exact ⟨rfl, lacks_missingBytes hnone, fun more hm => Codec.decode_of_fewer hd hne hz hnone hm⟩

/-- Thirteen bytes of a frame of sixteen. -/
def brokenFrame : Bytes :=
  [0, 0, 0, 16, 0, 0, 0, 0, 0x05, 0xc2, 0x48, 0xeb, 0x7d]

theorem truncated_lacks_three :
    (History.run {} [.feed brokenFrame]).assembler.finish.1 = .error (.truncated 13 3) ∧
    Lacks {} brokenFrame 3 ∧
    (Codec.decodeEnd { skip := 2 } ([7, 7] ++ brokenFrame)).1 = .error (.truncated 13 3) ∧
    (Codec.decode { skip := 2 } ([7, 7] ++ brokenFrame ++ [0x98, 0xc8])).1 = none := by
  have hfinish : (History.run {} [.feed brokenFrame]).assembler.finish.1 =
      .error (.truncated 13 3) := by decide +kernel
  have hend : (Codec.decodeEnd { skip := 2 } ([7, 7] ++ brokenFrame)).1 =
      .error (.truncated 13 3) := by cbv
  obtain ⟨-, hlacks, -⟩ := truncated_lacks.1 _ _ _ hfinish
  obtain ⟨-, -, hfewer⟩ := truncated_lacks.2 _ _ _ _ hend
  exact ⟨hfinish, hlacks, hend, hfewer [0x98, 0xc8] (by decide)⟩

end Stream

end EventStream
