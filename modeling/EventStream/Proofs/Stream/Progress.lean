import EventStream.Proofs.Stream.Operations

/-!
How far an assembler has come. Its unread bytes are the end of all bytes fed, its findings so far
are the first ones of those bytes, and what it has passed and will skip reaches exactly behind
them. Every operation of an assembler that is not closed keeps this.
-/

set_option autoImplicit false

namespace EventStream.Stream

def Item.resyncLength : Item → Nat
  | .error (.frame error) => error.resyncLength?.getD 0
  | _ => 0

def Item.isEvent : Item → Bool
  | .ok _ => true
  | .error _ => false

def Item.isEventError : Item → Bool
  | .error (.event _) => true
  | _ => false

def Item.isFrameError : Item → Bool
  | .error (.frame _) => true
  | _ => false

namespace Assembler

/-- Counters agree with the findings so far and the bytes still to be skipped. -/
structure Counted (stats : Stats) (skip : Nat) (found : List Finding) : Prop where
  framesDecoded : stats.framesDecoded = stats.events + stats.eventErrors
  events : stats.events = (found.map Finding.item).countP Item.isEvent
  eventErrors : stats.eventErrors = (found.map Finding.item).countP Item.isEventError
  frameErrors : stats.frameErrors = (found.map Finding.item).countP Item.isFrameError
  bytesSkipped : stats.bytesSkipped + skip = (found.map Finding.damageLength).sum

/-- Where an assembler stands in the bytes that it was fed. -/
structure Progress (a : Assembler) (fed : Bytes) (found : List Finding) : Prop where
  first : found <+: findings a.config.frame fed
  rest : a.unread <:+ fed
  position : fed.length + a.skip = span found + a.unread.length
  bounded : a.cursor ≤ a.buffer.length
  bytesFed : a.stats.bytesFed = fed.length
  counted : Counted a.stats a.skip found

variable {a b : Assembler} {fed : Bytes} {found : List Finding}

theorem Counted.skip {stats : Stats} {skip : Nat} {s : Segment} (h : Counted stats skip found)
    (hi : s.item = none) (hs : s.consumed + s.skip = skip) :
    Counted (stats.count s) s.skip found := by
  have hb := h.bytesSkipped
  rw [Stats.count, hi]
  exact ⟨h.framesDecoded, h.events, h.eventErrors, h.frameErrors, by simp only; omega⟩

/-- A step over a finding counts its item, and its bytes if they are skipped. -/
theorem Counted.finding {stats : Stats} {f : Finding} {s : Segment} (h : Counted stats 0 found)
    (hi : s.item = some f.item) (hs : s.consumed + s.skip = f.extent)
    (hframe : f.damageLength = 0 → s.skip = 0) :
    Counted (stats.count s) s.skip (found ++ [f]) := by
  obtain ⟨hd, he, hee, hfe, hb⟩ := h
  have hsum : ((found ++ [f]).map Finding.damageLength).sum =
      (found.map Finding.damageLength).sum + f.damageLength := by
    rw [List.map_append, List.sum_append]
    rfl
  have hcount : ∀ p : Item → Bool, ((found ++ [f]).map Finding.item).countP p =
      (found.map Finding.item).countP p + if p f.item then 1 else 0 := by
    intro p
    rw [List.map_append, List.countP_append]
    exact congrArg _ (List.countP_singleton ..)
  rw [Stats.count, hi]
  cases f with
  | frame whole =>
    have hz := hframe rfl
    have hw : (Finding.frame whole).damageLength = 0 := rfl
    have hkind : (∃ event, (Finding.frame whole).item = .ok event) ∨
        ∃ error, (Finding.frame whole).item = .error (.event error) := itemOf_cases whole
    rcases hkind with ⟨event, hitem⟩ | ⟨error, hitem⟩
    all_goals
      rw [hitem]
      constructor
    all_goals
      simp only [hsum, hcount, hitem, hw, hz, Item.isEvent, Item.isEventError, Item.isFrameError,
        if_true, Bool.false_eq_true, if_false]
      omega
  | damage error =>
    have hw : (Finding.damage error).extent = (Finding.damage error).damageLength := Nat.zero_add _
    constructor
    all_goals
      simp only [hsum, hcount, Finding.item, Item.isEvent, Item.isEventError, Item.isFrameError,
        if_true, Bool.false_eq_true, if_false]
      omega

theorem Progress.unread_eq (h : Progress a fed found) :
    a.unread = fed.drop (fed.length - a.unread.length) :=
  List.suffix_iff_eq_drop.1 h.rest

/-- Without bytes to skip, the unread bytes stand right behind the findings. -/
theorem Progress.drop_span (h : Progress a fed found) (hs : a.skip = 0) :
    fed.drop (span found) = a.unread := by
  have hp := h.position
  have hl := h.rest.length_le
  have he : span found = fed.length - a.unread.length := by omega
  rw [he]
  exact h.unread_eq.symm

theorem Progress.advance_skip {s : Segment} (h : Progress a fed found)
    (hs : segment a.config.frame a.skip a.unread = some s) (hi : s.item = none) :
    Progress (a.advance s) fed found := by
  obtain ⟨hpos, -, hc, hk⟩ | ⟨-, f, -, hf, -⟩ := segment_inv hs
  · have hp := h.position
    have hu : (a.advance s).unread.length = a.unread.length - s.consumed := by
      rw [advance_unread, List.length_drop]
    refine ⟨h.first, ?_, ?_, advance_bounded h.bounded hs, ?_, ?_⟩
    · rw [advance_unread]
      exact (List.drop_suffix _ _).trans h.rest
    · rw [hu]
      simp only [advance]
      omega
    · simp only [advance, Stats.count, hi]
      exact h.bytesFed
    · exact h.counted.skip hi (by omega)
  · rw [hi] at hf
    cases hf

theorem Progress.advance_item {s : Segment} {item : Item} (h : Progress a fed found)
    (hs : segment a.config.frame a.skip a.unread = some s) (hi : s.item = some item) :
    ∃ f, f.item = item ∧ Progress (a.advance s) fed (found ++ [f]) := by
  obtain ⟨-, hn, -⟩ | ⟨hzero, f, hfind, hf, hc, hk, hframe⟩ := segment_inv hs
  · rw [hi] at hn
    cases hn
  · have hp := h.position
    have hu : (a.advance s).unread.length = a.unread.length - s.consumed := by
      rw [advance_unread, List.length_drop]
    have hitem : f.item = item := by
      rw [hf] at hi
      exact Option.some.inj hi
    have hsplit : s.consumed + s.skip = f.extent := by omega
    refine ⟨f, hitem, ?_, ?_, ?_, advance_bounded h.bounded hs, ?_, ?_⟩
    · obtain ⟨more, hmore⟩ := h.first
      have hd := findings_drop hmore.symm
      rw [h.drop_span hzero, findings_of_some hfind] at hd
      refine ⟨findings a.config.frame (a.unread.drop f.extent), ?_⟩
      rw [List.append_assoc, List.singleton_append, hd]
      exact hmore
    · rw [advance_unread]
      exact (List.drop_suffix _ _).trans h.rest
    · rw [hu, span_append, span_cons, span_nil]
      simp only [advance]
      omega
    · have hb : (a.stats.count s).bytesFed = a.stats.bytesFed := by
        unfold Stats.count
        split <;> rfl
      exact hb.trans h.bytesFed
    · exact (hzero ▸ h.counted).finding hf hsplit hframe

/-- The next item is the next finding; where there is none, no step is possible. -/
theorem Progress.next (h : Progress a fed found) (ha : a.state ≠ .closed) :
    (a.next.1 = none ∧ Progress a.next.2 fed found ∧ a.next.2.IsIdle) ∨
      ∃ f, a.next.1 = some f.item ∧ Progress a.next.2 fed (found ++ [f]) := by
  fun_induction Assembler.next a with
  | case1 a hc => exact absurd hc ha
  | case2 a hc hs => exact Or.inl ⟨rfl, h, hs⟩
  | case3 a hc s hs hlt item hi =>
    obtain ⟨f, hf, hp⟩ := h.advance_item hs hi
    exact Or.inr ⟨f, congrArg some hf.symm, hp⟩
  | case4 a hc s hs hlt hi ih => exact ih (h.advance_skip hs hi) ha

/-- Items taken out are findings, and where fewer were there than allowed, none is left. -/
theorem Progress.take (h : Progress a fed found) (ha : a.state ≠ .closed) (limit : Nat) :
    ∃ more, (a.take limit).1 = more.map Finding.item ∧
      Progress (a.take limit).2 fed (found ++ more) ∧
      (more.length < limit → (a.take limit).2.IsIdle) := by
  induction limit generalizing a found with
  | zero =>
    refine ⟨[], rfl, ?_, fun hlt => absurd hlt (Nat.lt_irrefl 0)⟩
    rw [List.append_nil]
    exact h
  | succ limit ih =>
    obtain ⟨hn, hp, hidle⟩ | ⟨f, hn, hp⟩ := h.next ha
    · rw [take_of_none hn]
      refine ⟨[], rfl, ?_, fun _ => hidle⟩
      rw [List.append_nil]
      exact hp
    · obtain ⟨more, hitems, hmore, hidle⟩ := ih hp (by rw [next_state]; exact ha)
      rw [take_of_some hn]
      refine ⟨f :: more, by rw [hitems, List.map_cons], ?_, ?_⟩
      · rw [List.append_assoc] at hmore
        exact hmore
      · intro hlt
        exact hidle (by simpa using hlt)

theorem Progress.compact (h : Progress a fed found) : Progress a.compact fed found := by
  refine ⟨by rw [compact_config]; exact h.first, by rw [compact_unread]; exact h.rest,
    by rw [compact_unread, compact_skip]; exact h.position, compact_bounded h.bounded,
    by rw [compact_stats]; exact h.bytesFed, ?_⟩
  rw [compact_stats, compact_skip]
  exact ⟨h.counted.framesDecoded, h.counted.events, h.counted.eventErrors, h.counted.frameErrors,
    h.counted.bytesSkipped⟩

theorem Progress.settle (h : Progress a fed found) : Progress a.settle fed found := by
  rcases settle_cases a with hs | hs
  · rw [hs]
    exact h.compact
  · rw [hs]
    exact h

theorem Progress.drainSome (h : Progress a fed found) (ha : a.state ≠ .closed) (limit : Nat) :
    ∃ more, (a.drainSome limit).1 = more.map Finding.item ∧
      Progress (a.drainSome limit).2 fed (found ++ more) ∧
      (more.length < limit → (a.drainSome limit).2.IsIdle) := by
  obtain ⟨more, hitems, hp, hidle⟩ := h.take ha limit
  exact ⟨more, hitems, hp.settle, fun hlt => settle_isIdle.2 (hidle hlt)⟩

theorem Progress.drain (h : Progress a fed found) (ha : a.state ≠ .closed) :
    ∃ more, a.drain.1 = more.map Finding.item ∧ Progress a.drain.2 fed (found ++ more) ∧
      a.drain.2.IsIdle := by
  obtain ⟨more, hitems, hp, hidle⟩ := h.drainSome ha (a.buffered + 1)
  refine ⟨more, hitems, hp, hidle ?_⟩
  have hl := take_length (a.buffered + 1) a
  have he : more.length = (a.take (a.buffered + 1)).1.length := by
    rw [← List.length_map Finding.item, ← hitems]
    rfl
  rw [Frame.preludeLength] at hl
  rw [buffered] at *
  omega

/-- Where no step is possible, the findings are those of all bytes fed, and the first bytes behind
them are the unread ones. -/
theorem Progress.settled (h : Progress a fed found) (hi : a.IsIdle) :
    found = findings a.config.frame fed ∧ a.skip = span found - fed.length ∧
      a.unread = fed.drop (span found) := by
  have hp := h.position
  have hrest : a.skip = span found - fed.length ∧ a.unread = fed.drop (span found) ∧
      finding? a.config.frame (fed.drop (span found)) = none := by
    rcases segment_eq_none hi with ⟨hpos, hu⟩ | ⟨hz, hn⟩
    · rw [hu, List.length_nil] at hp
      have hd : fed.drop (span found) = [] := List.drop_eq_nil_of_le (by omega)
      rw [hd]
      exact ⟨by omega, hu, finding?_nil a.config.frame⟩
    · rw [h.drop_span hz]
      have hl := h.rest.length_le
      exact ⟨by omega, rfl, hn⟩
  obtain ⟨hskip, hunread, hnone⟩ := hrest
  obtain ⟨more, hmore⟩ := h.first
  have hm := findings_drop hmore.symm
  rw [findings_of_none hnone] at hm
  rw [← hm, List.append_nil] at hmore
  exact ⟨hmore, hskip, hunread⟩

theorem Progress.feed (h : Progress a fed found) {chunk : Bytes} (hf : a.feed chunk = .ok b) :
    Progress b (fed ++ chunk) found := by
  have hunread := feed_unread h.bounded hf
  have hskip := feed_skip hf
  have hp := h.position
  refine ⟨?_, ?_, ?_, feed_bounded h.bounded hf, ?_, ?_⟩
  · rw [feed_config hf]
    exact h.first.trans (findings_append _ _ _)
  · rw [hunread]
    obtain ⟨front, hrest⟩ := h.rest
    exact ⟨front, by rw [← List.append_assoc, hrest]⟩
  · rw [hunread, hskip, List.length_append, List.length_append]
    omega
  · rw [feed_stats hf, List.length_append, h.settle.bytesFed]
  · rw [feed_stats hf, hskip, ← settle_skip]
    have hc := h.settle.counted
    exact ⟨hc.framesDecoded, hc.events, hc.eventErrors, hc.frameErrors, hc.bytesSkipped⟩

theorem Progress.fresh (config : Config) : Progress { config } [] [] :=
  ⟨List.nil_prefix, List.suffix_refl _, rfl, Nat.le_refl _, rfl, rfl, rfl, rfl, rfl, rfl⟩

end Assembler

end EventStream.Stream
