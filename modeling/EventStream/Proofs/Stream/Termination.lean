import EventStream.Proofs.Stream.Entries
import EventStream.Proofs.Stream.Mirror

/-!
How soon the loops of decoding end. Every step gets ahead, by no less than a prelude if it gives an
item; a step without an item leaves nothing to be skipped, or no bytes. A search for the next item
is therefore over in the second round, and the rounds of a loop over many items are bounded by the
preludes that fit into the bytes.
-/

set_option autoImplicit false

namespace EventStream.Stream

open EventStream.Frame

inductive Round (State Result : Type) where
  | again (state : State)
  | done (result : Result)

/-- A loop that is entered in a state comes to a result in so many rounds. -/
inductive ComesTo {State Result : Type} (body : State → Round State Result) :
    State → Nat → Result → Prop
  | done {state : State} {result : Result} (h : body state = .done result) :
      ComesTo body state 1 result
  | again {state next : State} {rounds : Nat} {result : Result} (h : body state = .again next)
      (rest : ComesTo body next rounds result) : ComesTo body state (rounds + 1) result

def Assembler.seek (a : Assembler) : Round Assembler (Option Item × Assembler) :=
  if a.state = .closed then .done (none, a)
  else match segment a.config.frame a.skip a.unread with
    | none => .done (none, a)
    | some s =>
      match s.item with
      | some item => .done (some item, a.advance s)
      | none => .again (a.advance s)

def Codec.seek : Codec × Bytes → Round (Codec × Bytes) (Option Item × Codec × Bytes)
  | (c, buffer) =>
    match segment c.config c.skip buffer with
    | none => .done (none, c, buffer)
    | some s =>
      match s.item with
      | some item => .done (some item, { c with skip := s.skip }, buffer.drop s.consumed)
      | none => .again ({ c with skip := s.skip }, buffer.drop s.consumed)

def Assembler.gather :
    List Item × Assembler → Round (List Item × Assembler) (List Item × Assembler)
  | (items, a) =>
    match a.next with
    | (none, a) => .done (items, a)
    | (some item, a) => .again (items ++ [item], a)

def Listing.walk (config : Frame.Config) (bytes : Bytes) :
    Nat × List (Nat × Entry) → Round (Nat × List (Nat × Entry)) Listing
  | (offset, passed) =>
    if offset < bytes.length then
      match Entry.first? config (bytes.drop offset) with
      | none => .done ⟨passed, bytes.length - offset⟩
      | some entry => .again (offset + entry.size, passed ++ [(offset, entry)])
    else .done ⟨passed, bytes.length - offset⟩

structure Segment.Advances (s : Segment) (bytes : Bytes) : Prop where
  pos : 1 ≤ s.consumed
  le : s.consumed ≤ bytes.length
  item : ∀ item, s.item = some item → preludeLength ≤ s.consumed
  skipped : s.item = none → s.skip = 0 ∨ s.consumed = bytes.length

section steps

variable {config : Frame.Config} {skip : Nat} {bytes : Bytes} {s : Segment}

theorem segment_advances (h : segment config skip bytes = some s) : s.Advances bytes := by
  obtain ⟨hpos, hle⟩ := segment_consumed h
  refine ⟨hpos, hle, fun item hi => segment_item_consumed h hi, fun hi => ?_⟩
  obtain ⟨-, -, hconsumed, hskip⟩ | ⟨-, f, -, hf, -⟩ := segment_inv h
  · omega
  · rw [hi] at hf
    cases hf

/-- Behind a step without an item there is nothing to skip, or no byte. -/
theorem Segment.Advances.settled (h : s.Advances bytes) (hi : s.item = none) :
    s.skip = 0 ∨ bytes.drop s.consumed = [] :=
  (h.skipped hi).imp_right fun hall => List.drop_eq_nil_of_le (Nat.le_of_eq hall.symm)

/-- Where there is nothing to skip, or no byte, a step gives an item. -/
theorem item_ne_none_of_settled (h : segment config skip bytes = some s)
    (hsettled : skip = 0 ∨ bytes = []) : s.item ≠ none := by
  intro hi
  obtain ⟨hpos, -⟩ | ⟨-, f, -, hf, -⟩ := segment_inv h
  · obtain ⟨hone, hle⟩ := segment_consumed h
    rcases hsettled with rfl | rfl
    · exact Nat.lt_irrefl 0 hpos
    · exact Nat.not_lt.2 hle hone
  · rw [hi] at hf
    cases hf

end steps

namespace Assembler

/-- A round ends the search, or goes on behind a step without an item. -/
theorem seek_cases (a : Assembler) :
    a.seek = .done a.next ∨
      ∃ s, segment a.config.frame a.skip a.unread = some s ∧ s.item = none ∧
        a.seek = .again (a.advance s) ∧ a.next = (a.advance s).next := by
  by_cases hc : a.state = .closed
  · left
    rw [seek, if_pos hc, next, if_pos hc]
  · rw [seek, if_neg hc]
    cases hs : segment a.config.frame a.skip a.unread with
    | none =>
      left
      rw [next_idle hc hs]
    | some s =>
      cases hi : s.item with
      | some item =>
        left
        simp only [hi, next_item hc hs hi]
      | none =>
        right
        exact ⟨s, rfl, hi, by simp only [hi], next_skip hc hs hi⟩

theorem comesTo_next (a : Assembler) : ∃ rounds ≤ 2, ComesTo seek a rounds a.next := by
  obtain hdone | ⟨s, hs, hi, hagain, hnext⟩ := a.seek_cases
  · exact ⟨1, Nat.le_succ 1, .done hdone⟩
  · -- However many bytes were to be skipped, they take up this round alone.
    have hsettled := (segment_advances hs).settled hi
    rw [← advance_unread] at hsettled
    obtain hdone | ⟨t, ht, hnone, -⟩ := (a.advance s).seek_cases
    · rw [hnext]
      exact ⟨2, Nat.le_refl 2, .again hagain (.done hdone)⟩
    · exact absurd hnone (item_ne_none_of_settled ht hsettled)

section gather

variable {a : Assembler} {item : Item}

theorem gather_of_none (items : List Item) (h : a.next.1 = none) :
    gather (items, a) = .done (items, a.next.2) := by
  rw [gather]
  generalize a.next = r at h
  obtain ⟨found, b⟩ := r
  cases h
  rfl

theorem gather_of_some (items : List Item) (h : a.next.1 = some item) :
    gather (items, a) = .again (items ++ [item], a.next.2) := by
  rw [gather]
  generalize a.next = r at h
  obtain ⟨found, b⟩ := r
  cases h
  rfl

end gather

/-- Items are gathered until there is none, if only they are fewer than were asked for. -/
theorem comesTo_take (a : Assembler) (items : List Item) {limit : Nat}
    (h : (a.take limit).1.length < limit) :
    ComesTo gather (items, a) ((a.take limit).1.length + 1)
      (items ++ (a.take limit).1, (a.take limit).2) := by
  induction limit generalizing a items with
  | zero => exact absurd h (Nat.not_lt_zero _)
  | succ limit ih =>
    cases hn : a.next.1 with
    | none =>
      rw [take_of_none hn, List.append_nil]
      exact .done (gather_of_none items hn)
    | some item =>
      rw [take_of_some hn] at h ⊢
      have hrest := ih a.next.2 (items ++ [item]) (Nat.lt_of_succ_lt_succ h)
      rw [List.append_assoc] at hrest
      exact .again (gather_of_some items hn) hrest

/-- The bound within which items are drained never cuts a row of them short. -/
theorem comesTo_drain (a : Assembler) :
    ∃ items b, ComesTo gather ([], a) (items.length + 1) (items, b) ∧ a.drain = (items, b.settle) ∧
      items.length ≤ a.buffered / preludeLength := by
  have hlength := take_length (a.buffered + 1) a
  have hfew : preludeLength * (a.take (a.buffered + 1)).1.length ≤ a.buffered :=
    Nat.le_trans (Nat.le_add_right _ _) hlength
  have hlimit : (a.take (a.buffered + 1)).1.length < a.buffered + 1 := by
    rw [preludeLength] at hfew
    omega
  refine ⟨(a.take (a.buffered + 1)).1, (a.take (a.buffered + 1)).2, comesTo_take a [] hlimit,
    rfl, ?_⟩
  rw [Nat.le_div_iff_mul_le (by decide), Nat.mul_comm]
  exact hfew

end Assembler

namespace Codec

theorem seek_cases (c : Codec) (buffer : Bytes) :
    seek (c, buffer) = .done (c.decode buffer) ∨
      ∃ s, segment c.config c.skip buffer = some s ∧ s.item = none ∧
        seek (c, buffer) = .again ({ c with skip := s.skip }, buffer.drop s.consumed) ∧
        c.decode buffer = decode { c with skip := s.skip } (buffer.drop s.consumed) := by
  rw [seek]
  cases hs : segment c.config c.skip buffer with
  | none =>
    left
    rw [decode_idle hs]
  | some s =>
    cases hi : s.item with
    | some item =>
      left
      simp only [hi, decode_item hs hi]
    | none =>
      right
      exact ⟨s, rfl, hi, by simp only [hi], decode_skip hs hi⟩

theorem comesTo_decode (c : Codec) (buffer : Bytes) :
    ∃ rounds ≤ 2, ComesTo seek (c, buffer) rounds (c.decode buffer) := by
  obtain hdone | ⟨s, hs, hi, hagain, hdecode⟩ := c.seek_cases buffer
  · exact ⟨1, Nat.le_succ 1, .done hdone⟩
  · have hsettled := (segment_advances hs).settled hi
    obtain hdone | ⟨t, ht, hnone, -⟩ :=
      seek_cases { c with skip := s.skip } (buffer.drop s.consumed)
    · rw [hdecode]
      exact ⟨2, Nat.le_refl 2, .again hagain (.done hdone)⟩
    · exact absurd hnone (item_ne_none_of_settled ht hsettled)

end Codec

namespace Listing

/-- From any offset on, a walk passes what a listing of the bytes behind it has. -/
theorem comesTo_from (config : Frame.Config) (bytes : Bytes) (offset : Nat)
    (passed : List (Nat × Entry)) :
    let rest := Listing.from config offset (bytes.drop offset)
    ComesTo (walk config bytes) (offset, passed) (rest.entries.length + 1)
      ⟨passed ++ rest.entries, rest.trailing⟩ := by
  generalize hdrop : bytes.drop offset = behind
  fun_induction Listing.from config offset behind generalizing passed with
  | case1 offset behind hfirst =>
    have hlength : bytes.length - offset = behind.length := by rw [← hdrop, List.length_drop]
    apply ComesTo.done
    rw [walk, hdrop, hfirst, hlength, List.append_nil]
    exact ite_self _
  | case2 offset behind entry hfirst hlt rest ih =>
    have hin : offset < bytes.length := by
      rw [← hdrop, List.length_drop] at hlt
      omega
    have hbehind : bytes.drop (offset + entry.size) = behind.drop entry.size := by
      rw [← List.drop_drop, hdrop]
    have hrest : ComesTo (walk config bytes) (offset + entry.size, passed ++ [(offset, entry)])
        (rest.entries.length + 1) ⟨passed ++ [(offset, entry)] ++ rest.entries, rest.trailing⟩ :=
      ih _ hbehind
    rw [List.append_assoc] at hrest
    refine .again ?_ hrest
    rw [walk, if_pos hin, hdrop, hfirst]

theorem entries_length (config : Frame.Config) (bytes : Bytes) :
    preludeLength * (Listing.of config bytes).entries.length ≤ bytes.length := by
  have hitems := congrArg List.length (from_findings config 0 bytes).1
  rw [List.length_map, List.length_map] at hitems
  rw [Listing.of, hitems]
  exact findings_length config bytes

theorem comesTo_of (config : Frame.Config) (bytes : Bytes) :
    ∃ rounds ≤ bytes.length / preludeLength + 1,
      ComesTo (walk config bytes) (0, []) rounds (Listing.of config bytes) := by
  refine ⟨_, ?_, comesTo_from config bytes 0 []⟩
  have hlength := entries_length config bytes
  rw [Nat.mul_comm, ← Nat.le_div_iff_mul_le (by decide)] at hlength
  exact Nat.succ_le_succ hlength

end Listing

/-- Every step gets ahead and every error of reading tells how far to skip, so that decoding ends on
all bytes: a search in two rounds, a walk in a round for each prelude that has room and one more. As
many items are gathered at most. -/
theorem decoding_ends :
    (∀ (config : Frame.Config) (skip : Nat) (bytes : Bytes) (s : Segment),
      segment config skip bytes = some s → s.Advances bytes) ∧
    (∀ (config : Frame.Config) (bytes : Bytes) (error : Frame.Error),
      Frame.decode config bytes = .error error →
      error.resyncLength? = some (max (declaredLength bytes) preludeLength) ∧
      (∀ size, error ≠ .encodeTooLarge size) ∧ ∀ cause, error ≠ .oversize cause) ∧
    (∀ a : Assembler, ∃ rounds ≤ 2, ComesTo Assembler.seek a rounds a.next) ∧
    (∀ (c : Codec) (buffer : Bytes),
      ∃ rounds ≤ 2, ComesTo Codec.seek (c, buffer) rounds (c.decode buffer)) ∧
    (∀ (config : Frame.Config) (bytes : Bytes), ∃ rounds ≤ bytes.length / preludeLength + 1,
      ComesTo (Listing.walk config bytes) (0, []) rounds (Listing.of config bytes)) ∧
    ∀ a : Assembler, ∃ items b, ComesTo Assembler.gather ([], a) (items.length + 1) (items, b) ∧
      a.drain = (items, b.settle) ∧ items.length ≤ a.buffered / preludeLength := by
  refine ⟨?_, ?_, Assembler.comesTo_next, Codec.comesTo_decode, Listing.comesTo_of,
    Assembler.comesTo_drain⟩
  · intro config skip bytes s h
    exact segment_advances h
  · intro config bytes error h
    exact ⟨decode_error_resyncLength? h, decode_error_ne h⟩

def zeroPrelude : Bytes :=
  [0, 0, 0, 0, 0, 0, 0, 0, 0, 0, 0, 0, 7, 7]

theorem decoding_ends_zero :
    Frame.decode {} zeroPrelude = .error (.lengthMismatch 0 0) ∧
    (Frame.Error.lengthMismatch 0 0).resyncLength? =
      some (max (declaredLength zeroPrelude) preludeLength) ∧
    segment {} 0 zeroPrelude = some ⟨12, 0, some (.error (.frame (.lengthMismatch 0 0)))⟩ ∧
    Segment.Advances ⟨12, 0, some (.error (.frame (.lengthMismatch 0 0)))⟩ zeroPrelude ∧
    segment {} 15 zeroPrelude = some ⟨14, 1, none⟩ ∧
    Segment.Advances ⟨14, 1, none⟩ zeroPrelude := by
  have hdecode : Frame.decode {} zeroPrelude = .error (.lengthMismatch 0 0) := by decide +kernel
  have hfound : segment {} 0 zeroPrelude =
      some ⟨12, 0, some (.error (.frame (.lengthMismatch 0 0)))⟩ := by
    rw [segment, hdecode]
    rfl
  have hskipped : segment {} 15 zeroPrelude = some ⟨14, 1, none⟩ := rfl
  exact ⟨hdecode, (decoding_ends.2.1 _ _ _ hdecode).1, hfound, decoding_ends.1 _ _ _ _ hfound,
    hskipped, decoding_ends.1 _ _ _ _ hskipped⟩

end EventStream.Stream
