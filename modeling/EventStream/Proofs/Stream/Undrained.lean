import EventStream.Proofs.Stream.Lifecycle

/-!
What is left where the end of a stream has to wait. The items still to be taken out are the
findings behind the bytes to be skipped. Bytes to be skipped that are there make the end wait as
well, also where there is nothing behind them: taking out all items then gives none, and the end
announced a second time closes.
-/

set_option autoImplicit false

namespace EventStream.Stream

theorem findings_eq_nil_iff {config : Frame.Config} {bytes : Bytes} :
    findings config bytes = [] ↔ finding? config bytes = none := by
  constructor
  · intro hnil
    cases hf : finding? config bytes with
    | none => rfl
    | some f =>
      rw [findings_of_some hf] at hnil
      cases hnil
  · exact findings_of_none

namespace Assembler

variable {a : Assembler} {fed : Bytes} {found : List Finding}

/-- The findings go on right behind the bytes that are to be skipped. -/
theorem Progress.drop_skip (h : Progress a fed found) :
    fed.drop (span found) = a.unread.drop a.skip := by
  have hp := h.position
  have hl := h.rest.length_le
  have he : span found = fed.length - a.unread.length + a.skip := by omega
  rw [he, ← List.drop_drop, ← h.unread_eq]

/-- All items that are left are those of the findings behind the bytes to be skipped. -/
theorem Progress.drain_eq (h : Progress a fed found) (ha : a.state ≠ .closed) :
    a.drain.1 = (findings a.config.frame (a.unread.drop a.skip)).map Finding.item ∧
      a.drain.2.IsIdle := by
  obtain ⟨more, hitems, hp, hidle⟩ := h.drain ha
  have hconfig : a.drain.2.config = a.config := drainSome_config (a.buffered + 1) a
  have hall := (hp.settled hidle).1
  rw [hconfig] at hall
  have hmore := findings_drop hall.symm
  rw [h.drop_skip] at hmore
  rw [hmore]
  exact ⟨hitems, hidle⟩

theorem Progress.announced (h : Progress a fed found) : Progress a.announced fed found :=
  ⟨h.first, h.rest, h.position, h.bounded, h.bytesFed, h.counted⟩

/-- The announced end changes nothing of the items that are left. -/
theorem Progress.drain_undrained {left : Nat} (h : Progress a fed found)
    (hf : a.finish.1 = .error (.undrained left)) :
    a.finish.2.drain.1 = (findings a.config.frame (a.unread.drop a.skip)).map Finding.item ∧
      a.finish.2.drain.2.IsIdle ∧ a.finish.2.drain.2.state = .draining := by
  rw [(finish_of_undrained hf).2]
  obtain ⟨hitems, hidle⟩ := h.announced.drain_eq State.noConfusion
  exact ⟨hitems, hidle, drainSome_state _ a.announced⟩

theorem finish_undrained {left : Nat} (hf : a.finish.1 = .error (.undrained left)) :
    left = a.buffered ∧ a.unread ≠ [] ∧ ¬ a.IsIdle := by
  have ha := (finish_of_undrained hf).1
  have hidle : ¬ a.IsIdle := by
    intro hi
    exact (finish_idle ha hi).2.1 left hf
  rcases finish_cases ha with ⟨hu, -⟩ | ⟨-, h⟩ | ⟨hi, -⟩
  · exact absurd (isIdle_of_unread hu) hidle
  · rw [h] at hf
    cases hf
    refine ⟨rfl, ?_, hidle⟩
    intro hu
    exact hidle (isIdle_of_unread hu)
  · exact absurd hi hidle

/-- Without bytes to skip there is a finding wherever a step is possible. -/
theorem findings_ne_nil (hz : a.skip = 0) (hi : ¬ a.IsIdle) :
    findings a.config.frame a.unread ≠ [] := by
  intro hnil
  apply hi
  cases hs : segment a.config.frame a.skip a.unread with
  | none => exact hs
  | some s =>
    rcases segment_inv hs with ⟨hpos, -⟩ | ⟨-, f, hf, -⟩
    · exact absurd hz (Nat.ne_of_gt hpos)
    · rw [findings_eq_nil_iff.1 hnil] at hf
      cases hf

end Assembler

namespace History

open Assembler

/-- The end of a stream that has to wait: the bytes told are those buffered, there are some, and
all items taken out behind it are those behind the bytes to be skipped. There is none only where
bytes are to be skipped that a damaged frame left, and no finding stands behind them. The end
announced once more closes. -/
theorem undrained_findings (config : Assembler.Config) (ops : List Op) (left : Nat)
    (h : (run config ops).assembler.finish.1 = .error (.undrained left)) :
    let a := (run config ops).assembler
    let drained := a.finish.2.drain
    left = a.buffered ∧ 0 < left ∧
    drained.1 = (findings config.frame (a.unread.drop a.skip)).map Finding.item ∧
    (drained.1 = [] → 0 < a.skip ∧
      Frame.decode config.frame (a.unread.drop a.skip) = .ok none) ∧
    drained.2.finish.2.state = .closed ∧
    (drained.2.finish.1 = .ok () ∨
      ∃ missing, drained.2.finish.1 = .error (.truncated drained.2.buffered missing)) := by
  intro a drained
  obtain ⟨hleft, hunread, hidle⟩ := finish_undrained h
  obtain ⟨found, hopen | hclosed⟩ := run_standing config ops
  · obtain ⟨hitems, hrest, hstate⟩ := hopen.progress.drain_undrained h
    obtain ⟨hend, -, hok, htruncated⟩ := finish_idle (hstate ▸ State.noConfusion) hrest
    have hconfig : a.config = config := run_config config ops
    refine ⟨hleft, ?_, hconfig ▸ hitems, ?_, hend, ?_⟩
    · rw [hleft]
      exact List.length_pos_of_ne_nil hunread
    · intro hnone
      have hfindings : findings a.config.frame (a.unread.drop a.skip) = [] :=
        List.map_eq_nil_iff.1 (hitems.symm.trans hnone)
      constructor
      · by_contra hz
        have hzero : a.skip = 0 := Nat.eq_zero_of_not_pos hz
        rw [hzero] at hfindings
        exact findings_ne_nil hzero hidle hfindings
      · rw [hconfig] at hfindings
        exact finding?_eq_none_iff.1 (findings_eq_nil_iff.1 hfindings)
    · by_cases hz : drained.2.buffered = 0
      · exact Or.inl (hok.2 hz)
      · exact Or.inr (htruncated hz)
  · exact absurd hclosed.state (finish_of_undrained h).1

/-- A damaged frame of forty bytes whose error was taken out, and five more of its bytes. -/
def damagedAndSkipped : List Op :=
  [.feed [0, 0, 0, 40, 0, 0, 0, 100, 0, 0, 0, 0], .drain, .feed [0, 0, 0, 0, 0]]

def skippedAndWhole : List Op :=
  [.feed [0, 0, 0, 20, 0, 0, 0, 0, 1, 1, 1, 1], .drain,
    .feed [7, 7, 7, 7, 7, 7, 7, 7, 0, 0, 0, 16, 0, 0, 0, 0, 0x05, 0xc2, 0x48, 0xeb, 0x7d, 0x98,
      0xc8, 0xff]]

theorem undrained_findings_skipped :
    (run {} damagedAndSkipped).assembler.finish.1 = .error (.undrained 5) ∧
    (run {} damagedAndSkipped).assembler.finish.2.drain.2.finish.2.state = .closed ∧
    (run { frame := .strict } skippedAndWhole).assembler.finish.1 = .error (.undrained 24) ∧
    (run { frame := .strict } skippedAndWhole).assembler.finish.2.drain.1.length = 1 := by
  have hdamaged : (run {} damagedAndSkipped).assembler.finish.1 = .error (.undrained 5) := by
    decide +kernel
  have hwhole : (run { frame := .strict } skippedAndWhole).assembler.finish.1 =
      .error (.undrained 24) := by decide +kernel
  obtain ⟨-, -, -, -, hclosed, -⟩ := undrained_findings {} damagedAndSkipped 5 hdamaged
  obtain ⟨-, -, hitems, -⟩ := undrained_findings { frame := .strict } skippedAndWhole 24 hwhole
  refine ⟨hdamaged, hclosed, hwhole, ?_⟩
  rw [hitems, List.length_map]
  decide +kernel

/-- The end waits also where no item is left. -/
theorem undrained_without_item :
    (run {} damagedAndSkipped).assembler.finish.1 = .error (.undrained 5) ∧
      (run {} damagedAndSkipped).assembler.finish.2.drain.1 = [] := by
  decide +kernel

end History

end EventStream.Stream
