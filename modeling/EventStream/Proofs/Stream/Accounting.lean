import EventStream.Proofs.Stream.History

/-!
The counters of an assembler against what it has given: every byte fed belongs to a frame that was
decoded, was skipped, or is still there, and every item is counted once.
-/

set_option autoImplicit false

namespace EventStream.Stream

namespace Finding

def frame? : Finding → Option Frame
  | .frame whole => some whole
  | .damage _ => none

theorem resyncLength_item (f : Finding) : f.item.resyncLength = f.damageLength := by
  cases f with
  | frame whole =>
    rw [item]
    obtain ⟨event, h⟩ | ⟨error, h⟩ := itemOf_cases whole <;> rw [h] <;> rfl
  | damage error => rfl

theorem isFrameError_item (f : Finding) : f.item.isFrameError = f.frame?.isNone := by
  cases f with
  | frame whole =>
    rw [item]
    obtain ⟨event, h⟩ | ⟨error, h⟩ := itemOf_cases whole <;> rw [h] <;> rfl
  | damage error => rfl

theorem kinds_item (f : Finding) :
    (if f.item.isEvent then 1 else 0) + (if f.item.isEventError then 1 else 0) =
      if f.frame?.isSome then 1 else 0 := by
  cases f with
  | frame whole =>
    rw [item]
    obtain ⟨event, h⟩ | ⟨error, h⟩ := itemOf_cases whole <;> rw [h] <;> rfl
  | damage error => rfl

end Finding

section totals

variable {found : List Finding}

theorem span_eq (found : List Finding) :
    span found = (found.map Finding.frameLength).sum + (found.map Finding.damageLength).sum := by
  induction found with
  | nil => rfl
  | cons f found ih =>
    rw [span_cons, ih, Finding.extent, List.map_cons, List.map_cons, List.sum_cons, List.sum_cons]
    omega

theorem frameLength_sum (found : List Finding) :
    (found.map Finding.frameLength).sum =
      ((found.filterMap Finding.frame?).map Frame.totalLength).sum := by
  induction found with
  | nil => rfl
  | cons f found ih =>
    cases f with
    | frame whole => exact congrArg (whole.totalLength + ·) ih
    | damage error => exact (Nat.zero_add _).trans ih

theorem resyncLength_sum (found : List Finding) :
    ((found.map Finding.item).map Item.resyncLength).sum =
      (found.map Finding.damageLength).sum := by
  rw [List.map_map]
  exact congrArg List.sum (List.map_congr_left fun f _ => f.resyncLength_item)

theorem frames_length (found : List Finding) :
    (found.filterMap Finding.frame?).length =
      (found.map Finding.item).countP Item.isEvent +
        (found.map Finding.item).countP Item.isEventError := by
  induction found with
  | nil => rfl
  | cons f found ih =>
    have hk := f.kinds_item
    rw [List.map_cons, List.countP_cons, List.countP_cons]
    cases f with
    | frame whole =>
      change (found.filterMap Finding.frame?).length + 1 = _
      change _ = 1 at hk
      omega
    | damage error =>
      change (found.filterMap Finding.frame?).length = _
      change _ = 0 at hk
      omega

theorem found_length (found : List Finding) :
    found.length = (found.filterMap Finding.frame?).length +
      (found.map Finding.item).countP Item.isFrameError := by
  induction found with
  | nil => rfl
  | cons f found ih =>
    rw [List.map_cons, List.countP_cons, f.isFrameError_item, List.length_cons]
    cases f with
    | frame whole =>
      change _ = (found.filterMap Finding.frame?).length + 1 + (_ + 0)
      omega
    | damage error =>
      change _ = (found.filterMap Finding.frame?).length + (_ + 1)
      omega

end totals

namespace Assembler.Counted

variable {stats : Stats} {skip : Nat} {found : List Finding}

theorem frames (h : Counted stats skip found) :
    (found.filterMap Finding.frame?).length = stats.framesDecoded := by
  rw [frames_length, h.framesDecoded, h.events, h.eventErrors]

theorem items (h : Counted stats skip found) :
    (found.map Finding.item).length = stats.events + stats.eventErrors + stats.frameErrors := by
  rw [List.length_map, found_length, h.frames, h.framesDecoded, h.frameErrors]

/-- Bytes behind the findings, less those still to be skipped, are frames and skipped bytes. -/
theorem bytes (h : Counted stats skip found) {fed left : Nat}
    (hp : fed + skip = span found + left) :
    fed = ((found.filterMap Finding.frame?).map Frame.totalLength).sum + stats.bytesSkipped +
      left := by
  have hs := span_eq found
  have hf := frameLength_sum found
  have hb := h.bytesSkipped
  omega

end Assembler.Counted

namespace History

open Assembler

def found (h : History) : List Finding :=
  (findings h.assembler.config.frame h.fed).take h.items.length

def frames (h : History) : List Frame :=
  h.found.filterMap Finding.frame?

theorem found_eq {h : History} {found : List Finding}
    (hfirst : found <+: findings h.assembler.config.frame h.fed)
    (hitems : h.items = found.map Finding.item) : h.found = found := by
  rw [History.found, hitems, List.length_map]
  exact (List.prefix_iff_eq_take.1 hfirst).symm

/-- No byte and no item is lost, whatever is done with an assembler: as long as it is not closed,
and with what the call that closed it told. -/
theorem no_data_loss (config : Assembler.Config) (ops : List Op) :
    let h := run config ops
    let stats := h.assembler.stats
    h.items = h.found.map Finding.item ∧
    h.frames.length = stats.framesDecoded ∧
    stats.framesDecoded = stats.events + stats.eventErrors ∧
    h.items.length = stats.events + stats.eventErrors + stats.frameErrors ∧
    stats.bytesFed = h.fed.length ∧
    (h.assembler.state ≠ .closed →
      (h.items.map Item.resyncLength).sum = stats.bytesSkipped + h.assembler.skip ∧
      stats.bytesFed = (h.frames.map Frame.totalLength).sum + stats.bytesSkipped +
        h.assembler.buffered) ∧
    (h.assembler.state = .closed → ∃ result left, h.closing = some result ∧ Left result left ∧
      stats.bytesFed = (h.frames.map Frame.totalLength).sum + stats.bytesSkipped + left) := by
  intro h stats
  obtain ⟨found, hopen | hclosed⟩ := run_standing config ops
  · have hp := hopen.progress
    have hfound : h.found = found := found_eq hp.first hopen.items
    have hitems : h.items = found.map Finding.item := hopen.items
    have hbytes := hp.counted.bytes hp.position
    rw [frames, hfound, hitems]
    refine ⟨rfl, hp.counted.frames, hp.counted.framesDecoded, hp.counted.items, hp.bytesFed,
      fun _ => ⟨?_, hp.bytesFed.trans hbytes⟩, fun hc => absurd hc hopen.state⟩
    rw [resyncLength_sum]
    exact hp.counted.bytesSkipped.symm
  · obtain ⟨skip, left, result, hcounted, hp, hresult, hleft⟩ := hclosed.counted
    have hfound : h.found = found := found_eq hclosed.first hclosed.items
    have hitems : h.items = found.map Finding.item := hclosed.items
    have hbytes := hcounted.bytes hp
    rw [frames, hfound, hitems]
    exact ⟨rfl, hcounted.frames, hcounted.framesDecoded, hcounted.items, hclosed.bytesFed,
      fun hc => absurd hclosed.state hc,
      fun _ => ⟨result, left, hresult, hleft, hclosed.bytesFed.trans hbytes⟩⟩

end History

end EventStream.Stream
