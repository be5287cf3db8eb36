import EventStream.Proofs.Stream.Boundaries
import EventStream.Proofs.Stream.Schedule

/-!
Where an assembler decodes its items: at the boundaries that the lengths in the stream tell, however
the stream arrives and whatever is refused.
-/

set_option autoImplicit false

namespace EventStream.Stream

open EventStream.Frame

namespace Assembler

def place (a : Assembler) : Nat :=
  a.stats.bytesFed - a.buffered

/-- The next item as `next` takes it out, with the place of the cursor when it is decoded. -/
def nextPlaced (a : Assembler) : Option (Nat × Item) × Assembler :=
  if a.state = .closed then (none, a)
  else match step : segment a.config.frame a.skip a.unread with
    | none => (none, a)
    | some s =>
      have : (a.advance s).unread.length < a.unread.length := advance_unread_length step
      match s.item with
      | some item => (some (a.place, item), a.advance s)
      | none => (a.advance s).nextPlaced
termination_by a.unread.length

theorem nextPlaced_eq (a : Assembler) :
    (a.nextPlaced.1.map Prod.snd, a.nextPlaced.2) = a.next := by
  fun_induction nextPlaced a with
  | case1 a hc => rw [next, if_pos hc]; rfl
  | case2 a hc hs => rw [next_idle hc hs]; rfl
  | case3 a hc s hs hlt item hi => rw [next_item hc hs hi]; rfl
  | case4 a hc s hs hlt hi ih => rw [next_skip hc hs hi, ih]

def placed (a : Assembler) : Nat → List (Nat × Item)
  | 0 => []
  | limit + 1 =>
    match a.nextPlaced with
    | (none, _) => []
    | (some entry, b) => entry :: b.placed limit

theorem items_placed (a : Assembler) (limit : Nat) :
    (a.placed limit).map Prod.snd = (a.take limit).1 := by
  induction limit generalizing a with
  | zero => rfl
  | succ limit ih =>
    have hn := nextPlaced_eq a
    rw [placed, take, ← hn]
    generalize a.nextPlaced = r
    obtain ⟨entry, b⟩ := r
    cases entry with
    | none => rfl
    | some entry => rw [List.map_cons, ih]; rfl

variable {a : Assembler} {fed : Bytes} {found : List Finding}

theorem Progress.place_add_skip (h : Progress a fed found) : a.place + a.skip = span found := by
  have hl := h.rest.length_le
  have hp := h.position
  rw [place, h.bytesFed, buffered]
  omega

/-- An item is decoded behind the findings before it. -/
theorem Progress.offset (h : Progress a fed found) {offset : Nat} {item : Item}
    (hn : a.nextPlaced.1 = some (offset, item)) : offset = span found := by
  fun_induction Assembler.nextPlaced a with
  | case1 => cases hn
  | case2 => cases hn
  | case3 a hc s hs hlt found hi =>
    cases hn
    obtain ⟨-, hnone, -⟩ | ⟨hzero, -⟩ := segment_inv hs
    · rw [hi] at hnone
      cases hnone
    · -- A segment has an item only where nothing is left to skip.
      have hplace := h.place_add_skip
      omega
  | case4 a hc s hs hlt hi ih => exact ih (h.advance_skip hs hi) hn

theorem Progress.nextPlaced (h : Progress a fed found) {item : Item} (hn : a.next.1 = some item) :
    a.nextPlaced = (some (span found, item), a.next.2) := by
  have heq := nextPlaced_eq a
  have hoffset := @h.offset
  generalize a.nextPlaced = r at heq hoffset ⊢
  obtain ⟨entry, b⟩ := r
  cases entry with
  | none =>
    rw [← heq] at hn
    cases hn
  | some entry =>
    rw [← heq] at hn ⊢
    cases hn
    rw [← hoffset rfl]

/-- Items are decoded along the findings that they are. -/
theorem Progress.placed (h : Progress a fed found) (ha : a.state ≠ .closed) (limit : Nat) :
    ∃ more, a.placed limit = along (span found) more ∧
      Progress (a.take limit).2 fed (found ++ more) := by
  induction limit generalizing a found with
  | zero =>
    refine ⟨[], rfl, ?_⟩
    rw [List.append_nil]
    exact h
  | succ limit ih =>
    obtain ⟨hn, hp, -⟩ | ⟨f, hn, hp⟩ := h.next ha
    · refine ⟨[], ?_, ?_⟩
      · have hitems := items_placed a (limit + 1)
        rw [take_of_none hn] at hitems
        exact List.map_eq_nil_iff.1 hitems
      · rw [take_of_none hn, List.append_nil]
        exact hp
    · obtain ⟨more, hmore, hrest⟩ := ih hp (by rw [next_state]; exact ha)
      refine ⟨f :: more, ?_, ?_⟩
      · rw [Assembler.placed, h.nextPlaced hn, along]
        simp only [hmore, span_append, span_cons, span_nil, Nat.add_zero]
      · rw [take_of_some hn]
        rw [List.append_assoc] at hrest
        exact hrest

end Assembler

def Op.placed (a : Assembler) : Op → List (Nat × Item)
  | take limit => a.placed limit
  | drain => a.placed (a.buffered + 1)
  | _ => []

namespace History

open Assembler

def placedFrom (h : History) : List Op → List (Nat × Item)
  | [] => []
  | op :: ops => op.placed h.assembler ++ (h.perform op).placedFrom ops

def placed (config : Assembler.Config) (ops : List Op) : List (Nat × Item) :=
  (start config).placedFrom ops

variable {h : History} {found : List Finding}

theorem Open.take_placed (hopen : h.Open found) (limit : Nat) :
    ∃ more, (h.take limit).Open (found ++ more) ∧
      h.assembler.placed limit = along (span found) more := by
  obtain ⟨more, hplaced, hp⟩ := hopen.progress.placed hopen.state limit
  have hitems : (h.assembler.take limit).1 = more.map Finding.item := by
    rw [← items_placed, hplaced, items_along]
  refine ⟨more, ⟨?_, hp.settle, ?_, hopen.closing⟩, hplaced⟩
  · rw [take_state]
    exact hopen.state
  · rw [List.map_append, ← hopen.items, ← hitems]
    rfl

theorem Open.perform_placed (hopen : h.Open found) {op : Op} (hop : op ≠ .finish) :
    ∃ more, (h.perform op).Open (found ++ more) ∧
      op.placed h.assembler = along (span found) more := by
  cases op with
  | feed chunk =>
    refine ⟨[], ?_, rfl⟩
    rw [List.append_nil]
    exact hopen.feed chunk
  | take limit => exact hopen.take_placed limit
  | drain => exact hopen.take_placed (h.assembler.buffered + 1)
  | compact =>
    refine ⟨[], ?_, rfl⟩
    rw [List.append_nil]
    exact hopen.compact
  | finish => exact absurd rfl hop

theorem Open.placedFrom (hopen : h.Open found) {ops : List Op} (hops : Op.finish ∉ ops) :
    ∃ more, (ops.foldl History.perform h).Open (found ++ more) ∧
      h.placedFrom ops = along (span found) more := by
  induction ops generalizing h found with
  | nil =>
    refine ⟨[], ?_, rfl⟩
    rw [List.append_nil]
    exact hopen
  | cons op ops ih =>
    obtain ⟨hop, hrest⟩ := not_or.1 fun hm => hops (List.mem_cons.2 hm)
    obtain ⟨more, hmore, hplaced⟩ := hopen.perform_placed (Ne.symm hop)
    obtain ⟨last, hlast, hplaced'⟩ := ih hmore hrest
    refine ⟨more ++ last, ?_, ?_⟩
    · rw [← List.append_assoc]
      exact hlast
    · rw [History.placedFrom, hplaced, hplaced', along_append, span_append]

/-- Once all items have been taken out, they were decoded along all findings of the stream. -/
theorem placed_drained (config : Assembler.Config) {ops : List Op} (hops : Op.finish ∉ ops) :
    placed config (ops ++ [.drain]) = along 0 (findings config.frame (fedBytes ops)) := by
  obtain ⟨-, hidle, hfed⟩ := run_drained config hops
  have hall : Op.finish ∉ ops ++ [.drain] := by simp [hops]
  obtain ⟨found, hopen, hplaced⟩ := (start_open config).placedFrom hall
  rw [List.nil_append] at hopen
  have hfound := (hopen.progress.settled hidle).1
  change found = findings (run config _).assembler.config.frame (run config _).fed at hfound
  rw [run_config, hfed] at hfound
  rw [placed, hplaced, hfound]
  rfl

/-- Whatever is refused, items are decoded at the boundaries that the lengths in the stream tell.
Two assemblers that are fed one stream therefore give the same items at the same places, but for
those that one of them refuses and for one item at the unfinished end. -/
theorem boundaries_shared (config other : Assembler.Config) {ops others : List Op}
    (hops : Op.finish ∉ ops) (hothers : Op.finish ∉ others) (hfed : fedBytes others = fedBytes ops) :
    let stream := fedBytes ops
    let given := placed config (ops ++ [.drain])
    let rival := placed other (others ++ [.drain])
    given.map Prod.snd = (run config (ops ++ [.drain])).items ∧
    rival.map Prod.snd = (run other (others ++ [.drain])).items ∧
    given.map Prod.fst = (List.range given.length).map (boundary stream) ∧
    (∀ (offset : Nat) (item : Item), (offset, item) ∈ given →
      itemAt? config.frame (stream.drop offset) = some item) ∧
    (∀ (k offset offset' : Nat) (item item' : Item), given[k]? = some (offset, item) →
      rival[k]? = some (offset', item') →
        offset = offset' ∧ (item = item' ∨ item.isRefusal = true ∨ item'.isRefusal = true)) ∧
    given.length ≤ rival.length + 1 ∧ rival.length ≤ given.length + 1 := by
  intro stream given rival
  have hgiven : given = along 0 (findings config.frame stream) := placed_drained config hops
  have hrival : rival = along 0 (findings other.frame stream) := by
    have hplaced := placed_drained other hothers
    rwa [hfed] at hplaced
  have hstep := findings_inStep config.frame other.frame stream
  refine ⟨?_, ?_, ?_, ?_, ?_, ?_⟩
  · rw [hgiven, items_along, (run_drained config hops).1.items]
  · rw [hrival, items_along, (run_drained other hothers).1.items, hfed]
  · rw [hgiven, offsets_findings, along_length]
  · intro offset item hmem
    obtain ⟨k, hk⟩ := List.mem_iff_getElem?.1 hmem
    obtain ⟨hoffset, f, hf, hitem⟩ := getElem?_along (hgiven ▸ hk)
    rw [hoffset, itemAt?, finding?_boundary hf, ← hitem]
    rfl
  · intro k offset offset' item item' hk hk'
    obtain ⟨hoffset, f, hf, hitem⟩ := getElem?_along (hgiven ▸ hk)
    obtain ⟨hoffset', g, hg, hitem'⟩ := getElem?_along (hrival ▸ hk')
    rw [hoffset, hoffset', ← hitem, ← hitem']
    refine ⟨rfl, ?_⟩
    obtain hfg | hrefusal := hstep.getElem hf hg
    · exact Or.inl (congrArg Finding.item hfg)
    · exact Or.inr hrefusal
  · rw [hgiven, hrival, along_length, along_length]
    exact hstep.length_le

/-- A frame with wrong checksums, a sound one, and the beginning of a long one. -/
def unfinishedStream : Bytes :=
  [0, 0, 0, 17, 0, 0, 0, 0, 0, 0, 0, 0, 7, 0, 0, 0, 0,
    0, 0, 0, 17, 0, 0, 0, 0, 56, 162, 97, 91, 7, 63, 21, 62, 182,
    0, 0, 0, 200, 0, 0, 0, 0, 0, 0, 0, 0, 1]

/-- One assembler reads the first frame and waits for the last; the other refuses both. -/
theorem boundaries_shared_unfinished :
    let cut := [Op.feed (unfinishedStream.take 20), .drain, .feed (unfinishedStream.drop 20)]
    let strict : Assembler.Config := { frame := ⟨true, 64⟩ }
    Op.finish ∉ cut ∧ fedBytes cut = fedBytes [.feed unfinishedStream] ∧
    (placed strict (cut ++ [.drain])).map Prod.fst = [0, 17, 34] ∧
    (placed {} [.feed unfinishedStream, .drain]).length = 2 ∧
    (∀ (k offset offset' : Nat) (item item' : Item),
      (placed strict (cut ++ [.drain]))[k]? = some (offset, item) →
      (placed {} [.feed unfinishedStream, .drain])[k]? = some (offset', item') →
        offset = offset' ∧ (item = item' ∨ item.isRefusal = true ∨ item'.isRefusal = true)) := by
  intro cut strict
  have hcut : Op.finish ∉ cut := by decide
  have hwhole : Op.finish ∉ [Op.feed unfinishedStream] := by decide
  have hfed : fedBytes [.feed unfinishedStream] = fedBytes cut := by decide
  obtain ⟨-, -, hoffsets, -, hshared, -⟩ := boundaries_shared strict {} hcut hwhole hfed
  have hthree : (placed strict (cut ++ [.drain])).length = 3 := by decide +kernel
  rw [hthree] at hoffsets
  exact ⟨hcut, hfed.symm, hoffsets, by decide +kernel, hshared⟩

end History

end EventStream.Stream
