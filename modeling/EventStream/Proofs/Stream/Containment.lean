import EventStream.Proofs.Stream.Schedule

/-!
Bytes that declare their own length give one item, whatever else is wrong with them, and the stream
is in step again behind them. Damage to them stays with their item.
-/

set_option autoImplicit false

namespace EventStream.Stream

open EventStream.Frame

structure SelfSized (bytes : Bytes) : Prop where
  prelude : preludeLength ≤ bytes.length
  declared : declaredLength bytes = bytes.length

variable {config : Frame.Config} {segment : Bytes} {segments : List Bytes}

theorem SelfSized.exists_finding? (h : SelfSized segment) (config : Frame.Config) :
    ∃ f, finding? config segment = some f ∧ f.extent = segment.length := by
  obtain ⟨f, hf⟩ := Stream.exists_finding? config h.prelude (Nat.le_of_eq h.declared)
  have hextent := finding?_extent hf
  have hl := h.prelude
  rw [h.declared] at hextent
  exact ⟨f, hf, by omega⟩

/-- The lengths stand in the first four bytes, so the others may be any. -/
theorem SelfSized.of_damaged (h : SelfSized segment) {damaged : Bytes}
    (hl : damaged.length = segment.length) (hsame : damaged.take 4 = segment.take 4) :
    SelfSized damaged := by
  have hdeclared : declaredLength damaged = declaredLength segment := by
    rw [declaredLength, declaredLength, slice_zero, slice_zero, hsame]
  exact ⟨hl ▸ h.prelude, by rw [hdeclared, h.declared, hl]⟩

/-- A segment gives what it gives alone, whatever follows it, and is passed as a whole. -/
theorem SelfSized.findings_append (h : SelfSized segment) (config : Frame.Config) (behind : Bytes) :
    ∃ f, finding? config segment = some f ∧ f.extent = segment.length ∧
      findings config (segment ++ behind) = f :: findings config behind := by
  obtain ⟨f, hf, hextent⟩ := h.exists_finding? config
  refine ⟨f, hf, hextent, ?_⟩
  rw [findings_of_some (finding?_append hf behind), hextent, List.drop_left]

/-- Each segment of a row gives what it gives alone. -/
theorem findings_flatten (config : Frame.Config) (h : ∀ segment ∈ segments, SelfSized segment) :
    (findings config segments.flatten).map some = segments.map (finding? config) := by
  induction segments with
  | nil =>
    rw [List.flatten_nil, findings_nil]
    rfl
  | cons segment segments ih =>
    obtain ⟨f, hf, -, hfound⟩ :=
      (h segment List.mem_cons_self).findings_append config segments.flatten
    have hrest := ih fun s hs => h s (List.mem_cons_of_mem _ hs)
    rw [List.flatten_cons, hfound, List.map_cons, List.map_cons, hrest, hf]

/-- A row of segments is passed as a whole. -/
theorem span_findings_flatten (config : Frame.Config)
    (h : ∀ segment ∈ segments, SelfSized segment) :
    span (findings config segments.flatten) = segments.flatten.length := by
  induction segments with
  | nil =>
    rw [List.flatten_nil, findings_nil]
    rfl
  | cons segment segments ih =>
    obtain ⟨f, -, hextent, hfound⟩ :=
      (h segment List.mem_cons_self).findings_append config segments.flatten
    have hrest := ih fun s hs => h s (List.mem_cons_of_mem _ hs)
    rw [List.flatten_cons, hfound, span_cons, hrest, hextent, List.length_append]

namespace History

def alone (config : Assembler.Config) (bytes : Bytes) : List Item :=
  (run config [.feed bytes, .drain]).items

theorem alone_of_sized (config : Assembler.Config) (h : SelfSized segment) :
    ∃ item, itemAt? config.frame segment = some item ∧ alone config segment = [item] := by
  obtain ⟨f, hf, hextent⟩ := h.exists_finding? config.frame
  have hops : Op.finish ∉ [Op.feed segment] := by simp
  have hfed : fedBytes [.feed segment] = segment := List.append_nil segment
  have hitems := (run_drained config hops).1.items
  rw [hfed, findings_of_some hf, hextent, List.drop_length, findings_nil] at hitems
  exact ⟨f.item, by rw [itemAt?, hf]; rfl, hitems⟩

theorem items_segments (config : Assembler.Config)
    (hsized : ∀ segment ∈ segments, SelfSized segment) {ops : List Op} (hops : Op.finish ∉ ops)
    (hfed : fedBytes ops = segments.flatten) :
    (run config (ops ++ [.drain])).items.map some = segments.map (itemAt? config.frame) := by
  have hfound := congrArg (List.map (Option.map Finding.item)) (findings_flatten config.frame hsized)
  rw [List.map_map, List.map_map] at hfound
  rw [(run_drained config hops).1.items, hfed, List.map_map]
  exact hfound

theorem finish_segments (config : Assembler.Config)
    (hsized : ∀ segment ∈ segments, SelfSized segment) {ops : List Op} (hops : Op.finish ∉ ops)
    (hfed : fedBytes ops = segments.flatten) :
    (run config (ops ++ [.drain])).assembler.finish.1 = .ok () := by
  obtain ⟨hr, hidle, hall⟩ := run_drained config hops
  have hunread := (hr.progress.settled hidle).2.2
  rw [hall, hfed, span_findings_flatten config.frame hsized, List.drop_length] at hunread
  rw [Assembler.finish_of_idle hr.state hidle, hunread]
  rfl

/-- Segments that begin with their own length give an item each, the one that they give alone, and
the end of the stream finds nothing left. Damage to a segment behind its length changes no item but
its own. -/
theorem damage_contained (config : Assembler.Config) {segments : List Bytes}
    (hsized : ∀ segment ∈ segments, SelfSized segment) {ops : List Op} (hops : Op.finish ∉ ops)
    (hfed : fedBytes ops = segments.flatten) :
    let h := run config (ops ++ [.drain])
    h.items.length = segments.length ∧
    (∀ (i : Nat) (segment : Bytes), segments[i]? = some segment →
      ∃ item, h.items[i]? = some item ∧ alone config segment = [item]) ∧
    h.assembler.finish.1 = .ok () ∧
    ∀ (i : Nat) (segment damaged : Bytes), segments[i]? = some segment →
      damaged.length = segment.length → damaged.take 4 = segment.take 4 →
      ∀ others, Op.finish ∉ others → fedBytes others = (segments.set i damaged).flatten →
        ∃ item, alone config damaged = [item] ∧
          (run config (others ++ [.drain])).items = h.items.set i item := by
  intro h
  have hitems : h.items.map some = segments.map (itemAt? config.frame) :=
    items_segments config hsized hops hfed
  refine ⟨?_, ?_, finish_segments config hsized hops hfed, ?_⟩
  · have hl := congrArg List.length hitems
    rwa [List.length_map, List.length_map] at hl
  · intro i segment hi
    obtain ⟨item, hitem, halone⟩ := alone_of_sized config (hsized segment (List.mem_of_getElem? hi))
    have hat := congrArg (·[i]?) hitems
    simp only [List.getElem?_map, hi, Option.map_some, hitem] at hat
    obtain ⟨given, hgiven, heq⟩ := Option.map_eq_some_iff.1 hat
    exact ⟨item, by rw [hgiven, Option.some.inj heq], halone⟩
  · -- The damaged row is again one of segments that begin with their own length.
    intro i segment damaged hi hl hsame others hothers hfed'
    have hdamaged : SelfSized damaged :=
      (hsized segment (List.mem_of_getElem? hi)).of_damaged hl hsame
    obtain ⟨item, hitem, halone⟩ := alone_of_sized config hdamaged
    have hsized' : ∀ s ∈ segments.set i damaged, SelfSized s := by
      intro s hs
      rcases List.mem_or_eq_of_mem_set hs with hs | rfl
      · exact hsized s hs
      · exact hdamaged
    have hitems' := items_segments config hsized' hothers hfed'
    rw [List.map_set, ← hitems, hitem, ← List.map_set] at hitems'
    exact ⟨item, halone, List.map_injective_iff.2 (fun _ _ => Option.some.inj) hitems'⟩

/-- Lengths that leave no room for checksums, a header block that breaks off, and a sound frame. -/
def threeSegments : List Bytes :=
  [[0, 0, 0, 12, 0, 0, 0, 0, 9, 9, 9, 9],
    [0, 0, 0, 17, 0, 0, 0, 1, 5, 5, 5, 5, 7, 1, 1, 1, 1],
    [0, 0, 0, 17, 0, 0, 0, 0, 56, 162, 97, 91, 7, 63, 21, 62, 182]]

def damagedSegment : Bytes :=
  [0, 0, 0, 17, 255, 0, 0, 1, 5, 5, 5, 5, 7, 1, 1, 1, 1]

theorem damage_contained_second :
    (∀ segment ∈ threeSegments, SelfSized segment) ∧
    fedBytes [.feed (threeSegments.flatten.take 21), .take 2, .feed (threeSegments.flatten.drop 21)] =
      threeSegments.flatten ∧
    ∃ items : List Item, items.length = 3 ∧
      (run {} [.feed (threeSegments.flatten.take 21), .take 2,
        .feed (threeSegments.flatten.drop 21), .drain]).items = items ∧
      ∃ item, (run {} [.feed (threeSegments.set 1 damagedSegment).flatten, .drain]).items =
        items.set 1 item := by
  have hsized : ∀ segment ∈ threeSegments, SelfSized segment := by
    have hall : ∀ segment ∈ threeSegments,
        preludeLength ≤ segment.length ∧ declaredLength segment = segment.length := by decide
    exact fun segment hs => ⟨(hall segment hs).1, (hall segment hs).2⟩
  have hfed : fedBytes [.feed (threeSegments.flatten.take 21), .take 2,
      .feed (threeSegments.flatten.drop 21)] = threeSegments.flatten := by decide
  obtain ⟨hlength, -, -, hdamage⟩ := damage_contained {} hsized (by decide) hfed
  obtain ⟨item, -, hitems⟩ := hdamage 1 _ damagedSegment rfl rfl rfl
    [.feed (threeSegments.set 1 damagedSegment).flatten] (by decide) (List.append_nil _)
  exact ⟨hsized, hfed, _, hlength, rfl, item, hitems⟩

end History

end EventStream.Stream
