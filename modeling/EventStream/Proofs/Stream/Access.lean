import EventStream.Guarded.Stream
import EventStream.Proofs.Frame.Access
import EventStream.Proofs.Stream.Buffering
import EventStream.Proofs.Stream.Reading

/-!
Assemblers, codecs and readers meet no breach. The cursor of an assembler stays in its buffer under
every operation, and a step never takes more bytes than there are.
-/

set_option autoImplicit false

namespace EventStream.Stream

namespace Guarded

theorem segment_eq (config : Frame.Config) (skip : Nat) (bytes : Bytes) :
    segment config skip bytes = .ok (Stream.segment config skip bytes) := by
  rw [segment, Stream.segment]
  split
  · split
    · rfl
    · simp only [Guarded.sub_ok (Nat.min_le_left skip bytes.length)]
      rfl
  · rw [Frame.Guarded.decode_eq, Guarded.ok_bind]
    cases Frame.decode config bytes with
    | ok found => cases found <;> rfl
    | error error =>
      simp only [Guarded.sub_ok (Nat.min_le_left (error.resyncLength?.getD Frame.preludeLength)
        bytes.length)]
      rfl

theorem missingBytes_eq (skip : Nat) (bytes : Bytes) :
    missingBytes skip bytes = .ok (Stream.missingBytes skip bytes) := by
  rw [missingBytes, Stream.missingBytes]
  split
  · rfl
  · rw [Frame.Guarded.prelude?_eq, Guarded.ok_bind]
    cases hread : Frame.Prelude.read? bytes with
    | some prelude => rfl
    | none =>
      have hl : bytes.length ≤ Frame.preludeLength := by
        by_contra hl
        rw [Frame.Prelude.read?_of_length (Nat.le_of_not_le hl)] at hread
        cases hread
      exact Guarded.sub_ok hl

end Guarded

/-- Where no step is possible, the bytes are not more than their prelude declares. -/
theorem length_le_of_segment_none {config : Frame.Config} {bytes : Bytes} {prelude : Frame.Prelude}
    (h : segment config 0 bytes = none) (hread : Frame.Prelude.read? bytes = some prelude) :
    bytes.length ≤ prelude.totalLength := by
  have hl := Frame.Prelude.read?_length hread
  rcases segment_eq_none h with ⟨h0, -⟩ | ⟨-, hn⟩
  · exact absurd h0 (Nat.lt_irrefl 0)
  · by_contra ht
    refine Frame.decode_ne_none hl ?_ (finding?_eq_none_iff.1 hn)
    rw [← Frame.Prelude.read?_totalLength hread]
    omega

namespace Assembler

theorem finish_bounded {a : Assembler} (hb : a.cursor ≤ a.buffer.length) :
    a.finish.2.cursor ≤ a.finish.2.buffer.length := by
  by_cases ha : a.state = .closed
  · rw [finish, if_pos ha]
    exact hb
  · rcases finish_cases ha with ⟨-, hf⟩ | ⟨-, hf⟩ | ⟨-, -, -, hf⟩ <;> rw [hf]
    · exact Nat.zero_le _
    · exact hb
    · exact Nat.zero_le _

theorem drainSome_bounded {a b : Assembler} {limit : Nat} {items : List Item}
    (hb : a.cursor ≤ a.buffer.length) (h : a.drainSome limit = (items, b)) :
    b.cursor ≤ b.buffer.length := by
  have hs := settle_bounded (take_bounded limit hb)
  rw [drainSome_eq] at h
  cases h
  exact hs

namespace Guarded

variable {a : Assembler}

theorem unread_eq (hb : a.cursor ≤ a.buffer.length) : unread a = .ok a.unread := by
  have hs : slice a.cursor a.buffer.length a.buffer = a.unread :=
    List.take_of_length_le (Nat.le_of_eq List.length_drop)
  rw [unread, Guarded.slice_ok hb (Nat.le_refl _), hs]

theorem buffered_eq (hb : a.cursor ≤ a.buffer.length) : buffered a = .ok a.buffered := by
  rw [buffered, Guarded.sub_ok hb, Assembler.buffered, Assembler.unread, List.length_drop]

theorem compact_eq (hb : a.cursor ≤ a.buffer.length) : compact a = .ok a.compact := by
  rw [compact, Assembler.compact, unread_eq hb]
  split <;> rfl

theorem settle_eq (hb : a.cursor ≤ a.buffer.length) : settle a = .ok a.settle := by
  rw [settle, Assembler.settle, compact_eq hb]
  exact (apply_ite Except.ok _ _ _).symm

theorem feed_eq (hb : a.cursor ≤ a.buffer.length) (chunk : Bytes) :
    feed a chunk = .ok (a.feed chunk) := by
  rw [feed, Assembler.feed, settle_eq hb]
  split <;> rfl

/-- A step gets ahead and stays in the buffer, so it is taken. -/
theorem next_step {s : Segment} (hb : a.cursor ≤ a.buffer.length) (hc : a.state ≠ .closed)
    (hs : segment a.config.frame a.skip a.unread = some s) :
    next a = match s.item with
      | some item => .ok (some item, a.advance s)
      | none => next (a.advance s) := by
  rw [next, if_neg hc, unread_eq hb, Guarded.ok_bind, Guarded.segment_eq, Guarded.ok_bind, hs]
  exact dif_pos ⟨(segment_consumed hs).1, advance_bounded hb hs⟩

theorem next_eq (hb : a.cursor ≤ a.buffer.length) : next a = .ok a.next := by
  fun_induction Assembler.next a with
  | case1 a hc =>
    rw [next, if_pos hc]
    rfl
  | case2 a hc hs =>
    rw [next, if_neg hc, unread_eq hb, Guarded.ok_bind, Guarded.segment_eq, Guarded.ok_bind, hs]
    rfl
  | case3 a hc s hs _ item hi =>
    rw [next_step hb hc hs]
    simp only [hi]
  | case4 a hc s hs _ hi ih =>
    rw [next_step hb hc hs]
    simp only [hi]
    exact ih (advance_bounded hb hs)

theorem take_eq (hb : a.cursor ≤ a.buffer.length) (limit : Nat) :
    take limit a = .ok (a.take limit) := by
  induction limit generalizing a with
  | zero => rfl
  | succ limit ih =>
    have hnext := next_bounded hb
    rw [take, next_eq hb, Guarded.ok_bind, Assembler.take]
    generalize a.next = found at hnext
    obtain ⟨item, b⟩ := found
    cases item with
    | none => rfl
    | some item =>
      simp only [ih hnext]
      rfl

theorem drainSome_eq (hb : a.cursor ≤ a.buffer.length) (limit : Nat) :
    drainSome limit a = .ok (a.drainSome limit) := by
  rw [drainSome, take_eq hb, Guarded.ok_bind]
  simp only [settle_eq (take_bounded limit hb)]
  rfl

theorem isPending_eq (a : Assembler) : isPending a a.unread = .ok a.isPending := by
  rw [isPending, Assembler.isPending]
  split
  · rfl
  · rw [Frame.Guarded.decode_eq, Guarded.ok_bind]
    cases Frame.decode a.config.frame a.unread with
    | error error => rfl
    | ok found => cases found <;> rfl

theorem finish_eq (hb : a.cursor ≤ a.buffer.length) : finish a = .ok a.finish := by
  have hb' : { a with state := .draining }.cursor ≤
      { a with state := .draining }.buffer.length := hb
  rw [finish, Assembler.finish]
  simp only [unread_eq hb', Guarded.ok_bind, isPending_eq, Guarded.missingBytes_eq]
  split
  · rfl
  · split
    · rfl
    · split <;> rfl

end Guarded

end Assembler

namespace Codec.Guarded

theorem decode_eq (c : Codec) (buffer : Bytes) : decode c buffer = .ok (c.decode buffer) := by
  fun_induction Codec.decode c buffer with
  | case1 c buffer hs =>
    rw [decode, Guarded.segment_eq, Guarded.ok_bind, hs]
    rfl
  | case2 c buffer s hs _ item hi =>
    rw [decode, Guarded.segment_eq, Guarded.ok_bind, hs]
    simp only [dif_pos (segment_consumed hs), hi]
    rfl
  | case3 c buffer s hs _ hi ih =>
    rw [decode, Guarded.segment_eq, Guarded.ok_bind, hs]
    simp only [dif_pos (segment_consumed hs), hi]
    exact ih

theorem decodeEnd_eq (c : Codec) (buffer : Bytes) :
    decodeEnd c buffer = .ok (c.decodeEnd buffer) := by
  rw [decodeEnd, decode_eq, Guarded.ok_bind, Codec.decodeEnd]
  generalize c.decode buffer = found
  obtain ⟨item, c, buffer⟩ := found
  cases item with
  | some item => rfl
  | none =>
    simp only [Guarded.missingBytes_eq]
    split <;> rfl

end Codec.Guarded

theorem Transport.read_length {limit : Nat} {t : Transport} {chunk : Bytes}
    (h : (t.read limit).1 = .ok chunk) : chunk.length ≤ limit := by
  obtain ⟨deliveries, reads⟩ := t
  rcases deliveries with _ | ⟨bytes | error, rest⟩
  · cases h
    exact Nat.zero_le _
  · cases h
    exact List.length_take_le _ _
  · cases h

namespace Reader

def Inside (r : Reader) : Prop :=
  r.assembler.cursor ≤ r.assembler.buffer.length

theorem start_inside (config : Assembler.Config) (chunkSize : Nat) (source : Transport) :
    (start config chunkSize source).Inside :=
  Nat.le_refl 0

variable {r : Reader} {a : Assembler}

theorem conclude_inside (h : r.Inside) : r.conclude.2.Inside := by
  have hf := Assembler.finish_bounded h
  rw [conclude]
  generalize r.assembler.finish = ended at hf
  obtain ⟨result, b⟩ := ended
  cases result <;> exact hf

namespace Guarded

theorem within_fetch {chunk : Bytes} (h : r.fetch.1 = .ok chunk) :
    within (max r.chunkSize 1) chunk = .ok chunk :=
  if_pos (Transport.read_length h)

theorem conclude_eq (h : r.Inside) : conclude r = .ok r.conclude := by
  rw [conclude, Assembler.Guarded.finish_eq h, Guarded.ok_bind, Reader.conclude]
  generalize r.assembler.finish = ended
  obtain ⟨result, b⟩ := ended
  cases result <;> rfl

theorem next_item {item : Item} {more : List Item} (h : r.Inside) (hdone : r.isDone ≠ true)
    (hd : r.assembler.drainSome 1 = (item :: more, a)) :
    next r = .ok (some item, { r with assembler := a }) := by
  rw [next, if_neg hdone, Assembler.Guarded.drainSome_eq h, Guarded.ok_bind, hd]
  rfl

theorem next_read (h : r.Inside) (hdone : r.isDone ≠ true)
    (hd : r.assembler.drainSome 1 = ([], a)) :
    next r = match r.fetch.1 with
      | .error error =>
        if error.kind = .interrupted then next { r with assembler := a, source := r.fetch.2 }
        else .ok (some (.error (.transport error.message)),
          { r with assembler := a, source := r.fetch.2, isDone := true })
      | .ok [] => conclude { r with assembler := a, source := r.fetch.2 }
      | .ok (byte :: chunk) =>
        Assembler.Guarded.feed a (byte :: chunk) >>= fun
          | .error error =>
            .ok (some (.error error),
              { r with assembler := a, source := r.fetch.2, isDone := true })
          | .ok b => next { r with assembler := b, source := r.fetch.2 } := by
  rw [next, if_neg hdone, Assembler.Guarded.drainSome_eq h, Guarded.ok_bind, hd]
  simp only
  split
  · next got => rw [got]; rfl
  · next got => rw [got]
  · next byte chunk got =>
    rw [got, within_fetch got]
    rfl

end Guarded

/-- The next item is given without a breach, and the cursor stays in the buffer. -/
theorem next_inside (h : r.Inside) : Guarded.next r = .ok r.next ∧ r.next.2.Inside := by
  fun_induction Reader.next r with
  | case1 r hdone =>
    refine ⟨?_, h⟩
    rw [Guarded.next, if_pos hdone]
    rfl
  | case2 r hdone item more a hd =>
    exact ⟨Guarded.next_item h hdone hd, Assembler.drainSome_bounded h hd⟩
  | case3 r hdone a hd error got _ r₁ hk ih =>
    rw [Guarded.next_read h hdone hd, got]
    simp only [if_pos hk]
    exact ih (Assembler.drainSome_bounded h hd)
  | case4 r hdone a hd error got _ r₁ hk =>
    rw [Guarded.next_read h hdone hd, got]
    exact ⟨if_neg hk, Assembler.drainSome_bounded h hd⟩
  | case5 r hdone a hd got =>
    have ha : Inside { r with assembler := a, source := r.fetch.2 } :=
      Assembler.drainSome_bounded h hd
    rw [Guarded.next_read h hdone hd, got]
    exact ⟨Guarded.conclude_eq ha, conclude_inside ha⟩
  | case6 r hdone a hd byte chunk got _ error hf =>
    have ha := Assembler.drainSome_bounded h hd
    rw [Guarded.next_read h hdone hd, got]
    simp only [Assembler.Guarded.feed_eq ha, Guarded.ok_bind, hf]
    exact ⟨trivial, ha⟩
  | case7 r hdone a hd byte chunk got _ b hf ih =>
    have ha := Assembler.drainSome_bounded h hd
    rw [Guarded.next_read h hdone hd, got]
    simp only [Assembler.Guarded.feed_eq ha, Guarded.ok_bind, hf]
    exact ih (Assembler.feed_bounded ha hf)

inductive Op where
  | next
  /-- Puts another transport in the place of the one before. -/
  | replace (source : Transport)

def run (r : Reader) : List Op → List (Option Item) × Reader
  | [] => ([], r)
  | .next :: ops =>
    let (item, r) := r.next
    let (items, r) := run r ops
    (item :: items, r)
  | .replace source :: ops => run { r with source } ops

namespace Guarded

def run (r : Reader) : List Op → Guarded (List (Option Item) × Reader)
  | [] => return ([], r)
  | .next :: ops => do
    let (item, r) ← next r
    let (items, r) ← run r ops
    return (item :: items, r)
  | .replace source :: ops => run { r with source } ops

end Guarded

theorem run_inside (h : r.Inside) (ops : List Op) :
    Guarded.run r ops = .ok (r.run ops) ∧ (r.run ops).2.Inside := by
  induction ops generalizing r with
  | nil => exact ⟨rfl, h⟩
  | cons op ops ih =>
    cases op with
    | next =>
      obtain ⟨hnext, hinside⟩ := next_inside h
      obtain ⟨hrun, hrest⟩ := ih hinside
      refine ⟨?_, hrest⟩
      rw [Guarded.run, hnext, Guarded.ok_bind]
      simp only [hrun, Guarded.ok_bind]
      rfl
    | replace source => exact ih h

end Reader

namespace History

namespace Guarded

def take (h : History) (limit : Nat) : Guarded History := do
  let (items, a) ← Assembler.Guarded.drainSome limit h.assembler
  return { h with assembler := a, items := h.items ++ items }

def perform (h : History) : Op → Guarded History
  | .feed chunk => do
    match ← Assembler.Guarded.feed h.assembler chunk with
    | .ok a => return { h with assembler := a, fed := h.fed ++ chunk }
    | .error _ => return h
  | .take limit => take h limit
  | .drain => do take h ((← Assembler.Guarded.buffered h.assembler) + 1)
  | .compact => do return { h with assembler := ← Assembler.Guarded.compact h.assembler }
  | .finish => do
    let (result, a) ← Assembler.Guarded.finish h.assembler
    if h.assembler.state ≠ .closed ∧ a.state = .closed then
      return { h with assembler := a, closing := some result }
    else return { h with assembler := a }

def run (config : Assembler.Config) (ops : List Op) : Guarded History :=
  ops.foldlM perform (start config)

variable {h : History}

theorem take_eq (hb : h.assembler.cursor ≤ h.assembler.buffer.length) (limit : Nat) :
    take h limit = .ok (h.take limit) := by
  rw [take, Assembler.Guarded.drainSome_eq hb]
  rfl

theorem perform_eq (hb : h.assembler.cursor ≤ h.assembler.buffer.length) (op : Op) :
    perform h op = .ok (h.perform op) := by
  cases op with
  | feed chunk =>
    rw [perform, History.perform, Assembler.Guarded.feed_eq hb, Guarded.ok_bind]
    cases h.assembler.feed chunk <;> rfl
  | take limit => exact take_eq hb limit
  | drain =>
    rw [perform, Assembler.Guarded.buffered_eq hb, Guarded.ok_bind]
    exact take_eq hb _
  | compact =>
    rw [perform, Assembler.Guarded.compact_eq hb]
    rfl
  | finish =>
    rw [perform, Assembler.Guarded.finish_eq hb, Guarded.ok_bind]
    exact (apply_ite Except.ok _ _ _).symm

end Guarded

theorem Guarded.run_eq (config : Assembler.Config) (ops : List Op) :
    Guarded.run config ops = .ok (History.run config ops) := by
  induction ops using List.reverseRecOn with
  | nil => rfl
  | append_singleton ops op ih =>
    rw [Guarded.run, List.foldlM_append, ← Guarded.run, ih, run_concat, Guarded.ok_bind,
      List.foldlM_cons, perform_eq (run_bounded config ops)]
    rfl

end History

/-- No bytes, no settings and no calls lead to a breach: the guarded reading of header blocks and
frames, and the guarded steps of assemblers, readers and codecs, all come to their end, and to what
is found without guards. The cursor of an assembler stays in its buffer, and a step takes no more
bytes than it was given. -/
theorem no_breach :
    (∀ block : Bytes, Header.Scan.parse block = .ok (Header.Block.parse block)) ∧
    (∀ bytes : Bytes, Frame.Guarded.prelude? bytes = .ok (Frame.Prelude.read? bytes)) ∧
    (∀ (config : Frame.Config) (bytes : Bytes),
      Frame.Guarded.decode config bytes = .ok (Frame.decode config bytes)) ∧
    (∀ (config : Frame.Config) (skip : Nat) (bytes : Bytes),
      Guarded.segment config skip bytes = .ok (segment config skip bytes) ∧
      ∀ s, segment config skip bytes = some s → s.consumed ≤ bytes.length) ∧
    (∀ (skip : Nat) (bytes : Bytes),
      Guarded.missingBytes skip bytes = .ok (missingBytes skip bytes)) ∧
    (∀ (config : Frame.Config) (bytes : Bytes) (prelude : Frame.Prelude),
      segment config 0 bytes = none → Frame.Prelude.read? bytes = some prelude →
      bytes.length ≤ prelude.totalLength) ∧
    (∀ (config : Assembler.Config) (ops : List Op),
      History.Guarded.run config ops = .ok (History.run config ops) ∧
      (History.run config ops).assembler.cursor ≤
        (History.run config ops).assembler.buffer.length) ∧
    (∀ (config : Assembler.Config) (chunkSize : Nat) (source : Transport) (ops : List Reader.Op),
      let r := Reader.start config chunkSize source
      Reader.Guarded.run r ops = .ok (r.run ops) ∧
      (r.run ops).2.assembler.cursor ≤ (r.run ops).2.assembler.buffer.length) ∧
    ∀ (codec : Codec) (buffer : Bytes),
      Codec.Guarded.decode codec buffer = .ok (codec.decode buffer) ∧
      Codec.Guarded.decodeEnd codec buffer = .ok (codec.decodeEnd buffer) :=
  ⟨Header.Scan.parse_eq, Frame.Guarded.prelude?_eq, Frame.Guarded.decode_eq,
    fun config skip bytes =>
      ⟨Guarded.segment_eq config skip bytes, fun _ hs => (segment_consumed hs).2⟩,
    Guarded.missingBytes_eq, fun _ _ _ => length_le_of_segment_none,
    fun config ops => ⟨History.Guarded.run_eq config ops, History.run_bounded config ops⟩,
    fun config chunkSize source => Reader.run_inside (Reader.start_inside config chunkSize source),
    fun codec buffer =>
      ⟨Codec.Guarded.decode_eq codec buffer, Codec.Guarded.decodeEnd_eq codec buffer⟩⟩

end EventStream.Stream
