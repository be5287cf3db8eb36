import EventStream.Proofs.Stream.Mirror
import EventStream.Proofs.Stream.Reading
import EventStream.Proofs.Stream.Schedule

/-!
A reader on a transport, a codec on the buffer of a transport, and an assembler fed by hand give
the same items of the same bytes: those of all findings, and one for the end.
-/

set_option autoImplicit false

namespace EventStream.Stream

def Item.isFatal : Item → Bool
  | .ok _ => false
  | .error error => error.isFatal

namespace History

/-- The items given, and the one that the end of the transport adds. -/
def concluded (h : History) : Option IoError → List Item
  | some error => h.items ++ [.error (.transport error.message)]
  | none =>
    match h.assembler.finish.1 with
    | .ok () => h.items
    | .error error => h.items ++ [.error error]

theorem concluded_eachDrained (config : Assembler.Config) (chunks : List Bytes)
    (failure : Option IoError) :
    (run config (eachDrained chunks)).concluded failure =
      streamItems config.frame chunks.flatten failure := by
  obtain ⟨hr, hidle, hfed⟩ := run_eachDrained config chunks
  have hunread := (hr.progress.settled hidle).2.2
  rw [hfed] at hunread
  cases failure with
  | some error => rw [concluded, hr.items, streamItems, lastItem, Option.toList_some]
  | none =>
    rw [concluded, Assembler.finish_of_idle hr.state hidle, streamItems, lastItem, hunread,
      hr.items]
    cases Assembler.ending (chunks.flatten.drop (span (findings config.frame chunks.flatten))) with
    | ok => exact (List.append_nil _).symm
    | error error => rfl

end History

open Assembler

namespace Mirrors

variable {c : Codec} {buffer fed : Bytes} {a : Assembler} {found : List Finding}

theorem takeEnd_idle (h : Mirrors c buffer a) (hi : a.IsIdle) :
    c.takeEnd (buffer.length + 1) buffer = (lastItem buffer none).toList := by
  have hd : c.decode buffer = (none, c, buffer) := Codec.decode_idle (h.segment_eq.trans hi)
  rw [Codec.takeEnd, Codec.decodeEnd, hd, lastItem, ending]
  by_cases hb : buffer.isEmpty
  · simp [hb]
  · have hskip : c.skip = 0 := by
      rw [h.skip]
      rcases segment_eq_none hi with ⟨-, hu⟩ | ⟨hz, -⟩
      · exact absurd (List.isEmpty_iff.2 (h.buffer.trans hu)) hb
      · exact hz
    simp [hb, hskip]

/-- A codec gives the items of the bytes that its assembler has met and of those to come. -/
theorem itemsFrom_script (chunks : List Bytes) (failure : Option IoError)
    (h : Mirrors c buffer a) (hp : Progress a fed found) (hi : a.IsIdle)
    (hd : a.state ≠ .draining) (hc : a.state ≠ .closed) :
    found.map Finding.item ++ c.itemsFrom buffer (script chunks failure) =
      streamItems a.config.frame (fed ++ chunks.flatten) failure := by
  induction chunks generalizing c buffer fed a found with
  | nil =>
    obtain ⟨hfound, -, hunread⟩ := hp.settled hi
    rw [List.flatten_nil, List.append_nil, streamItems, ← hfound, ← hunread, ← h.buffer]
    cases failure with
    | some error => rfl
    | none => exact congrArg _ (h.takeEnd_idle hi)
  | cons chunk chunks ih =>
    obtain ⟨b, hb⟩ := exists_feed chunk hd hc
    have hstate : b.state = .receiving := feed_state hb
    have hopen : b.state ≠ .closed := by
      rw [hstate]
      exact State.noConfusion
    have hundrained : b.drain.2.state ≠ .draining := by
      rw [drain_state, hstate]
      exact State.noConfusion
    obtain ⟨hitems, hm⟩ := (h.feed hp.bounded hb).drain hopen
    obtain ⟨more, hmore, hpmore, hidle⟩ := (hp.feed hb).drain hopen
    have hrest := ih hm hpmore hidle hundrained (by rw [drain_state]; exact hopen)
    rw [drain_config, feed_config hb, List.map_append, ← hmore, ← hitems, List.append_assoc,
      List.append_assoc, List.length_append] at hrest
    exact hrest

end Mirrors

theorem items_script (config : Frame.Config) (chunks : List Bytes) (failure : Option IoError) :
    items config (script chunks failure) = streamItems config chunks.flatten failure :=
  (Mirrors.fresh { frame := config }).itemsFrom_script chunks failure (.fresh _)
    (History.start_idle _) State.noConfusion State.noConfusion

theorem Finding.item_kind (f : Finding) :
    (∃ event, f.item = .ok event) ∨ (∃ error, f.item = .error (.event error)) ∨
      ∃ error, f.item = .error (.frame error) := by
  cases f with
  | frame whole =>
    exact (itemOf_cases whole).imp_right Or.inl
  | damage error => exact Or.inr (Or.inr ⟨error, rfl⟩)

theorem lastItem_kind {rest : Bytes} {failure : Option IoError} {item : Item}
    (h : lastItem rest failure = some item) :
    (∃ message, item = .error (.transport message)) ∨
      ∃ buffered missing, item = .error (.truncated buffered missing) := by
  cases failure with
  | some error =>
    cases h
    exact Or.inl ⟨_, rfl⟩
  | none =>
    rw [lastItem, Assembler.ending] at h
    by_cases he : rest.isEmpty = true
    · rw [if_pos he] at h
      cases h
    · rw [if_neg he] at h
      cases h
      exact Or.inr ⟨_, _, rfl⟩

variable {config : Frame.Config} {bytes : Bytes} {failure : Option IoError} {item : Item}

theorem isFatal_dropLast (h : item ∈ (streamItems config bytes failure).dropLast) :
    item.isFatal = false := by
  have hmem : item ∈ (findings config bytes).map Finding.item := by
    rw [streamItems] at h
    cases hl : lastItem (bytes.drop (span (findings config bytes))) failure with
    | none =>
      rw [hl, Option.toList_none, List.append_nil] at h
      exact (List.dropLast_sublist _).subset h
    | some last =>
      rw [hl, Option.toList_some, List.dropLast_concat] at h
      exact h
  obtain ⟨f, -, rfl⟩ := List.mem_map.1 hmem
  rcases f.item_kind with ⟨_, hf⟩ | ⟨_, hf⟩ | ⟨_, hf⟩ <;> rw [hf] <;> rfl

theorem notMem_streamItems {error : Error}
    (h : error = .closed ∨ ∃ buffered, error = .undrained buffered) :
    .error error ∉ streamItems config bytes failure := by
  intro hmem
  rcases List.mem_append.1 hmem with hf | hl
  · obtain ⟨f, -, hitem⟩ := List.mem_map.1 hf
    rcases h with rfl | ⟨_, rfl⟩ <;>
      rcases f.item_kind with ⟨_, hf⟩ | ⟨_, hf⟩ | ⟨_, hf⟩ <;> rw [hf] at hitem <;> cases hitem
  · rcases h with rfl | ⟨_, rfl⟩ <;>
      rcases lastItem_kind (Option.mem_toList.1 hl) with ⟨_, he⟩ | ⟨_, _, he⟩ <;> cases he

/-- The adapters agree: on any transport, cut into any pieces, with any interruptions, settings and
sizes of reads, a reader gives what a codec gives and what an assembler gives that is fed and
drained chunk by chunk. Only the last item can be fatal, and behind it a reader gives none. -/
theorem adapters_agree (frame : Frame.Config) (config reference : Assembler.Config)
    (hconfig : config.frame = frame) (hreference : reference.frame = frame)
    {chunks pieces : List Bytes} {failure : Option IoError} {deliveries : List Delivery}
    (hpieces : ∀ piece ∈ pieces, piece ≠ []) (hsame : pieces.flatten = chunks.flatten)
    (hsource : uninterrupted deliveries = script pieces failure)
    (chunkSize reads : Nat) :
    let outcome := (Reader.start config chunkSize ⟨deliveries, reads⟩).items
    outcome.1 = items frame (script chunks failure) ∧
    outcome.1 = (History.run reference (History.eachDrained chunks)).concluded failure ∧
    (∀ item ∈ outcome.1.dropLast, item.isFatal = false) ∧
    (∀ buffered, .error (.undrained buffered) ∉ outcome.1) ∧
    .error .closed ∉ outcome.1 ∧
    outcome.2.next = (none, outcome.2) := by
  intro outcome
  obtain ⟨hitems, hdone⟩ := Reader.items_start config chunkSize reads hpieces hsource
  rw [hconfig, hsame] at hitems
  have hcodec := items_script frame chunks failure
  have hhand := History.concluded_eachDrained reference chunks failure
  rw [hreference] at hhand
  have hstream : outcome.1 = streamItems frame chunks.flatten failure := hitems
  rw [hstream]
  exact ⟨hcodec.symm, hhand.symm, fun _ => isFatal_dropLast,
    fun buffered => notMem_streamItems (Or.inr ⟨buffered, rfl⟩), notMem_streamItems (Or.inl rfl),
    Reader.next_done hdone⟩

/-- A frame in two chunks, and the beginning of a damaged one. -/
def brokenOff : List Bytes :=
  [[0, 0, 0, 16, 0, 0, 0, 0, 0x05], [0xc2, 0x48, 0xeb, 0x7d, 0x98, 0xc8, 0xff, 0, 0, 0, 99],
    [0, 0, 0, 0, 1, 1, 1, 1, 7, 7]]

def brokenOffPieces : List Bytes :=
  [[0, 0, 0, 16, 0, 0, 0, 0, 0x05, 0xc2, 0x48],
    [0xeb, 0x7d, 0x98, 0xc8, 0xff, 0, 0, 0, 99, 0, 0, 0, 0, 1, 1, 1, 1, 7, 7]]

/-- An interruption before each piece, and a lost connection behind them. -/
def brokenOffDeliveries : List Delivery :=
  (brokenOffPieces.flatMap fun piece => [.failure ⟨.interrupted, none⟩, .data piece]) ++
    [.failure ⟨.connectionReset, none⟩]

theorem adapters_agree_brokenOff :
    (Reader.start { frame := .strict, compactThreshold := 1 } 3 ⟨brokenOffDeliveries, 0⟩).items.1 =
      items .strict (script brokenOff (some ⟨.connectionReset, none⟩)) ∧
    (items .strict (script brokenOff (some ⟨.connectionReset, none⟩))).length = 3 := by
  have hpieces : ∀ piece ∈ brokenOffPieces, piece ≠ [] := by decide
  have hsame : brokenOffPieces.flatten = brokenOff.flatten := by decide
  have hsource : uninterrupted brokenOffDeliveries =
      script brokenOffPieces (some ⟨.connectionReset, none⟩) := by decide
  have h := adapters_agree .strict { frame := .strict, compactThreshold := 1 } { frame := .strict }
    rfl rfl hpieces hsame hsource 3 0
  exact ⟨h.1, by decide +kernel⟩

end EventStream.Stream
