import EventStream.Cli.Run
import EventStream.Proofs.Stream.Contents
import EventStream.Proofs.Stream.Entries

/-!
The two commands that look into a captured stream, one for its events and one for its frames. They
find the same segments, so that what can be decoded without a complaint can also be listed without
one.
-/

set_option autoImplicit false

namespace EventStream.Cli

open EventStream.Stream

section codes

variable {items : List Item}

theorem transport_notMem (h : transportFailure? items = none) (message : String) :
    .error (.transport message) ∉ items := by
  intro hmem
  cases List.findSome?_eq_none_iff.1 h _ hmem

theorem shownItems_eq (h : transportFailure? items = none) : shownItems items = items := by
  refine List.filter_eq_self.2 fun item hitem => ?_
  split
  · exact absurd hitem (transport_notMem h _)
  · rfl

/-- Decoding exits without an error only if there is an event at each place. -/
theorem showItems_code {format : OutputFormat} (h : (showItems format items).status.code = 0) :
    ∀ item ∈ items, item.isOk = true := by
  rw [showItems] at h
  cases hfailure : transportFailure? items with
  | some message =>
    rw [hfailure] at h
    cases h
  | none =>
    by_cases hall : items.all (·.isOk) = true
    · exact List.all_eq_true.1 hall
    · simp only [hfailure, shownItems_eq hfailure, Outcome.shown, if_neg hall] at h
      cases h

theorem showListing_code {listing : Listing} (format : OutputFormat) (h : listing.isSound = true) :
    (showListing format listing).status.code = 0 := by
  rw [showListing, if_pos h]
  rfl

/-- A command on an input gives what it makes of the transport, or the failure to open it, which
is the same for all commands. -/
theorem withInput_code {σ : Type} (host : Host (StateM σ)) (world : σ) (source : Source)
    {respond other : Transport → Outcome}
    (h : ∀ transport, (respond transport).status.code = 0 → (other transport).status.code = 0)
    (hcode : ((withInput host source respond).run world).1.status.code = 0) :
    ((withInput host source other).run world).1.status.code = 0 := by
  rw [withInput, StateT.run_bind] at hcode ⊢
  generalize (host.openSource source).run world = opened at hcode ⊢
  obtain ⟨opened, world'⟩ := opened
  cases opened with
  | ok transport => exact h transport hcode
  | error error =>
    cases source <;> exact hcode

end codes

theorem decodeItems_yields (chunkSize : Nat) (strict : Bool) {transport : Transport} {bytes : Bytes}
    (hread : Transport.contents transport.deliveries = .ok bytes) :
    (Listing.of (frameConfig strict) bytes).Yields (decodeItems chunkSize strict transport) := by
  have hitems := Reader.items_contents { frame := frameConfig strict } chunkSize transport.reads
    hread
  change (Listing.of (frameConfig strict) bytes).Yields
    (Reader.start { frame := frameConfig strict } chunkSize transport).items.1
  rw [hitems]
  exact Listing.of_yields _ _

/-- A failure of the transport is an item, so that a stream which decodes without a complaint was
read to its end. -/
theorem exists_contents (chunkSize : Nat) (strict : Bool) {transport : Transport}
    (hok : ∀ item ∈ decodeItems chunkSize strict transport, item.isOk = true) :
    ∃ bytes, Transport.contents transport.deliveries = .ok bytes := by
  obtain ⟨bytes, failure, hitems, hcontents⟩ :=
    Reader.exists_items { frame := frameConfig strict } chunkSize transport.reads
      transport.deliveries
  cases failure with
  | none => exact ⟨bytes, hcontents⟩
  | some error =>
    have hmem : .error (.transport error.message) ∈ decodeItems chunkSize strict transport := by
      rw [decodeItems]
      exact hitems ▸ List.mem_append_right _ (List.mem_singleton_self _)
    cases hok _ hmem

/-- What decodes without a complaint is listed without one. -/
theorem frames_code_of_decode {σ : Type} (host : Host (StateM σ)) (world : σ) (source : Source)
    (chunkSize : Nat) (strict : Bool) (format format' : OutputFormat)
    (h : (((Command.decode source chunkSize strict).run host format).run world).1.status.code = 0) :
    (((Command.frames source strict).run host format').run world).1.status.code = 0 := by
  refine withInput_code host world source (fun transport hcode => ?_) h
  have hok := showItems_code hcode
  obtain ⟨bytes, hread⟩ := exists_contents chunkSize strict hok
  have hsound := (decodeItems_yields chunkSize strict hread).isSound hok
  rw [readAll, hread]
  exact showListing_code format' hsound

/-- A listing of the frames and the decoded items are of the same segments, whatever the bytes are
and in whatever pieces they are read. Each entry is one item, a frame that of an event or of the
reason why it is none, and an error the same error. The entries follow each other from the first
byte on, and bytes left over are those that the truncation at the end of the items counts. So a
stream that decodes without a complaint is listed without one. -/
theorem listing_decode_agree (strict : Bool) (chunkSize : Nat) {transport : Transport}
    {bytes : Bytes} (hread : Transport.contents transport.deliveries = .ok bytes) :
    let listing := Listing.of (frameConfig strict) bytes
    let items := decodeItems chunkSize strict transport
    listing.Yields items ∧
    (∀ (k offset : Nat) (entry : Entry), listing.entries[k]? = some (offset, entry) →
      ∃ item, items[k]? = some item ∧
        (entry.isFrame = true ↔
          (∃ event, item = .ok event) ∨ ∃ error, item = .error (.event error)) ∧
        (∀ frame, entry = .frame frame → item = itemOf frame) ∧
        (∀ error skipped, entry = .error error skipped → item = .error (.frame error))) ∧
    (∀ first ∈ listing.entries.head?, first.1 = 0) ∧
    listing.entries.IsChain (fun former latter => latter.1 = former.1 + former.2.size) ∧
    (listing.entries.map (·.2.size)).sum + listing.trailing = bytes.length ∧
    (∀ buffered, (∃ missing, items.getLast? = some (.error (.truncated buffered missing))) ↔
      0 < listing.trailing ∧ buffered = listing.trailing) ∧
    ∀ {σ : Type} (host : Host (StateM σ)) (world : σ) (source : Source)
      (format format' : OutputFormat),
      (((Command.decode source chunkSize strict).run host format).run world).1.status.code = 0 →
      (((Command.frames source strict).run host format').run world).1.status.code = 0 := by
  intro listing items
  have hyields : listing.Yields items := decodeItems_yields chunkSize strict hread
  obtain ⟨hfirst, hchain, hsum⟩ := Listing.from_contiguous (frameConfig strict) 0 bytes
  refine ⟨hyields, ?_, hfirst, hchain, hsum, hyields.getLast?, ?_⟩
  · intro k offset entry hk
    refine ⟨entry.item, hyields.getElem? hk, entry.isFrame_iff, ?_, ?_⟩
    · rintro frame rfl
      rfl
    · rintro error skipped rfl
      rfl
  · intro σ host world source format format' hcode
    exact frames_code_of_decode host world source chunkSize strict format format' hcode

/-- A frame whose headers cannot fit in it, a frame in two pieces behind an interruption, and the
beginning of a third frame. -/
def damagedDeliveries : List Delivery :=
  [.data [0, 0, 0, 20, 0, 0, 0, 10, 0, 0, 0, 0, 0, 0], .failure ⟨.interrupted, none⟩,
    .data [0, 0, 0, 0, 0, 0, 0, 0, 0, 16, 0, 0, 0, 0, 0x05, 0xc2, 0x48],
    .data [0xeb, 0x7d, 0x98, 0xc8, 0xff, 0, 0, 0, 16, 0]]

def damagedBytes : Bytes :=
  [0, 0, 0, 20, 0, 0, 0, 10, 0, 0, 0, 0, 0, 0, 0, 0, 0, 0, 0, 0,
    0, 0, 0, 16, 0, 0, 0, 0, 0x05, 0xc2, 0x48, 0xeb, 0x7d, 0x98, 0xc8, 0xff, 0, 0, 0, 16, 0]

theorem listing_decode_agree_damaged :
    Transport.contents damagedDeliveries = .ok damagedBytes ∧
    (Listing.of (frameConfig false) damagedBytes).entries.length = 2 ∧
    ∃ missing, (decodeItems 7 false ⟨damagedDeliveries, 0⟩).getLast? =
      some (.error (.truncated 5 missing)) := by
  have hread : Transport.contents damagedDeliveries = .ok damagedBytes := by decide
  have htrailing : (Listing.of (frameConfig false) damagedBytes).trailing = 5 := by decide +kernel
  have hagree := @listing_decode_agree false 7 ⟨damagedDeliveries, 0⟩ damagedBytes hread
  obtain ⟨-, -, -, -, -, hend, -⟩ := hagree
  exact ⟨hread, by decide +kernel, (hend 5).2 ⟨by rw [htrailing]; decide, htrailing.symm⟩⟩

end EventStream.Cli
