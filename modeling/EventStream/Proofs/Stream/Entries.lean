import EventStream.Stream.Listing
import EventStream.Proofs.Stream.Script
import Mathlib.Data.List.Chain

/-!
A listing and the findings of its bytes. A listing skips only bytes that are there, where a finding
tells how far the skip would go; both come to the same entries, and to the same bytes left over.
-/

set_option autoImplicit false

namespace EventStream.Stream

def Entry.item : Entry → Item
  | .frame whole => itemOf whole
  | .error cause _ => .error (.frame cause)

theorem Entry.item_ne_truncated (entry : Entry) (buffered missing : Nat) :
    entry.item ≠ .error (.truncated buffered missing) := by
  intro h
  cases entry with
  | frame whole =>
    obtain ⟨event, he⟩ | ⟨error, he⟩ := itemOf_cases whole
    · cases he.symm.trans h
    · cases he.symm.trans h
  | error cause skipped => cases h

/-- An entry is a frame where decoding gives an event, or the reason why it gives none. -/
theorem Entry.isFrame_iff (entry : Entry) : entry.isFrame = true ↔
    (∃ event, entry.item = .ok event) ∨ ∃ error, entry.item = .error (.event error) := by
  cases entry with
  | frame whole => exact ⟨fun _ => itemOf_cases whole, fun _ => rfl⟩
  | error cause skipped =>
    refine ⟨fun h => (nomatch h), ?_⟩
    rintro (⟨event, h⟩ | ⟨error, h⟩) <;> cases h

def Finding.entry (room : Nat) : Finding → Entry
  | .frame whole => .frame whole
  | .damage error => .error error (min (Finding.damage error).damageLength room)

section front

variable {config : Frame.Config} {bytes : Bytes} {f : Finding}

theorem Finding.item_entry (room : Nat) (f : Finding) : (f.entry room).item = f.item := by
  cases f <;> rfl

/-- A listing and a decoder decide alike on what is at the front. -/
theorem Entry.first?_eq (config : Frame.Config) (bytes : Bytes) :
    Entry.first? config bytes = (finding? config bytes).map (Finding.entry bytes.length) := by
  cases hf : finding? config bytes with
  | none =>
    rw [Entry.first?, finding?_eq_none_iff.1 hf]
    rfl
  | some f =>
    cases f with
    | frame frame =>
      rw [Entry.first?, decode_of_frame hf]
      rfl
    | damage error =>
      have hskip := resyncLength?_of_damage hf
      rw [Entry.first?, decode_of_damage hf, Option.map_some, Finding.entry, Finding.damageLength]
      simp only [hskip, Option.getD_some]

theorem Finding.size_entry (h : finding? config bytes = some f) :
    (f.entry bytes.length).size = min f.extent bytes.length := by
  cases f with
  | frame frame =>
    have hl := (Frame.decode_frame_length (decode_of_frame h)).2
    have he : (Finding.frame frame).extent = frame.totalLength := Nat.add_zero _
    rw [he]
    exact (Nat.min_eq_left hl).symm
  | damage error =>
    have he : (Finding.damage error).extent = (Finding.damage error).damageLength := Nat.zero_add _
    rw [he]
    rfl

theorem Finding.drop_entry (h : finding? config bytes = some f) :
    bytes.drop (f.entry bytes.length).size = bytes.drop f.extent := by
  rw [Finding.size_entry h]
  rcases Nat.le_total f.extent bytes.length with hle | hle
  · rw [Nat.min_eq_left hle]
  · rw [Nat.min_eq_right hle, List.drop_length, List.drop_of_length_le hle]

end front

namespace Listing

variable {config : Frame.Config} {bytes : Bytes} {entry : Entry}

theorem from_of_none (offset : Nat) (h : Entry.first? config bytes = none) :
    Listing.from config offset bytes = ⟨[], bytes.length⟩ := by
  rw [Listing.from]
  split
  · rfl
  · next hs => rw [h] at hs; cases hs

theorem from_of_some (offset : Nat) (h : Entry.first? config bytes = some entry) :
    Listing.from config offset bytes =
      ⟨(offset, entry) ::
          (Listing.from config (offset + entry.size) (bytes.drop entry.size)).entries,
        (Listing.from config (offset + entry.size) (bytes.drop entry.size)).trailing⟩ := by
  rw [Listing.from]
  split
  · next hs => rw [h] at hs; cases hs
  · next hs => rw [h] at hs; cases hs; rfl

/-- A listing has the items of the findings, and leaves the bytes behind them over. -/
theorem from_findings (config : Frame.Config) (offset : Nat) (bytes : Bytes) :
    (Listing.from config offset bytes).entries.map (·.2.item) =
        (findings config bytes).map Finding.item ∧
      (Listing.from config offset bytes).trailing =
        (bytes.drop (span (findings config bytes))).length := by
  fun_induction findings config bytes generalizing offset with
  | case1 bytes hf =>
    have hfirst : Entry.first? config bytes = none := by rw [Entry.first?_eq, hf, Option.map_none]
    rw [from_of_none offset hfirst]
    exact ⟨rfl, rfl⟩
  | case2 bytes f hf hlt ih =>
    have hfirst : Entry.first? config bytes = some (f.entry bytes.length) := by
      rw [Entry.first?_eq, hf, Option.map_some]
    obtain ⟨hitems, htrailing⟩ := ih (offset + (f.entry bytes.length).size)
    rw [from_of_some offset hfirst, Finding.drop_entry hf]
    refine ⟨?_, ?_⟩
    · rw [List.map_cons, List.map_cons, hitems, f.item_entry]
    · rw [htrailing, List.drop_drop, span_cons]

/-- An item of each entry, in their order, and then a truncation if bytes are left over. -/
def Yields (listing : Listing) (items : List Item) : Prop :=
  ∃ last : Option Item, items = listing.entries.map (·.2.item) ++ last.toList ∧
    (last = none ∧ listing.trailing = 0 ∨ 0 < listing.trailing ∧
      ∃ missing, last = some (.error (.truncated listing.trailing missing)))

/-- The items of a stream that ends without a failure are told by the listing of its bytes. -/
theorem of_yields (config : Frame.Config) (bytes : Bytes) :
    (Listing.of config bytes).Yields (streamItems config bytes none) := by
  obtain ⟨hitems, htrailing⟩ := from_findings config 0 bytes
  refine ⟨lastItem (bytes.drop (span (findings config bytes))) none, ?_, ?_⟩
  · rw [streamItems, Listing.of, hitems]
  · rw [lastItem, Listing.of, htrailing]
    by_cases hz : (bytes.drop (span (findings config bytes))).length = 0
    · rw [(Assembler.ending_eq_ok_iff _).2 hz]
      exact Or.inl ⟨rfl, hz⟩
    · rw [Assembler.ending_of_ne_zero hz]
      exact Or.inr ⟨Nat.pos_of_ne_zero hz, _, rfl⟩

section yields

variable {listing : Listing} {items : List Item}

theorem Yields.getElem? (h : listing.Yields items) {k : Nat} {located : Nat × Entry}
    (hk : listing.entries[k]? = some located) : items[k]? = some located.2.item := by
  obtain ⟨last, rfl, -⟩ := h
  have hlt : k < (listing.entries.map (·.2.item)).length := by
    rw [List.length_map]
    exact (List.getElem?_eq_some_iff.1 hk).1
  rw [List.getElem?_append_left hlt, List.getElem?_map, hk, Option.map_some]

/-- The items end with a truncation where bytes are left over, which are those it counts. -/
theorem Yields.getLast? (h : listing.Yields items) (buffered : Nat) :
    (∃ missing, items.getLast? = some (.error (.truncated buffered missing))) ↔
      0 < listing.trailing ∧ buffered = listing.trailing := by
  obtain ⟨last, rfl, ⟨rfl, hzero⟩ | ⟨hpos, missing, rfl⟩⟩ := h
  · rw [hzero, Option.toList_none, List.append_nil]
    refine ⟨fun ⟨missing, hend⟩ => ?_, fun ⟨hpos, _⟩ => absurd hpos (Nat.lt_irrefl 0)⟩
    obtain ⟨located, -, hitem⟩ := List.mem_map.1 (List.mem_of_getLast? hend)
    exact absurd hitem (located.2.item_ne_truncated buffered missing)
  · rw [Option.toList_some, List.getLast?_concat]
    constructor
    · rintro ⟨missing', hend⟩
      cases hend
      exact ⟨hpos, rfl⟩
    · rintro ⟨-, rfl⟩
      exact ⟨missing, rfl⟩

theorem isSound_iff : listing.isSound = true ↔
    listing.trailing = 0 ∧ ∀ located ∈ listing.entries, located.2.isFrame = true := by
  rw [isSound, Bool.and_eq_true, beq_iff_eq, List.all_eq_true]

/-- Where all items are events, all entries are frames and no bytes are left over. -/
theorem Yields.isSound (h : listing.Yields items) (hok : ∀ item ∈ items, item.isOk = true) :
    listing.isSound = true := by
  obtain ⟨last, rfl, ⟨-, hzero⟩ | ⟨-, missing, rfl⟩⟩ := h
  · refine isSound_iff.2 ⟨hzero, fun located hmem => located.2.isFrame_iff.2 (Or.inl ?_)⟩
    have hitem := hok _ (List.mem_append_left _ (List.mem_map_of_mem hmem))
    generalize located.2.item = item at hitem ⊢
    cases item with
    | ok event => exact ⟨event, rfl⟩
    | error error => cases hitem
  · have hitem := hok _ (List.mem_append_right _ (List.mem_singleton_self _))
    cases hitem

end yields

/-- Entries stand one behind the other from the first offset on, and together with the bytes left
over they are all bytes there are. -/
theorem from_contiguous (config : Frame.Config) (offset : Nat) (bytes : Bytes) :
    (∀ first ∈ (Listing.from config offset bytes).entries.head?, first.1 = offset) ∧
      (Listing.from config offset bytes).entries.IsChain
        (fun former latter => latter.1 = former.1 + former.2.size) ∧
      ((Listing.from config offset bytes).entries.map (·.2.size)).sum +
        (Listing.from config offset bytes).trailing = bytes.length := by
  fun_induction Listing.from config offset bytes with
  | case1 offset bytes hfirst => exact ⟨fun _ hm => (nomatch hm), .nil, Nat.zero_add _⟩
  | case2 offset bytes entry hfirst hlt rest ih =>
    obtain ⟨hhead, hchain, hsum⟩ := ih
    refine ⟨?_, hchain.cons hhead, ?_⟩
    · intro first hm
      cases hm
      rfl
    · have hsize := (Entry.first?_size hfirst).2
      rw [List.length_drop] at hsum
      have hrest : (rest.entries.map (·.2.size)).sum + rest.trailing = bytes.length - entry.size :=
        hsum
      rw [List.map_cons, List.sum_cons, Nat.add_assoc, hrest]
      exact Nat.add_sub_cancel' hsize

end Listing

end EventStream.Stream
