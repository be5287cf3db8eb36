import EventStream.Frame.Append
import EventStream.Proofs.Frame.RoundTrip
import EventStream.Proofs.Text.Order

/-!
When a frame can be written, and what a failure reports. Either a buffer grows by the whole frame,
or it stays as it was and the error names the first header that does not fit, or the size of a
frame whose headers all do.
-/

set_option autoImplicit false

namespace EventStream.Header

def Value.count? : Value → Option Nat
  | .bytes b => some b.length
  | .string s => some s.utf8ByteSize
  | _ => none

/-- Both length fields of an entry can hold their numbers. -/
def Sized (entry : String × Value) : Prop :=
  entry.1.utf8ByteSize ≤ 255 ∧ ∀ n, entry.2.count? = some n → n ≤ 65535

/-- Which length field of an entry cannot hold its number. The name is looked at first. -/
inductive Overlong : String × Value → Oversize → Prop where
  | name {name : String} {value : Value} (h : 255 < name.utf8ByteSize) :
    Overlong (name, value) (.nameTooLong name name.utf8ByteSize)
  | value {name : String} {value : Value} {n : Nat} (hname : name.utf8ByteSize ≤ 255)
    (hcount : value.count? = some n) (h : 65535 < n) :
    Overlong (name, value) (.valueTooLong name n)

theorem sized_or_overlong (entry : String × Value) :
    Sized entry ∨ ∃ cause, Overlong entry cause := by
  obtain ⟨name, value⟩ := entry
  by_cases hname : name.utf8ByteSize ≤ 255
  · cases hcount : value.count? with
    | none => exact Or.inl ⟨hname, fun n hn => by rw [hcount] at hn; cases hn⟩
    | some n =>
      by_cases hn : n ≤ 65535
      · exact Or.inl ⟨hname, fun m hm => by cases hcount.symm.trans hm; exact hn⟩
      · exact Or.inr ⟨_, .value hname hcount (Nat.not_le.1 hn)⟩
  · exact Or.inr ⟨_, .name (Nat.not_le.1 hname)⟩

theorem writeCounted_fault (name : String) (bytes : Bytes) :
    (writeCounted name bytes).fault =
      if bytes.length ≤ 65535 then none else some (.valueTooLong name bytes.length) := by
  rw [writeCounted]
  split <;> rfl

/-- A value fails to be written only by its count. -/
theorem writeValue_fault (name : String) (value : Value) :
    (writeValue name value).fault =
      value.count?.bind fun n => if n ≤ 65535 then none else some (.valueTooLong name n) := by
  cases value with
  | bytes b => exact writeCounted_fault name b
  | string s =>
    have h := writeCounted_fault name (Utf8.encode s)
    rw [Utf8.encode_length] at h
    exact h
  | _ => rfl

theorem writeEntry_fault (name : String) (value : Value) :
    (writeEntry name value).fault =
      if name.utf8ByteSize ≤ 255 then (writeValue name value).fault
      else some (.nameTooLong name name.utf8ByteSize) := by
  rw [writeEntry, Utf8.encode_length]
  split <;> rfl

theorem Sized.fault {name : String} {value : Value} (h : Sized (name, value)) :
    (writeEntry name value).fault = none := by
  rw [writeEntry_fault, if_pos h.1, writeValue_fault]
  cases hcount : value.count? with
  | none => rfl
  | some n => exact if_pos (h.2 n hcount)

theorem Overlong.fault {name : String} {value : Value} {cause : Oversize}
    (h : Overlong (name, value) cause) : (writeEntry name value).fault = some cause := by
  rw [writeEntry_fault]
  cases h with
  | name h => exact if_neg (Nat.not_le.2 h)
  | value hname hcount h =>
    rw [if_pos hname, writeValue_fault, hcount]
    exact if_neg (Nat.not_le.2 h)

theorem writeEntries_fault_of_sized {entries : List (String × Value)}
    (h : ∀ entry ∈ entries, Sized entry) : (writeEntries entries).fault = none := by
  induction entries with
  | nil => rfl
  | cons entry rest ih =>
    have hfirst := (h entry List.mem_cons_self).fault
    simp only [writeEntries, hfirst]
    exact ih fun e he => h e (List.mem_cons_of_mem _ he)

/-- Writing breaks off at the first entry that does not fit. -/
theorem writeEntries_fault_of_overlong {front behind : List (String × Value)}
    {entry : String × Value} {cause : Oversize} (hfront : ∀ e ∈ front, Sized e)
    (h : Overlong entry cause) :
    (writeEntries (front ++ entry :: behind)).fault = some cause := by
  induction front with
  | nil =>
    have hfault := h.fault
    rw [List.nil_append]
    simp only [writeEntries, hfault]
  | cons first front ih =>
    have hfirst := (hfront first List.mem_cons_self).fault
    rw [List.cons_append]
    simp only [writeEntries, hfirst]
    exact ih fun e he => hfront e (List.mem_cons_of_mem _ he)

theorem exists_first_overlong {entries : List (String × Value)}
    (h : ¬ ∀ entry ∈ entries, Sized entry) :
    ∃ front entry behind cause, entries = front ++ entry :: behind ∧
      (∀ e ∈ front, Sized e) ∧ Overlong entry cause := by
  induction entries with
  | nil => exact absurd (fun _ he => absurd he List.not_mem_nil) h
  | cons entry rest ih =>
    rcases sized_or_overlong entry with hs | ⟨cause, ho⟩
    · obtain ⟨front, e, behind, cause, rfl, hfront, ho⟩ :=
        ih fun hrest => h (List.forall_mem_cons.2 ⟨hs, hrest⟩)
      exact ⟨entry :: front, e, behind, cause, rfl, List.forall_mem_cons.2 ⟨hs, hfront⟩, ho⟩
    · exact ⟨[], entry, rest, cause, rfl, fun _ he => absurd he List.not_mem_nil, ho⟩

end EventStream.Header

namespace EventStream.Frame

open EventStream.Header (Sized Overlong)

section writer

variable {α β : Type}

theorem Writer.run_bind (m : Writer α) (f : α → Writer β) (before : Bytes) :
    (m >>= f) before =
      match m before with
      | .ok a after => f a after
      | .error error after => .error error after := by
  show EStateM.bind m f before = _
  rw [EStateM.bind]
  cases m before <;> rfl

theorem Writer.get_run (before : Bytes) : (get : Writer Bytes) before = .ok before before := rfl

theorem Writer.put_run (bytes before : Bytes) :
    Writer.put bytes before = .ok () (before ++ bytes) := rfl

theorem Writer.checksum_run (start stop : Nat) (before : Bytes) :
    Writer.checksum start stop before =
      .ok () (before ++ bigEndian 4 (crc32 (slice start stop before)).toNat) := rfl

end writer

theorem slice_behind (before part : Bytes) :
    slice before.length (before.length + part.length) (before ++ part) = part := by
  have h : slice before.length (before.length + part.length) (before ++ (part ++ [])) = part :=
    slice_append_self rfl rfl []
  rwa [List.append_nil] at h

/-- Field by field a buffer gets what it gets at once, and keeps all it had on a failure. -/
theorem append_eq_encode (headers : Headers) (payload before : Bytes) :
    append headers payload before =
      match encode headers payload before with
      | .ok after => .ok () after
      | .error error => .error error before := by
  rw [append, encode]
  cases headers.write.fault with
  | some cause => rfl
  | none =>
    simp only
    by_cases hl : overhead + headers.write.bytes.length + payload.length ≤ lengthLimit
    · rw [if_pos hl, if_neg (Nat.not_lt.2 hl)]
      have hlengths := slice_behind before (lengthFields headers.write.bytes payload)
      have hchecked := slice_behind before (checkedPart headers.write.bytes payload)
      rw [lengthFields_length] at hlengths
      simp only [Writer.run_bind, Writer.get_run, Writer.word, Writer.put_run, Writer.checksum_run]
      have hfields :
          before ++ bigEndian 4 (overhead + headers.write.bytes.length + payload.length) ++
            bigEndian 4 headers.write.bytes.length =
              before ++ lengthFields headers.write.bytes payload := List.append_assoc _ _ _
      rw [hfields, hlengths]
      have hparts : before ++ lengthFields headers.write.bytes payload ++
          bigEndian 4 (crc32 (lengthFields headers.write.bytes payload)).toNat ++
            headers.write.bytes ++ payload =
              before ++ checkedPart headers.write.bytes payload := by
        simp only [checkedPart, List.append_assoc]
      rw [hparts, List.length_append, hchecked, wire_eq, List.append_assoc]
    · rw [if_neg hl, if_pos (Nat.not_le.1 hl)]
      rfl

def Writable (headers : Headers) (payload : Bytes) : Prop :=
  (∀ entry ∈ headers.entries, Sized entry) ∧
    overhead + headers.encodedLength + payload.length ≤ lengthLimit

/-- What is wrong with headers and a payload: of the headers that do not fit, the one whose name has
the least bytes, or else the size. -/
inductive Unwritable (headers : Headers) (payload : Bytes) : Error → Prop where
  | header {entry : String × Header.Value} {cause : Header.Oversize}
    (hmem : entry ∈ headers.entries) (hcause : Overlong entry cause)
    (hfirst : ∀ other ∈ headers.entries, ¬ Sized other →
      other = entry ∨ Utf8.encode entry.1 < Utf8.encode other.1) :
    Unwritable headers payload (.oversize cause)
  | size (hsized : ∀ entry ∈ headers.entries, Sized entry)
    (h : lengthLimit < overhead + headers.encodedLength + payload.length) :
    Unwritable headers payload
      (.encodeTooLarge (overhead + headers.encodedLength + payload.length))

variable {headers : Headers} {payload : Bytes}

theorem encode_of_fault {cause : Header.Oversize} (h : headers.write.fault = some cause)
    (before : Bytes) : encode headers payload before = .error (.oversize cause) := by
  rw [encode, h]

theorem encode_of_sized (h : ∀ entry ∈ headers.entries, Sized entry) (before : Bytes) :
    encode headers payload before =
      if overhead + headers.encodedLength + payload.length ≤ lengthLimit then
        .ok (before ++ wire headers.write.bytes payload)
      else .error (.encodeTooLarge (overhead + headers.encodedLength + payload.length)) := by
  have hfault : headers.write.fault = none := Header.writeEntries_fault_of_sized h
  rw [encode, hfault, ← Headers.write_length hfault]

/-- The first entry that does not fit has the least name of all those. -/
theorem exists_unwritable (h : ¬ ∀ entry ∈ headers.entries, Sized entry) :
    ∃ cause, headers.write.fault = some cause ∧ Unwritable headers payload (.oversize cause) := by
  obtain ⟨front, entry, behind, cause, hentries, hfront, hcause⟩ := Header.exists_first_overlong h
  have hfault : headers.write.fault = some cause := by
    rw [Headers.write, hentries]
    exact Header.writeEntries_fault_of_overlong hfront hcause
  have hascending := headers.ascending
  rw [hentries] at hascending
  refine ⟨cause, hfault, .header (hentries ▸ List.mem_append_right _ List.mem_cons_self) hcause ?_⟩
  intro other hother hlarge
  rw [hentries] at hother
  rcases List.mem_append.1 hother with hf | hb
  · exact absurd (hfront other hf) hlarge
  · rcases List.mem_cons.1 hb with rfl | hb
    · exact Or.inl rfl
    · have hnames := (List.pairwise_cons.1 (List.pairwise_append.1 hascending).2.1).1 other hb
      exact Or.inr (Utf8.encode_lt hnames)

theorem encode_of_writable (h : Writable headers payload) (before : Bytes) :
    encode headers payload before = .ok (before ++ wire headers.write.bytes payload) := by
  rw [encode_of_sized h.1, if_pos h.2]

theorem encode_of_not_writable (h : ¬ Writable headers payload) :
    ∃ error, Unwritable headers payload error ∧
      ∀ before, encode headers payload before = .error error := by
  by_cases hsized : ∀ entry ∈ headers.entries, Sized entry
  · have hsize : ¬ overhead + headers.encodedLength + payload.length ≤ lengthLimit :=
      fun hl => h ⟨hsized, hl⟩
    refine ⟨_, .size hsized (Nat.not_le.1 hsize), fun before => ?_⟩
    rw [encode_of_sized hsized, if_neg hsize]
  · obtain ⟨cause, hfault, hcause⟩ := exists_unwritable hsized
    exact ⟨_, hcause, encode_of_fault hfault⟩

/-- A frame is appended as a whole or not at all. It is appended if and only if each name, each
counted value and the frame fit their length fields. Then the buffer grows by as many bytes as the
lengths ask for, which are the same whatever it held; otherwise it is left as it was, with the error
of the first header that does not fit, or with the size. -/
theorem append_exact (headers : Headers) (payload : Bytes) :
    (∀ before, (∃ after, append headers payload before = .ok () after) ↔
      Writable headers payload) ∧
    (Writable headers payload → ∃ written,
      written.length = overhead + headers.encodedLength + payload.length ∧
      ∀ before, append headers payload before = .ok () (before ++ written) ∧
        encode headers payload before = .ok (before ++ written)) ∧
    (¬ Writable headers payload → ∃ error, Unwritable headers payload error ∧
      ∀ before, append headers payload before = .error error before ∧
        encode headers payload before = .error error) := by
  have hsuccess : Writable headers payload → ∃ written,
      written.length = overhead + headers.encodedLength + payload.length ∧
      ∀ before, append headers payload before = .ok () (before ++ written) ∧
        encode headers payload before = .ok (before ++ written) := by
    intro h
    have hfault : headers.write.fault = none := Header.writeEntries_fault_of_sized h.1
    refine ⟨wire headers.write.bytes payload, ?_, fun before => ⟨?_, encode_of_writable h before⟩⟩
    · rw [wire_length, Headers.write_length hfault]
    · rw [append_eq_encode, encode_of_writable h]
  have hfailure : ¬ Writable headers payload → ∃ error, Unwritable headers payload error ∧
      ∀ before, append headers payload before = .error error before ∧
        encode headers payload before = .error error := by
    intro h
    obtain ⟨error, herror, hencode⟩ := encode_of_not_writable h
    refine ⟨error, herror, fun before => ⟨?_, hencode before⟩⟩
    rw [append_eq_encode, hencode]
  refine ⟨fun before => ⟨fun ⟨after, hafter⟩ => ?_, fun h => ?_⟩, hsuccess, hfailure⟩
  · by_contra h
    obtain ⟨error, -, hall⟩ := hfailure h
    rw [(hall before).1] at hafter
    cases hafter
  · obtain ⟨written, -, hall⟩ := hsuccess h
    exact ⟨before ++ written, (hall before).1⟩

end EventStream.Frame
