import EventStream.Header.Block
import EventStream.Proofs.Bytes
import EventStream.Proofs.Text.Utf8

/-!
A header block that was written is read back whole. Each reader takes what its writer put in front
of any further bytes, and hands the cursor on behind it.
-/

set_option autoImplicit false

namespace EventStream.Header

theorem Cursor.take_append {n : Nat} (offset : Nat) {part : Bytes} (h : part.length = n)
    (rest : Bytes) :
    Cursor.take n ⟨offset, part ++ rest⟩ = .ok (part, ⟨offset + n, rest⟩) := by
  subst h
  simp only [Cursor.take, List.take_left, List.drop_left]
  rw [if_pos trivial]

theorem Cursor.number_bigEndian {width n : Nat} (h : n < 256 ^ width) (offset : Nat)
    (rest : Bytes) :
    Cursor.number width ⟨offset, bigEndian width n ++ rest⟩ = .ok (n, ⟨offset + width, rest⟩) := by
  rw [Cursor.number, Cursor.take_append offset (bigEndian_length width n)]
  exact congrArg (fun k => Except.ok (k, Cursor.mk (offset + width) rest)) (ofBigEndian_bigEndian h)

theorem Cursor.number_bind {α : Type} {width n : Nat} (h : n < 256 ^ width) (offset : Nat)
    (rest : Bytes) (next : Nat × Cursor → Except Fault α) :
    (Cursor.number width ⟨offset, bigEndian width n ++ rest⟩ >>= next) =
      next (n, ⟨offset + width, rest⟩) := by
  rw [Cursor.number_bigEndian h]
  rfl

theorem Cursor.counted_writeCounted {name : String} {bytes : Bytes}
    (h : (writeCounted name bytes).fault = none) (offset : Nat) (rest : Bytes) :
    Cursor.counted ⟨offset, (writeCounted name bytes).bytes ++ rest⟩ =
      .ok (bytes, ⟨offset + (writeCounted name bytes).bytes.length, rest⟩) := by
  unfold writeCounted at h ⊢
  by_cases hl : bytes.length ≤ 65535
  · simp only [if_pos hl]
    rw [List.append_assoc, Cursor.counted, Cursor.number_bigEndian (by omega)]
    exact (Cursor.take_append _ rfl rest).trans (by simp [Nat.add_assoc])
  · rw [if_neg hl] at h
    cases h

theorem Cursor.uuid_append (id : Uuid) (offset : Nat) (rest : Bytes) :
    Cursor.uuid ⟨offset, id.bytes ++ rest⟩ = .ok (id, ⟨offset + 16, rest⟩) := by
  have ht : (id.bytes ++ rest).take 16 = id.bytes := by
    rw [← id.length_eq, List.take_left]
  have hd : (id.bytes ++ rest).drop 16 = rest := by
    rw [← id.length_eq, List.drop_left]
  simp only [Cursor.uuid, ht, hd, id.length_eq]
  rfl

/-- A value is read from what was written for it, whatever follows. -/
theorem readValue_writeValue {name : String} {value : Value}
    (h : (writeValue name value).fault = none) (tagOffset offset : Nat) (rest : Bytes) :
    readValue tagOffset value.tag ⟨offset, (writeValue name value).bytes ++ rest⟩ =
      .ok (value, ⟨offset + (writeValue name value).bytes.length, rest⟩) := by
  cases value with
  | bool b => cases b <;> rfl
  | byte v =>
    have hv : v.toUInt8.toNat < 256 ^ 1 := v.toUInt8.toNat_lt
    simp only [readValue, writeValue, Value.tag, Cursor.number_bind hv, bigEndian_length]
    simp [pure, Except.pure]
  | short v =>
    have hv : v.toUInt16.toNat < 256 ^ 2 := v.toUInt16.toNat_lt
    simp only [readValue, writeValue, Value.tag, Cursor.number_bind hv, bigEndian_length]
    simp [pure, Except.pure]
  | int v =>
    have hv : v.toUInt32.toNat < 256 ^ 4 := v.toUInt32.toNat_lt
    simp only [readValue, writeValue, Value.tag, Cursor.number_bind hv, bigEndian_length]
    simp [pure, Except.pure]
  | long v | timestamp v =>
    have hv : v.toUInt64.toNat < 256 ^ 8 := v.toUInt64.toNat_lt
    simp only [readValue, writeValue, Value.tag, Cursor.number_bind hv, bigEndian_length]
    simp [pure, Except.pure]
  | bytes b =>
    simp only [readValue, Value.tag, writeValue]
    rw [Cursor.counted_writeCounted h]
    rfl
  | string s =>
    simp only [readValue, Value.tag, writeValue]
    rw [Cursor.counted_writeCounted h]
    exact congrArg (fun t => Except.ok (Value.string t, Cursor.mk _ rest))
      (Utf8.decodeLossy_encode s)
  | uuid id =>
    simp only [readValue, Value.tag, writeValue]
    rw [Cursor.uuid_append, id.length_eq]
    rfl

theorem readName_write {name : String} (h : (Utf8.encode name).length ≤ 255) (offset : Nat)
    (rest : Bytes) :
    readName ⟨offset, bigEndian 1 (Utf8.encode name).length ++ (Utf8.encode name ++ rest)⟩ =
      .ok (name, ⟨offset + 1 + (Utf8.encode name).length, rest⟩) := by
  have hl : (Utf8.encode name).length < 256 ^ 1 := by omega
  rw [readName, Cursor.number_bind hl]
  simp only [Cursor.take_append _ rfl, bind, Except.bind, Utf8.decode_encode]
  rfl

theorem bigEndian_tag (tag : UInt8) : bigEndian 1 tag.toNat = [tag] := by
  simp [bigEndian]

theorem readEntry_writeEntry {name : String} {value : Value}
    (h : (writeEntry name value).fault = none) (offset : Nat) (rest : Bytes) :
    readEntry ⟨offset, (writeEntry name value).bytes ++ rest⟩ =
      .ok ((name, value), ⟨offset + (writeEntry name value).bytes.length, rest⟩) := by
  unfold writeEntry at h ⊢
  by_cases hl : (Utf8.encode name).length ≤ 255
  · simp only [if_pos hl] at h ⊢
    have ht : value.tag.toNat < 256 ^ 1 := value.tag.toNat_lt
    simp only [List.append_assoc, ← bigEndian_tag value.tag]
    rw [readEntry, readName_write hl]
    simp only [bind, Except.bind, Cursor.number_bigEndian ht, UInt8.ofNat_toNat,
      readValue_writeValue h, pure, Except.pure]
    simp only [List.length_append, bigEndian_length, Nat.add_assoc]
  · rw [if_neg hl] at h
    cases h

/-- The first entry that does not fit ends writing, so where none did each entry fits. -/
theorem writeEntries_cons {name : String} {value : Value} {rest : List (String × Value)}
    (h : (writeEntries ((name, value) :: rest)).fault = none) :
    (writeEntry name value).fault = none ∧ (writeEntries rest).fault = none ∧
      (writeEntries ((name, value) :: rest)).bytes =
        (writeEntry name value).bytes ++ (writeEntries rest).bytes := by
  simp only [writeEntries] at h ⊢
  cases hf : (writeEntry name value).fault with
  | none =>
    simp only [hf] at h ⊢
    exact ⟨trivial, h, trivial⟩
  | some cause =>
    simp only [hf] at h
    cases h

theorem writeEntry_ne_nil {name : String} {value : Value}
    (h : (writeEntry name value).fault = none) : (writeEntry name value).bytes ≠ [] := by
  unfold writeEntry at h ⊢
  by_cases hl : (Utf8.encode name).length ≤ 255
  · simp only [if_pos hl]
    intro he
    have := congrArg List.length he
    simp at this
  · rw [if_neg hl] at h
    cases h

theorem writeCounted_length {name : String} {bytes : Bytes}
    (h : (writeCounted name bytes).fault = none) :
    (writeCounted name bytes).bytes.length = 2 + bytes.length := by
  unfold writeCounted at h ⊢
  by_cases hl : bytes.length ≤ 65535
  · rw [if_pos hl, List.length_append, bigEndian_length]
  · rw [if_neg hl] at h
    cases h

theorem writeValue_length {name : String} {value : Value}
    (h : (writeValue name value).fault = none) :
    (writeValue name value).bytes.length = value.encodedLength := by
  cases value with
  | bytes b => exact writeCounted_length h
  | string s => exact (writeCounted_length h).trans (congrArg (2 + ·) (Utf8.encode_length s))
  | uuid id => exact id.length_eq
  | _ => simp [writeValue, Value.encodedLength]

theorem writeEntry_length {name : String} {value : Value}
    (h : (writeEntry name value).fault = none) :
    (writeEntry name value).bytes.length = Headers.entryLength (name, value) := by
  unfold writeEntry at h ⊢
  by_cases hl : (Utf8.encode name).length ≤ 255
  · simp only [if_pos hl] at h ⊢
    simp only [List.length_append, bigEndian_length, List.length_singleton, writeValue_length h,
      Utf8.encode_length, Headers.entryLength]
  · rw [if_neg hl] at h
    cases h

theorem writeEntries_length {entries : List (String × Value)}
    (h : (writeEntries entries).fault = none) :
    (writeEntries entries).bytes.length =
      entries.foldr (fun entry n => Headers.entryLength entry + n) 0 := by
  induction entries with
  | nil => rfl
  | cons entry rest ih =>
    obtain ⟨hfirst, hrest, hbytes⟩ := writeEntries_cons h
    rw [hbytes, List.length_append, writeEntry_length hfirst, ih hrest, List.foldr_cons]

/-- Entries that all fit are read back in their order. -/
theorem entriesFrom_writeEntries {entries : List (String × Value)}
    (h : (writeEntries entries).fault = none) (found : List (String × Value)) (offset : Nat) :
    entriesFrom found ⟨offset, (writeEntries entries).bytes⟩ = (found.reverse ++ entries, none) := by
  induction entries generalizing found offset with
  | nil => simp [writeEntries, entriesFrom]
  | cons entry rest ih =>
    obtain ⟨name, value⟩ := entry
    obtain ⟨hfirst, hrest, hbytes⟩ := writeEntries_cons h
    have hne : ((writeEntry name value).bytes ++ (writeEntries rest).bytes).isEmpty = false := by
      simp [writeEntry_ne_nil hfirst]
    rw [hbytes, entriesFrom, if_neg (by simp [hne])]
    split
    · next fault hread =>
      rw [readEntry_writeEntry hfirst] at hread
      cases hread
    · next hread =>
      rw [readEntry_writeEntry hfirst] at hread
      cases hread
      rw [ih hrest, List.reverse_cons, List.append_assoc]
      rfl

end EventStream.Header

namespace EventStream.Assoc

variable {α : Type}

theorem insert_above {name : String} {value : α} {entries : List (String × α)}
    (h : ∀ e ∈ entries, e.1 < name) : insert name value entries = entries ++ [(name, value)] := by
  induction entries with
  | nil => rfl
  | cons head rest ih =>
    obtain ⟨n, v⟩ := head
    have hn : n < name := h (n, v) List.mem_cons_self
    have hne : name ≠ n := fun he => String.lt_irrefl n (he ▸ hn)
    have hge : ¬ name < n := String.lt_asymm hn
    rw [insert, if_neg hne, if_neg hge, ih fun e he => h e (List.mem_cons_of_mem _ he)]
    rfl

end EventStream.Assoc

namespace EventStream.Headers

theorem insertAll_ascending (headers : Headers) {entries : List (String × Header.Value)}
    (h : Assoc.Ascending (headers.entries ++ entries)) :
    (headers.insertAll entries).entries = headers.entries ++ entries := by
  induction entries generalizing headers with
  | nil => rw [List.append_nil]; rfl
  | cons entry rest ih =>
    have hlt : ∀ e ∈ headers.entries, e.1 < entry.1 := fun e he =>
      (List.pairwise_append.1 h).2.2 e he entry List.mem_cons_self
    have hi : (headers.insert entry.1 entry.2).entries = headers.entries ++ [entry] :=
      Assoc.insert_above hlt
    have happ : (headers.insert entry.1 entry.2).entries ++ rest =
        headers.entries ++ entry :: rest := by
      rw [hi, List.append_assoc]
      rfl
    exact (ih _ (happ ▸ h)).trans happ

theorem ofList_entries (headers : Headers) : ofList headers.entries = headers := by
  have h : (ofList headers.entries).entries = headers.entries :=
    insertAll_ascending empty headers.ascending
  cases headers with
  | mk entries ascending =>
    generalize hs : ofList entries = rebuilt at h
    cases rebuilt
    cases h
    rfl

theorem write_length {headers : Headers} (h : headers.write.fault = none) :
    headers.write.bytes.length = headers.encodedLength :=
  Header.writeEntries_length h

/-- A header block that was written without a fault is read back whole. -/
theorem parse_write {headers : Headers} (h : headers.write.fault = none) :
    Header.Block.parse headers.write.bytes = ⟨headers, none⟩ := by
  have he : Header.entries headers.write.bytes = (headers.entries, none) :=
    Header.entriesFrom_writeEntries h [] 0
  rw [Header.Block.parse, he]
  exact congrArg (Header.Block.mk · none) (ofList_entries headers)

end EventStream.Headers
