import EventStream.Proofs.Header.Extension
import EventStream.Proofs.Header.RoundTrip
import EventStream.Proofs.Text.Order
import EventStream.Proofs.Text.Strict
import Mathlib.Data.List.Forall2

/-!
Header blocks that are written again as they were read. A block that reads completely is a row of
raw entries in one way. Reading loses the order of the names, all but the last entry of a name, and
the bytes of strings that are no text; it loses nothing else.
-/

set_option autoImplicit false

namespace EventStream.Header

/-- How many bytes a value takes: a fixed number, or as many as a count in front of it says. -/
inductive Extent where
  | fixed (length : Nat)
  | counted

namespace Extent

def ofTag? : UInt8 → Option Extent
  | 0 => some (.fixed 0)
  | 1 => some (.fixed 0)
  | 2 => some (.fixed 1)
  | 3 => some (.fixed 2)
  | 4 => some (.fixed 4)
  | 5 => some (.fixed 8)
  | 6 => some .counted
  | 7 => some .counted
  | 8 => some (.fixed 8)
  | 9 => some (.fixed 16)
  | _ => none

def Holds : Extent → Bytes → Prop
  | .fixed length, value => value.length = length
  | .counted, value => value.length ≤ 65535

def lay : Extent → Bytes → Bytes
  | .fixed _, value => value
  | .counted, value => bigEndian 2 value.length ++ value

end Extent

/-- An entry of a block by its bytes, before any text is decoded. -/
structure RawEntry where
  name : Bytes
  tag : UInt8
  extent : Extent
  value : Bytes
  name_length : name.length ≤ 255
  name_isText : Utf8.IsText name
  extent_eq : Extent.ofTag? tag = some extent
  holds : extent.Holds value

def RawEntry.wire (raw : RawEntry) : Bytes :=
  bigEndian 1 raw.name.length ++ (raw.name ++ (raw.tag :: raw.extent.lay raw.value))

def Value.raw : Value → Bytes
  | .bool _ => []
  | .byte v => bigEndian 1 v.toUInt8.toNat
  | .short v => bigEndian 2 v.toUInt16.toNat
  | .int v => bigEndian 4 v.toUInt32.toNat
  | .long v => bigEndian 8 v.toUInt64.toNat
  | .bytes b => b
  | .string s => Utf8.encode s
  | .timestamp v => bigEndian 8 v.toUInt64.toNat
  | .uuid id => id.bytes

/-- What a raw entry is read as. A string is shown with every byte that is no text replaced. -/
structure RawEntry.Reads (raw : RawEntry) (entry : String × Value) : Prop where
  name : raw.name = Utf8.encode entry.1
  tag : raw.tag = entry.2.tag
  string : raw.tag = 7 → entry.2 = .string (Utf8.decodeLossy raw.value)
  other : raw.tag ≠ 7 → raw.value = entry.2.raw

structure RawEntry.Writes (raw : RawEntry) (entry : String × Value) : Prop where
  name : raw.name = Utf8.encode entry.1
  tag : raw.tag = entry.2.tag
  value : raw.value = entry.2.raw

section unique

theorem Extent.lay_append_inj {extent : Extent} {a b x y : Bytes} (ha : extent.Holds a)
    (hb : extent.Holds b) (h : extent.lay a ++ x = extent.lay b ++ y) : a = b ∧ x = y := by
  cases extent with
  | fixed length => exact List.append_inj h (Eq.trans ha hb.symm)
  | counted =>
    have ha : a.length ≤ 65535 := ha
    have hb : b.length ≤ 65535 := hb
    simp only [Extent.lay, List.append_assoc] at h
    obtain ⟨hcount, hrest⟩ := List.append_inj h (by rw [bigEndian_length, bigEndian_length])
    have hlength := congrArg ofBigEndian hcount
    rw [ofBigEndian_bigEndian (by omega), ofBigEndian_bigEndian (by omega)] at hlength
    exact List.append_inj hrest hlength

/-- The first entry of a block ends at one place only. -/
theorem RawEntry.wire_append_inj {a b : RawEntry} {x y : Bytes}
    (h : a.wire ++ x = b.wire ++ y) : a = b ∧ x = y := by
  obtain ⟨aname, atag, aextent, avalue, alength, _, aextent_eq, aholds⟩ := a
  obtain ⟨bname, btag, bextent, bvalue, blength, _, bextent_eq, bholds⟩ := b
  simp only [RawEntry.wire, List.append_assoc, List.cons_append] at h
  obtain ⟨hcount, hrest⟩ := List.append_inj h (by rw [bigEndian_length, bigEndian_length])
  have hlength := congrArg ofBigEndian hcount
  rw [ofBigEndian_bigEndian (by omega), ofBigEndian_bigEndian (by omega)] at hlength
  obtain ⟨rfl, hbody⟩ := List.append_inj hrest hlength
  obtain ⟨rfl, hvalue⟩ := List.cons.inj hbody
  obtain rfl := Option.some.inj (aextent_eq.symm.trans bextent_eq)
  obtain ⟨rfl, rfl⟩ := Extent.lay_append_inj aholds bholds hvalue
  exact ⟨rfl, rfl⟩

theorem RawEntry.wire_ne_nil (raw : RawEntry) : raw.wire ≠ [] := by
  simp [RawEntry.wire]

theorem flatMap_wire_inj {raws others : List RawEntry}
    (h : raws.flatMap RawEntry.wire = others.flatMap RawEntry.wire) : raws = others := by
  induction raws generalizing others with
  | nil =>
    cases others with
    | nil => rfl
    | cons other others =>
      rw [List.flatMap_nil, List.flatMap_cons] at h
      exact absurd (List.append_eq_nil_iff.1 h.symm).1 other.wire_ne_nil
  | cons raw raws ih =>
    cases others with
    | nil =>
      rw [List.flatMap_nil, List.flatMap_cons] at h
      exact absurd (List.append_eq_nil_iff.1 h).1 raw.wire_ne_nil
    | cons other others =>
      rw [List.flatMap_cons, List.flatMap_cons] at h
      obtain ⟨rfl, hrest⟩ := RawEntry.wire_append_inj h
      rw [ih hrest]

end unique

section writing

variable {name : String} {value : Value} {entry : String × Value}

/-- Every value has the extent that its tag tells, unless it is too long for its count. -/
theorem exists_extent (name : String) (value : Value) :
    ∃ extent, Extent.ofTag? value.tag = some extent ∧
      ((writeValue name value).fault = none → extent.Holds value.raw) := by
  have hcounted : ∀ bytes : Bytes,
      (writeCounted name bytes).fault = none → bytes.length ≤ 65535 := by
    intro bytes h
    rw [writeCounted] at h
    split at h
    · assumption
    · cases h
  cases value with
  | bool b => cases b <;> exact ⟨_, rfl, fun _ => rfl⟩
  | byte v | short v | int v | long v | timestamp v =>
    exact ⟨_, rfl, fun _ => bigEndian_length _ _⟩
  | bytes b | string s => exact ⟨_, rfl, hcounted _⟩
  | uuid id => exact ⟨_, rfl, fun _ => id.length_eq⟩

theorem writeValue_eq {extent : Extent} (h : Extent.ofTag? value.tag = some extent)
    (holds : extent.Holds value.raw) : writeValue name value = ⟨extent.lay value.raw, none⟩ := by
  cases value with
  | bool b => cases b <;> cases h <;> rfl
  | byte v | short v | int v | long v | timestamp v | uuid v =>
    cases h
    rfl
  | bytes b | string s =>
    cases h
    exact if_pos holds

theorem RawEntry.Writes.write {raw : RawEntry} (h : raw.Writes entry) :
    writeEntry entry.1 entry.2 = ⟨raw.wire, none⟩ := by
  have hlength := raw.name_length
  have hextent := raw.extent_eq
  have hholds := raw.holds
  rw [h.name] at hlength
  rw [h.tag] at hextent
  rw [h.value] at hholds
  simp only [writeEntry, if_pos hlength, writeValue_eq hextent hholds, RawEntry.wire, h.name, h.tag,
    h.value, List.append_assoc, List.singleton_append]

theorem exists_raw_of_write (h : (writeEntry name value).fault = none) :
    ∃ raw : RawEntry, raw.Writes (name, value) := by
  obtain ⟨extent, hextent, hholds⟩ := exists_extent name value
  rw [writeEntry] at h
  split at h
  · next hlength => exact ⟨⟨_, _, _, _, hlength, ⟨name, rfl⟩, hextent, hholds h⟩, rfl, rfl, rfl⟩
  · cases h

end writing

section reading

variable {α β : Type} {c next : Cursor}

theorem ok_of_bind {first : Except Fault α} {second : α → Except Fault β} {answer : β}
    (h : (first >>= second) = .ok answer) :
    ∃ value, first = .ok value ∧ second value = .ok answer := by
  cases first with
  | error fault => cases h
  | ok value => exact ⟨value, rfl, h⟩

theorem Cursor.take_ok_inv {n : Nat} {bytes : Bytes} (h : c.take n = .ok (bytes, next)) :
    c.rest = bytes ++ next.rest ∧ bytes.length = n := by
  simp only [Cursor.take] at h
  split at h
  · next hlength =>
    cases h
    exact ⟨(List.take_append_drop n c.rest).symm, hlength⟩
  · cases h

theorem Cursor.number_ok_inv {width n : Nat} (h : c.number width = .ok (n, next)) :
    c.rest = bigEndian width n ++ next.rest ∧ n < 256 ^ width := by
  obtain ⟨⟨digits, d⟩, htake, h⟩ := ok_of_bind h
  cases h
  obtain ⟨hrest, hlength⟩ := Cursor.take_ok_inv htake
  subst hlength
  exact ⟨by rw [bigEndian_ofBigEndian]; exact hrest, ofBigEndian_lt digits⟩

theorem Cursor.counted_ok_inv {bytes : Bytes} (h : c.counted = .ok (bytes, next)) :
    c.rest = Extent.counted.lay bytes ++ next.rest ∧ Extent.counted.Holds bytes := by
  obtain ⟨⟨n, d⟩, hcount, h⟩ := ok_of_bind h
  obtain ⟨hc, hn⟩ := Cursor.number_ok_inv hcount
  obtain ⟨hd, hlength⟩ := Cursor.take_ok_inv h
  subst hlength
  rw [Extent.lay, List.append_assoc, ← hd]
  exact ⟨hc, Nat.le_of_lt_succ hn⟩

theorem Cursor.uuid_ok_inv {id : Uuid} (h : c.uuid = .ok (id, next)) :
    c.rest = id.bytes ++ next.rest := by
  simp only [Cursor.uuid] at h
  split at h
  · cases h
    exact (List.take_append_drop 16 c.rest).symm
  · cases h

/-- What stands behind a tag in front of `behind`, and the value that is read from it. -/
structure ReadFrom (tag : UInt8) (bytes behind : Bytes) (value : Value) : Prop where
  tag_eq : value.tag = tag
  exists_raw : ∃ extent raw, Extent.ofTag? tag = some extent ∧ extent.Holds raw ∧
    bytes = extent.lay raw ++ behind ∧
    (tag = 7 → value = .string (Utf8.decodeLossy raw)) ∧ (tag ≠ 7 → raw = value.raw)

theorem ReadFrom.of_raw {tag : UInt8} {bytes behind : Bytes} {value : Value} {extent : Extent}
    (htag : value.tag = tag) (hextent : Extent.ofTag? tag = some extent) (hne : tag ≠ 7)
    (holds : extent.Holds value.raw) (hbytes : bytes = extent.lay value.raw ++ behind) :
    ReadFrom tag bytes behind value :=
  ⟨htag, extent, value.raw, hextent, holds, hbytes, fun h => absurd h hne, fun _ => rfl⟩

theorem ReadFrom.of_number {tag : UInt8} {width n : Nat} {value : Value}
    (h : c.number width = .ok (n, next)) (htag : value.tag = tag)
    (hextent : Extent.ofTag? tag = some (.fixed width)) (hne : tag ≠ 7)
    (hraw : n < 256 ^ width → value.raw = bigEndian width n) :
    ReadFrom tag c.rest next.rest value := by
  obtain ⟨hrest, hlt⟩ := Cursor.number_ok_inv h
  rw [← hraw hlt] at hrest
  exact .of_raw htag hextent hne ((congrArg List.length (hraw hlt)).trans (bigEndian_length _ _))
    hrest

theorem readValue_ok_inv {tagOffset : Nat} {tag : UInt8} {value : Value}
    (h : readValue tagOffset tag c = .ok (value, next)) :
    ReadFrom tag c.rest next.rest value := by
  unfold readValue at h
  -- the cases stand in the order of the tags: a truth value first, then numbers and counted bytes
  split at h
  case h_1 | h_2 =>
    cases h
    exact .of_raw rfl rfl (by decide) rfl rfl
  case h_11 => cases h
  case h_7 =>
    obtain ⟨⟨bytes, d⟩, hbytes, h⟩ := ok_of_bind h
    cases h
    obtain ⟨hrest, holds⟩ := Cursor.counted_ok_inv hbytes
    exact .of_raw rfl rfl (by decide) holds hrest
  case h_8 =>
    obtain ⟨⟨bytes, d⟩, hbytes, h⟩ := ok_of_bind h
    cases h
    obtain ⟨hrest, holds⟩ := Cursor.counted_ok_inv hbytes
    exact ⟨rfl, _, bytes, rfl, holds, hrest, fun _ => rfl, fun hne => absurd rfl hne⟩
  case h_10 =>
    obtain ⟨⟨id, d⟩, hid, h⟩ := ok_of_bind h
    cases h
    exact .of_raw rfl rfl (by decide) id.length_eq (Cursor.uuid_ok_inv hid)
  all_goals
    obtain ⟨⟨n, d⟩, hn, h⟩ := ok_of_bind h
    cases h
    refine .of_number hn rfl rfl (by decide) fun hlt => congrArg (bigEndian _) ?_
  · rw [UInt8.toUInt8_toInt8, UInt8.toNat_ofNat', Nat.mod_eq_of_lt (by omega)]
  · rw [UInt16.toUInt16_toInt16, UInt16.toNat_ofNat', Nat.mod_eq_of_lt (by omega)]
  · rw [UInt32.toUInt32_toInt32, UInt32.toNat_ofNat', Nat.mod_eq_of_lt (by omega)]
  · rw [UInt64.toUInt64_toInt64, UInt64.toNat_ofNat', Nat.mod_eq_of_lt (by omega)]
  · rw [UInt64.toUInt64_toInt64, UInt64.toNat_ofNat', Nat.mod_eq_of_lt (by omega)]

theorem readName_ok_inv {name : String} (h : readName c = .ok (name, next)) :
    (Utf8.encode name).length ≤ 255 ∧
      c.rest = bigEndian 1 (Utf8.encode name).length ++ (Utf8.encode name ++ next.rest) := by
  obtain ⟨⟨n, d⟩, hn, h⟩ := ok_of_bind h
  obtain ⟨⟨raw, d'⟩, htake, h⟩ := ok_of_bind h
  obtain ⟨hc, hlt⟩ := Cursor.number_ok_inv hn
  obtain ⟨hd, hlength⟩ := Cursor.take_ok_inv htake
  simp only at h
  split at h
  · next hdecode =>
    cases h
    obtain rfl := Utf8.decode_eq_ok_iff.1 hdecode
    subst hlength
    exact ⟨Nat.le_of_lt_succ hlt, hd ▸ hc⟩
  · cases h

/-- Every entry that is read stands as a raw entry in front of what is read next. -/
theorem exists_raw_of_readEntry {entry : String × Value} (h : readEntry c = .ok (entry, next)) :
    ∃ raw : RawEntry, raw.Reads entry ∧ c.rest = raw.wire ++ next.rest := by
  obtain ⟨⟨name, d⟩, hname, h⟩ := ok_of_bind h
  obtain ⟨⟨n, d'⟩, hn, h⟩ := ok_of_bind h
  obtain ⟨⟨value, d''⟩, hvalue, h⟩ := ok_of_bind h
  cases h
  obtain ⟨hlength, hc⟩ := readName_ok_inv hname
  obtain ⟨hd, hlt⟩ := Cursor.number_ok_inv hn
  obtain ⟨htag, extent, raw, hextent, holds, hd', hstring, hother⟩ := readValue_ok_inv hvalue
  refine ⟨⟨Utf8.encode name, UInt8.ofNat n, extent, raw, hlength, ⟨name, rfl⟩, hextent, holds⟩,
    ⟨rfl, htag.symm, hstring, hother⟩, ?_⟩
  have hone : bigEndian 1 n = [UInt8.ofNat n] := rfl
  rw [hc, hd, hd', hone]
  simp only [RawEntry.wire, List.append_assoc, List.cons_append, List.nil_append]

end reading

section blocks

/-- A block that reads completely is a row of raw entries, each read as an entry. -/
theorem exists_raws_of_entriesFrom {found all : List (String × Value)} {c : Cursor}
    (h : entriesFrom found c = (all, none)) :
    ∃ raws : List RawEntry, c.rest = raws.flatMap RawEntry.wire ∧
      ∃ entries, List.Forall₂ RawEntry.Reads raws entries ∧ all = found.reverse ++ entries := by
  induction found, c using entriesFrom.induct with
  | case1 found c hnil =>
    rw [entriesFrom_of_isEmpty hnil] at h
    cases h
    exact ⟨[], List.isEmpty_iff.1 hnil, [], .nil, (List.append_nil _).symm⟩
  | case2 found c hne fault hread =>
    rw [entriesFrom_of_error hne hread] at h
    cases h
  | case3 found c hne entry next hread hlt ih =>
    rw [entriesFrom_of_ok hread] at h
    obtain ⟨raw, hraw, hc⟩ := exists_raw_of_readEntry hread
    obtain ⟨raws, hraws, entries, hentries, rfl⟩ := ih h
    refine ⟨raw :: raws, ?_, entry :: entries, .cons hraw hentries, ?_⟩
    · rw [hc, hraws, List.flatMap_cons]
    · rw [List.reverse_cons, List.append_assoc]
      rfl

theorem exists_raws_of_writeEntries {entries : List (String × Value)}
    (h : (writeEntries entries).fault = none) :
    ∃ raws : List RawEntry, List.Forall₂ RawEntry.Writes raws entries := by
  induction entries with
  | nil => exact ⟨[], .nil⟩
  | cons entry rest ih =>
    obtain ⟨hfirst, hrest, -⟩ := writeEntries_cons h
    obtain ⟨raw, hraw⟩ := exists_raw_of_write hfirst
    obtain ⟨raws, hraws⟩ := ih hrest
    exact ⟨raw :: raws, .cons hraw hraws⟩

theorem writeEntries_of_raws {raws : List RawEntry} {entries : List (String × Value)}
    (h : List.Forall₂ RawEntry.Writes raws entries) :
    writeEntries entries = ⟨raws.flatMap RawEntry.wire, none⟩ := by
  induction h with
  | nil => rfl
  | cons hraw hraws ih =>
    simp only [writeEntries, hraw.write, ih, List.flatMap_cons]

variable {raws : List RawEntry} {entries : List (String × Value)}

theorem RawEntry.Reads.writes {raw : RawEntry} {entry : String × Value} (h : raw.Reads entry)
    (htext : raw.tag = 7 → Utf8.IsText raw.value) : raw.Writes entry := by
  refine ⟨h.name, h.tag, ?_⟩
  by_cases hstring : raw.tag = 7
  · obtain ⟨text, hvalue⟩ := htext hstring
    rw [h.string hstring, hvalue, Utf8.decodeLossy_encode, Value.raw]
  · exact h.other hstring

theorem RawEntry.Writes.isText {raw : RawEntry} {entry : String × Value} (h : raw.Writes entry)
    (hstring : raw.tag = 7) : Utf8.IsText raw.value := by
  obtain ⟨name, value⟩ := entry
  have htag : value.tag = 7 := h.tag.symm.trans hstring
  cases value with
  | string s => exact ⟨s, h.value⟩
  | bool b => cases b <;> cases htag
  | _ => cases htag

/-- The names of raw entries ascend as bytes if and only if those of the entries do as texts. -/
theorem pairwise_name_iff
    (h : List.Forall₂ (fun raw entry => raw.name = Utf8.encode entry.1) raws entries) :
    (raws.Pairwise fun a b => a.name < b.name) ↔ Assoc.Ascending entries := by
  have hnames : raws.map RawEntry.name = entries.map fun entry => Utf8.encode entry.1 := by
    have hmapped : List.Forall₂ (· = ·) (raws.map RawEntry.name)
        (entries.map fun entry => Utf8.encode entry.1) :=
      List.forall₂_map_left_iff.2 (List.forall₂_map_right_iff.2 h)
    rwa [List.forall₂_eq_eq_eq] at hmapped
  calc (raws.Pairwise fun a b => a.name < b.name)
      ↔ (raws.map RawEntry.name).Pairwise (· < ·) := List.pairwise_map.symm
    _ ↔ entries.Pairwise fun a b => Utf8.encode a.1 < Utf8.encode b.1 := by
      rw [hnames, List.pairwise_map]
    _ ↔ Assoc.Ascending entries := by simp only [Utf8.encode_lt_iff, Assoc.Ascending]

end blocks

namespace Block

/-- A block that reads completely is a row of raw entries in one way. Writing the headers that were
read gives the block again if and only if the names of its entries ascend, so that none stands
twice, and each of its strings is a text. -/
theorem write_parse_iff {block : Bytes} (h : (parse block).isComplete = true) :
    ∃ raws : List RawEntry, block = raws.flatMap RawEntry.wire ∧
      (∀ others : List RawEntry, block = others.flatMap RawEntry.wire → others = raws) ∧
      ((parse block).headers.write = ⟨block, none⟩ ↔
        (raws.Pairwise fun a b => a.name < b.name) ∧
          ∀ raw ∈ raws, raw.tag = 7 → Utf8.IsText raw.value) := by
  have hentries : entriesFrom [] ⟨0, block⟩ = ((entries block).1, none) :=
    Prod.ext rfl (Option.isNone_iff_eq_none.1 h)
  obtain ⟨raws, hblock, entries', hreads, hall⟩ := exists_raws_of_entriesFrom hentries
  have hheaders : (parse block).headers = Headers.ofList entries' := congrArg Headers.ofList hall
  have hunique : ∀ others : List RawEntry, block = others.flatMap RawEntry.wire → others = raws :=
    fun others hothers => flatMap_wire_inj (hothers.symm.trans hblock)
  refine ⟨raws, hblock, hunique, fun hwrite => ?_, fun ⟨hnames, htexts⟩ => ?_⟩
  · -- What was written is a row of raw entries too, so it is this one.
    have hfault : (writeEntries (parse block).headers.entries).fault = none :=
      congrArg Written.fault hwrite
    obtain ⟨others, hwrites⟩ := exists_raws_of_writeEntries hfault
    have hbytes : (writeEntries (parse block).headers.entries).bytes = block :=
      congrArg Written.bytes hwrite
    rw [writeEntries_of_raws hwrites] at hbytes
    obtain rfl := hunique others hbytes.symm
    have htexts : List.Forall₂ (fun raw entry => (raw.tag = 7 → Utf8.IsText raw.value) ∧
        raw.Writes entry) others (parse block).headers.entries :=
      hwrites.imp fun _ _ hraw => ⟨hraw.isText, hraw⟩
    exact ⟨(pairwise_name_iff (hwrites.imp fun _ _ hraw => hraw.name)).2
      (parse block).headers.ascending, ((List.forall₂_and_left _ _).1 htexts).1⟩
  · have hwrites : List.Forall₂ RawEntry.Writes raws entries' :=
      ((List.forall₂_and_left _ _).2 ⟨htexts, hreads⟩).imp fun _ _ hraw => hraw.2.writes hraw.1
    have hascending : Assoc.Ascending entries' :=
      (pairwise_name_iff (hwrites.imp fun _ _ hraw => hraw.name)).1 hnames
    have hsame : (Headers.ofList entries').entries = entries' :=
      Headers.insertAll_ascending .empty hascending
    rw [Headers.write, hheaders, hsame, writeEntries_of_raws hwrites, ← hblock]

/-- Two entries in order, the first with a text of one character. -/
theorem write_parse_iff_two :
    (parse [1, 97, 7, 0, 2, 195, 169, 1, 98, 2, 255]).isComplete = true ∧
    ∃ raws : List RawEntry,
      [1, 97, 7, 0, 2, 195, 169, 1, 98, 2, 255] = raws.flatMap RawEntry.wire ∧
        (raws.Pairwise fun a b => a.name < b.name) ∧
          ∀ raw ∈ raws, raw.tag = 7 → Utf8.IsText raw.value := by
  have h : (parse [1, 97, 7, 0, 2, 195, 169, 1, 98, 2, 255]).isComplete = true := by
    decide +kernel
  have hwrite : (parse [1, 97, 7, 0, 2, 195, 169, 1, 98, 2, 255]).headers.write =
      ⟨[1, 97, 7, 0, 2, 195, 169, 1, 98, 2, 255], none⟩ := by
    decide +kernel
  obtain ⟨raws, hblock, -, hiff⟩ := write_parse_iff h
  exact ⟨h, raws, hblock, hiff.1 hwrite⟩

end Block

end EventStream.Header
