import EventStream.Proofs.Json.Numerals
import EventStream.Proofs.Json.Reordered

/-!
What is written is JSON: the text of every value is a value of the grammar, and denotes the value.
On one line a value takes up no control character, so that no line break of a string, and no other
control character, gets out of its quotes.
-/

set_option autoImplicit false

namespace EventStream.Json

/-- No character of the text is a control character, such as a line feed. -/
def Printed (s : List Char) : Prop :=
  ∀ c ∈ s, isControl c = false

instance (s : List Char) : Decidable (Printed s) :=
  List.decidableBAll (fun c => isControl c = false) s

namespace Printed

variable {s t : List Char} {c : Char}

theorem nil : Printed [] :=
  fun _ hc => absurd hc List.not_mem_nil

theorem cons (hc : isControl c = false) (hs : Printed s) : Printed (c :: s) :=
  List.forall_mem_cons.2 ⟨hc, hs⟩

theorem append (hs : Printed s) (ht : Printed t) : Printed (s ++ t) :=
  List.forall_mem_append.2 ⟨hs, ht⟩

theorem digits (h : ∀ c ∈ s, isDigit c = true) : Printed s := by
  intro c hc
  have hdigit := (Bool.and_eq_true _ _).mp (h c hc)
  have hzero : '0'.toNat ≤ c.toNat := of_decide_eq_true hdigit.1
  exact decide_eq_false (Nat.not_lt.2 (Nat.le_trans (by decide) hzero))

end Printed

theorem spells_control {c : Char} (h : isControl c = true) {s text : List Char}
    (more : Spells s text) :
    Spells (('\\' :: 'u' :: '0' :: '0' :: hexDigits (UInt8.ofNat c.toNat)) ++ s) (c :: text) := by
  have hc : c.toNat < 32 := of_decide_eq_true h
  have hbyte : (UInt8.ofNat c.toNat).toNat = c.toNat := Nat.mod_eq_of_lt (by omega)
  have hzero : hexValue? '0' = some 0 := by decide
  have hunit := NamesUnit.digits hzero hzero
    (hexValue?_digitChar (d := c.toNat / 16) (by omega))
    (hexValue?_digitChar (d := c.toNat % 16) (by omega))
  have hcode : ((0 * 16 + 0) * 16 + c.toNat / 16) * 16 + c.toNat % 16 = c.toNat := by omega
  rw [hcode] at hunit
  have hleading : isLeading c.toNat = false := by
    rw [isLeading, decide_eq_false (by omega), Bool.false_and]
  have htrailing : isTrailing c.toNat = false := by
    rw [isTrailing, decide_eq_false (by omega), Bool.false_and]
  have hspells := Spells.unit hunit hleading htrailing more
  rw [Char.ofNat_toNat] at hspells
  rw [hexDigits, hbyte]
  exact hspells

theorem spells_writeChar (c : Char) {s text : List Char} (more : Spells s text) :
    Spells (writeChar c ++ s) (c :: text) := by
  unfold writeChar
  split
  · next hc => subst hc; exact .escape (by decide) more
  rename_i hquote
  split
  · next hc => subst hc; exact .escape (by decide) more
  rename_i hslash
  split
  · next hc => subst hc; exact .escape (by decide) more
  split
  · next hc => subst hc; exact .escape (by decide) more
  split
  · next hc => subst hc; exact .escape (by decide) more
  split
  · next hc => subst hc; exact .escape (by decide) more
  split
  · next hc => subst hc; exact .escape (by decide) more
  split
  · next hcontrol => exact spells_control hcontrol more
  · next hcontrol => exact .plain ⟨hquote, hslash, Bool.eq_false_iff.2 hcontrol⟩ more

theorem spells_flatMap (chars : List Char) : Spells (chars.flatMap writeChar) chars := by
  induction chars with
  | nil => exact .nil
  | cons c chars ih =>
    rw [List.flatMap_cons]
    exact spells_writeChar c ih

/-- The text of a string spells the string. -/
theorem quotes_writeString (text : String) : Quotes (writeString text) text :=
  .quoted (spells_flatMap text.toList)

/-- What holds of a list and of an object if it holds of their parts holds of every value. -/
theorem induction {motive : Json → Prop} (null : motive .null) (bool : ∀ b, motive (.bool b))
    (number : ∀ n, motive (.number n)) (string : ∀ s, motive (.string s))
    (array : ∀ items, (∀ v ∈ items, motive v) → motive (.array items))
    (object : ∀ members, (∀ m ∈ members, motive m.2) → motive (.object members)) (v : Json) :
    motive v :=
  @Json.rec motive (fun items => ∀ v ∈ items, motive v) (fun members => ∀ m ∈ members, motive m.2)
    (fun m => motive m.2) null bool number string array object nofun
    (fun _ _ first others => List.forall_mem_cons.2 ⟨first, others⟩) nofun
    (fun _ _ first others => List.forall_mem_cons.2 ⟨first, others⟩) (fun _ _ value => value) v

/-- A value has the same text at every level, as nothing is indented. -/
def IsLevel (v : Json) : Prop :=
  ∀ depth, write .compact depth v = write .compact 0 v

theorem writeItems_compact {items : List Json} (h : ∀ v ∈ items, v.IsLevel) (depth : Nat) :
    writeItems .compact depth items =
      (items.map (write .compact 0)).flatMap (',' :: ·) ++ [']'] := by
  induction items with
  | nil => rfl
  | cons v rest ih =>
    obtain ⟨hv, hrest⟩ := List.forall_mem_cons.1 h
    simp only [writeItems, Layout.newline, hv (depth + 1), ih hrest, List.map_cons,
      List.flatMap_cons, List.cons_append, List.nil_append, List.append_assoc]

theorem writeMembers_compact {members : List (String × Json)} (h : ∀ m ∈ members, m.2.IsLevel)
    (depth : Nat) :
    writeMembers .compact depth members =
      (members.map fun m => writeString m.1 ++ ':' :: write .compact 0 m.2).flatMap (',' :: ·) ++
        ['}'] := by
  induction members with
  | nil => rfl
  | cons m rest ih =>
    obtain ⟨hm, hrest⟩ := List.forall_mem_cons.1 h
    simp only [writeMembers, Layout.newline, Layout.colon, hm (depth + 1), ih hrest,
      List.map_cons, List.flatMap_cons, List.cons_append, List.nil_append, List.append_assoc]

theorem isLevel (v : Json) : v.IsLevel := by
  induction v using Json.induction with
  | null => exact fun _ => rfl
  | bool b => cases b <;> exact fun _ => rfl
  | number n => exact fun _ => rfl
  | string s => exact fun _ => rfl
  | array items ih =>
    intro depth
    cases items with
    | nil => rfl
    | cons v rest =>
      obtain ⟨hv, hrest⟩ := List.forall_mem_cons.1 ih
      rw [write, write, writeItems_compact hrest, writeItems_compact hrest, hv, hv 1]
      rfl
  | object members ih =>
    intro depth
    cases members with
    | nil => rfl
    | cons m rest =>
      obtain ⟨hm, hrest⟩ := List.forall_mem_cons.1 ih
      rw [write, write, writeMembers_compact hrest, writeMembers_compact hrest, hm, hm 1]
      rfl

theorem write_level (depth : Nat) (v : Json) : write .compact depth v = write .compact 0 v :=
  isLevel v depth

def writtenItem (v : Json) : Padded :=
  .bare (write .compact 0 v)

def writtenMember (m : String × Json) : Padded × Padded :=
  (.bare (writeString m.1), writtenItem m.2)

theorem Padded.text_bare (core : List Char) : (Padded.bare core).text = core :=
  List.append_nil core

theorem write_compact_array (items : List Json) :
    write .compact 0 (.array items) = arrayText .none (items.map writtenItem) := by
  have htexts : (items.map writtenItem).map Padded.text = items.map (write .compact 0) := by
    rw [List.map_map]
    exact List.map_congr_left fun v _ => Padded.text_bare _
  rw [arrayText, htexts]
  cases items with
  | nil => rfl
  | cons v rest =>
    rw [write, write_level, writeItems_compact fun v _ => isLevel v, List.map_cons, row]
    simp only [Layout.newline, Blanks.none, List.cons_append, List.nil_append, List.append_assoc]

theorem memberText_written (m : String × Json) :
    memberText (writtenMember m) = writeString m.1 ++ ':' :: write .compact 0 m.2 := by
  rw [memberText, writtenMember, writtenItem, Padded.text_bare, Padded.text_bare]

theorem write_compact_object (members : List (String × Json)) :
    write .compact 0 (.object members) = objectText .none (members.map writtenMember) := by
  have htexts : (members.map writtenMember).map memberText =
      members.map fun m => writeString m.1 ++ ':' :: write .compact 0 m.2 := by
    rw [List.map_map]
    exact List.map_congr_left fun m _ => memberText_written m
  rw [objectText, htexts]
  cases members with
  | nil => rfl
  | cons m rest =>
    rw [write, write_level, writeMembers_compact fun m _ => isLevel m.2, List.map_cons, row]
    simp only [Layout.newline, Layout.colon, Blanks.none, List.cons_append, List.nil_append,
      List.append_assoc]

/-- What is written is a value of the grammar. -/
theorem isValue_write (v : Json) : IsValue (write .compact 0 v) := by
  induction v using Json.induction with
  | null => exact .null
  | bool b =>
    cases b
    · exact .no
    · exact .yes
  | number n => exact .numeral (isNumeral_writeNumber n)
  | string s => exact .quoted (quotes_writeString s).isQuoted
  | array items ih =>
    rw [write_compact_array]
    refine .array _ fun p hp => ?_
    obtain ⟨v, hv, rfl⟩ := List.mem_map.1 hp
    exact ih v hv
  | object members ih =>
    rw [write_compact_object]
    refine .object _ (fun p hp => ?_) fun p hp => ?_
    · obtain ⟨m, -, rfl⟩ := List.mem_map.1 hp
      exact (quotes_writeString m.1).isQuoted
    · obtain ⟨m, hm, rfl⟩ := List.mem_map.1 hp
      exact ih m hm

/-- The text is that of the value, with blanks and escapes as they come and with the members of
objects in any order. -/
inductive Denotes : List Char → Json → Prop
  | null : Denotes nullText .null
  | yes : Denotes trueText (.bool true)
  | no : Denotes falseText (.bool false)
  | number (n : Number) : Denotes (writeNumber n) (.number n)
  | string {s : List Char} {text : String} (h : Quotes s text) : Denotes s (.string text)
  | array (blanks : Blanks) {items : List Padded} {told : List Json}
    (values : List.Forall₂ Denotes (items.map Padded.core) told) :
    Denotes (arrayText blanks items) (.array told)
  | object (blanks : Blanks) {members : List (Padded × Padded)} {listed told : List (String × Json)}
    (names : List.Forall₂ (fun m t => Quotes m.1.core t.1) members listed)
    (values : List.Forall₂ Denotes (members.map fun m => m.2.core) (listed.map Prod.snd))
    (order : listed.Perm told) : Denotes (objectText blanks members) (.object told)

def Member.written (m : String × Json) : Member where
  name := .bare (writeString m.1)
  value := writtenItem m.2
  key := m.1
  quotes := quotes_writeString m.1
  isValue := isValue_write m.2

def Document.written (members : List (String × Json)) : Document where
  before := .none
  opening := .none
  members := members.map .written
  behind := .none

theorem Document.text_written (members : List (String × Json)) :
    (written members).text = write .compact 0 (.object members) := by
  rw [text, write_compact_object, written, List.map_map]
  exact List.append_nil _

end EventStream.Json
