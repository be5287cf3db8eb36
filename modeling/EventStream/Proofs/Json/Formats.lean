import EventStream.Json.Record
import EventStream.Proofs.Json.Reordered

/-!
Formats read back what they write, in whatever order it lists the members of objects. There is one
lemma for each way to make a format, so that the lemma about the format of a type is put together
as the format is.
-/

set_option autoImplicit false

namespace EventStream.Json

namespace Format

variable {α β : Type}

/-- What is written is not `null`, and is read back where its levels may be opened. -/
structure ReadsBack (format : Format α) (a : α) : Prop where
  present : format.write a ≠ .null
  reads : ∀ depth v, v.Reorders (format.write a) → (format.write a).depth ≤ depth →
    Reads (format.read depth) v a

theorem ReadsBack.string (text : String) : Format.string.ReadsBack text where
  present := nofun
  reads depth v hv _ layout level s rest hs hrest := by
    cases hv
    replace hs : skipBlanks s = '"' :: (text.toList.flatMap writeChar ++ '"' :: rest) :=
      hs.trans (writeString_append text rest)
    simp only [Format.string, hs]
    exact readString_flatMap text rest

theorem ReadsBack.bool (b : Bool) : Format.bool.ReadsBack b where
  present := nofun
  reads depth v hv _ layout level s rest hs hrest := by
    cases hv
    replace hs : skipBlanks s = Json.write layout level (.bool b) ++ rest := hs
    simp only [Format.bool, hs]
    cases b <;> rfl

/-- Integers of a range are read back if 64 bits hold them all. -/
theorem ReadsBack.int {range : Range} (hleast : -0x8000000000000000 ≤ range.least)
    (hgreatest : range.greatest ≤ 0xFFFFFFFFFFFFFFFF)
    (n : { n : Int // range.least ≤ n ∧ n ≤ range.greatest }) : (Format.int range).ReadsBack n where
  present := nofun
  reads depth v hv _ layout level s rest hs hrest := by
    cases hv
    obtain ⟨n, hn⟩ := n
    obtain ⟨c, t, htext, hc⟩ := writeNumber_head (.int n)
    have hopens : c = '-' ∨ isDigit c = true := hc
    have hread := readNumber_int (n := n) ⟨by omega, by omega⟩ hrest
    replace hs : skipBlanks s = writeNumber (.int n) ++ rest := hs
    rw [htext, List.cons_append] at hs hread
    simp only [Format.int, hs, if_pos hopens, hread]
    exact dif_pos hn

theorem ReadsBack.map {format : Format α} {build : α → β} {parts : β → α} {b : β}
    (h : format.ReadsBack (parts b)) (hbuild : build (parts b) = b) :
    (format.map build parts).ReadsBack b where
  present := h.present
  reads depth v hv hdepth layout level s rest hs hrest := by
    have hread := h.reads depth v hv hdepth layout level s rest hs hrest
    simp only [Format.map, hread, Except.map, hbuild]

theorem ReadsBack.int64 (n : Int64) : Format.int64.ReadsBack n :=
  .map (.int (by decide) (by decide) _) (Int64.ofInt_toInt n)

theorem ReadsBack.int32 (n : Int32) : Format.int32.ReadsBack n :=
  .map (.int (by decide) (by decide) _) (Int32.ofInt_toInt n)

theorem ReadsBack.uint64 (n : UInt64) : Format.uint64.ReadsBack n :=
  .map (.int (by decide) (by decide) _) UInt64.ofNat_toNat

/-- A value that is there is read back by the format that allows for `null`. -/
theorem ReadsBack.nullable {format : Format α} {a : α} (h : format.ReadsBack a) :
    format.nullable.ReadsBack (some a) where
  present := h.present
  reads depth v hv hdepth layout level s rest hs hrest := by
    obtain ⟨c, t, htext, -, -, hc⟩ := write_head layout level v
    have hread := (h.reads depth v hv hdepth).self layout level hrest
    have hpresent : v ≠ .null := fun he => h.present (hv.eq_null he)
    rw [htext, List.cons_append] at hs hread
    simp only [Format.nullable, hs, if_neg (hc.resolve_right hpresent), hread]
    rfl

theorem ReadsBack.list {format : Format α} {l : List α} (h : ∀ a ∈ l, format.ReadsBack a) :
    format.list.ReadsBack l where
  present := nofun
  reads depth v hv hdepth layout level s rest hs hrest := by
    replace hdepth : itemsDepth (l.map format.write) + 1 ≤ depth := hdepth
    obtain ⟨depth, rfl⟩ := Nat.exists_eq_succ_of_ne_zero (n := depth) (by omega)
    obtain ⟨others, rfl, hothers⟩ := hv.exists_items
    have hitems : List.Forall₂ (Reads (format.read depth)) others l := by
      refine forall₂_of_mem (List.forall₂_map_right_iff.1 hothers) fun o a ha ho => ?_
      exact (h a ha).reads depth o ho (Nat.le_trans
        (depth_le_itemsDepth (List.mem_map_of_mem ha)) (Nat.le_of_succ_le_succ hdepth))
    rw [write_array, List.cons_append] at hs
    simp only [Format.list, hs]
    exact readElements_insideArray hitems layout level rest

/-- A variant is read back if no variant before it has its name. -/
theorem ReadsBack.choice {all : List α} {label : α → String} {a : α}
    {other : Option α} (h : all.find? (fun b => label b == label a) = some a) :
    (Format.choice all label other).ReadsBack a where
  present := nofun
  reads depth v hv _ layout level s rest hs hrest := by
    cases hv
    replace hs : skipBlanks s = '"' :: ((label a).toList.flatMap writeChar ++ '"' :: rest) :=
      hs.trans (writeString_append (label a) rest)
    have hpick : pickVariant all label other (label a) rest = .ok a := by
      simp only [pickVariant, h]
    simp only [Format.choice, hs, readString_flatMap]
    change (pickVariant all label other (label a) rest >>= fun b => pure (b, rest)) = _
    rw [hpick]
    rfl

theorem write_single (layout : Layout) (level : Nat) (name : String) (value : Json)
    (rest : List Char) :
    Json.write layout level (.object [(name, value)]) ++ rest =
      '{' :: (layout.newline (level + 1) ++ '"' :: (name.toList.flatMap writeChar ++
        '"' :: (layout.colon ++ (Json.write layout (level + 1) value ++
          (layout.newline level ++ '}' :: rest))))) := by
  rw [← writeString_append]
  simp only [Json.write, writeMembers, List.cons_append, List.append_assoc, List.nil_append]

theorem readVariantName_newline (layout : Layout) (level : Nat) (name : String)
    (rest : List Char) :
    readVariantName (layout.newline level ++ '"' :: (name.toList.flatMap writeChar ++
      '"' :: rest)) = .ok (name, rest) := by
  rw [readVariantName, skipBlanks_append (isBlank_newline layout level), skipBlanks_cons rfl]
  exact readString_flatMap name rest

theorem readVariantEnd_newline (layout : Layout) (level : Nat) (rest : List Char) :
    readVariantEnd (layout.newline level ++ '}' :: rest) = .ok rest := by
  rw [readVariantEnd, skipBlanks_append (isBlank_newline layout level), skipBlanks_cons rfl]
  rfl

section

variable {leftName rightName : String} {left : Format α} {right : Format β}

def readSide (leftName : String) (left : Format α) (right : Format β) (depth : Nat)
    (name : String) (s : List Char) : Except Fault ((α ⊕ β) × List Char) :=
  if name = leftName then (left.read depth s).map fun (a, s) => (Sum.inl a, s)
  else (right.read depth s).map fun (b, s) => (Sum.inr b, s)

theorem reads_either {depth : Nat} {name : String} {value : Json} {x : α ⊕ β}
    (hname : ∀ rest, pickVariant [leftName, rightName] id none name rest = .ok name)
    (h : Reads (readSide leftName left right depth name) value x) :
    Reads ((Format.either leftName left rightName right).read (depth + 1))
      (.object [(name, value)]) x := by
  intro layout level s rest hs hrest
  obtain ⟨behind, hcolon, hread⟩ := h.behind_colon layout (level + 1)
    (ends_newline layout level (c := '\x7d') (by decide) rest)
  rw [write_single] at hs
  simp only [Format.either, hs, Char.reduceEq, if_false, if_true, descend, bind, Except.bind,
    readVariantName_newline, hname, hcolon]
  by_cases hleft : name = leftName
  · rw [readSide, if_pos hleft] at hread
    simp only [if_pos hleft, hread, readVariantEnd_newline]
    rfl
  · rw [readSide, if_neg hleft] at hread
    simp only [if_neg hleft, hread, readVariantEnd_newline]
    rfl

theorem ReadsBack.inl {a : α} (h : left.ReadsBack a) :
    (Format.either leftName left rightName right).ReadsBack (.inl a) where
  present := nofun
  reads depth v hv hdepth := by
    replace hdepth : membersDepth [(leftName, left.write a)] + 1 ≤ depth := hdepth
    obtain ⟨depth, rfl⟩ := Nat.exists_eq_succ_of_ne_zero (n := depth) (by omega)
    obtain ⟨w, rfl, hw⟩ := hv.exists_single
    refine reads_either (fun rest => ?_) fun layout level s rest hs hrest => ?_
    · simp only [pickVariant, List.find?_cons, id, beq_self_eq_true]
    · have hread := h.reads depth w hw
        (Nat.le_trans (Nat.le_max_left _ _) (Nat.le_of_succ_le_succ hdepth))
      rw [readSide, if_pos rfl, hread layout level s rest hs hrest]
      rfl

theorem ReadsBack.inr {b : β} (h : right.ReadsBack b) (hne : rightName ≠ leftName) :
    (Format.either leftName left rightName right).ReadsBack (.inr b) where
  present := nofun
  reads depth v hv hdepth := by
    replace hdepth : membersDepth [(rightName, right.write b)] + 1 ≤ depth := hdepth
    obtain ⟨depth, rfl⟩ := Nat.exists_eq_succ_of_ne_zero (n := depth) (by omega)
    obtain ⟨w, rfl, hw⟩ := hv.exists_single
    refine reads_either (fun rest => ?_) fun layout level s rest hs hrest => ?_
    · simp only [pickVariant, List.find?_cons, id, beq_self_eq_true, beq_false_of_ne hne.symm]
    · have hread := h.reads depth w hw
        (Nat.le_trans (Nat.le_max_left _ _) (Nat.le_of_succ_le_succ hdepth))
      rw [readSide, if_neg hne, hread layout level s rest hs hrest]
      rfl

end

end Format

/-- What is written for a member is read back, and what is left out is the value of the member
that is not there. -/
structure Field.ReadsBack {α : Type} (field : Field α) (a : α) : Prop where
  written : field.isWritten a = true → ∀ depth v, v.Reorders (field.format.write a) →
    (field.format.write a).depth ≤ depth → Reads (field.format.read depth) v a
  omitted : field.isWritten a = false → field.absent = some a

section

variable {α : Type} {name : String} {format : Format α}

theorem Field.ReadsBack.required {a : α} (h : format.ReadsBack a) :
    (Field.required name format).ReadsBack a :=
  ⟨fun _ => h.reads, nofun⟩

theorem Field.ReadsBack.optional {o : Option α} (h : ∀ a ∈ o, format.ReadsBack a) :
    (Field.optional name format).ReadsBack o := by
  cases o with
  | none => exact ⟨nofun, fun _ => rfl⟩
  | some a => exact ⟨fun _ => (h a rfl).nullable.reads, nofun⟩

theorem Field.ReadsBack.withDefault {default a : α}
    (h : ∀ depth v, v.Reorders (format.write a) → (format.write a).depth ≤ depth →
      Reads (format.read depth) v a) :
    (Field.withDefault name format default).ReadsBack a :=
  ⟨fun _ => h, nofun⟩

end

namespace Members

variable {α σ ρ : Type}

/-- Only members of the given names are written, and reading gathers the values from them. -/
structure ReadsBack (members : Members σ ρ) (names : List String) (r : ρ) : Prop where
  named : ∀ m ∈ members.write r, m.1 ∈ names
  reads : ∀ depth listed, Relists listed (members.write r) →
    (∀ m ∈ members.write r, m.2.depth ≤ depth) →
    ∃ found, Gathers (readRecordMember members depth) listed members.start found ∧
      members.finish found = .ok r

theorem ReadsBack.nil : Members.nil.ReadsBack [] () where
  named := nofun
  reads _ _ h _ := ⟨(), relists_nil h ▸ .nil (), rfl⟩

/-- A field leaves the members of other names to the others. -/
theorem readRecordMember_cons (field : Field α) (others : Members σ ρ) (depth : Nat)
    {key : String} (h : key ≠ field.name) (x : Option α) (found : σ) (s : List Char) :
    readRecordMember (cons field others) depth key (x, found) s =
      (readRecordMember others depth key found s).map fun y => ((x, y.1), y.2) := by
  simp only [readRecordMember, cons, if_neg h]
  cases others.member? depth key with
  | none =>
    change (readColon s >>= fun s => skipValue s >>= fun s => pure ((x, found), s)) =
      (readColon s >>= fun s => skipValue s >>= fun s => pure (found, s)).map _
    cases readColon s with
    | error fault => rfl
    | ok s =>
      change (skipValue s >>= fun s => pure ((x, found), s)) =
        (skipValue s >>= fun s => pure (found, s)).map _
      cases skipValue s <;> rfl
  | some read =>
    change (read found s >>= fun y => pure ((x, y.1), y.2)) = (read found s).map _
    cases read found s <;> rfl

theorem gathers_cons {field : Field α} {others : Members σ ρ} {depth : Nat}
    {members : List (String × Json)} {start last : σ}
    (h : Gathers (readRecordMember others depth) members start last)
    (hnames : ∀ m ∈ members, m.1 ≠ field.name) (x : Option α) :
    Gathers (readRecordMember (cons field others) depth) members (x, start) (x, last) := by
  induction h with
  | nil gathered => exact .nil (x, gathered)
  | cons first _ ih =>
    refine .cons (fun layout level rest hrest => ?_)
      (ih fun m hm => hnames m (List.mem_cons_of_mem _ hm))
    rw [readRecordMember_cons field others depth (hnames _ List.mem_cons_self),
      first layout level rest hrest]
    rfl

/-- The first member of a field's name is taken for the field. -/
theorem readRecordMember_field {field : Field α} {others : Members σ ρ} {depth : Nat} {a : α}
    {v : Json} (h : Reads (field.format.read depth) v a) (found : σ) (layout : Layout)
    (level : Nat) {rest : List Char} (hrest : Ends rest) :
    readRecordMember (cons field others) depth field.name (none, found)
      (layout.colon ++ (Json.write layout level v ++ rest)) = .ok ((some a, found), rest) := by
  obtain ⟨s, hcolon, hread⟩ := h.behind_colon layout level hrest
  simp only [readRecordMember, cons, if_true, readField, hcolon, bind, Except.bind, hread]
  rfl

/-- Members before the one of a field and behind it are gathered for the others. -/
theorem gathers_field {field : Field α} {others : Members σ ρ} {depth : Nat} {a : α} {v : Json}
    {front back : List (String × Json)} {start last : σ}
    (hread : Reads (field.format.read depth) v a)
    (h : Gathers (readRecordMember others depth) (front ++ back) start last)
    (hnames : ∀ m ∈ front ++ back, m.1 ≠ field.name) :
    Gathers (readRecordMember (cons field others) depth) (front ++ (field.name, v) :: back)
      (none, start) (some a, last) := by
  obtain ⟨between, hfront, hback⟩ := h.exists_of_append
  obtain ⟨hnamesFront, hnamesBack⟩ := List.forall_mem_append.1 hnames
  refine (gathers_cons hfront hnamesFront none).append (.cons (fun layout level rest hrest => ?_)
    (gathers_cons hback hnamesBack (some a)))
  exact readRecordMember_field hread between layout level hrest

theorem ReadsBack.cons {field : Field α} {others : Members σ ρ} {names : List String} {a : α}
    {r : ρ} (hfield : field.ReadsBack a) (hname : field.name ∉ names)
    (hothers : others.ReadsBack names r) :
    (Members.cons field others).ReadsBack (field.name :: names) (a, r) := by
  -- no member of the others can be taken for this field
  have hnames : ∀ m ∈ others.write r, m.1 ≠ field.name := fun m hm he =>
    hname (he ▸ hothers.named m hm)
  have hlisted : ∀ listed, Relists listed (others.write r) → ∀ m ∈ listed, m.1 ≠ field.name := by
    intro listed hlisted m hm
    obtain ⟨t, ht, hsame⟩ := hlisted.exists_name hm
    exact hsame ▸ hnames t ht
  cases hwritten : field.isWritten a with
  | true =>
    have hwrite : (Members.cons field others).write (a, r) =
        (field.name, field.format.write a) :: others.write r := if_pos hwritten
    constructor
    · intro m hm
      rw [hwrite] at hm
      rcases List.mem_cons.1 hm with rfl | hm
      · exact List.mem_cons_self
      · exact List.mem_cons_of_mem _ (hothers.named m hm)
    · intro depth listed h hdepth
      rw [hwrite] at h hdepth
      obtain ⟨front, v, back, rfl, hv, hrest⟩ := h.exists_of_cons
      obtain ⟨hfirst, hdepth⟩ := List.forall_mem_cons.1 hdepth
      obtain ⟨found, hgathers, hfinish⟩ := hothers.reads depth _ hrest hdepth
      refine ⟨(some a, found), gathers_field (hfield.written hwritten depth v hv hfirst) hgathers
        (hlisted _ hrest), ?_⟩
      change (others.finish found).map (fun r => (a, r)) = _
      rw [hfinish]
      rfl
  | false =>
    have hwrite : (Members.cons field others).write (a, r) = others.write r :=
      if_neg (by rw [hwritten]; exact Bool.false_ne_true)
    constructor
    · intro m hm
      rw [hwrite] at hm
      exact List.mem_cons_of_mem _ (hothers.named m hm)
    · intro depth listed h hdepth
      rw [hwrite] at h hdepth
      obtain ⟨found, hgathers, hfinish⟩ := hothers.reads depth listed h hdepth
      refine ⟨(none, found), gathers_cons hgathers (hlisted listed h) none, ?_⟩
      simp only [Members.cons, hfield.omitted hwritten, hfinish]
      rfl

end Members

namespace Format

/-- A record is read back if its members are and its value can be put together from its parts. -/
theorem ReadsBack.record {α σ ρ : Type} {name : String} {members : Members σ ρ} {build : ρ → α}
    {parts : α → ρ} {names : List String} {a : α} (h : members.ReadsBack names (parts a))
    (hbuild : build (parts a) = a) : (Format.record name members build parts).ReadsBack a where
  present := nofun
  reads depth v hv hdepth layout level s rest hs hrest := by
    replace hdepth : membersDepth (members.write (parts a)) + 1 ≤ depth := hdepth
    obtain ⟨depth, rfl⟩ := Nat.exists_eq_succ_of_ne_zero (n := depth) (by omega)
    obtain ⟨listed, rfl, hlisted⟩ := hv.exists_members
    obtain ⟨found, hgathers, hfinish⟩ := h.reads depth listed hlisted fun m hm =>
      Nat.le_trans (depth_le_membersDepth hm) (Nat.le_of_succ_le_succ hdepth)
    rw [write_object, List.cons_append] at hs
    have hrecord : readRecord members depth
        (insideObject layout level listed ++ rest) = .ok (parts a, rest) := by
      simp only [readRecord, readMembers_insideObject hgathers layout level rest, bind,
        Except.bind, hfinish]
      rfl
    simp only [Format.record, hs]
    change (readRecord members depth _).map (fun x => (build x.1, x.2)) = _
    rw [hrecord]
    change Except.ok (build (parts a), rest) = _
    rw [hbuild]

/-- A text that was written from a value gives the value back, in whatever order it lists
members. -/
theorem ReadsBack.parse_reordered {α : Type} {format : Format α} {a : α} (h : format.ReadsBack a)
    (hdepth : (format.write a).depth ≤ maxDepth) {v : Json} (hv : v.Reorders (format.write a))
    (layout : Layout) : format.parse (String.ofList (Json.write layout 0 v)) = .ok a := by
  have hends : Ends [] := nofun
  have hread := (h.reads maxDepth v hv hdepth).self layout 0 hends
  rw [List.append_nil] at hread
  rw [Format.parse, String.toList_ofList, hread]
  rfl

theorem ReadsBack.parse {α : Type} {format : Format α} {a : α} (h : format.ReadsBack a)
    (hdepth : (format.write a).depth ≤ maxDepth) (layout : Layout) :
    format.parse (String.ofList (Json.write layout 0 (format.write a))) = .ok a :=
  h.parse_reordered hdepth (.refl _) layout

end Format

end EventStream.Json
