import EventStream.Proofs.Header.Access

/-!
Header blocks that are moved, or followed by more bytes. What a reader finds depends on the bytes
that it takes; the offset of its cursor only moves the offsets of its faults. More bytes behind the
block change nothing that was found, and mend no fault but a truncation.
-/

set_option autoImplicit false

namespace EventStream.Header

variable {α β : Type}

def Cursor.stop (c : Cursor) : Nat :=
  c.offset + c.rest.length

/-- A cursor on the same bytes, `distance` further on, with `more` behind them. -/
def Cursor.relocate (distance : Nat) (more : Bytes) (c : Cursor) : Cursor :=
  ⟨c.offset + distance, c.rest ++ more⟩

def Fault.shift (distance : Nat) : Fault → Fault
  | .truncated offset needed available => .truncated (offset + distance) needed available
  | .unknownType offset tag => .unknownType (offset + distance) tag
  | .invalidName offset => .invalidName (offset + distance)

/-- More bytes can mend a truncation alone. -/
def Fault.isTruncation : Fault → Bool
  | .truncated .. => true
  | _ => false

/-- The answer of a reader whose bytes end at `stop`, beside its answer to the same bytes `distance`
further on with `more` behind them. -/
inductive Relocated (distance : Nat) (more : Bytes) (stop : Nat) :
    Except Fault (α × Cursor) → Except Fault (α × Cursor) → Prop where
  | found (value : α) {c : Cursor} (hstop : c.stop = stop) :
    Relocated distance more stop (.ok (value, c)) (.ok (value, c.relocate distance more))
  | settled {fault : Fault} (h : fault.isTruncation = false) :
    Relocated distance more stop (.error fault) (.error (fault.shift distance))
  | short {offset needed available : Nat} (hstop : offset + available = stop)
    (hmore : available + more.length < needed) :
    Relocated distance more stop (.error (.truncated offset needed available))
      (.error (.truncated (offset + distance) needed (available + more.length)))
  | supplied {offset needed available : Nat} (hstop : offset + available = stop)
    (hlt : available < needed) (hmore : needed ≤ available + more.length)
    (answer : Except Fault (α × Cursor)) :
    Relocated distance more stop (.error (.truncated offset needed available)) answer

def Relocates (distance : Nat) (reader distant : Cursor → Except Fault (α × Cursor)) : Prop :=
  ∀ (more : Bytes) (c : Cursor),
    Relocated distance more c.stop (reader c) (distant (c.relocate distance more))

namespace Relocates

variable {distance : Nat}

theorem pure (value : α) : Relocates distance (fun c => .ok (value, c)) fun c => .ok (value, c) :=
  fun _ _ => .found value rfl

theorem throw {fault : Fault} (h : fault.isTruncation = false) :
    Relocates distance (fun _ => (.error fault : Except Fault (α × Cursor)))
      fun _ => .error (fault.shift distance) :=
  fun _ _ => .settled h

theorem bind {reader distant : Cursor → Except Fault (α × Cursor)}
    {readers distants : α → Cursor → Except Fault (β × Cursor)}
    (first : Relocates distance reader distant)
    (next : ∀ value, Relocates distance (readers value) (distants value)) :
    Relocates distance (fun c => reader c >>= fun found => readers found.1 found.2)
      fun c => distant c >>= fun found => distants found.1 found.2 := by
  intro more c
  have h := first more c
  change Relocated distance more c.stop (reader c >>= _) (distant (c.relocate distance more) >>= _)
  generalize reader c = answer at h
  generalize distant (c.relocate distance more) = answer' at h
  cases h with
  | found value hstop => exact hstop ▸ next value more _
  | settled h => exact .settled h
  | short hstop hmore => exact .short hstop hmore
  | supplied hstop hlt hmore => exact .supplied hstop hlt hmore _

theorem map {reader distant : Cursor → Except Fault (α × Cursor)}
    (h : Relocates distance reader distant) (build : α → β) :
    Relocates distance (fun c => reader c >>= fun found => .ok (build found.1, found.2))
      fun c => distant c >>= fun found => .ok (build found.1, found.2) :=
  h.bind fun value => .pure (build value)

/-- A reader may look at the offset of its cursor. -/
theorem position {readers : Nat → Cursor → Except Fault (α × Cursor)}
    (h : ∀ offset, Relocates distance (readers offset) (readers (offset + distance))) :
    Relocates distance (fun c => readers c.offset c) fun c => readers c.offset c :=
  fun more c => h c.offset more c

end Relocates

section readers

variable (distance : Nat)

theorem arrayAt_relocates (room : Nat) :
    Relocates distance (Scan.arrayAt room) (Scan.arrayAt room) := by
  intro more c
  obtain ⟨offset, rest⟩ := c
  simp only [Scan.arrayAt, Cursor.relocate, Cursor.stop, List.length_take, List.length_append]
  by_cases h : room ≤ rest.length
  · have ht : (rest ++ more).take room = rest.take room := List.take_append_of_le_length h
    rw [dif_pos (by omega), dif_pos (by omega), List.drop_append_of_le_length h,
      Nat.add_right_comm]
    simp only [ht]
    refine .found _ ?_
    simp only [Cursor.stop, List.length_drop]
    omega
  · rw [dif_neg (by omega)]
    by_cases hmore : room ≤ rest.length + more.length
    · exact .supplied rfl (by omega) hmore _
    · rw [dif_neg (by omega)]
      exact .short rfl (by omega)

theorem take_eq (n : Nat) (c : Cursor) :
    c.take n = Scan.arrayAt n c >>= fun found => .ok (found.1.val, found.2) := by
  rw [Cursor.take, Scan.arrayAt]
  by_cases h : (c.rest.take n).length = n
  · rw [if_pos h, dif_pos h]
    rfl
  · rw [if_neg h, dif_neg h]
    rfl

theorem take_relocates (n : Nat) : Relocates distance (Cursor.take n) (Cursor.take n) := by
  rw [funext (take_eq n)]
  exact (arrayAt_relocates distance n).map Subtype.val

theorem number_relocates (width : Nat) :
    Relocates distance (Cursor.number width) (Cursor.number width) :=
  (take_relocates distance width).map ofBigEndian

theorem counted_relocates : Relocates distance Cursor.counted Cursor.counted :=
  (number_relocates distance 2).bind (take_relocates distance)

theorem uuid_relocates : Relocates distance Cursor.uuid Cursor.uuid := by
  rw [funext Scan.uuid_eq]
  exact (arrayAt_relocates distance 16).map fun filled => Uuid.mk filled.val filled.property

theorem readValue_relocates (tagOffset : Nat) (tag : UInt8) :
    Relocates distance (readValue tagOffset tag) (readValue (tagOffset + distance) tag) := by
  unfold readValue
  split
  · exact .pure _
  · exact .pure _
  · exact (number_relocates distance 1).map fun n => Value.byte (UInt8.ofNat n).toInt8
  · exact (number_relocates distance 2).map fun n => Value.short (UInt16.ofNat n).toInt16
  · exact (number_relocates distance 4).map fun n => Value.int (UInt32.ofNat n).toInt32
  · exact (number_relocates distance 8).map fun n => Value.long (UInt64.ofNat n).toInt64
  · exact (counted_relocates distance).map Value.bytes
  · exact (counted_relocates distance).map fun bytes => Value.string (Utf8.decodeLossy bytes)
  · exact (number_relocates distance 8).map fun n => Value.timestamp (UInt64.ofNat n).toInt64
  · exact (uuid_relocates distance).map Value.uuid
  · exact .throw rfl

theorem decoded_relocates (nameOffset : Nat) (raw : Bytes) :
    Relocates distance
      (fun c => match Utf8.decode raw with
        | .ok name => .ok (name, c)
        | .error _ => .error (.invalidName nameOffset))
      fun c => match Utf8.decode raw with
        | .ok name => .ok (name, c)
        | .error _ => .error (.invalidName (nameOffset + distance)) := by
  cases Utf8.decode raw with
  | ok name => exact .pure name
  | error _ => exact .throw rfl

theorem readName_relocates : Relocates distance readName readName := by
  have hname : ∀ nameOffset, Relocates distance _ _ := fun nameOffset =>
    (number_relocates distance 1).bind fun n =>
      (take_relocates distance n).bind (decoded_relocates distance nameOffset)
  exact .position hname

theorem readEntry_relocates : Relocates distance readEntry readEntry := by
  have hvalue : ∀ (name : String) tagOffset, Relocates distance _ _ := fun name tagOffset =>
    (number_relocates distance 1).bind fun tag =>
      (readValue_relocates distance tagOffset (UInt8.ofNat tag)).map fun value => (name, value)
  exact (readName_relocates distance).bind fun name => .position (hvalue name)

end readers

section run

variable {found : List (String × Value)} {entry : String × Value} {c next : Cursor}

theorem entriesFrom_of_isEmpty (h : c.rest.isEmpty = true) :
    entriesFrom found c = (found.reverse, none) := by
  rw [entriesFrom, if_pos h]

theorem entriesFrom_of_error {fault : Fault} (hne : ¬ c.rest.isEmpty = true)
    (h : readEntry c = .error fault) : entriesFrom found c = (found.reverse, some fault) := by
  rw [entriesFrom, if_neg hne]
  split
  · next hread => rw [Except.error.inj (hread.symm.trans h)]
  · next hread => cases hread.symm.trans h

theorem entriesFrom_of_ok (h : readEntry c = .ok (entry, next)) :
    entriesFrom found c = entriesFrom (entry :: found) next := by
  have hne : ¬ c.rest.isEmpty = true := fun he => by
    have hlt := readEntry_ok h
    rw [List.isEmpty_iff.1 he] at hlt
    exact Nat.not_lt_zero _ hlt
  rw [entriesFrom, if_neg hne]
  split
  · next hread => cases hread.symm.trans h
  · next hread =>
    cases hread.symm.trans h
    rfl

/-- What is found in a block that ends at `stop`, beside what is found in the same block `distance`
further on with `more` behind it. -/
inductive Continued (distance : Nat) (more : Bytes) (stop : Nat) :
    List (String × Value) × Option Fault → List (String × Value) × Option Fault → Prop where
  | complete (all : List (String × Value)) :
    Continued distance more stop (all, none) (entriesFrom all.reverse ⟨stop + distance, more⟩)
  | settled (all : List (String × Value)) {fault : Fault} (h : fault.isTruncation = false) :
    Continued distance more stop (all, some fault) (all, some (fault.shift distance))
  | short (all : List (String × Value)) {offset needed available : Nat}
    (hstop : offset + available = stop) (hmore : available + more.length < needed) :
    Continued distance more stop (all, some (.truncated offset needed available))
      (all, some (.truncated (offset + distance) needed (available + more.length)))
  | supplied (all : List (String × Value)) {offset needed available : Nat}
    (hstop : offset + available = stop) (hlt : available < needed)
    (hmore : needed ≤ available + more.length) (entries : List (String × Value) × Option Fault) :
    Continued distance more stop (all, some (.truncated offset needed available)) entries

/-- The entries in front of a fault are kept, and each entry moves as a whole. -/
theorem entriesFrom_continued (distance : Nat) (more : Bytes) (found : List (String × Value))
    (c : Cursor) :
    Continued distance more c.stop (entriesFrom found c)
      (entriesFrom found (c.relocate distance more)) := by
  induction found, c using entriesFrom.induct with
  | case1 found c hnil =>
    obtain ⟨offset, rest⟩ := c
    obtain rfl : rest = [] := List.isEmpty_iff.1 hnil
    rw [entriesFrom_of_isEmpty hnil]
    have h : Continued distance more offset _ _ := .complete found.reverse
    rwa [List.reverse_reverse] at h
  | case2 found c hne fault hread =>
    have hne' : ¬ (c.relocate distance more).rest.isEmpty = true := fun he =>
      hne (List.isEmpty_iff.2 (List.append_eq_nil_iff.1 (List.isEmpty_iff.1 he)).1)
    rw [entriesFrom_of_error hne hread]
    have hentry := readEntry_relocates distance more c
    rw [hread] at hentry
    generalize hread' : readEntry (c.relocate distance more) = answer at hentry
    cases hentry with
    | settled h =>
      rw [entriesFrom_of_error hne' hread']
      exact .settled _ h
    | short hstop hmore =>
      rw [entriesFrom_of_error hne' hread']
      exact .short _ hstop hmore
    | supplied hstop hlt hmore => exact .supplied _ hstop hlt hmore _
  | case3 found c hne entry next hread hlt ih =>
    have hentry := readEntry_relocates distance more c
    rw [hread] at hentry
    generalize hread' : readEntry (c.relocate distance more) = answer at hentry
    cases hentry with
    | found _ hstop =>
      rw [entriesFrom_of_ok hread, entriesFrom_of_ok hread', ← hstop]
      exact ih

end run

theorem Fault.shift_zero (fault : Fault) : fault.shift 0 = fault := by
  cases fault <;> rfl

/-- A fault stays, unless it is a truncation and there are enough bytes now. -/
theorem Continued.of_fault {distance stop : Nat} {more : Bytes} {fault : Fault}
    {entries entries' : List (String × Value) × Option Fault}
    (h : Continued distance more stop entries entries') (hfault : entries.2 = some fault) :
    (fault.isTruncation = false ∧ entries' = (entries.1, some (fault.shift distance))) ∨
      ∃ offset needed available, fault = .truncated offset needed available ∧
        offset + available = stop ∧ available < needed ∧
        (available + more.length < needed →
          entries' = (entries.1,
            some (.truncated (offset + distance) needed (available + more.length)))) := by
  cases h with
  | complete => cases hfault
  | settled all h =>
    cases hfault
    exact Or.inl ⟨h, rfl⟩
  | short all hstop hmore =>
    cases hfault
    exact Or.inr ⟨_, _, _, rfl, hstop, Nat.lt_of_add_right_lt hmore, fun _ => rfl⟩
  | supplied all hstop hlt hmore =>
    cases hfault
    exact Or.inr ⟨_, _, _, rfl, hstop, hlt, fun hshort => absurd hmore (Nat.not_le.2 hshort)⟩

theorem entries_continued (block more : Bytes) :
    Continued 0 more block.length (entries block) (entries (block ++ more)) := by
  have h := entriesFrom_continued 0 more [] ⟨0, block⟩
  rwa [Cursor.stop, Nat.zero_add] at h

namespace Block

variable {block : Bytes}

theorem parse_eq (block : Bytes) :
    parse block = ⟨Headers.ofList (entries block).1, (entries block).2⟩ := rfl

/-- An unknown type and a name that is no text are there to stay. -/
theorem parse_append_of_settled {fault : Fault} (h : (parse block).fault = some fault)
    (hsettled : fault.isTruncation = false) (more : Bytes) :
    parse (block ++ more) = parse block := by
  obtain ⟨-, hsame⟩ | ⟨_, _, _, rfl, -⟩ := (entries_continued block more).of_fault h
  · rw [Fault.shift_zero, ← h] at hsame
    rw [parse_eq, hsame]
    rfl
  · cases hsettled

/-- What is available ends where the block does, and is less than what is needed. More bytes that do
not suffice are counted, and change nothing else. -/
theorem parse_append_of_truncated {offset needed available : Nat}
    (h : (parse block).fault = some (.truncated offset needed available)) (more : Bytes) :
    offset + available = block.length ∧ available < needed ∧
      (available + more.length < needed →
        parse (block ++ more) =
          ⟨(parse block).headers, some (.truncated offset needed (available + more.length))⟩) := by
  obtain ⟨hsettled, -⟩ | ⟨_, _, _, hfault, hstop, hlt, hmore⟩ :=
    (entries_continued block more).of_fault h
  · cases hsettled
  · cases hfault
    refine ⟨hstop, hlt, fun hshort => ?_⟩
    rw [parse_eq, hmore hshort]
    rfl

/-- A fault tells what is wrong with a block, whatever may follow. An unknown type or a name that is
no text stays, with all that was read. A truncation counts the bytes up to the end of the block,
which are less than those needed; it stays, with the bytes counted, until there are enough. Of a
block that reads completely, what stands in front of a cut reads completely or is truncated. -/
theorem fault_stable (block more : Bytes) :
    ((∃ offset tag, (parse block).fault = some (.unknownType offset tag)) ∨
        (∃ offset, (parse block).fault = some (.invalidName offset)) →
      parse (block ++ more) = parse block) ∧
    (∀ offset needed available, (parse block).fault = some (.truncated offset needed available) →
      offset + available = block.length ∧ available < needed ∧
      (more.length < needed - available →
        parse (block ++ more) =
          ⟨(parse block).headers, some (.truncated offset needed (available + more.length))⟩)) ∧
    ((parse (block ++ more)).isComplete = true →
      (parse block).isComplete = true ∨
        ∃ offset needed available,
          (parse block).fault = some (.truncated offset needed available)) := by
  refine ⟨?_, ?_, ?_⟩
  · rintro (⟨offset, tag, h⟩ | ⟨offset, h⟩)
    · exact parse_append_of_settled h rfl more
    · exact parse_append_of_settled h rfl more
  · intro offset needed available h
    obtain ⟨hstop, hlt, happend⟩ := parse_append_of_truncated h more
    exact ⟨hstop, hlt, fun hmore => happend (by omega)⟩
  · intro hcomplete
    cases hfault : (parse block).fault with
    | none => exact Or.inl (by rw [isComplete, hfault]; rfl)
    | some fault =>
      cases fault with
      | truncated offset needed available => exact Or.inr ⟨offset, needed, available, rfl⟩
      | unknownType | invalidName =>
        rw [parse_append_of_settled hfault rfl, isComplete, hfault] at hcomplete
        cases hcomplete

/-- Of a text of three bytes one is there, and then two. -/
theorem fault_stable_cut :
    (parse [1, 97, 0, 1, 98, 7, 0, 3, 120]).fault = some (.truncated 8 3 1) ∧
    (parse ([1, 97, 0, 1, 98, 7, 0, 3, 120] ++ [121])).fault = some (.truncated 8 3 2) := by
  have h : (parse [1, 97, 0, 1, 98, 7, 0, 3, 120]).fault = some (.truncated 8 3 1) := by
    decide +kernel
  have hmore := ((fault_stable [1, 97, 0, 1, 98, 7, 0, 3, 120] [121]).2.1 8 3 1 h).2.2 (by decide)
  exact ⟨h, congrArg Block.fault hmore⟩

end Block

end EventStream.Header
