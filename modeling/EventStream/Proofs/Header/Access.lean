import EventStream.Guarded.Header

/-!
A scan by position never goes outside its block, and finds what a cursor finds that holds the rest
of the block.
-/

set_option autoImplicit false

namespace EventStream

theorem Guarded.ok_bind {α β : Type} (value : α) (next : α → Guarded β) :
    (Except.ok value >>= next : Guarded β) = next value := rfl

namespace Header

variable {α β : Type}

def Cursor.at (block : Bytes) (position : Nat) : Cursor :=
  ⟨position, block.drop position⟩

namespace Scan

def runFrom (scan : Scan α) (block : Bytes) (position : Nat) :
    Guarded (Except Fault (α × Nat)) :=
  scan block position

section Run

variable (block : Bytes) (position : Nat)

theorem runFrom_pure (value : α) :
    (pure value : Scan α).runFrom block position = .ok (.ok (value, position)) := rfl

theorem runFrom_throw (fault : Fault) :
    (throw fault : Scan α).runFrom block position = .ok (.error fault) := rfl

theorem runFrom_read :
    (read : Scan Bytes).runFrom block position = .ok (.ok (block, position)) := rfl

theorem runFrom_get :
    (get : Scan Nat).runFrom block position = .ok (.ok (position, position)) := rfl

theorem runFrom_set (next : Nat) :
    (set next : Scan PUnit).runFrom block position = .ok (.ok (⟨⟩, next)) := rfl

theorem runFrom_lift {guarded : Guarded α} {value : α} (h : guarded = .ok value) :
    (liftM guarded : Scan α).runFrom block position = .ok (.ok (value, position)) := by
  rw [h]
  rfl

theorem runFrom_bind (scan : Scan α) (scans : α → Scan β) :
    (scan >>= scans).runFrom block position = scan.runFrom block position >>= fun
      | .ok found => (scans found.1).runFrom block found.2
      | .error fault => .ok (.error fault) := by
  change Except.bind (scan block position) _ = Except.bind (scan block position) _
  congr 1
  funext found
  cases found <;> rfl

end Run

/-- A scan of a block that met no breach, beside the answer of a reader: one fault, or one value and
one place behind it. -/
inductive Alike (block : Bytes) :
    Guarded (Except Fault (α × Nat)) → Except Fault (α × Cursor) → Prop where
  | fault (fault : Fault) : Alike block (.ok (.error fault)) (.error fault)
  | found (value : α) {position : Nat} (inside : position ≤ block.length) :
    Alike block (.ok (.ok (value, position))) (.ok (value, .at block position))

/-- From every position in a block, a scan does what a reader does from there. -/
def Follows (scan : Scan α) (reader : Cursor → Except Fault (α × Cursor)) : Prop :=
  ∀ (block : Bytes) (position : Nat), position ≤ block.length →
    Alike block (scan.runFrom block position) (reader (.at block position))

theorem Alike.of_error {block : Bytes} {scanned : Guarded (Except Fault (α × Nat))} {fault : Fault}
    (h : Alike block scanned (.error fault)) : scanned = .ok (.error fault) := by
  cases h
  rfl

theorem Alike.of_ok {block : Bytes} {scanned : Guarded (Except Fault (α × Nat))} {value : α}
    {c : Cursor} (h : Alike block scanned (.ok (value, c))) :
    ∃ position ≤ block.length, scanned = .ok (.ok (value, position)) ∧ c = .at block position := by
  cases h with
  | found _ inside => exact ⟨_, inside, rfl, rfl⟩

theorem Follows.pure (value : α) : Follows (pure value) fun c => .ok (value, c) :=
  fun _ _ inside => .found value inside

theorem Follows.throw (fault : Fault) : Follows (throw fault : Scan α) fun _ => .error fault :=
  fun _ _ _ => .fault fault

theorem Follows.bind {scan : Scan α} {reader : Cursor → Except Fault (α × Cursor)}
    {scans : α → Scan β} {readers : α → Cursor → Except Fault (β × Cursor)}
    (first : Follows scan reader) (next : ∀ value, Follows (scans value) (readers value)) :
    Follows (scan >>= scans) fun c => reader c >>= fun found => readers found.1 found.2 := by
  intro block position inside
  have h := first block position inside
  rw [runFrom_bind]
  change Alike block _ (reader (.at block position) >>= _)
  generalize scan.runFrom block position = scanned at h
  generalize reader (.at block position) = read at h
  cases h with
  | fault fault => exact .fault fault
  | found value inside => exact next value block _ inside

/-- A scan may look at the position, as a reader at the offset of its cursor. -/
theorem Follows.position {scans : Nat → Scan α}
    {readers : Nat → Cursor → Except Fault (α × Cursor)}
    (next : ∀ position, Follows (scans position) (readers position)) :
    Follows (get >>= scans) fun c => readers c.offset c :=
  fun block position inside => next position block position inside

theorem take_runFrom {n position : Nat} {block : Bytes} (inside : position ≤ block.length) :
    (take n).runFrom block position =
      if block.length - position < n then
        .ok (.error (.truncated position n (block.length - position)))
      else .ok (.ok (slice position (position + n) block, position + n)) := by
  rw [take]
  simp only [runFrom_bind, runFrom_read, runFrom_get, Guarded.ok_bind,
    runFrom_lift _ _ (Guarded.sub_ok inside)]
  by_cases h : block.length - position < n
  · rw [if_pos h, if_pos h, runFrom_throw]
  · have hs : Guarded.slice position (position + n) block =
        .ok (EventStream.slice position (position + n) block) :=
      Guarded.slice_ok (Nat.le_add_right position n) (by omega)
    rw [if_neg h, if_neg h]
    simp only [runFrom_bind, runFrom_lift _ _ hs, runFrom_set, runFrom_pure, Guarded.ok_bind]

theorem take_follows (n : Nat) : Follows (take n) (Cursor.take n) := by
  intro block position inside
  rw [take_runFrom inside, Cursor.take]
  simp only [Cursor.at, List.length_take, List.length_drop, List.drop_drop]
  by_cases h : block.length - position < n
  · rw [if_pos h, if_neg (by omega)]
    exact .fault _
  · rw [if_neg h, if_pos (by omega), slice, Nat.add_sub_cancel_left]
    exact .found _ (by omega)

def arrayAt (room : Nat) (c : Cursor) :
    Except Fault ({ filled : Bytes // filled.length = room } × Cursor) :=
  if h : (c.rest.take room).length = room then
    .ok (⟨c.rest.take room, h⟩, ⟨c.offset + room, c.rest.drop room⟩)
  else .error (.truncated c.offset room c.rest.length)

theorem array_follows (room : Nat) : Follows (array room) (arrayAt room) := by
  intro block position inside
  rw [array, runFrom_bind, take_runFrom inside, arrayAt]
  simp only [Cursor.at, List.length_take, List.length_drop, List.drop_drop]
  by_cases h : block.length - position < room
  · rw [if_pos h, dif_neg (by omega)]
    exact .fault _
  · rw [if_neg h, dif_pos (by omega), Guarded.ok_bind]
    have hl : (slice position (position + room) block).length = room := by
      rw [slice_length (by omega), Nat.add_sub_cancel_left]
    have hs : slice position (position + room) block = (block.drop position).take room := by
      rw [slice, Nat.add_sub_cancel_left]
    have hf : (⟨_, hl⟩ : { filled : Bytes // filled.length = room }) =
        ⟨(block.drop position).take room, hs ▸ hl⟩ := Subtype.ext hs
    change Alike block ((liftM (Guarded.array room _) : Scan _).runFrom block (position + room)) _
    rw [runFrom_lift _ _ (Guarded.array_ok hl), hf]
    exact .found _ (by omega)

theorem number_eq (width : Nat) (c : Cursor) :
    c.number width = arrayAt width c >>= fun found => .ok (ofBigEndian found.1.val, found.2) := by
  rw [Cursor.number, Cursor.take, arrayAt]
  by_cases h : (c.rest.take width).length = width
  · rw [if_pos h, dif_pos h]
    rfl
  · rw [if_neg h, dif_neg h]
    rfl

theorem number_follows (width : Nat) : Follows (number width) (Cursor.number width) := by
  rw [funext (number_eq width)]
  exact (array_follows width).bind fun _ => .pure _

theorem counted_follows : Follows counted Cursor.counted :=
  (number_follows 2).bind take_follows

theorem uuid_eq (c : Cursor) :
    c.uuid = arrayAt 16 c >>= fun found => .ok (⟨found.1.val, found.1.property⟩, found.2) := by
  rw [Cursor.uuid, arrayAt]
  by_cases h : (c.rest.take 16).length = 16
  · rw [dif_pos h, dif_pos h]
    rfl
  · rw [dif_neg h, dif_neg h]
    rfl

theorem value_follows (tagOffset : Nat) (tag : UInt8) :
    Follows (value tagOffset tag) (readValue tagOffset tag) := by
  unfold value
  split
  · exact .pure _
  · exact .pure _
  · exact (number_follows 1).bind fun _ => .pure _
  · exact (number_follows 2).bind fun _ => .pure _
  · exact (number_follows 4).bind fun _ => .pure _
  · exact (number_follows 8).bind fun _ => .pure _
  · exact counted_follows.bind fun _ => .pure _
  · exact counted_follows.bind fun _ => .pure _
  · exact (number_follows 8).bind fun _ => .pure _
  · have huuid : readValue tagOffset 9 = fun c => arrayAt 16 c >>= fun found =>
        .ok (.uuid ⟨found.1.val, found.1.property⟩, found.2) := by
      funext c
      change c.uuid >>= _ = _
      rw [uuid_eq]
      cases arrayAt 16 c <;> rfl
    rw [huuid]
    exact (array_follows 16).bind fun _ => .pure _
  · have hunknown : readValue tagOffset tag = fun _ => .error (.unknownType tagOffset tag) := by
      funext c
      unfold readValue
      split <;> first | contradiction | rfl
    rw [hunknown]
    exact .throw _

theorem decoded_follows (nameOffset : Nat) (raw : Bytes) :
    Follows (match Utf8.decode raw with
      | .ok name => return name
      | .error _ => throw (Fault.invalidName nameOffset))
    fun c => match Utf8.decode raw with
      | .ok name => .ok (name, c)
      | .error _ => .error (.invalidName nameOffset) := by
  cases Utf8.decode raw with
  | ok name => exact .pure name
  | error _ => exact .throw _

theorem name_follows : Follows name readName :=
  .position fun nameOffset => (number_follows 1).bind fun n => (take_follows n).bind
    (decoded_follows nameOffset)

theorem entry_follows : Follows entry readEntry :=
  name_follows.bind fun _ => .position fun tagOffset => (number_follows 1).bind fun tag =>
    (value_follows tagOffset (UInt8.ofNat tag)).bind fun _ => .pure _

/-- The entries behind a position are those behind its cursor. -/
theorem entriesFrom_eq {block : Bytes} {position : Nat} (inside : position ≤ block.length)
    (found : List (String × Value)) :
    entriesFrom block found position = .ok (Header.entriesFrom found (.at block position)) := by
  induction hleft : block.length - position using Nat.strongRecOn generalizing position found with
  | _ left ih =>
  have hrest : (Cursor.at block position).rest.length = block.length - position := List.length_drop
  rw [entriesFrom, Header.entriesFrom]
  by_cases hend : block.length ≤ position
  · rw [dif_pos hend, if_pos (List.isEmpty_iff_length_eq_zero.2 (by omega))]
    rfl
  · rw [dif_neg hend, if_neg fun he => absurd (List.isEmpty_iff_length_eq_zero.1 he) (by omega)]
    have hentry := entry_follows block position inside
    split
    · next fault hread =>
      rw [hread] at hentry
      have hscan : entry block position = .ok (.error fault) := hentry.of_error
      rw [hscan]
      rfl
    · next found' c hread =>
      rw [hread] at hentry
      obtain ⟨next, hnext, hscan, rfl⟩ := hentry.of_ok
      have hscan : entry block position = .ok (.ok (found', next)) := hscan
      have hlt := readEntry_ok hread
      rw [hrest, Cursor.at, List.length_drop] at hlt
      rw [hscan]
      change (if _ : position < next then _ else _ : Guarded _) = _
      rw [dif_pos (by omega)]
      exact ih _ (by omega) hnext _ rfl

theorem parse_eq (block : Bytes) : parse block = .ok (Block.parse block) := by
  rw [parse, entriesFrom_eq (Nat.zero_le _)]
  rfl

end Scan

end Header

end EventStream
