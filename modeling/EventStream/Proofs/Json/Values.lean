import Mathlib.Data.List.Forall2
import EventStream.Json.Value
import EventStream.Proofs.Header.RoundTrip
import EventStream.Proofs.Json.Scalar

/-!
What it means that a value is read back from its text, in either layout and at any level. A list is
read back if its elements are, and an object is taken member by member; what the reader makes of a
member is left open, so that records are read by the same lemma.
-/

set_option autoImplicit false

namespace EventStream.Json

mutual
def depth : Json → Nat
  | .array items => itemsDepth items + 1
  | .object members => membersDepth members + 1
  | _ => 0

def itemsDepth : List Json → Nat
  | [] => 0
  | v :: rest => max v.depth (itemsDepth rest)

def membersDepth : List (String × Json) → Nat
  | [] => 0
  | (_, v) :: rest => max v.depth (membersDepth rest)
end

theorem depth_le_itemsDepth {items : List Json} {v : Json} (h : v ∈ items) :
    v.depth ≤ itemsDepth items := by
  induction items with
  | nil => cases h
  | cons head rest ih =>
    rw [itemsDepth]
    rcases List.mem_cons.1 h with rfl | hrest
    · exact Nat.le_max_left _ _
    · exact Nat.le_trans (ih hrest) (Nat.le_max_right _ _)

theorem depth_le_membersDepth {members : List (String × Json)} {m : String × Json}
    (h : m ∈ members) : m.2.depth ≤ membersDepth members := by
  induction members with
  | nil => cases h
  | cons head rest ih =>
    obtain ⟨name, v⟩ := head
    rw [membersDepth]
    rcases List.mem_cons.1 h with rfl | hrest
    · exact Nat.le_max_left _ _
    · exact Nat.le_trans (ih hrest) (Nat.le_max_right _ _)

def OpensNumber (c : Char) : Prop :=
  c = '-' ∨ isDigit c = true

theorem OpensNumber.ne {c d : Char} (h : OpensNumber c) (hd : d ≠ '-' ∧ isDigit d = false) :
    c ≠ d := by
  rintro rfl
  rcases h with h | h
  · exact hd.1 h
  · rw [hd.2] at h
    cases h

theorem OpensNumber.isBlank {c : Char} (h : OpensNumber c) : isBlank c = false := by
  simp only [Json.isBlank, Bool.or_eq_false_iff, beq_eq_false_iff_ne]
  exact ⟨⟨⟨h.ne (by decide), h.ne (by decide)⟩, h.ne (by decide)⟩, h.ne (by decide)⟩

theorem toDigits_head (n : Nat) : ∃ c s, Nat.toDigits 10 n = c :: s ∧ OpensNumber c := by
  cases h : Nat.toDigits 10 n with
  | nil => exact absurd h Nat.toDigits_ne_nil
  | cons c s => exact ⟨c, s, rfl, .inr (isDigit_toDigits (n := n) (h ▸ List.mem_cons_self))⟩

theorem positionalText_head {c : Char} (h : OpensNumber c) (s : List Char) (top : Int) :
    ∃ d t, Binary64.positionalText (c :: s) top = d :: t ∧ OpensNumber d := by
  rw [Binary64.positionalText]
  split
  · exact ⟨'0', _, rfl, .inr rfl⟩
  · exact ⟨c, _, rfl, h⟩

theorem text_head (x : Binary64) : ∃ c s, x.text = c :: s ∧ OpensNumber c := by
  obtain ⟨c, s, hdigits, hc⟩ := toDigits_head x.shortest.digits
  rw [Binary64.text]
  by_cases hsign : x.isNegative
  · simp only [if_pos hsign]
    split
    · exact ⟨'-', _, rfl, .inl rfl⟩
    · exact ⟨'-', _, rfl, .inl rfl⟩
  · simp only [if_neg hsign, hdigits, List.nil_append]
    split
    · exact ⟨'0', _, rfl, .inr rfl⟩
    · split
      · exact positionalText_head hc s _
      · exact ⟨c, _, rfl, hc⟩

theorem writeNumber_head (n : Number) : ∃ c s, writeNumber n = c :: s ∧ OpensNumber c := by
  cases n with
  | int n =>
    rw [writeNumber_int]
    split
    · exact toDigits_head n.toNat
    · exact ⟨'-', _, rfl, .inl rfl⟩
  | real x => exact text_head x

/-- No value begins with a blank or with a closing bracket, and only `null` with its letter. -/
theorem write_head (layout : Layout) (level : Nat) (v : Json) :
    ∃ c s, write layout level v = c :: s ∧ isBlank c = false ∧ c ≠ ']' ∧ (c ≠ 'n' ∨ v = .null) := by
  cases v with
  | null => exact ⟨'n', _, rfl, rfl, by decide, .inr rfl⟩
  | bool b =>
    cases b
    · exact ⟨'f', _, rfl, rfl, by decide, .inl (by decide)⟩
    · exact ⟨'t', _, rfl, rfl, by decide, .inl (by decide)⟩
  | number n =>
    obtain ⟨c, s, htext, hc⟩ := writeNumber_head n
    exact ⟨c, s, htext, hc.isBlank, hc.ne (by decide), .inl (hc.ne (by decide))⟩
  | string text => exact ⟨'"', _, rfl, rfl, by decide, .inl (by decide)⟩
  | array items =>
    cases items
    · exact ⟨'[', _, rfl, rfl, by decide, .inl (by decide)⟩
    · exact ⟨'[', _, rfl, rfl, by decide, .inl (by decide)⟩
  | object members =>
    cases members
    · exact ⟨'{', _, rfl, rfl, by decide, .inl (by decide)⟩
    · exact ⟨'{', _, rfl, rfl, by decide, .inl (by decide)⟩

theorem skipBlanks_cons {c : Char} (h : isBlank c = false) (s : List Char) :
    skipBlanks (c :: s) = c :: s := by
  rw [skipBlanks, List.dropWhile_cons_of_neg (by rw [h]; exact Bool.false_ne_true)]

theorem skipBlanks_append {blanks : List Char} (h : ∀ c ∈ blanks, isBlank c = true)
    (s : List Char) : skipBlanks (blanks ++ s) = skipBlanks s :=
  List.dropWhile_append_of_pos h

theorem isBlank_newline (layout : Layout) (level : Nat) :
    ∀ c ∈ layout.newline level, isBlank c = true := by
  intro c hc
  cases layout with
  | compact => cases hc
  | indented =>
    rcases List.mem_cons.1 hc with rfl | hc
    · rfl
    · rw [List.eq_of_mem_replicate hc]
      rfl

theorem skipBlanks_write (layout : Layout) (level : Nat) (v : Json) (rest : List Char) :
    skipBlanks (write layout level v ++ rest) = write layout level v ++ rest := by
  obtain ⟨c, s, htext, hc, -, -⟩ := write_head layout level v
  rw [htext]
  exact skipBlanks_cons hc _

theorem ends_cons {c : Char} (h : isDigit c = false ∧ c ≠ '.' ∧ c ≠ 'e' ∧ c ≠ 'E')
    (s : List Char) : Ends (c :: s) := by
  intro d hd
  cases hd
  exact h

theorem ends_newline (layout : Layout) (level : Nat) {c : Char}
    (h : isDigit c = false ∧ c ≠ '.' ∧ c ≠ 'e' ∧ c ≠ 'E') (s : List Char) :
    Ends (layout.newline level ++ c :: s) := by
  cases layout with
  | compact => exact ends_cons h s
  | indented => exact ends_cons (by decide) _

/-- Behind any blanks, the reader takes the text of the value and gives `a` for it. -/
def Reads {α : Type} (read : List Char → Except Fault (α × List Char)) (value : Json) (a : α) :
    Prop :=
  ∀ (layout : Layout) (level : Nat) (s rest : List Char),
    skipBlanks s = write layout level value ++ rest → Ends rest → read s = .ok (a, rest)

section

variable {α : Type} {read : List Char → Except Fault (α × List Char)} {value : Json} {a : α}

theorem Reads.self (h : Reads read value a) (layout : Layout) (level : Nat) {rest : List Char}
    (hrest : Ends rest) : read (write layout level value ++ rest) = .ok (a, rest) :=
  h layout level _ rest (skipBlanks_write layout level value rest) hrest

theorem Reads.behind_colon (h : Reads read value a) (layout : Layout) (level : Nat)
    {rest : List Char} (hrest : Ends rest) :
    ∃ s, readColon (layout.colon ++ (write layout level value ++ rest)) = .ok s ∧
      read s = .ok (a, rest) := by
  cases layout with
  | compact => exact ⟨_, rfl, h.self .compact level hrest⟩
  | indented =>
    refine ⟨_, rfl, h .indented level _ rest ?_ hrest⟩
    have hblank : ∀ c ∈ [' '], isBlank c = true := List.forall_mem_singleton.2 rfl
    exact (skipBlanks_append hblank _).trans (skipBlanks_write .indented level value rest)

end

section

variable {α : Type} {element : List Char → Except Fault (α × List Char)}

def insideArray (layout : Layout) (level : Nat) : List Json → List Char
  | [] => [']']
  | v :: rest =>
    layout.newline (level + 1) ++ write layout (level + 1) v ++ writeItems layout level rest

theorem write_array (layout : Layout) (level : Nat) (items : List Json) :
    write layout level (.array items) = '[' :: insideArray layout level items := by
  cases items with
  | nil => rfl
  | cons v rest => rw [write, insideArray]; rfl

theorem ends_writeItems (layout : Layout) (level : Nat) (values : List Json) (rest : List Char) :
    Ends (writeItems layout level values ++ rest) := by
  cases values with
  | nil =>
    rw [writeItems, List.append_assoc]
    exact ends_newline layout level (by decide) rest
  | cons v values =>
    rw [writeItems]
    exact ends_cons (by decide) _

theorem length_le_writeItems (layout : Layout) (level : Nat) (values : List Json) :
    values.length ≤ (writeItems layout level values).length := by
  induction values with
  | nil => exact Nat.zero_le _
  | cons v values ih =>
    simp only [writeItems, List.length_cons, List.length_append]
    omega

theorem nextElement_close (first : Bool) (layout : Layout) (level : Nat) (rest : List Char) :
    nextElement first (layout.newline level ++ ']' :: rest) = .ok (.close rest) := by
  rw [nextElement, skipBlanks_append (isBlank_newline layout level), skipBlanks_cons rfl]
  rfl

theorem nextElement_first (layout : Layout) (level : Nat) (v : Json) (rest : List Char) :
    nextElement true (layout.newline level ++ (write layout level v ++ rest)) =
      .ok (.more (write layout level v ++ rest)) := by
  rw [nextElement, skipBlanks_append (isBlank_newline layout level), skipBlanks_write]
  obtain ⟨c, s, htext, -, hc, -⟩ := write_head layout level v
  rw [htext]
  exact if_neg hc

theorem nextElement_comma (layout : Layout) (level : Nat) (v : Json) (rest : List Char) :
    nextElement false (',' :: (layout.newline level ++ (write layout level v ++ rest))) =
      .ok (.more (write layout level v ++ rest)) := by
  obtain ⟨c, s, htext, hblank, hc, -⟩ := write_head layout level v
  have hcomma : isBlank ',' = false := rfl
  rw [htext, List.cons_append, nextElement, skipBlanks_cons hcomma]
  simp only [skipBlanks_append (isBlank_newline layout level), skipBlanks_cons hblank,
    Char.reduceEq, Bool.false_eq_true, if_false, if_true, if_neg hc]

theorem readElementsFrom_more {bound : Nat} (found : List α) {s s₁ s₂ : List Char} {a : α}
    (hnext : nextElement found.isEmpty s = .ok (.more s₁)) (hread : element s₁ = .ok (a, s₂)) :
    readElementsFrom element (bound + 1) found s =
      readElementsFrom element bound (a :: found) s₂ := by
  rw [readElementsFrom, hnext]
  change (element s₁ >>= fun x => readElementsFrom element bound (x.1 :: found) x.2) = _
  rw [hread]
  rfl

theorem readElementsFrom_close {bound : Nat} (found : List α) {s rest : List Char}
    (hnext : nextElement found.isEmpty s = .ok (.close rest)) :
    readElementsFrom element (bound + 1) found s = .ok (found.reverse, rest) := by
  rw [readElementsFrom, hnext]
  rfl

/-- Behind the first element, one element is taken for each that was written. -/
theorem readElementsFrom_writeItems {values : List Json} {items : List α}
    (h : List.Forall₂ (Reads element) values items) (layout : Layout) (level : Nat)
    (rest : List Char) {bound : Nat} (hbound : values.length < bound) (last : α)
    (found : List α) :
    readElementsFrom element bound (last :: found) (writeItems layout level values ++ rest) =
      .ok ((last :: found).reverse ++ items, rest) := by
  -- over the elements that are left; the last one found changes with each
  induction h generalizing bound last found with
  | nil =>
    obtain ⟨bound, rfl⟩ := Nat.exists_eq_add_of_lt hbound
    rw [writeItems, List.append_assoc, List.append_nil]
    exact readElementsFrom_close (last :: found) (nextElement_close false layout level rest)
  | @cons v a values items hv hvalues ih =>
    obtain ⟨bound, rfl⟩ := Nat.exists_eq_succ_of_ne_zero (Nat.ne_of_gt (Nat.zero_lt_of_lt hbound))
    have htext : writeItems layout level (v :: values) ++ rest =
        ',' :: (layout.newline (level + 1) ++ (write layout (level + 1) v ++
          (writeItems layout level values ++ rest))) := by
      simp only [writeItems, List.cons_append, List.append_assoc]
    rw [htext, readElementsFrom_more (last :: found) (nextElement_comma layout (level + 1) v _)
      (hv.self layout (level + 1) (ends_writeItems layout level values rest))]
    rw [ih (Nat.lt_of_succ_lt_succ hbound), List.reverse_cons, List.append_assoc]
    rfl

theorem readElements_insideArray {values : List Json} {items : List α}
    (h : List.Forall₂ (Reads element) values items) (layout : Layout) (level : Nat)
    (rest : List Char) :
    readElements element (insideArray layout level values ++ rest) = .ok (items, rest) := by
  rw [readElements]
  cases h with
  | nil => exact readElementsFrom_close [] (nextElement_close true .compact level rest)
  | @cons v a values items hv hvalues =>
    have htext : insideArray layout level (v :: values) ++ rest =
        layout.newline (level + 1) ++ (write layout (level + 1) v ++
          (writeItems layout level values ++ rest)) := by
      simp only [insideArray, List.append_assoc]
    obtain ⟨c, s, hhead, -, -, -⟩ := write_head layout (level + 1) v
    have hbound : values.length < (insideArray layout level (v :: values) ++ rest).length := by
      have hitems := length_le_writeItems layout level values
      simp only [insideArray, hhead, List.length_append, List.length_cons]
      omega
    rw [readElementsFrom_more [] (htext ▸ nextElement_first layout (level + 1) v _)
      (hv.self layout (level + 1) (ends_writeItems layout level values rest))]
    exact readElementsFrom_writeItems hvalues layout level rest hbound a []

end

section

variable {σ : Type} {member : String → σ → List Char → Except Fault (σ × List Char)}

inductive Gathers (member : String → σ → List Char → Except Fault (σ × List Char)) :
    List (String × Json) → σ → σ → Prop
  | nil (gathered : σ) : Gathers member [] gathered gathered
  | cons {name : String} {value : Json} {members : List (String × Json)} {start next last : σ}
    (first : ∀ (layout : Layout) (level : Nat) (rest : List Char), Ends rest →
      member name start (layout.colon ++ (write layout level value ++ rest)) = .ok (next, rest))
    (others : Gathers member members next last) :
    Gathers member ((name, value) :: members) start last

theorem Gathers.append {front back : List (String × Json)} {start between last : σ}
    (hfront : Gathers member front start between) (hback : Gathers member back between last) :
    Gathers member (front ++ back) start last := by
  induction hfront with
  | nil => exact hback
  | cons first _ ih => exact .cons first (ih hback)

theorem Gathers.exists_of_append {front back : List (String × Json)} {start last : σ}
    (h : Gathers member (front ++ back) start last) :
    ∃ between, Gathers member front start between ∧ Gathers member back between last := by
  induction front generalizing start with
  | nil => exact ⟨start, .nil start, h⟩
  | cons m front ih =>
    cases h with
    | cons first others =>
      obtain ⟨between, hfront, hback⟩ := ih others
      exact ⟨between, .cons first hfront, hback⟩

def insideObject (layout : Layout) (level : Nat) : List (String × Json) → List Char
  | [] => ['}']
  | (name, v) :: rest =>
    layout.newline (level + 1) ++ writeString name ++ layout.colon ++
      write layout (level + 1) v ++ writeMembers layout level rest

theorem write_object (layout : Layout) (level : Nat) (members : List (String × Json)) :
    write layout level (.object members) = '{' :: insideObject layout level members := by
  cases members with
  | nil => rfl
  | cons m rest =>
    obtain ⟨name, v⟩ := m
    rw [write, insideObject]
    rfl

theorem ends_writeMembers (layout : Layout) (level : Nat) (members : List (String × Json))
    (rest : List Char) : Ends (writeMembers layout level members ++ rest) := by
  cases members with
  | nil =>
    rw [writeMembers, List.append_assoc]
    exact ends_newline layout level (by decide) rest
  | cons m members =>
    obtain ⟨name, v⟩ := m
    rw [writeMembers]
    exact ends_cons (by decide) _

theorem length_le_writeMembers (layout : Layout) (level : Nat) (members : List (String × Json)) :
    members.length ≤ (writeMembers layout level members).length := by
  induction members with
  | nil => exact Nat.zero_le _
  | cons m members ih =>
    obtain ⟨name, v⟩ := m
    simp only [writeMembers, List.length_cons, List.length_append]
    omega

theorem nextKey_close (first : Bool) (layout : Layout) (level : Nat) (rest : List Char) :
    nextKey first (layout.newline level ++ '}' :: rest) = .ok (.close rest) := by
  rw [nextKey, skipBlanks_append (isBlank_newline layout level), skipBlanks_cons rfl]
  rfl

theorem nextKey_first (layout : Layout) (level : Nat) (s : List Char) :
    nextKey true (layout.newline level ++ '"' :: s) = .ok (.more s) := by
  rw [nextKey, skipBlanks_append (isBlank_newline layout level), skipBlanks_cons rfl]
  rfl

theorem nextKey_comma (layout : Layout) (level : Nat) (s : List Char) :
    nextKey false (',' :: (layout.newline level ++ '"' :: s)) = .ok (.more s) := by
  rw [nextKey, skipBlanks_cons rfl]
  change readKeyStart (skipBlanks (layout.newline level ++ '"' :: s)) = _
  rw [skipBlanks_append (isBlank_newline layout level), skipBlanks_cons rfl]
  rfl

/-- One member is taken: its name, and what stands behind the name. -/
theorem readMembersFrom_more {bound : Nat} {first : Bool} {gathered next : σ} {name : String}
    {s behind rest : List Char}
    (hkey : nextKey first s = .ok (.more (name.toList.flatMap writeChar ++ '"' :: behind)))
    (hmember : member name gathered behind = .ok (next, rest)) :
    readMembersFrom member (bound + 1) first gathered s =
      readMembersFrom member bound false next rest := by
  rw [readMembersFrom, hkey]
  change (readString (name.toList.flatMap writeChar ++ '"' :: behind) >>= fun x =>
    member x.1 gathered x.2 >>= fun y => readMembersFrom member bound false y.1 y.2) = _
  rw [readString_flatMap]
  change (member name gathered behind >>= fun y => readMembersFrom member bound false y.1 y.2) = _
  rw [hmember]
  rfl

theorem readMembersFrom_close {bound : Nat} {first : Bool} {gathered : σ} {s rest : List Char}
    (hkey : nextKey first s = .ok (.close rest)) :
    readMembersFrom member (bound + 1) first gathered s = .ok (gathered, rest) := by
  rw [readMembersFrom, hkey]
  rfl

/-- Behind the first member, one member is taken for each that was written. -/
theorem readMembersFrom_writeMembers {members : List (String × Json)} {start last : σ}
    (h : Gathers member members start last) (layout : Layout) (level : Nat) (rest : List Char)
    {bound : Nat} (hbound : members.length < bound) :
    readMembersFrom member bound false start (writeMembers layout level members ++ rest) =
      .ok (last, rest) := by
  induction h generalizing bound with
  | nil gathered =>
    obtain ⟨bound, rfl⟩ := Nat.exists_eq_add_of_lt hbound
    rw [writeMembers, List.append_assoc]
    exact readMembersFrom_close (nextKey_close false layout level rest)
  | @cons name v members start next last hfirst hothers ih =>
    obtain ⟨bound, rfl⟩ := Nat.exists_eq_succ_of_ne_zero (Nat.ne_of_gt (Nat.zero_lt_of_lt hbound))
    have htext : writeMembers layout level ((name, v) :: members) ++ rest =
        ',' :: (layout.newline (level + 1) ++ '"' :: (name.toList.flatMap writeChar ++
          '"' :: (layout.colon ++ (write layout (level + 1) v ++
            (writeMembers layout level members ++ rest))))) := by
      rw [← writeString_append]
      simp only [writeMembers, List.cons_append, List.append_assoc]
    rw [htext, readMembersFrom_more (nextKey_comma layout (level + 1) _)
      (hfirst layout (level + 1) _ (ends_writeMembers layout level members rest))]
    exact ih (Nat.lt_of_succ_lt_succ hbound)

theorem readMembers_insideObject {members : List (String × Json)} {start last : σ}
    (h : Gathers member members start last) (layout : Layout) (level : Nat) (rest : List Char) :
    readMembers member start (insideObject layout level members ++ rest) = .ok (last, rest) := by
  rw [readMembers]
  cases h with
  | nil => exact readMembersFrom_close (nextKey_close true .compact level rest)
  | @cons name v members start next last hfirst hothers =>
    have htext : insideObject layout level ((name, v) :: members) ++ rest =
        layout.newline (level + 1) ++ '"' :: (name.toList.flatMap writeChar ++
          '"' :: (layout.colon ++ (write layout (level + 1) v ++
            (writeMembers layout level members ++ rest)))) := by
      rw [← writeString_append]
      simp only [insideObject, List.append_assoc]
    have hbound : members.length <
        (insideObject layout level ((name, v) :: members) ++ rest).length := by
      have hmembers := length_le_writeMembers layout level members
      rw [htext]
      simp only [List.length_append, List.length_cons]
      omega
    rw [readMembersFrom_more (htext ▸ nextKey_first layout (level + 1) _)
      (hfirst layout (level + 1) _ (ends_writeMembers layout level members rest))]
    exact readMembersFrom_writeMembers hothers layout level rest hbound

end

/-- A value of which every number is an integer of 64 bits. Its objects name their members once and
in ascending order, as maps do. -/
inductive Plain : Json → Prop
  | null : Plain .null
  | bool (b : Bool) : Plain (.bool b)
  | int {n : Int} (fits : Fits64 n) : Plain (.number (.int n))
  | string (text : String) : Plain (.string text)
  | array {items : List Json} (plain : ∀ v ∈ items, Plain v) : Plain (.array items)
  | object {members : List (String × Json)} (ascending : Assoc.Ascending members)
    (plain : ∀ m ∈ members, Plain m.2) : Plain (.object members)

def readMember (depth : Nat) (key : String) (members : List (String × Json)) (s : List Char) :
    Except Fault (List (String × Json) × List Char) := do
  let s ← readColon s
  let (value, s) ← readValue depth s
  return (Assoc.insert key value members, s)

theorem readValue_string (depth : Nat) {s rest : List Char} (h : skipBlanks s = '"' :: rest) :
    readValue depth s = (readString rest).map fun x => (.string x.1, x.2) := by
  rw [readValue, h]
  change (readString rest >>= fun x => pure (Json.string x.1, x.2)) = _
  cases readString rest <;> rfl

theorem readValue_number (depth : Nat) {s rest : List Char} {c : Char}
    (h : skipBlanks s = c :: rest) (hc : OpensNumber c) :
    readValue depth s = (readNumber (c :: rest)).map fun x => (.number x.1, x.2) := by
  have hopens : c = '-' ∨ isDigit c = true := hc
  rw [readValue, h]
  simp only [if_neg (hc.ne (d := 'n') (by decide)), if_neg (hc.ne (d := 't') (by decide)),
    if_neg (hc.ne (d := 'f') (by decide)), if_neg (hc.ne (d := '"') (by decide)), if_pos hopens]
  cases readNumber (c :: rest) <;> rfl

theorem readValue_array (depth : Nat) {s rest : List Char} (h : skipBlanks s = '[' :: rest) :
    readValue (depth + 1) s =
      (readElements (readValue depth) rest).map fun x => (.array x.1, x.2) := by
  rw [readValue, h]
  change (readElements (readValue depth) rest >>= fun x => pure (Json.array x.1, x.2)) = _
  cases readElements (readValue depth) rest <;> rfl

theorem readValue_object (depth : Nat) {s rest : List Char} (h : skipBlanks s = '{' :: rest) :
    readValue (depth + 1) s =
      (readMembers (readMember depth) [] rest).map fun x => (.object x.1, x.2) := by
  rw [readValue, h]
  change (readMembers (readMember depth) [] rest >>= fun x => pure (Json.object x.1, x.2)) = _
  cases readMembers (readMember depth) [] rest <;> rfl

end EventStream.Json
