import EventStream.Proofs.Header.Extension
import EventStream.Proofs.Header.Lookup

/-!
Header blocks one behind the other. Behind a block that reads completely, a second one is read as it
would be alone: its headers hide those of the first that have their names, and its fault lies as
much further on as the first block is long.
-/

set_option autoImplicit false

namespace EventStream.Header

/-- What was found before stays in front, and changes nothing that is found from a cursor on. -/
theorem entriesFrom_append (found before : List (String × Value)) (c : Cursor) :
    entriesFrom (found ++ before) c =
      (before.reverse ++ (entriesFrom found c).1, (entriesFrom found c).2) := by
  induction found, c using entriesFrom.induct with
  | case1 found c hnil =>
    rw [entriesFrom_of_isEmpty hnil, entriesFrom_of_isEmpty hnil, List.reverse_append]
  | case2 found c hne fault hread =>
    rw [entriesFrom_of_error hne hread, entriesFrom_of_error hne hread, List.reverse_append]
  | case3 found c hne entry next hread hlt ih =>
    rw [entriesFrom_of_ok hread, entriesFrom_of_ok hread]
    exact ih

/-- A block at a distance has the same entries, and its fault at that distance. -/
theorem entriesFrom_shift (found : List (String × Value)) (distance : Nat) (block : Bytes) :
    entriesFrom found ⟨distance, block⟩ =
      ((entriesFrom found ⟨0, block⟩).1,
        (entriesFrom found ⟨0, block⟩).2.map (Fault.shift distance)) := by
  have h := entriesFrom_continued distance [] found ⟨0, block⟩
  rw [Cursor.relocate, List.append_nil, Nat.zero_add] at h
  generalize entriesFrom found ⟨0, block⟩ = entries at h
  generalize entriesFrom found ⟨distance, block⟩ = distant at h
  cases h with
  | complete all =>
    rw [entriesFrom_of_isEmpty rfl, List.reverse_reverse]
    rfl
  | settled | short => rfl
  | supplied _ _ hlt hmore => exact absurd hmore (Nat.not_le.2 hlt)

theorem entries_append {first : Bytes} (h : (entries first).2 = none) (second : Bytes) :
    entries (first ++ second) =
      ((entries first).1 ++ (entries second).1,
        (entries second).2.map (Fault.shift first.length)) := by
  have hcontinued := entries_continued first second
  generalize hfirst : entries first = found at h hcontinued
  generalize hboth : entries (first ++ second) = both at hcontinued
  cases hcontinued with
  | complete all =>
    have happend := entriesFrom_append [] all.reverse ⟨0, second⟩
    rw [List.nil_append, List.reverse_reverse] at happend
    rw [Nat.add_zero, entriesFrom_shift, happend]
    rfl
  | settled | short | supplied => cases h

namespace Block

/-- Behind a block that reads completely, a second block is read as it is alone. The headers of both
are those of the first, overwritten by those of the second; there is a fault exactly where the
second has one, which lies behind the first. -/
theorem parse_append {first : Bytes} (h : (parse first).isComplete = true) (second : Bytes) :
    parse (first ++ second) =
        ⟨(parse first).headers.overwrite (parse second).headers,
          (parse second).fault.map (Fault.shift first.length)⟩ ∧
      (∀ name, (parse (first ++ second)).headers.get? name =
        ((parse second).headers.get? name).or ((parse first).headers.get? name)) ∧
      (parse (first ++ second)).isComplete = (parse second).isComplete := by
  have hnone : (entries first).2 = none := Option.isNone_iff_eq_none.1 h
  have hparse : parse (first ++ second) =
      ⟨(parse first).headers.overwrite (parse second).headers,
        (parse second).fault.map (Fault.shift first.length)⟩ := by
    have hheaders : Headers.ofList ((entries first).1 ++ (entries second).1) =
        (parse first).headers.overwrite (parse second).headers :=
      (Headers.insertAll_append _ _ _).trans (Headers.overwrite_ofList _ _).symm
    rw [parse_eq, entries_append hnone, hheaders]
    rfl
  refine ⟨hparse, fun name => ?_, ?_⟩
  · rw [hparse, Headers.get?_overwrite]
  · rw [hparse, isComplete, isComplete, Option.isNone_map]

/-- The second block sets the header of the first to another value, and then has an entry of no
known type. -/
theorem parse_append_hidden :
    (parse [1, 97, 0]).isComplete = true ∧
    (parse ([1, 97, 0] ++ [1, 97, 1, 1, 98, 42])).headers.get? "a" = some (.bool false) ∧
    (parse ([1, 97, 0] ++ [1, 97, 1, 1, 98, 42])).fault = some (.unknownType 8 42) := by
  have hfirst : (parse [1, 97, 0]).isComplete = true := by decide +kernel
  obtain ⟨hparse, hget, -⟩ := parse_append hfirst [1, 97, 1, 1, 98, 42]
  have hname : (parse [1, 97, 1, 1, 98, 42]).headers.get? "a" = some (.bool false) := by
    decide +kernel
  have hfault : (parse [1, 97, 1, 1, 98, 42]).fault = some (.unknownType 5 42) := by
    decide +kernel
  refine ⟨hfirst, ?_, ?_⟩
  · rw [hget, hname]
    rfl
  · rw [hparse, hfault]
    rfl

end Block

end EventStream.Header
