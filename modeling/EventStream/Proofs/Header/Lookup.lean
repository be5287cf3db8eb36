import EventStream.Proofs.Header.RoundTrip
import Mathlib.Data.List.Sort

/-!
Headers by their names: a header that is set is found under its name and changes no other, the last
of equal names wins, and headers that are found alike are the same.
-/

set_option autoImplicit false

namespace EventStream.Assoc

variable {α : Type}

theorem get?_insert (other name : String) (value : α) (entries : List (String × α)) :
    get? other (insert name value entries) =
      if other = name then some value else get? other entries := by
  induction entries with
  | nil => rfl
  | cons head rest ih =>
    obtain ⟨n, v⟩ := head
    by_cases hname : name = n
    · subst hname
      rw [insert, if_pos rfl, get?, get?]
      by_cases hother : other = name
      · rw [if_pos hother, if_pos hother]
      · rw [if_neg hother, if_neg hother, if_neg hother]
    · rw [insert, if_neg hname]
      by_cases hlt : name < n
      · rw [if_pos hlt, get?]
      · rw [if_neg hlt, get?, ih, get?]
        by_cases hother : other = n
        · rw [if_pos hother, if_neg fun he => hname (he.symm.trans hother), if_pos hother]
        · rw [if_neg hother, if_neg hother]

/-- In ascending order each name stands once, so its value is the one that is found. -/
theorem Ascending.mem_iff {entries : List (String × α)} (h : Ascending entries) {name : String}
    {value : α} : (name, value) ∈ entries ↔ get? name entries = some value := by
  induction entries with
  | nil => simp [get?]
  | cons head rest ih =>
    obtain ⟨n, v⟩ := head
    obtain ⟨hhead, hrest⟩ := List.pairwise_cons.1 h
    rw [get?, List.mem_cons, Prod.mk.injEq]
    by_cases hname : name = n
    · subst hname
      rw [if_pos rfl, Option.some.injEq]
      refine ⟨fun hmem => ?_, fun he => Or.inl ⟨rfl, he.symm⟩⟩
      rcases hmem with ⟨-, he⟩ | hmem
      · exact he.symm
      · exact absurd (hhead _ hmem) (String.lt_irrefl name)
    · rw [if_neg hname, ← ih hrest]
      exact ⟨fun hmem => hmem.resolve_left fun he => hname he.1, Or.inr⟩

theorem Ascending.ext {entries others : List (String × α)} (h : Ascending entries)
    (h' : Ascending others) (hget : ∀ name, get? name entries = get? name others) :
    entries = others := by
  have : Std.Irrefl fun a b : String × α => a.1 < b.1 := ⟨fun a => String.lt_irrefl a.1⟩
  have : Std.Antisymm fun a b : String × α => a.1 < b.1 :=
    ⟨fun _ _ hlt hgt => absurd hgt (String.lt_asymm hlt)⟩
  exact List.Pairwise.eq_of_mem_iff h h' fun ⟨name, value⟩ => by rw [h.mem_iff, h'.mem_iff, hget]

end EventStream.Assoc

namespace EventStream.Header

theorem Value.asString?_eq_some {value : Value} {text : String} :
    value.asString? = some text ↔ value = .string text := by
  cases value <;> simp [asString?]

end EventStream.Header

namespace EventStream.Headers

theorem getString?_eq_some {headers : Headers} {name text : String} :
    headers.getString? name = some text ↔ headers.get? name = some (.string text) := by
  simp only [getString?, Option.bind_eq_some_iff, Header.Value.asString?_eq_some,
    exists_eq_right]

theorem get?_insert (headers : Headers) (other name : String) (value : Header.Value) :
    (headers.insert name value).get? other =
      if other = name then some value else headers.get? other :=
  Assoc.get?_insert other name value headers.entries

theorem ext_get? {headers others : Headers} (h : ∀ name, headers.get? name = others.get? name) :
    headers = others := by
  have hentries := headers.ascending.ext others.ascending h
  cases headers
  cases others
  cases hentries
  rfl

theorem insertAll_append (headers : Headers) (entries more : List (String × Header.Value)) :
    headers.insertAll (entries ++ more) = (headers.insertAll entries).insertAll more :=
  List.foldl_append

/-- What is set later hides what was there, name by name. -/
theorem get?_insertAll (headers : Headers) (entries : List (String × Header.Value))
    (name : String) :
    (headers.insertAll entries).get? name =
      ((ofList entries).get? name).or (headers.get? name) := by
  induction entries using List.reverseRecOn with
  | nil => rfl
  | append_singleton entries entry ih =>
    have hlast : ∀ h : Headers, (h.insertAll (entries ++ [entry])).get? name =
        if name = entry.1 then some entry.2 else (h.insertAll entries).get? name := fun h => by
      rw [insertAll_append]
      exact get?_insert _ _ _ _
    rw [ofList, hlast, hlast, ih, ofList]
    by_cases hname : name = entry.1
    · rw [if_pos hname, if_pos hname]
      rfl
    · rw [if_neg hname, if_neg hname]

def overwrite (headers later : Headers) : Headers :=
  headers.insertAll later.entries

theorem get?_overwrite (headers later : Headers) (name : String) :
    (headers.overwrite later).get? name = (later.get? name).or (headers.get? name) := by
  rw [overwrite, get?_insertAll, ofList_entries]

theorem overwrite_ofList (headers : Headers) (entries : List (String × Header.Value)) :
    headers.overwrite (ofList entries) = headers.insertAll entries :=
  ext_get? fun name => by rw [get?_overwrite, get?_insertAll]

end EventStream.Headers
