/-!
Association lists whose names ascend. The order of texts is that of their code points, which is
also the order of their UTF-8 bytes.
-/

set_option autoImplicit false

namespace EventStream.Assoc

variable {α : Type}

/-- Each name is below all names after it, so no name stands twice. -/
def Ascending (entries : List (String × α)) : Prop :=
  entries.Pairwise (fun a b => a.1 < b.1)

def insert (name : String) (value : α) : List (String × α) → List (String × α)
  | [] => [(name, value)]
  | (n, v) :: rest =>
    if name = n then (name, value) :: rest
    else if name < n then (name, value) :: (n, v) :: rest
    else (n, v) :: insert name value rest

def get? (name : String) : List (String × α) → Option α
  | [] => none
  | (n, v) :: rest => if name = n then some v else get? name rest

theorem mem_insert {name : String} {value : α} {entries : List (String × α)} {e : String × α}
    (h : e ∈ insert name value entries) : e = (name, value) ∨ e ∈ entries := by
  induction entries with
  | nil => simpa [insert] using h
  | cons head rest ih => grind [insert]

theorem Ascending.insert {entries : List (String × α)} (h : Ascending entries) (name : String)
    (value : α) : Ascending (Assoc.insert name value entries) := by
  induction entries with
  | nil => simp [Assoc.insert, Ascending]
  | cons head rest ih =>
    obtain ⟨n, v⟩ := head
    have hn : ∀ e ∈ rest, n < e.1 := fun e he => (List.pairwise_cons.1 h).1 e he
    have hr : Ascending rest := (List.pairwise_cons.1 h).2
    simp only [Assoc.insert]
    split
    · next heq => exact List.pairwise_cons.2 ⟨fun e he => heq ▸ hn e he, hr⟩
    · next hne =>
      split
      · next hlt =>
        refine List.pairwise_cons.2 ⟨fun e he => ?_, h⟩
        rcases List.mem_cons.1 he with rfl | he
        · exact hlt
        · exact String.lt_trans hlt (hn e he)
      · next hge =>
        refine List.pairwise_cons.2 ⟨fun e he => ?_, ih hr⟩
        rcases mem_insert he with rfl | he
        · exact Std.lt_of_le_of_ne (String.not_lt.1 hge) (fun hc => hne hc.symm)
        · exact hn e he

end EventStream.Assoc
