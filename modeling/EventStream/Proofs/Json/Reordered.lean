import Mathlib.Data.List.Perm.Basic
import EventStream.Proofs.Header.Lookup
import EventStream.Proofs.Json.Values

/-!
Values that differ only in the order in which their objects list their members. A plain value is
read back from each of them, since an object keeps its members in the order of their names.
-/

set_option autoImplicit false

namespace EventStream.Assoc

variable {α : Type}

/-- A name that is new adds an entry and leaves the others. -/
theorem insert_perm {name : String} {value : α} {entries : List (String × α)}
    (h : name ∉ entries.map Prod.fst) :
    (insert name value entries).Perm ((name, value) :: entries) := by
  induction entries with
  | nil => exact .refl _
  | cons head rest ih =>
    obtain ⟨n, v⟩ := head
    obtain ⟨hne, hrest⟩ := not_or.1 fun hm => h (List.mem_cons.2 hm)
    rw [insert, if_neg hne]
    split
    · exact .refl _
    · exact ((ih hrest).cons (n, v)).trans (.swap _ _ rest)

def insertAll (entries : List (String × α)) (more : List (String × α)) : List (String × α) :=
  more.foldl (fun found m => insert m.1 m.2 found) entries

theorem Ascending.insertAll {entries : List (String × α)} (h : Ascending entries)
    (more : List (String × α)) : Ascending (Assoc.insertAll entries more) := by
  induction more generalizing entries with
  | nil => exact h
  | cons m more ih => exact ih (h.insert m.1 m.2)

theorem insertAll_perm {entries more : List (String × α)}
    (h : ((more ++ entries).map Prod.fst).Nodup) :
    (insertAll entries more).Perm (more ++ entries) := by
  induction more generalizing entries with
  | nil => exact .refl _
  | cons m more ih =>
    have hname : m.1 ∉ (more ++ entries).map Prod.fst := (List.nodup_cons.1 h).1
    rw [List.map_append, List.mem_append] at hname
    have hinsert : (insert m.1 m.2 entries).Perm (m :: entries) :=
      insert_perm (not_or.1 hname).2
    have hperm : (more ++ insert m.1 m.2 entries).Perm (m :: (more ++ entries)) :=
      (hinsert.append_left more).trans List.perm_middle
    exact (ih ((hperm.map Prod.fst).nodup_iff.2 h)).trans hperm

theorem Ascending.nodup {entries : List (String × α)} (h : Ascending entries) :
    (entries.map Prod.fst).Nodup :=
  List.pairwise_map.2 (h.imp fun {a b} hlt (heq : a.1 = b.1) => String.lt_irrefl b.1 (heq ▸ hlt))

/-- Entries that ascend are found again from any order. -/
theorem insertAll_of_perm {entries told : List (String × α)} (hperm : entries.Perm told)
    (h : Ascending told) : insertAll [] entries = told := by
  have hnodup : ((entries ++ []).map Prod.fst).Nodup := by
    rw [List.append_nil]
    exact (hperm.map Prod.fst).nodup_iff.2 h.nodup
  have hall := (insertAll_perm hnodup).trans ((List.append_nil entries).symm ▸ hperm)
  exact hall.eq_of_pairwise (fun a b _ _ hab hba => absurd hba (String.lt_asymm hab))
    (Ascending.insertAll .nil entries) h

end EventStream.Assoc

namespace EventStream.Json

/-- The first value is the second, but for the order in which objects list their members. -/
inductive Reorders : Json → Json → Prop
  | refl (v : Json) : Reorders v v
  | array {items told : List Json} (h : List.Forall₂ Reorders items told) :
    Reorders (.array items) (.array told)
  | object {members others told : List (String × Json)} (order : members.Perm others)
    (names : others.map Prod.fst = told.map Prod.fst)
    (values : List.Forall₂ Reorders (others.map Prod.snd) (told.map Prod.snd)) :
    Reorders (.object members) (.object told)

def Relists (members told : List (String × Json)) : Prop :=
  ∃ others, members.Perm others ∧ List.Forall₂ (fun m t => m.1 = t.1 ∧ m.2.Reorders t.2) others told

section

variable {v w : Json} {name : String} {members told : List (String × Json)}

theorem forall₂_of_mem {α β : Type} {R S : α → β → Prop} {l : List α} {u : List β}
    (h : List.Forall₂ R l u) (himp : ∀ a, ∀ b ∈ u, R a b → S a b) : List.Forall₂ S l u := by
  induction h with
  | nil => exact .nil
  | cons hab _ ih =>
    exact .cons (himp _ _ List.mem_cons_self hab)
      (ih fun a b hb => himp a b (List.mem_cons_of_mem _ hb))

theorem forall₂_members {R : Json → Json → Prop} :
    List.Forall₂ (fun m t => m.1 = t.1 ∧ R m.2 t.2) members told ↔
      members.map Prod.fst = told.map Prod.fst ∧
        List.Forall₂ R (members.map Prod.snd) (told.map Prod.snd) := by
  induction members generalizing told with
  | nil => cases told <;> simp
  | cons m members ih =>
    cases told with
    | nil => simp
    | cons t told =>
      simp only [List.forall₂_cons, List.map_cons, List.cons.injEq, ih]
      exact and_and_and_comm

theorem Reorders.eq_null (h : v.Reorders w) (hv : v = .null) : w = .null := by
  subst hv
  cases h
  rfl

theorem Reorders.exists_items {items : List Json} (h : v.Reorders (.array items)) :
    ∃ others, v = .array others ∧ List.Forall₂ Reorders others items := by
  cases h with
  | refl => exact ⟨items, rfl, List.forall₂_same.2 fun v _ => .refl v⟩
  | array h => exact ⟨_, rfl, h⟩

theorem Reorders.exists_members (h : v.Reorders (.object told)) :
    ∃ members, v = .object members ∧ Relists members told := by
  cases h with
  | refl => exact ⟨told, rfl, told, .refl told, List.forall₂_same.2 fun m _ => ⟨rfl, .refl m.2⟩⟩
  | object order names values => exact ⟨_, rfl, _, order, forall₂_members.2 ⟨names, values⟩⟩

theorem relists_nil (h : Relists members []) : members = [] := by
  obtain ⟨others, horder, hsame⟩ := h
  obtain rfl := List.forall₂_nil_right_iff.1 hsame
  exact List.perm_nil.1 horder

/-- The first of the members is among those that are listed again, and so are the others. -/
theorem Relists.exists_of_cons (h : Relists members ((name, v) :: told)) :
    ∃ front w back, members = front ++ (name, w) :: back ∧ w.Reorders v ∧
      Relists (front ++ back) told := by
  obtain ⟨others, horder, hsame⟩ := h
  obtain ⟨⟨other, w⟩, rest, ⟨rfl, hw⟩, hrest, rfl⟩ := List.forall₂_cons_right_iff.1 hsame
  obtain ⟨front, back, rfl⟩ := List.append_of_mem (horder.mem_iff.2 List.mem_cons_self)
  exact ⟨front, w, back, rfl, hw, rest, (List.perm_middle.symm.trans horder).cons_inv, hrest⟩

theorem Reorders.exists_single (h : v.Reorders (.object [(name, w)])) :
    ∃ value, v = .object [(name, value)] ∧ value.Reorders w := by
  obtain ⟨members, rfl, hmembers⟩ := h.exists_members
  obtain ⟨front, value, back, rfl, hvalue, hrest⟩ := hmembers.exists_of_cons
  obtain ⟨rfl, rfl⟩ := List.append_eq_nil_iff.1 (relists_nil hrest)
  exact ⟨value, rfl, hvalue⟩

/-- No other names are listed. -/
theorem Relists.exists_name (h : Relists members told) {m : String × Json} (hm : m ∈ members) :
    ∃ t ∈ told, t.1 = m.1 := by
  obtain ⟨others, horder, hsame⟩ := h
  have hnames := (forall₂_members.1 hsame).1
  have hname : m.1 ∈ told.map Prod.fst :=
    hnames ▸ List.mem_map_of_mem (horder.mem_iff.1 hm)
  exact List.mem_map.1 hname

end

section

variable {depth : Nat} {members others : List (String × Json)}

/-- Members are gathered one by one, each under its name. -/
theorem gathers_members
    (h : List.Forall₂ (fun m o => m.1 = o.1 ∧ Reads (readValue depth) m.2 o.2) members others)
    (front : List (String × Json)) :
    Gathers (readMember depth) members front (Assoc.insertAll front others) := by
  induction h generalizing front with
  | nil => exact .nil front
  | @cons m o members others hm _ ih =>
    obtain ⟨name, w⟩ := m
    obtain ⟨rfl, hread⟩ := hm
    refine .cons (fun layout level rest hrest => ?_) (ih _)
    obtain ⟨s, hcolon, hvalue⟩ := hread.behind_colon layout level hrest
    simp only [readMember, hcolon]
    change (readValue depth s >>= fun x => _) = _
    rw [hvalue]
    rfl

end

/-- A plain value is read back, in whatever order its members are listed, if its levels may be
opened. -/
theorem Plain.reads {v : Json} (h : v.Plain) {depth : Nat} (hdepth : v.depth ≤ depth) {w : Json}
    (hw : w.Reorders v) : Reads (readValue depth) w v := by
  -- every array and object takes one of the levels, so their number is generalised
  induction h generalizing depth w with
  | null =>
    cases hw
    intro layout level s rest hs hrest
    rw [readValue, hs]
    rfl
  | bool b =>
    cases hw
    intro layout level s rest hs hrest
    rw [readValue, hs]
    cases b <;> rfl
  | @int n fits =>
    cases hw
    intro layout level s rest hs hrest
    obtain ⟨c, t, htext, hc⟩ := writeNumber_head (.int n)
    have hread := readNumber_int fits hrest
    rw [write, htext, List.cons_append] at hs
    rw [htext, List.cons_append] at hread
    rw [readValue_number depth hs hc, hread]
    rfl
  | string text =>
    cases hw
    intro layout level s rest hs hrest
    rw [write, writeString_append] at hs
    rw [readValue_string depth hs, readString_flatMap]
    rfl
  | @array items plain ih =>
    obtain ⟨others, rfl, hothers⟩ := hw.exists_items
    intro layout level s rest hs hrest
    rw [Json.depth] at hdepth
    obtain ⟨depth, rfl⟩ := Nat.exists_eq_succ_of_ne_zero (n := depth) (by omega)
    have hitems : List.Forall₂ (Reads (readValue depth)) others items := by
      refine forall₂_of_mem hothers fun o v hv ho => ih v hv ?_ ho
      exact Nat.le_trans (depth_le_itemsDepth hv) (Nat.le_of_succ_le_succ hdepth)
    rw [write_array, List.cons_append] at hs
    rw [readValue_array depth hs, readElements_insideArray hitems layout level rest]
    rfl
  | @object told ascending plain ih =>
    obtain ⟨members, rfl, others, horder, hsame⟩ := hw.exists_members
    intro layout level s rest hs hrest
    rw [Json.depth] at hdepth
    obtain ⟨depth, rfl⟩ := Nat.exists_eq_succ_of_ne_zero (n := depth) (by omega)
    -- what is told in order is told of the members as they are listed
    obtain ⟨values, hvalues, hperm⟩ := List.perm_comp_forall₂ horder hsame
    have hreads : List.Forall₂ (fun m o => m.1 = o.1 ∧ Reads (readValue depth) m.2 o.2)
        members values := by
      refine forall₂_of_mem hvalues fun m o ho hm => ⟨hm.1, ih o (hperm.mem_iff.1 ho) ?_ hm.2⟩
      exact Nat.le_trans (depth_le_membersDepth (hperm.mem_iff.1 ho))
        (Nat.le_of_succ_le_succ hdepth)
    have hgathers := gathers_members hreads []
    rw [Assoc.insertAll_of_perm hperm ascending] at hgathers
    rw [write_object, List.cons_append] at hs
    rw [readValue_object depth hs, readMembers_insideObject hgathers layout level rest]
    rfl

end EventStream.Json
