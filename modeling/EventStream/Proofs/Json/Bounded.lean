import EventStream.Proofs.Json.Formats

/-!
What is read lies within the levels that may be opened, and no object of it names a member twice.
There is one lemma for each way to make a format. Of such a value the members can be sorted by
their names without any being lost.
-/

set_option autoImplicit false

namespace EventStream.Json

/-- A value of at most the given number of levels, no object of which names a member twice. -/
inductive Within : Nat → Json → Prop
  | null {depth : Nat} : Within depth .null
  | bool {depth : Nat} (b : Bool) : Within depth (.bool b)
  | number {depth : Nat} (n : Number) : Within depth (.number n)
  | string {depth : Nat} (text : String) : Within depth (.string text)
  | array {depth : Nat} {items : List Json} (h : ∀ v ∈ items, Within depth v) :
    Within (depth + 1) (.array items)
  | object {depth : Nat} {members : List (String × Json)}
    (distinct : (members.map Prod.fst).Nodup) (h : ∀ m ∈ members, Within depth m.2) :
    Within (depth + 1) (.object members)

section

variable {ε α β : Type}

theorem exists_of_bind {x : Except ε α} {f : α → Except ε β} {b : β} (h : x >>= f = .ok b) :
    ∃ a, x = .ok a ∧ f a = .ok b := by
  cases x with
  | error e => cases h
  | ok a => exact ⟨a, rfl, h⟩

theorem exists_of_map {f : α → β} {x : Except ε α} {b : β} (h : x.map f = .ok b) :
    ∃ a, x = .ok a ∧ f a = b := by
  cases x with
  | error e => cases h
  | ok a => exact ⟨a, rfl, Except.ok.inj h⟩

theorem descend_ok {depth : Nat} {s rest : List Char} {a : α}
    {read : Nat → Except Fault (α × List Char)} (h : descend depth s read = .ok (a, rest)) :
    ∃ inner, depth = inner + 1 ∧ read inner = .ok (a, rest) := by
  cases depth with
  | zero => cases h
  | succ inner => exact ⟨inner, rfl, h⟩

end

section

variable {α σ : Type} {element : List Char → Except Fault (α × List Char)}
  {member : String → σ → List Char → Except Fault (σ × List Char)}

/-- What holds of every element that can be read holds of all elements of a list. -/
theorem readElementsFrom_forall {P : α → Prop}
    (helement : ∀ s a rest, element s = .ok (a, rest) → P a) {bound : Nat} {found items : List α}
    {s rest : List Char} (h : readElementsFrom element bound found s = .ok (items, rest))
    (hfound : ∀ a ∈ found, P a) : ∀ a ∈ items, P a := by
  induction bound generalizing found s with
  | zero => cases h
  | succ bound ih =>
    rw [readElementsFrom] at h
    obtain ⟨next, -, h⟩ := exists_of_bind h
    cases next with
    | close behind =>
      obtain ⟨rfl, -⟩ := Prod.mk.inj (Except.ok.inj h)
      exact fun a ha => hfound a (List.mem_reverse.1 ha)
    | more behind =>
      obtain ⟨⟨a, behind⟩, ha, h⟩ := exists_of_bind h
      exact ih h (List.forall_mem_cons.2 ⟨helement _ _ _ ha, hfound⟩)

/-- What every member keeps holds of all that is gathered from an object. -/
theorem readMembersFrom_keeps {P : σ → Prop}
    (hmember : ∀ key found s next rest, P found → member key found s = .ok (next, rest) → P next)
    {bound : Nat} {first : Bool} {start last : σ} {s rest : List Char}
    (h : readMembersFrom member bound first start s = .ok (last, rest)) (hstart : P start) :
    P last := by
  induction bound generalizing first start s with
  | zero => cases h
  | succ bound ih =>
    rw [readMembersFrom] at h
    obtain ⟨next, -, h⟩ := exists_of_bind h
    cases next with
    | close behind =>
      obtain ⟨rfl, -⟩ := Prod.mk.inj (Except.ok.inj h)
      exact hstart
    | more behind =>
      obtain ⟨⟨key, behind⟩, -, h⟩ := exists_of_bind h
      obtain ⟨⟨next, behind⟩, hnext, h⟩ := exists_of_bind h
      exact ih h (hmember _ _ _ _ _ hstart hnext)

end

def Gathered (depth : Nat) (members : List (String × Json)) : Prop :=
  Assoc.Ascending members ∧ ∀ m ∈ members, m.2.Within depth

theorem Gathered.within {depth : Nat} {members : List (String × Json)} (h : Gathered depth members) :
    Within (depth + 1) (.object members) :=
  .object h.1.nodup h.2

theorem Gathered.readMember {depth : Nat}
    (hvalue : ∀ s v rest, readValue depth s = .ok (v, rest) → v.Within depth) {key : String}
    {found next : List (String × Json)} {s rest : List Char} (hfound : Gathered depth found)
    (h : readMember depth key found s = .ok (next, rest)) : Gathered depth next := by
  obtain ⟨behind, -, h⟩ := exists_of_bind h
  obtain ⟨⟨v, behind⟩, hv, h⟩ := exists_of_bind h
  obtain ⟨rfl, -⟩ := Prod.mk.inj (Except.ok.inj h)
  refine ⟨hfound.1.insert key v, fun m hm => ?_⟩
  rcases Assoc.mem_insert hm with rfl | hm
  · exact hvalue _ _ _ hv
  · exact hfound.2 m hm

theorem readValue_within (depth : Nat) {s rest : List Char} {v : Json}
    (h : readValue depth s = .ok (v, rest)) : v.Within depth := by
  induction depth using Nat.strongRecOn generalizing s rest v with
  | _ depth ih =>
  rw [readValue] at h
  split at h
  · cases h
  next c behind hs =>
  split at h
  · obtain ⟨t, -, h⟩ := exists_of_bind h
    cases h
    exact .null
  split at h
  · obtain ⟨t, -, h⟩ := exists_of_bind h
    cases h
    exact .bool true
  split at h
  · obtain ⟨t, -, h⟩ := exists_of_bind h
    cases h
    exact .bool false
  split at h
  · obtain ⟨⟨text, t⟩, -, h⟩ := exists_of_bind h
    cases h
    exact .string text
  split at h
  · obtain ⟨⟨n, t⟩, -, h⟩ := exists_of_bind h
    cases h
    exact .number n
  split at h
  · cases depth with
    | zero => cases h
    | succ depth =>
      obtain ⟨⟨items, t⟩, hitems, h⟩ := exists_of_bind h
      cases h
      exact .array (readElementsFrom_forall (fun s v rest => ih depth (Nat.lt_succ_self _)) hitems
        (List.forall_mem_nil _))
  split at h
  · cases depth with
    | zero => cases h
    | succ depth =>
      obtain ⟨⟨members, t⟩, hmembers, h⟩ := exists_of_bind h
      cases h
      have hkeeps : ∀ key found s next rest, Gathered depth found →
          readMember depth key found s = .ok (next, rest) → Gathered depth next :=
        fun _ _ _ _ _ hfound => hfound.readMember fun _ _ _ => ih depth (Nat.lt_succ_self _)
      exact (readMembersFrom_keeps hkeeps hmembers ⟨.nil, List.forall_mem_nil _⟩).within
  · cases h

namespace Format

variable {α β : Type}

/-- What is read with some levels left lies within them. -/
def IsBounded (format : Format α) : Prop :=
  ∀ depth s a rest, format.read depth s = .ok (a, rest) → (format.write a).Within depth

theorem IsBounded.any : any.IsBounded :=
  fun depth _ _ _ h => readValue_within depth h

theorem IsBounded.string : string.IsBounded :=
  fun _ _ text _ _ => .string text

theorem IsBounded.bool : bool.IsBounded :=
  fun _ _ b _ _ => .bool b

theorem IsBounded.int64 : int64.IsBounded :=
  fun _ _ _ _ _ => .number _

theorem IsBounded.choice {all : List α} {label : α → String} {other : Option α} :
    (Format.choice all label other).IsBounded :=
  fun _ _ a _ _ => .string (label a)

theorem IsBounded.nullable {format : Format α} (h : format.IsBounded) :
    format.nullable.IsBounded := by
  intro depth s o rest hread
  simp only [Format.nullable] at hread
  split at hread
  · cases hread
  split at hread
  · obtain ⟨t, -, hpair⟩ := exists_of_map hread
    obtain ⟨rfl, -⟩ := Prod.mk.inj hpair
    exact .null
  · obtain ⟨⟨a, t⟩, ha, hpair⟩ := exists_of_map hread
    obtain ⟨rfl, -⟩ := Prod.mk.inj hpair
    exact h depth _ a t ha

theorem IsBounded.list {format : Format α} (h : format.IsBounded) : format.list.IsBounded := by
  intro depth s l rest hread
  simp only [Format.list] at hread
  split at hread
  · cases hread
  split at hread
  · obtain ⟨depth, rfl, hitems⟩ := descend_ok hread
    have hall : ∀ a ∈ l, (format.write a).Within depth :=
      readElementsFrom_forall (h depth) hitems nofun
    exact .array (List.forall_mem_map.2 hall)
  · cases hread

end Format

structure Field.IsBounded {α : Type} (field : Field α) : Prop where
  read : field.format.IsBounded
  absent : ∀ a, field.absent = some a → field.isWritten a = true →
    ∀ depth, (field.format.write a).Within depth

section

variable {α : Type} {name : String} {format : Format α}

theorem Field.IsBounded.required (h : format.IsBounded) : (Field.required name format).IsBounded :=
  ⟨h, nofun⟩

theorem Field.IsBounded.optional (h : format.IsBounded) :
    (Field.optional name format).IsBounded := by
  refine ⟨h.nullable, fun o habsent hwritten => ?_⟩
  cases habsent
  cases hwritten

theorem Field.IsBounded.withDefault {default : α} (h : format.IsBounded)
    (hdefault : ∀ depth, (format.write default).Within depth) :
    (Field.withDefault name format default).IsBounded := by
  refine ⟨h, fun a habsent _ => ?_⟩
  cases habsent
  exact hdefault

end

namespace Members

variable {α σ ρ : Type}

def WritesWithin (members : Members σ ρ) (depth : Nat) (r : ρ) : Prop :=
  ∀ m ∈ members.write r, m.2.Within depth

/-- What holds of the members that were found so far, so that they can be written within the
levels. -/
structure Holding (members : Members σ ρ) (depth : Nat) (holds : σ → Prop) : Prop where
  start : holds members.start
  keeps : ∀ key found s next rest, holds found →
    readRecordMember members depth key found s = .ok (next, rest) → holds next
  finishes : ∀ found r, holds found → members.finish found = .ok r → members.WritesWithin depth r

structure IsBounded (members : Members σ ρ) (names : List String) : Prop where
  named : ∀ r, ((members.write r).map Prod.fst).Sublist names
  holding : ∀ depth, ∃ holds, Holding members depth holds
  elements : ∀ depth expected index first s r rest,
    members.elements depth expected index first s = .ok (r, rest) → members.WritesWithin depth r

theorem IsBounded.nil : nil.IsBounded [] where
  named _ := .slnil
  holding _ := ⟨fun _ => True, trivial, fun _ _ _ _ _ _ _ => trivial, fun _ _ _ _ => nofun⟩
  elements _ _ _ _ _ _ _ _ := nofun

section cons

variable {field : Field α} {others : Members σ ρ} {depth : Nat}

theorem WritesWithin.cons {a : α} {r : ρ}
    (ha : field.isWritten a = true → (field.format.write a).Within depth)
    (h : others.WritesWithin depth r) : (Members.cons field others).WritesWithin depth (a, r) := by
  intro m hm
  simp only [Members.cons] at hm
  split at hm
  · next hwritten =>
    rcases List.mem_cons.1 hm with rfl | hm
    · exact ha hwritten
    · exact h m hm
  · exact h m hm

/-- The value that was found for a field is one that was read. -/
theorem Holding.cons {holds : σ → Prop} (hfield : field.IsBounded) (h : Holding others depth holds) :
    Holding (Members.cons field others) depth fun found =>
      (∀ a ∈ found.1, (field.format.write a).Within depth) ∧ holds found.2 where
  start := ⟨nofun, h.start⟩
  keeps key found s next rest hfound hread := by
    obtain ⟨x, more⟩ := found
    obtain ⟨hx, hmore⟩ := hfound
    by_cases hkey : key = field.name
    · simp only [readRecordMember, Members.cons, if_pos hkey] at hread
      obtain ⟨⟨a, t⟩, ha, hread⟩ := exists_of_bind hread
      obtain ⟨rfl, -⟩ := Prod.mk.inj (Except.ok.inj hread)
      refine ⟨fun b hb => ?_, hmore⟩
      obtain rfl := Option.some.inj hb
      cases x with
      | some _ => cases ha
      | none =>
        obtain ⟨t, -, ha⟩ := exists_of_bind ha
        exact hfield.read depth _ _ _ ha
    · rw [readRecordMember_cons field others depth hkey] at hread
      obtain ⟨⟨following, t⟩, hnext, hpair⟩ := exists_of_map hread
      obtain ⟨rfl, -⟩ := Prod.mk.inj hpair
      exact ⟨hx, h.keeps _ _ _ _ _ hmore hnext⟩
  finishes found r hfound hfinish := by
    obtain ⟨x, more⟩ := found
    obtain ⟨hx, hmore⟩ := hfound
    simp only [Members.cons] at hfinish
    split at hfinish
    · cases hfinish
    next a ha =>
    obtain ⟨r, hr, rfl⟩ := exists_of_map hfinish
    refine .cons (fun hwritten => ?_) (h.finishes _ _ hmore hr)
    cases x with
    | some b => exact hx a ha
    | none => exact hfield.absent a ha hwritten depth

theorem elements_cons_within (hfield : field.IsBounded) {names : List String}
    (h : others.IsBounded names) {expected : String} {index : Nat} {first : Bool}
    {s rest : List Char} {r : α × ρ}
    (hread : (Members.cons field others).elements depth expected index first s = .ok (r, rest)) :
    (Members.cons field others).WritesWithin depth r := by
  obtain ⟨next, -, hread⟩ := exists_of_bind hread
  cases next with
  | more behind =>
    obtain ⟨⟨a, t⟩, ha, hread⟩ := exists_of_bind hread
    obtain ⟨⟨r, t⟩, hr, hread⟩ := exists_of_bind hread
    obtain ⟨rfl, -⟩ := Prod.mk.inj (Except.ok.inj hread)
    exact .cons (fun _ => hfield.read depth _ a _ ha) (h.elements _ _ _ _ _ _ _ hr)
  | close behind =>
    simp only at hread
    split at hread
    · cases hread
    next a ha =>
    obtain ⟨⟨r, t⟩, hr, hread⟩ := exists_of_bind hread
    obtain ⟨rfl, -⟩ := Prod.mk.inj (Except.ok.inj hread)
    exact .cons (fun hwritten => hfield.absent a ha hwritten depth) (h.elements _ _ _ _ _ _ _ hr)

theorem IsBounded.cons {names : List String} (hfield : field.IsBounded)
    (h : others.IsBounded names) : (Members.cons field others).IsBounded (field.name :: names) where
  named r := by
    obtain ⟨a, r⟩ := r
    simp only [Members.cons]
    split
    · exact (h.named r).cons_cons field.name
    · exact (h.named r).cons field.name
  holding depth := by
    obtain ⟨holds, hholds⟩ := h.holding depth
    exact ⟨_, hholds.cons hfield⟩
  elements _ _ _ _ _ _ _ := elements_cons_within hfield h

end cons

end Members

theorem Format.IsBounded.record {α σ ρ : Type} {name : String} {members : Members σ ρ}
    {build : ρ → α} {parts : α → ρ} {names : List String} (h : members.IsBounded names)
    (hnames : names.Nodup) (hbuild : ∀ r, parts (build r) = r) :
    (Format.record name members build parts).IsBounded := by
  intro depth s a rest hread
  have hwithin : ∀ {inner : Nat} {r : ρ}, members.WritesWithin inner r →
      Within (inner + 1) ((Format.record name members build parts).write (build r)) := by
    intro inner r hr
    change Within _ (.object (members.write (parts (build r))))
    rw [hbuild]
    exact .object (hnames.sublist (h.named r)) hr
  simp only [Format.record] at hread
  split at hread
  · cases hread
  obtain ⟨⟨r, t⟩, hr, hpair⟩ := exists_of_map hread
  obtain ⟨rfl, -⟩ := Prod.mk.inj hpair
  split at hr
  · obtain ⟨inner, rfl, htuple⟩ := descend_ok hr
    obtain ⟨⟨r, t⟩, helements, hend⟩ := exists_of_bind htuple
    obtain ⟨t, -, hend⟩ := exists_of_bind hend
    obtain ⟨rfl, -⟩ := Prod.mk.inj (Except.ok.inj hend)
    exact hwithin (h.elements _ _ _ _ _ _ _ helements)
  split at hr
  · obtain ⟨inner, rfl, hrecord⟩ := descend_ok hr
    obtain ⟨⟨found, t⟩, hfound, hend⟩ := exists_of_bind hrecord
    obtain ⟨holds, hholds⟩ := h.holding inner
    have hlast := readMembersFrom_keeps hholds.keeps hfound hholds.start
    simp only at hend
    split at hend
    · next hfinish =>
      obtain ⟨rfl, -⟩ := Prod.mk.inj (Except.ok.inj hend)
      exact hwithin (hholds.finishes _ _ hlast hfinish)
    · cases hend
  · cases hr

theorem Format.IsBounded.parse {α : Type} {format : Format α} (h : format.IsBounded)
    {text : String} {a : α} (hparse : format.parse text = .ok a) :
    (format.write a).Within maxDepth := by
  rw [Format.parse] at hparse
  cases hread : format.read maxDepth text.toList with
  | error fault =>
    rw [hread] at hparse
    cases hparse
  | ok x =>
    obtain ⟨b, rest⟩ := x
    have hb := h maxDepth _ b rest hread
    simp only [hread, bind, Except.bind] at hparse
    split at hparse
    · cases hparse
      exact hb
    · cases hparse

end EventStream.Json
