import EventStream.Proofs.Json.SettledFormats

/-!
Documents that say the same. An object may list its members in another order, may have members
that nobody knows, and may give `null` for a member that it could leave out: a record is read from
it alike. What is taken for two members does not depend on which of them comes first, and from
that the same follows for all orders.
-/

set_option autoImplicit false

namespace EventStream.Json

section chain

variable {σ β : Type} {step : β → σ → Option σ} {l more : List β} {found : σ}

def chain (step : β → σ → Option σ) : List β → σ → Option σ
  | [], found => some found
  | b :: l, found => (step b found).bind (chain step l)

theorem chain_append (found : σ) :
    chain step (l ++ more) found = (chain step l found).bind (chain step more) := by
  induction l generalizing found with
  | nil => rfl
  | cons b l ih =>
    simp only [List.cons_append, chain, Option.bind_assoc]
    exact congrArg _ (funext ih)

/-- Steps of which any two may change places may be taken in any order. -/
theorem chain_perm (h : l.Perm more)
    (hswap : ∀ a ∈ l, ∀ b ∈ l, ∀ found, (step a found).bind (step b) = (step b found).bind (step a))
    (found : σ) : chain step l found = chain step more found := by
  induction h generalizing found with
  | nil => rfl
  | cons a _ ih =>
    have hrest := ih fun b hb c hc => hswap b (List.mem_cons_of_mem _ hb) c
      (List.mem_cons_of_mem _ hc)
    simp only [chain]
    exact congrArg _ (funext hrest)
  | swap a b l =>
    simp only [chain, ← Option.bind_assoc]
    rw [hswap b List.mem_cons_self a (List.mem_cons_of_mem _ List.mem_cons_self) found]
  | trans h₁ _ ih₁ ih₂ =>
    rw [ih₁ hswap, ih₂ fun a ha b hb => hswap a (h₁.mem_iff.2 ha) b (h₁.mem_iff.2 hb)]

end chain

namespace Members

variable {α σ ρ : Type}

def take (members : Members σ ρ) (depth : Nat) (content : String × List Char) (found : σ) :
    Option σ :=
  taken (readRecordMember members depth) content.1 content.2 found

theorem take_nil {content : String × List Char} (h : IsValue content.2) (depth : Nat) :
    nil.take depth content () = some () := by
  obtain ⟨key, v⟩ := content
  have hends : Ends [] := nofun
  have hread : readRecordMember nil depth key () (':' :: v) =
      skipValue v >>= fun s => pure ((), s) := rfl
  rw [take, taken, hread, h.skipValue h.skipBlanks_self hends]
  rfl

section

variable (field : Field α) (others : Members σ ρ) (depth : Nat) (v : List Char) (more : σ)

/-- The first value of its name is taken for a field. -/
theorem take_field : (cons field others).take depth (field.name, v) (none, more) =
    (valueOf (field.format.read depth) v).map fun a => (some a, more) := by
  rw [take, taken, readRecordMember_found, toOption_map, valueOf, Option.map_map, Option.map_map]
  rfl

/-- A second value of the name of a field is a fault. -/
theorem take_twice (a : α) :
    (cons field others).take depth (field.name, v) (some a, more) = none := by
  rw [take, taken, readRecordMember_found]
  rfl

theorem take_other {key : String} (h : key ≠ field.name) (x : Option α) :
    (cons field others).take depth (key, v) (x, more) =
      (others.take depth (key, v) more).map (x, ·) := by
  rw [take, taken, readRecordMember_cons field others depth h, toOption_map, take, taken,
    Option.map_map, Option.map_map]
  rfl

end

/-- Members that nobody has met yet, and what `null` means for them. -/
structure Vacancy (members : Members σ ρ) (nullables : List String)
    (vacant : String → σ → Prop) : Prop where
  start : ∀ name ∈ nullables, vacant name members.start
  keeps : ∀ (depth : Nat) (name : String) (content : String × List Char) (found next : σ),
    content.1 ≠ name → IsValue content.2 → vacant name found →
      members.take depth content found = some next → vacant name next
  absorbs : ∀ (depth : Nat), ∀ name ∈ nullables, ∀ found, vacant name found →
    ∃ next, members.take depth (name, nullText) found = some next ∧
      members.finish next = members.finish found

/-- How members are taken: unknown ones not at all, any two in either order, and `null` for one
that may be left out as if it were. -/
structure Orderly (members : Members σ ρ) (names nullables : List String) : Prop where
  named : ∀ name ∈ nullables, name ∈ names
  ignores : ∀ (depth : Nat) (content : String × List Char) (found : σ), IsValue content.2 →
    content.1 ∉ names → members.take depth content found = some found
  swaps : ∀ (depth : Nat) (c d : String × List Char) (found : σ), IsValue c.2 → IsValue d.2 →
    (members.take depth c found).bind (members.take depth d) =
      (members.take depth d found).bind (members.take depth c)
  vacancy : ∃ vacant, Vacancy members nullables vacant

theorem Orderly.nil : nil.Orderly [] [] where
  named := nofun
  ignores depth content found h _ := take_nil h depth
  swaps depth c d found hc hd := by
    rw [take_nil hc, take_nil hd]
    simp only [Option.bind_some, take_nil hc, take_nil hd]
  vacancy := ⟨fun _ _ => False, nofun, fun _ _ _ _ _ _ _ h => h.elim, nofun⟩

def IsNullable (field : Field α) : Prop :=
  ∃ a, field.absent = some a ∧ ∀ depth, valueOf (field.format.read depth) nullText = some a

theorem cons_ignores {field : Field α} {others : Members σ ρ} {names nullables : List String}
    (h : others.Orderly names nullables) (depth : Nat) (content : String × List Char)
    (found : Option α × σ) (hv : IsValue content.2) (hkey : content.1 ∉ field.name :: names) :
    (cons field others).take depth content found = some found := by
  obtain ⟨hfield, hnames⟩ := not_or.1 fun hm => hkey (List.mem_cons.2 hm)
  obtain ⟨x, more⟩ := found
  rw [take_other field others depth _ more hfield, h.ignores depth content more hv hnames]
  rfl

theorem cons_swaps_field {field : Field α} {others : Members σ ρ} (depth : Nat) (v : List Char)
    {key : String} (hkey : key ≠ field.name) (w : List Char) (found : Option α × σ) :
    ((cons field others).take depth (field.name, v) found).bind
        ((cons field others).take depth (key, w)) =
      ((cons field others).take depth (key, w) found).bind
        ((cons field others).take depth (field.name, v)) := by
  obtain ⟨x, more⟩ := found
  rw [take_other field others depth w more hkey]
  cases x with
  | some a =>
    rw [take_twice]
    cases others.take depth (key, w) more with
    | none => rfl
    | some next => exact (take_twice field others depth v next a).symm
  | none =>
    rw [take_field]
    cases hvalue : valueOf (field.format.read depth) v with
    | none =>
      cases others.take depth (key, w) more with
      | none => rfl
      | some next =>
        change none = (cons field others).take depth (field.name, v) (none, next)
        rw [take_field, hvalue]
        rfl
    | some a =>
      change (cons field others).take depth (key, w) (some a, more) = _
      rw [take_other field others depth w more hkey]
      cases others.take depth (key, w) more with
      | none => rfl
      | some next =>
        change _ = (cons field others).take depth (field.name, v) (none, next)
        rw [take_field, hvalue]
        rfl

theorem cons_swaps {field : Field α} {others : Members σ ρ} {names nullables : List String}
    (h : others.Orderly names nullables) (depth : Nat) (c d : String × List Char)
    (found : Option α × σ) (hc : IsValue c.2) (hd : IsValue d.2) :
    ((cons field others).take depth c found).bind ((cons field others).take depth d) =
      ((cons field others).take depth d found).bind ((cons field others).take depth c) := by
  obtain ⟨k, v⟩ := c
  obtain ⟨l, w⟩ := d
  by_cases hk : k = field.name
  · subst hk
    by_cases hl : l = field.name
    · subst hl
      -- whichever comes first, the other is a second value of the same name
      have htwice : ∀ v w, ((cons field others).take depth (field.name, v) found).bind
          ((cons field others).take depth (field.name, w)) = none := by
        intro v w
        obtain ⟨_ | a, more⟩ := found
        · rw [take_field]
          cases valueOf (field.format.read depth) v with
          | none => rfl
          | some a => exact take_twice field others depth w more a
        · rw [take_twice]
          rfl
      rw [htwice, htwice]
    · exact cons_swaps_field depth v hl w found
  · by_cases hl : l = field.name
    · subst hl
      exact (cons_swaps_field depth w hk v found).symm
    · obtain ⟨x, more⟩ := found
      have hstep : ∀ {key : String}, key ≠ field.name → ∀ (v : List Char) (o : Option σ),
          (o.map fun more => (x, more)).bind ((cons field others).take depth (key, v)) =
            (o.bind (others.take depth (key, v))).map fun more => (x, more) := by
        intro key hkey v o
        cases o with
        | none => rfl
        | some more => exact take_other field others depth v more hkey x
      rw [take_other field others depth v more hk, take_other field others depth w more hl,
        hstep hl, hstep hk, h.swaps depth (k, v) (l, w) more hc hd]

def consVacant (field : Field α) (vacant : String → σ → Prop) (name : String)
    (found : Option α × σ) : Prop :=
  if name = field.name then found.1 = none else vacant name found.2

theorem cons_keeps {field : Field α} {others : Members σ ρ} {nullables : List String}
    {vacant : String → σ → Prop} (h : Vacancy others nullables vacant) (depth : Nat)
    (name : String) (content : String × List Char) (found next : Option α × σ)
    (hkey : content.1 ≠ name) (hv : IsValue content.2)
    (hvacant : consVacant field vacant name found)
    (htake : (cons field others).take depth content found = some next) :
    consVacant field vacant name next := by
  obtain ⟨key, v⟩ := content
  obtain ⟨x, more⟩ := found
  unfold consVacant at hvacant ⊢
  by_cases hfield : key = field.name
  · subst hfield
    rw [if_neg hkey.symm] at hvacant ⊢
    cases x with
    | some a =>
      rw [take_twice] at htake
      cases htake
    | none =>
      rw [take_field, Option.map_eq_some_iff] at htake
      obtain ⟨a, -, rfl⟩ := htake
      exact hvacant
  · rw [take_other field others depth v more hfield, Option.map_eq_some_iff] at htake
    obtain ⟨behind, hbehind, rfl⟩ := htake
    by_cases hname : name = field.name
    · rw [if_pos hname] at hvacant ⊢
      exact hvacant
    · rw [if_neg hname] at hvacant ⊢
      exact h.keeps depth name (key, v) more behind hkey hv hvacant hbehind

theorem cons_absorbs_field {field : Field α} (others : Members σ ρ) (h : IsNullable field)
    (depth : Nat) (more : σ) :
    ∃ next, (cons field others).take depth (field.name, nullText) (none, more) = some next ∧
      (cons field others).finish next = (cons field others).finish (none, more) := by
  obtain ⟨a, habsent, hnull⟩ := h
  refine ⟨(some a, more), ?_, ?_⟩
  · rw [take_field, hnull]
    rfl
  · simp only [cons, habsent]
    rfl

theorem cons_vacancy {field : Field α} {others : Members σ ρ} {names nullables all : List String}
    (h : others.Orderly names nullables) (hname : field.name ∉ names)
    (hall : ∀ name ∈ all, name = field.name ∧ IsNullable field ∨ name ∈ nullables) :
    ∃ vacant, Vacancy (cons field others) all vacant := by
  obtain ⟨vacant, hvacancy⟩ := h.vacancy
  have hne : ∀ name ∈ nullables, name ≠ field.name := by
    rintro name hn rfl
    exact hname (h.named _ hn)
  refine ⟨consVacant field vacant, ?_, cons_keeps hvacancy, ?_⟩
  · intro name hn
    unfold consVacant
    rcases hall name hn with ⟨rfl, -⟩ | hn
    · rw [if_pos rfl]
      rfl
    · rw [if_neg (hne name hn)]
      exact hvacancy.start name hn
  · rintro depth name hn ⟨x, more⟩ hvacant
    unfold consVacant at hvacant
    rcases hall name hn with ⟨rfl, hnullable⟩ | hn
    · rw [if_pos rfl] at hvacant
      obtain rfl : x = none := hvacant
      exact cons_absorbs_field others hnullable depth more
    · rw [if_neg (hne name hn)] at hvacant
      obtain ⟨next, htake, hfinish⟩ := hvacancy.absorbs depth name hn more hvacant
      refine ⟨(x, next), ?_, ?_⟩
      · rw [take_other field others depth nullText more (hne name hn), htake]
        rfl
      · simp only [cons, hfinish]

theorem Orderly.cons {field : Field α} {others : Members σ ρ} {names nullables all : List String}
    (h : others.Orderly names nullables) (hname : field.name ∉ names)
    (hall : ∀ name ∈ all, name = field.name ∧ IsNullable field ∨ name ∈ nullables) :
    (cons field others).Orderly (field.name :: names) all where
  named name hn := by
    rcases hall name hn with ⟨rfl, -⟩ | hn
    · exact List.mem_cons_self
    · exact List.mem_cons_of_mem _ (h.named name hn)
  ignores := cons_ignores h
  swaps := cons_swaps h
  vacancy := cons_vacancy h hname hall

theorem isNullable_optional (name : String) (format : Format α) :
    IsNullable (Field.optional name format) :=
  ⟨none, rfl, fun _ => rfl⟩

theorem Orderly.required {others : Members σ ρ} {names nullables : List String} {name : String}
    {format : Format α} (h : others.Orderly names nullables) (hname : name ∉ names) :
    (Members.cons (.required name format) others).Orderly (name :: names) nullables :=
  h.cons hname fun _ hn => .inr hn

theorem Orderly.optional {others : Members σ ρ} {names nullables : List String} {name : String}
    {format : Format α} (h : others.Orderly names nullables) (hname : name ∉ names) :
    (Members.cons (.optional name format) others).Orderly (name :: names) (name :: nullables) := by
  apply h.cons hname
  intro other hn
  rcases List.mem_cons.1 hn with rfl | hn
  · exact .inl ⟨rfl, isNullable_optional _ format⟩
  · exact .inr hn

structure IsRevisable (members : Members σ ρ) (names nullables : List String) : Prop where
  settled : members.IsSettled
  orderly : members.Orderly names nullables

theorem IsRevisable.nil : nil.IsRevisable [] [] :=
  ⟨.nil, .nil⟩

theorem IsRevisable.required {others : Members σ ρ} {names nullables : List String} {name : String}
    {format : Format α} (hformat : format.IsSettled) (h : others.IsRevisable names nullables)
    (hname : name ∉ names) :
    (Members.cons (.required name format) others).IsRevisable (name :: names) nullables :=
  ⟨.cons hformat h.settled, h.orderly.required hname⟩

theorem IsRevisable.optional {others : Members σ ρ} {names nullables : List String} {name : String}
    {format : Format α} (hformat : format.IsSettled) (h : others.IsRevisable names nullables)
    (hname : name ∉ names) :
    (Members.cons (.optional name format) others).IsRevisable (name :: names)
      (name :: nullables) :=
  ⟨.cons hformat.nullable h.settled, h.orderly.optional hname⟩

end Members

/-- Members that say the same to whoever knows the given names: in another order or spelling, with
members of names that are not known, and with `null` for a member that may be left out. -/
inductive Revises (names nullables : List String) : List Member → List Member → Prop
  | reorder {before after : List Member}
    (h : (before.map Member.content).Perm (after.map Member.content)) :
    Revises names nullables before after
  | unknown {front back : List Member} {m : Member} (h : m.key ∉ names) :
    Revises names nullables (front ++ back) (front ++ m :: back)
  | null {front back : List Member} {m : Member} (h : m.key ∈ nullables)
    (hnull : m.value.core = nullText) (absent : ∀ other ∈ front ++ back, other.key ≠ m.key) :
    Revises names nullables (front ++ back) (front ++ m :: back)
  | trans {before between after : List Member} (first : Revises names nullables before between)
    (second : Revises names nullables between after) : Revises names nullables before after

namespace Members

variable {σ ρ : Type} {members : Members σ ρ} {names nullables : List String}

def outcome (members : Members σ ρ) (depth : Nat) (contents : List (String × List Char)) :
    Option ρ :=
  (chain (members.take depth) contents members.start).bind fun found =>
    (members.finish found).toOption

theorem outcome_perm (h : members.Orderly names nullables) (depth : Nat)
    {l more : List (String × List Char)} (hperm : l.Perm more) (hvalues : ∀ c ∈ l, IsValue c.2) :
    members.outcome depth l = members.outcome depth more := by
  rw [outcome, outcome, chain_perm hperm fun c hc d hd found =>
    h.swaps depth c d found (hvalues c hc) (hvalues d hd)]

theorem isValue_content {ms : List Member} : ∀ c ∈ ms.map Member.content, IsValue c.2 := by
  intro c hc
  obtain ⟨m, -, rfl⟩ := List.mem_map.1 hc
  exact m.isValue

theorem perm_content (front back : List Member) (m : Member) :
    ((front ++ m :: back).map Member.content).Perm
      (m.content :: (front ++ back).map Member.content) := by
  rw [← List.map_cons]
  exact List.perm_middle.map _

theorem chain_vacant {vacant : String → σ → Prop} (h : Vacancy members nullables vacant)
    {depth : Nat} {name : String} {contents : List (String × List Char)}
    (hvalues : ∀ c ∈ contents, IsValue c.2) (hkeys : ∀ c ∈ contents, c.1 ≠ name)
    {found next : σ} (hfound : vacant name found)
    (hchain : chain (members.take depth) contents found = some next) : vacant name next := by
  induction contents generalizing found with
  | nil =>
    cases hchain
    exact hfound
  | cons c contents ih =>
    obtain ⟨hc, hvalues⟩ := List.forall_mem_cons.1 hvalues
    obtain ⟨hkey, hkeys⟩ := List.forall_mem_cons.1 hkeys
    obtain ⟨behind, htake, hrest⟩ := Option.bind_eq_some_iff.1 hchain
    exact ih hvalues hkeys (h.keeps depth name c found behind hkey hc hfound htake) hrest

theorem outcome_unknown (h : members.Orderly names nullables) (depth : Nat)
    {contents : List (String × List Char)} {content : String × List Char}
    (hvalue : IsValue content.2) (hkey : content.1 ∉ names) :
    members.outcome depth (content :: contents) = members.outcome depth contents := by
  rw [outcome, chain, h.ignores depth content _ hvalue hkey]
  rfl

theorem outcome_null (h : members.Orderly names nullables) (depth : Nat)
    {contents : List (String × List Char)} (hvalues : ∀ c ∈ contents, IsValue c.2) {name : String}
    (hname : name ∈ nullables) (hkeys : ∀ c ∈ contents, c.1 ≠ name) :
    members.outcome depth ((name, nullText) :: contents) = members.outcome depth contents := by
  obtain ⟨vacant, hvacancy⟩ := h.vacancy
  have hall : ∀ c ∈ (name, nullText) :: contents, IsValue c.2 :=
    List.forall_mem_cons.2 ⟨.null, hvalues⟩
  -- taken last, the member is met where its place is still vacant
  rw [outcome_perm h depth (List.perm_append_singleton _ contents).symm hall, outcome, outcome,
    chain_append]
  cases hchain : chain (members.take depth) contents members.start with
  | none => rfl
  | some found =>
    have hvacant := chain_vacant hvacancy hvalues hkeys (hvacancy.start name hname) hchain
    obtain ⟨next, htake, hfinish⟩ := hvacancy.absorbs depth name hname found hvacant
    simp only [Option.bind_some, chain, htake, hfinish]

/-- Revised members make up the same record, or none as before. -/
theorem outcome_revises (h : members.Orderly names nullables) (depth : Nat)
    {before after : List Member} (hrevises : Revises names nullables before after) :
    members.outcome depth (after.map Member.content) =
      members.outcome depth (before.map Member.content) := by
  induction hrevises with
  | reorder hperm => exact (outcome_perm h depth hperm isValue_content).symm
  | @unknown front back m hkey =>
    rw [outcome_perm h depth (perm_content front back m) isValue_content]
    exact outcome_unknown h depth m.isValue hkey
  | @null front back m hkey hnull habsent =>
    have hcontent : m.content = (m.key, nullText) := congrArg (m.key, ·) hnull
    have hkeys : ∀ c ∈ (front ++ back).map Member.content, c.1 ≠ m.key := by
      intro c hc
      obtain ⟨other, hother, rfl⟩ := List.mem_map.1 hc
      exact habsent other hother
    rw [outcome_perm h depth (perm_content front back m) isValue_content, hcontent]
    exact outcome_null h depth isValue_content hkey hkeys
  | trans _ _ ih₁ ih₂ => exact ih₂.trans ih₁

theorem gather_members (members : Members σ ρ) (depth : Nat) (ms : List Member) (found : σ) :
    gather (readRecordMember members depth) (ms.map fun m => (m.name, m.value)) found =
      chain (members.take depth) (ms.map Member.content) found := by
  induction ms generalizing found with
  | nil => rfl
  | cons m ms ih =>
    simp only [List.map_cons, gather, nameOf_quotes m.quotes, Option.bind_some, chain]
    exact congrArg _ (funext ih)

end Members

namespace Format

variable {α σ ρ : Type} {name : String} {members : Members σ ρ} {build : ρ → α} {parts : α → ρ}

theorem skipBlanks_only (blanks : Blanks) : skipBlanks blanks.val = [] := by
  have h := skipBlanks_blanks blanks []
  rwa [List.append_nil] at h

/-- A text is read whole if only blanks are left behind what is read. -/
theorem parse_of_read {format : Format α} {chars : List Char} {o : Option α} (blanks : Blanks)
    (h : (format.read maxDepth chars).toOption = o.map (·, blanks.val)) :
    (format.parse (String.ofList chars)).toOption = o := by
  rw [parse, String.toList_ofList]
  cases hread : format.read maxDepth chars with
  | error fault =>
    rw [hread] at h
    cases o with
    | none => rfl
    | some a => cases h
  | ok x =>
    rw [hread] at h
    cases o with
    | none => cases h
    | some a =>
      obtain rfl : x = (a, blanks.val) := Option.some.inj h
      simp only [bind, Except.bind, skipBlanks_only]
      rfl

/-- How many levels may be opened inside of an object that is a whole text. -/
def innerDepth : Nat :=
  maxDepth - 1

theorem read_row (h : members.IsSettled) (depth : Nat) {ms : List (Padded × Padded)}
    (names : ∀ m ∈ ms, IsQuoted m.1.core) (values : ∀ m ∈ ms, IsValue m.2.core) (blanks : Blanks)
    {s rest : List Char} (hs : skipBlanks s = objectText blanks ms ++ rest) :
    ((Format.record name members build parts).read (depth + 1) s).toOption =
      ((gather (readRecordMember members depth) ms members.start).bind fun found =>
        (members.finish found).toOption).map fun r => (build r, rest) := by
  rw [objectText, List.cons_append, List.append_assoc, List.append_assoc] at hs
  have hread : (Format.record name members build parts).read (depth + 1) s =
      (readRecord members depth (blanks.val ++ (row (ms.map memberText) ++ '}' :: rest))).map
        fun x => (build x.1, x.2) := by
    simp only [Format.record, hs, Char.reduceEq, if_false, if_true]
    rfl
  rw [hread, toOption_map, readRecord_row h depth names values, Option.map_map]
  rfl

/-- What is read of an object is what its members make up. -/
theorem read_object (h : members.IsSettled) (depth : Nat) (ms : List Member) (blanks : Blanks)
    {s rest : List Char}
    (hs : skipBlanks s = objectText blanks (ms.map fun m => (m.name, m.value)) ++ rest) :
    ((Format.record name members build parts).read (depth + 1) s).toOption =
      (members.outcome depth (ms.map Member.content)).map fun r => (build r, rest) := by
  have names : ∀ p ∈ ms.map fun m => (m.name, m.value), IsQuoted p.1.core :=
    List.forall_mem_map.2 fun m _ => m.quotes.isQuoted
  have values : ∀ p ∈ ms.map fun m => (m.name, m.value), IsValue p.2.core :=
    List.forall_mem_map.2 fun m _ => m.isValue
  rw [read_row h depth names values blanks hs, Members.gather_members, Members.outcome]

/-- What is read of a document is what its members make up. -/
theorem parse_document (h : members.IsSettled) (d : Document) :
    ((Format.record name members build parts).parse (String.ofList d.text)).toOption =
      (members.outcome innerDepth (d.members.map Member.content)).map build := by
  apply parse_of_read d.behind
  have hs : skipBlanks d.text =
      objectText d.opening (d.members.map fun m => (m.name, m.value)) ++ d.behind.val := by
    rw [Document.text, skipBlanks_blanks, objectText, List.cons_append, skipBlanks_cons rfl]
  have hread := @read_object _ _ _ name _ build parts h innerDepth d.members d.opening d.text _ hs
  rw [Option.map_map]
  exact hread

def IsRevisable (format : Format α) (names nullables : List String) : Prop :=
  ∀ before after : Document, Revises names nullables before.members after.members →
    (format.parse (String.ofList after.text)).toOption =
      (format.parse (String.ofList before.text)).toOption

theorem IsRevisable.record {names nullables : List String}
    (h : members.IsRevisable names nullables) :
    (Format.record name members build parts).IsRevisable names nullables := by
  intro before after hrevises
  rw [parse_document h.settled, parse_document h.settled,
    Members.outcome_revises h.orderly innerDepth hrevises]

end Format

end EventStream.Json
