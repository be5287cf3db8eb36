import EventStream.Proofs.Json.Schema

/-!
Which objects and arrays a record format accepts. Each field has a rule, and the members found in an
object fall into those of the field and the others, so that the rules of the others are not
affected by what is said under the name of the field.
-/

set_option autoImplicit false

namespace EventStream.Json

variable {α σ ρ : Type}

structure Field.Obeys (field : Field α) (rule : Rule) : Prop where
  name_eq : rule.name = field.name
  takes : field.format.Takes rule.schema
  absent_isSome : field.absent.isSome = true ↔ rule.isRequired = false

section

variable {name : String} {format : Format α} {schema : Schema}

theorem Field.Obeys.required (h : format.Takes schema) :
    (Field.required name format).Obeys (.required name schema) :=
  ⟨rfl, h, iff_of_false Bool.false_ne_true Bool.false_ne_true.symm⟩

theorem Field.Obeys.optional (h : format.Takes schema) :
    (Field.optional name format).Obeys (.optional name schema) :=
  ⟨rfl, h.nullable, iff_of_true rfl rfl⟩

theorem Field.Obeys.withDefault {default : α} (h : format.Takes schema) :
    (Field.withDefault name format default).Obeys ⟨name, false, schema⟩ :=
  ⟨rfl, h, iff_of_true rfl rfl⟩

end

theorem valuesOf_cons_self (name : String) (v : List Char) (contents : List (String × List Char)) :
    valuesOf name ((name, v) :: contents) = v :: valuesOf name contents := by
  rw [valuesOf, List.filter_cons_of_pos (by simp), List.map_cons, valuesOf]

theorem valuesOf_cons_of_ne {name key : String} (h : key ≠ name) (v : List Char)
    (contents : List (String × List Char)) :
    valuesOf name ((key, v) :: contents) = valuesOf name contents := by
  rw [valuesOf, List.filter_cons_of_neg (by simpa using h), valuesOf]

theorem fills_cons {depth : Nat} {rule : Rule} {rules : List Rule} {v : List Char}
    {values : List (List Char)} :
    Fills depth (rule :: rules) (v :: values) ↔ rule.schema depth v ∧ Fills depth rules values := by
  constructor
  · rintro ⟨⟩
    exact ⟨‹_›, ‹_›⟩
  · rintro ⟨h, hothers⟩
    exact .value h hothers

/-- What a field takes of the values of its name: one of them at most. -/
def onlyOf (read : List Char → Except Fault (α × List Char)) :
    Option α → List (List Char) → Option (Option α)
  | found, [] => some found
  | none, v :: values => (valueOf read v).bind fun a => onlyOf read (some a) values
  | some _, _ :: _ => none

namespace Members

/-- The members are read of just the objects and arrays in which the rules are met. -/
structure Obeys (members : Members σ ρ) (rules : List Rule) : Prop where
  settled : members.IsSettled
  ignores : ∀ (depth : Nat) (content : String × List Char) (found : σ), IsValue content.2 →
    (∀ rule ∈ rules, rule.name ≠ content.1) → members.take depth content found = some found
  outcome_isSome : ∀ {depth : Nat} {contents : List (String × List Char)},
    (∀ c ∈ contents, IsValue c.2) →
      ((members.outcome depth contents).isSome = true ↔ ∀ rule ∈ rules, rule.Met depth contents)
  readLast_isSome : ∀ {depth : Nat} {expected : String} {index : Nat} {first : Bool}
    {items : List Padded} (blanks : Blanks) (rest : List Char), (∀ p ∈ items, IsValue p.core) →
      ((members.readLast depth expected index first
        (blanks.val ++ itemsText first items rest)).toOption.isSome = true ↔
          Fills depth rules (items.map Padded.core))

theorem Obeys.nil : nil.Obeys [] where
  settled := .nil
  ignores depth content found h _ := take_nil h depth
  outcome_isSome {depth contents} hvalues := by
    have hchain : chain (Members.nil.take depth) contents () = some () := by
      induction contents with
      | nil => rfl
      | cons c contents ih =>
        obtain ⟨hc, hvalues⟩ := List.forall_mem_cons.1 hvalues
        rw [chain, take_nil hc]
        exact ih hvalues
    have houtcome : Members.nil.outcome depth contents = some () := by
      rw [outcome]
      change (chain (Members.nil.take depth) contents ()).bind _ = _
      rw [hchain]
      rfl
    rw [houtcome]
    exact iff_of_true rfl (List.forall_mem_nil _)
  readLast_isSome {depth expected index first items} blanks rest hitems := by
    have hread : ∀ s, Members.nil.readLast depth expected index first s =
        readListEnd s >>= fun rest => pure ((), rest) := fun s => rfl
    cases items with
    | nil =>
      rw [hread, readListEnd_nil]
      exact iff_of_true rfl .nil
    | cons p items =>
      obtain ⟨fault, hfault⟩ :=
        readListEnd_cons (hitems p List.mem_cons_self) first items blanks rest
      rw [hread, hfault]
      exact iff_of_false Bool.false_ne_true fun h => by cases h

section cons

variable {field : Field α} {others : Members σ ρ} {rule : Rule} {rules : List Rule}

/-- What is taken for a field and for the others does not depend on how their members mix. -/
theorem chain_cons {depth : Nat} {contents : List (String × List Char)}
    (hignores : ∀ (v : List Char) (found : σ), IsValue v →
      others.take depth (field.name, v) found = some found)
    (hvalues : ∀ c ∈ contents, IsValue c.2) (x : Option α) (more : σ) :
    chain ((cons field others).take depth) contents (x, more) =
      (onlyOf (field.format.read depth) x (valuesOf field.name contents)).bind fun y =>
        (chain (others.take depth) contents more).map (y, ·) := by
  induction contents generalizing x more with
  | nil => cases x <;> rfl
  | cons c contents ih =>
    obtain ⟨hc, hrest⟩ := List.forall_mem_cons.1 hvalues
    obtain ⟨key, v⟩ := c
    rw [chain, chain]
    by_cases hkey : key = field.name
    · subst hkey
      rw [valuesOf_cons_self, hignores v more hc]
      cases x with
      | some a =>
        rw [take_twice]
        rfl
      | none =>
        rw [take_field, onlyOf]
        cases valueOf (field.format.read depth) v with
        | none => rfl
        | some a => exact ih hrest (some a) more
    · rw [valuesOf_cons_of_ne hkey, take_other field others depth v more hkey]
      cases others.take depth (key, v) more with
      | none => cases onlyOf (field.format.read depth) x (valuesOf field.name contents) <;> rfl
      | some next => exact ih hrest x next

theorem finish_cons_isSome {y : Option α} {found : σ} :
    ((cons field others).finish (y, found)).toOption.isSome = true ↔
      (y <|> field.absent).isSome = true ∧ (others.finish found).toOption.isSome = true := by
  simp only [cons]
  cases y <|> field.absent with
  | none => exact iff_of_false Bool.false_ne_true fun h => Bool.false_ne_true h.1
  | some a =>
    rw [toOption_map, Option.isSome_map]
    exact (and_iff_right rfl).symm

theorem outcome_cons_isSome {depth : Nat} {contents : List (String × List Char)}
    (hignores : ∀ (v : List Char) (found : σ), IsValue v →
      others.take depth (field.name, v) found = some found)
    (hvalues : ∀ c ∈ contents, IsValue c.2) :
    ((cons field others).outcome depth contents).isSome = true ↔
      (∃ y, onlyOf (field.format.read depth) none (valuesOf field.name contents) = some y ∧
        (y <|> field.absent).isSome = true) ∧ (others.outcome depth contents).isSome = true := by
  rw [outcome, outcome, show (cons field others).start = (none, others.start) from rfl,
    chain_cons hignores hvalues]
  cases onlyOf (field.format.read depth) none (valuesOf field.name contents) with
  | none => simp
  | some y =>
    cases chain (others.take depth) contents others.start with
    | none => simp
    | some found =>
      simp only [Option.bind_some, Option.map_some, finish_cons_isSome, Option.some.injEq,
        exists_eq_left']

theorem met_iff (h : field.Obeys rule) {depth : Nat} {contents : List (String × List Char)}
    (hvalues : ∀ c ∈ contents, IsValue c.2) :
    rule.Met depth contents ↔
      ∃ y, onlyOf (field.format.read depth) none (valuesOf field.name contents) = some y ∧
        (y <|> field.absent).isSome = true := by
  have hall : ∀ v ∈ valuesOf rule.name contents, IsValue v := by
    intro v hv
    obtain ⟨c, hc, rfl⟩ := List.mem_map.1 hv
    exact hvalues c (List.mem_of_mem_filter hc)
  rw [← h.name_eq]
  constructor
  · rintro (⟨hnone, hrequired⟩ | ⟨hone, hschema⟩)
    · rw [hnone]
      exact ⟨none, rfl, h.absent_isSome.2 hrequired⟩
    · rw [hone] at hall ⊢
      have hsome := (h.takes.isSome_iff (hall _ List.mem_cons_self)).2 hschema
      obtain ⟨a, ha⟩ := Option.isSome_iff_exists.1 hsome
      rw [onlyOf, ha]
      exact ⟨some a, rfl, rfl⟩
  · rintro ⟨y, hy, hsome⟩
    cases hof : valuesOf rule.name contents with
    | nil =>
      rw [hof] at hy
      cases hy
      exact .absent hof (h.absent_isSome.1 hsome)
    | cons v values =>
      rw [hof, onlyOf] at hy
      obtain ⟨a, ha, hmore⟩ := Option.bind_eq_some_iff.1 hy
      cases values with
      | nil =>
        rw [hof] at hall
        exact .once hof ((h.takes.isSome_iff (hall v List.mem_cons_self)).1 (ha ▸ rfl))
      | cons w values => cases hmore

theorem readLast_cons_isSome (hfield : field.Obeys rule) (h : others.Obeys rules) {depth : Nat}
    {expected : String} {index : Nat} {first : Bool} {items : List Padded} (blanks : Blanks)
    (rest : List Char) (hitems : ∀ p ∈ items, IsValue p.core) :
    ((cons field others).readLast depth expected index first
      (blanks.val ++ itemsText first items rest)).toOption.isSome = true ↔
        Fills depth (rule :: rules) (items.map Padded.core) := by
  cases items with
  | nil =>
    have hnext : nextElement first (blanks.val ++ itemsText first [] rest) = .ok (.close rest) := by
      rw [itemsText_nil, nextElement_blanks]
    cases habsent : field.absent with
    | none =>
      have hread : (cons field others).readLast depth expected index first
          (blanks.val ++ itemsText first [] rest) =
            .error (.behind (.invalidLength index expected) rest) := by
        simp only [readLast, cons, hnext, habsent, bind, Except.bind]
        rfl
      rw [hread]
      refine iff_of_false Bool.false_ne_true fun hfills => ?_
      cases hfills with
      | absent hrequired =>
        have hsome := hfield.absent_isSome.2 hrequired
        rw [habsent] at hsome
        cases hsome
    | some a =>
      rw [readLast_absent hnext habsent, toOption_map, Option.isSome_map,
        h.readLast_isSome blanks rest hitems]
      constructor
      · exact .absent (hfield.absent_isSome.1 (habsent ▸ rfl))
      · rintro (_ | _ | ⟨-, hothers⟩)
        exact hothers
  | cons p items =>
    obtain ⟨hp, hrest⟩ := List.forall_mem_cons.1 hitems
    have hends : Ends (p.behind.val ++ itemsText false items rest) :=
      ends_rowEnd (.inl rfl) p.behind (items.map Padded.text) rest
    have hvalue := (hfield.takes.settled depth p.core hp).eq_valueOf hp
      (hp.skipBlanks_append _) hends
    rw [readLast_more (nextElement_items hp first items blanks rest), toOption_bind, hvalue,
      List.map_cons, fills_cons, ← hfield.takes.isSome_iff hp]
    cases valueOf (field.format.read depth) p.core with
    | none => exact iff_of_false Bool.false_ne_true fun h => Bool.false_ne_true h.1
    | some a =>
      rw [Option.map_some, Option.bind_some, toOption_map, Option.isSome_map,
        h.readLast_isSome p.behind rest hrest]
      exact (and_iff_right rfl).symm

theorem Obeys.cons (hfield : field.Obeys rule) (h : others.Obeys rules)
    (hname : ∀ other ∈ rules, other.name ≠ field.name) :
    (Members.cons field others).Obeys (rule :: rules) where
  settled := .cons hfield.takes.settled h.settled
  ignores depth content found hv hkey := by
    obtain ⟨key, v⟩ := content
    obtain ⟨x, more⟩ := found
    obtain ⟨hne, hothers⟩ := List.forall_mem_cons.1 hkey
    have hfieldkey : key ≠ field.name := fun he => hne (hfield.name_eq.trans he.symm)
    rw [take_other field others depth v more hfieldkey, h.ignores depth (key, v) more hv hothers]
    rfl
  outcome_isSome {depth contents} hvalues := by
    have hignores : ∀ (v : List Char) (found : σ), IsValue v →
        others.take depth (field.name, v) found = some found := fun v found hv =>
      h.ignores depth (field.name, v) found hv hname
    rw [outcome_cons_isSome hignores hvalues, ← met_iff hfield hvalues, h.outcome_isSome hvalues,
      List.forall_mem_cons]
  readLast_isSome blanks rest hitems := readLast_cons_isSome hfield h blanks rest hitems

end cons

end Members

theorem exists_members {member : String → σ → List Char → Except Fault (σ × List Char)}
    {ms : List (Padded × Padded)} (names : ∀ m ∈ ms, IsQuoted m.1.core)
    (values : ∀ m ∈ ms, IsValue m.2.core) {found next : σ} (h : gather member ms found = some next) :
    ∃ members : List Member, ms = members.map fun m => (m.name, m.value) := by
  induction ms generalizing found with
  | nil => exact ⟨[], rfl⟩
  | cons m ms ih =>
    obtain ⟨hname, names⟩ := List.forall_mem_cons.1 names
    obtain ⟨hvalue, values⟩ := List.forall_mem_cons.1 values
    obtain ⟨key, hkey, hmore⟩ := Option.bind_eq_some_iff.1 h
    obtain ⟨behind, -, hrest⟩ := Option.bind_eq_some_iff.1 hmore
    obtain ⟨members, rfl⟩ := ih names values hrest
    exact ⟨⟨m.1, m.2, key, quotes_of_nameOf hname hkey, hvalue⟩ :: members, rfl⟩

namespace Format

section record

variable {name : String} {members : Members σ ρ} {build : ρ → α} {parts : α → ρ}
  {rules : List Rule}

theorem valueOf_record_array (h : members.Obeys rules) {items : List Padded}
    (hitems : ∀ p ∈ items, IsValue p.core) (depth : Nat) (blanks : Blanks) :
    (valueOf ((Format.record name members build parts).read (depth + 1))
      (arrayText blanks items)).isSome = true ↔ Fills depth rules (items.map Padded.core) := by
  have hread : (Format.record name members build parts).read (depth + 1) (arrayText blanks items) =
      (members.readLast depth (recordLength name members.count) 0 true
        (blanks.val ++ itemsText true items [])).map fun x => (build x.1, x.2) := rfl
  rw [valueOf, hread, toOption_map, Option.isSome_map, Option.isSome_map]
  exact h.readLast_isSome blanks [] hitems

theorem valueOf_record_object (h : members.Obeys rules) (ms : List Member) (depth : Nat)
    (blanks : Blanks) :
    (valueOf ((Format.record name members build parts).read (depth + 1))
      (objectText blanks (ms.map fun m => (m.name, m.value)))).isSome = true ↔
        ∀ rule ∈ rules, rule.Met depth (ms.map Member.content) := by
  have hvalue : IsValue (objectText blanks (ms.map fun m => (m.name, m.value))) :=
    .object blanks (List.forall_mem_map.2 fun m _ => m.quotes.isQuoted)
      (List.forall_mem_map.2 fun m _ => m.isValue)
  have hread := @read_object _ _ _ name _ build parts h.settled depth ms blanks _ _
    hvalue.skipBlanks_self
  rw [valueOf, hread, Option.isSome_map, Option.isSome_map]
  exact h.outcome_isSome Members.isValue_content

/-- A record is read of just the objects in which each member is as its rule says, and of the arrays
of its members in order. -/
theorem Takes.record (h : members.Obeys rules) :
    (Format.record name members build parts).Takes (.Record rules) where
  settled := .record h.settled
  isSome_iff {depth v} hv := by
    constructor
    · intro hsome
      obtain ⟨c, more, hc, -⟩ := hv.head
      by_cases hlist : c = '['
      · subst hlist
        obtain ⟨blanks, items, rfl, hitems⟩ := hv.of_bracket hc
        cases depth with
        | zero => cases hsome
        | succ depth => exact .array hitems ((valueOf_record_array h hitems depth blanks).1 hsome)
      by_cases hopen : c = '{'
      · subst hopen
        obtain ⟨blanks, ms, rfl, names, values⟩ := hv.of_brace hc
        cases depth with
        | zero => cases hsome
        | succ depth =>
          have hread := @read_row _ _ _ name _ build parts h.settled depth ms names values blanks _ _
            hv.skipBlanks_self
          obtain ⟨found, hfound⟩ : ∃ found,
              gather (readRecordMember members depth) ms members.start = some found := by
            rw [valueOf, hread, Option.isSome_map, Option.isSome_map] at hsome
            exact Option.isSome_iff_exists.1 (Option.isSome_of_isSome_bind hsome)
          obtain ⟨told, rfl⟩ := exists_members names values hfound
          exact .object ((valueOf_record_object h told depth blanks).1 hsome)
      · have hread : (Format.record name members build parts).read depth v =
            .error (mismatch ("struct " ++ name) (c :: more)) := by
          simp only [Format.record, hv.skipBlanks_eq hc, if_neg hlist, if_neg hopen]
          rfl
        exact absurd hsome (valueOf_fault hread)
    · intro hrecord
      cases hrecord with
      | object hmet => exact (valueOf_record_object h _ _ _).2 hmet
      | array hitems hfills => exact (valueOf_record_array h hitems _ _).2 hfills

end record

/-- A text is read whole if and only if its value is in order by the schema. -/
theorem Takes.parse {format : Format α} {schema : Schema} (h : format.Takes schema) {p : Padded}
    (hp : IsValue p.core) :
    (∃ a, format.parse (String.ofList p.text) = .ok a) ↔ schema maxDepth p.core := by
  have htext := hp.skipBlanks_text []
  rw [List.append_nil, List.append_nil] at htext
  have hends : Ends [] := nofun
  have hbehind := ends_blanks p.behind hends
  rw [List.append_nil] at hbehind
  have hread := (h.settled maxDepth p.core hp).eq_valueOf hp htext hbehind
  have hparse := parse_of_read p.behind hread
  rw [← h.isSome_iff hp, ← hparse]
  cases format.parse (String.ofList p.text) with
  | ok a => exact iff_of_true ⟨a, rfl⟩ rfl
  | error error => exact iff_of_false (fun ⟨_, h⟩ => by cases h) Bool.false_ne_true

end Format

end EventStream.Json
