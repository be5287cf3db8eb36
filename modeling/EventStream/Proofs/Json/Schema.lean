import EventStream.Proofs.Json.Revision

/-!
Which texts a format accepts, told by the grammar. A schema tells it without a reader, and for each
way to make a format there is a schema and a lemma that the format reads just the values in order by
it: members that are required are there, none of those that are known is there twice, and every
value is one of its type.
-/

set_option autoImplicit false

namespace EventStream.Json

/-- Which texts of values are in order, where so many levels may be opened in them. -/
abbrev Schema := Nat → List Char → Prop

def Schema.orNull (schema : Schema) : Schema :=
  fun depth v => v = nullText ∨ schema depth v

structure Rule where
  name : String
  isRequired : Bool
  schema : Schema

def Rule.required (name : String) (schema : Schema) : Rule :=
  ⟨name, true, schema⟩

/-- A member that may be left out may as well be `null`. -/
def Rule.optional (name : String) (schema : Schema) : Rule :=
  ⟨name, false, schema.orNull⟩

def valuesOf (name : String) (contents : List (String × List Char)) : List (List Char) :=
  (contents.filter (·.1 = name)).map Prod.snd

/-- There is one member of the name, or none if it may be left out. -/
inductive Rule.Met (rule : Rule) (depth : Nat) (contents : List (String × List Char)) : Prop
  | absent (none : valuesOf rule.name contents = []) (h : rule.isRequired = false)
  | once {v : List Char} (one : valuesOf rule.name contents = [v]) (h : rule.schema depth v)

/-- The elements of an array are the values of the members in order. The last of them may be
missing. -/
inductive Fills (depth : Nat) : List Rule → List (List Char) → Prop
  | nil : Fills depth [] []
  | value {rule : Rule} {rules : List Rule} {v : List Char} {values : List (List Char)}
    (h : rule.schema depth v) (others : Fills depth rules values) :
    Fills depth (rule :: rules) (v :: values)
  | absent {rule : Rule} {rules : List Rule} (h : rule.isRequired = false)
    (others : Fills depth rules []) : Fills depth (rule :: rules) []

/-- The name of a variant stands alone, or with `null` as the only member of an object. -/
inductive NamesVariant : Nat → List Char → String → Prop
  | quoted {depth : Nat} {v : List Char} {name : String} (h : Quotes v name) :
    NamesVariant depth v name
  | object {depth : Nat} {blanks : Blanks} {m : Member} (null : m.value.core = nullText) :
    NamesVariant (depth + 1) (objectText blanks [(m.name, m.value)]) m.key

namespace Schema

def text : Schema :=
  fun _ v => ∃ t, Quotes v t

def flag : Schema :=
  fun _ v => v = trueText ∨ v = falseText

def integer (least greatest : Int) : Schema :=
  fun _ v => IsNumeral v ∧ ∃ n, valueOf readNumber v = some (.int n) ∧ least ≤ n ∧ n ≤ greatest

def anything : Schema :=
  fun depth v => (valueOf (readValue depth) v).isSome = true

def oneOf (names : String → Prop) : Schema :=
  fun depth v => ∃ name, NamesVariant depth v name ∧ names name

inductive ListOf (schema : Schema) : Schema
  | array {depth : Nat} {blanks : Blanks} {items : List Padded}
    (values : ∀ p ∈ items, IsValue p.core) (h : ∀ p ∈ items, schema depth p.core) :
    ListOf schema (depth + 1) (arrayText blanks items)

inductive Record (rules : List Rule) : Schema
  | object {depth : Nat} {blanks : Blanks} {members : List Member}
    (h : ∀ rule ∈ rules, rule.Met depth (members.map Member.content)) :
    Record rules (depth + 1) (objectText blanks (members.map fun m => (m.name, m.value)))
  | array {depth : Nat} {blanks : Blanks} {items : List Padded}
    (values : ∀ p ∈ items, IsValue p.core) (h : Fills depth rules (items.map Padded.core)) :
    Record rules (depth + 1) (arrayText blanks items)

end Schema

/-- The second half of a pair is the unit that comes next. -/
theorem exists_trailing {m : Nat} {s rest behind : List Char} {e : Char} (h : Inside s)
    (hread : readTrailing m (s ++ '"' :: rest) = .ok (e, behind)) :
    ∃ (digits t : List Char) (n : Nat), s = '\\' :: 'u' :: (digits ++ t) ∧ NamesUnit digits n ∧
      isTrailing n = true ∧ Inside t ∧ behind = t ++ '"' :: rest := by
  cases h with
  | nil => cases hread
  | plain h _ =>
    simp only [List.cons_append, readTrailing, if_pos h.ne_backslash] at hread
    cases hread
  | @escape c e s h _ =>
    have hc : c ≠ 'u' := by
      rintro rfl
      rw [simpleEscape?_u] at h
      cases h
    simp only [List.cons_append, readTrailing, ne_eq, not_true, if_false, if_pos hc] at hread
    cases hread
  | @unit digits s n h more =>
    rw [List.cons_append, List.cons_append, List.append_assoc, readTrailing_unit h] at hread
    by_cases htrailing : isTrailing n = true
    · rw [if_pos htrailing] at hread
      have hbehind := congrArg Prod.snd (Except.ok.inj hread)
      exact ⟨digits, s, n, rfl, h, htrailing, more, hbehind.symm⟩
    · rw [if_neg htrailing] at hread
      cases hread

/-- Quoted characters that can be read spell something. -/
theorem exists_spells {s : List Char} (h : Inside s) {found rest : List Char}
    (hread : (readCharsFrom found (s ++ '"' :: rest)).isOk = true) : ∃ t, Spells s t := by
  -- a pair of surrogates takes up two units at once, so the induction is on the length
  induction hn : s.length using Nat.strongRecOn generalizing s found with
  | _ n ih =>
    subst hn
    cases h with
    | nil => exact ⟨[], .nil⟩
    | plain hc more =>
      rw [List.cons_append, readCharsFrom_plain hc] at hread
      obtain ⟨t, ht⟩ := ih _ (Nat.lt_succ_self _) more hread rfl
      exact ⟨_, .plain hc ht⟩
    | escape hc more =>
      rw [List.cons_append, List.cons_append, readCharsFrom_simple hc] at hread
      obtain ⟨t, ht⟩ := ih _ (by simp only [List.length_cons]; omega) more hread rfl
      exact ⟨_, .escape hc ht⟩
    | @unit digits s n hdigits more =>
      rw [List.cons_append, List.cons_append, List.append_assoc] at hread
      have hescape := readEscape_unit hdigits (s ++ '"' :: rest)
      by_cases htrailing : isTrailing n = true
      · rw [if_pos htrailing] at hescape
        rw [readCharsFrom_fault hescape] at hread
        cases hread
      rw [if_neg htrailing] at hescape
      by_cases hleading : isLeading n = true
      · rw [if_pos hleading] at hescape
        cases hpair : readTrailing n (s ++ '"' :: rest) with
        | error fault =>
          rw [hpair] at hescape
          rw [readCharsFrom_fault hescape] at hread
          cases hread
        | ok x =>
          obtain ⟨low, t, m, rfl, hlow, hlast, ht, hbehind⟩ := exists_trailing more hpair
          rw [readCharsFrom_escape (hescape.trans hpair), hbehind] at hread
          obtain ⟨text, htext⟩ := ih t.length
            (by simp only [List.length_cons, List.length_append]; omega) ht hread rfl
          exact ⟨_, .pair hdigits hlow hleading hlast htext⟩
      · rw [if_neg hleading] at hescape
        rw [readCharsFrom_escape hescape] at hread
        obtain ⟨t, ht⟩ := ih s.length
          (by simp only [List.length_cons, List.length_append]; omega) more hread rfl
        exact ⟨_, .unit hdigits (Bool.eq_false_iff.2 hleading) (Bool.eq_false_iff.2 htrailing) ht⟩

theorem quotes_of_nameOf {core : List Char} {name : String} (h : IsQuoted core)
    (hname : nameOf core = some name) : Quotes core name := by
  obtain ⟨inside, rfl, hinside⟩ := h.exists_inside
  have hread := readString_quoted hinside []
  rw [hname, readString, toOption_bind] at hread
  obtain ⟨x, hx, -⟩ := Option.bind_eq_some_iff.1 hread
  have hok : (readCharsFrom [] (inside ++ '"' :: [])).isOk = true := by
    cases hchars : readCharsFrom [] (inside ++ '"' :: []) with
    | ok x => rfl
    | error fault =>
      rw [hchars] at hx
      cases hx
  obtain ⟨t, ht⟩ := exists_spells hinside hok
  have hquotes : Quotes (quoted inside) (String.ofList t) :=
    .quoted (by rwa [String.toList_ofList])
  rw [nameOf_quotes hquotes] at hname
  cases hname
  exact hquotes

theorem nameOf_eq_some {core : List Char} {name : String} (h : IsQuoted core) :
    nameOf core = some name ↔ Quotes core name :=
  ⟨quotes_of_nameOf h, nameOf_quotes⟩

theorem IsValue.skipBlanks_eq {v more : List Char} {c : Char} (h : IsValue v) (hv : v = c :: more) :
    skipBlanks v = c :: more := by
  rw [h.skipBlanks_self, List.append_nil, hv]

namespace Format

variable {α β : Type}

/-- The format makes something of just the values that are in order by the schema. -/
structure Takes (format : Format α) (schema : Schema) : Prop where
  settled : format.IsSettled
  isSome_iff {depth : Nat} {v : List Char} (h : IsValue v) :
    (valueOf (format.read depth) v).isSome = true ↔ schema depth v

theorem valueOf_fault {format : Format α} {depth : Nat} {v : List Char} {fault : Fault}
    (h : format.read depth v = .error fault) :
    ¬ (valueOf (format.read depth) v).isSome = true := by
  rw [valueOf, h]
  exact Bool.false_ne_true

theorem Takes.any : any.Takes .anything :=
  ⟨.any, fun _ => Iff.rfl⟩

theorem valueOf_string {v : List Char} (h : IsQuoted v) (depth : Nat) :
    valueOf (Format.string.read depth) v = nameOf v := by
  obtain ⟨inside, rfl, -⟩ := h.exists_inside
  rfl

theorem Takes.string : Format.string.Takes .text where
  settled := .string
  isSome_iff {depth v} h := by
    obtain ⟨c, more, hv, -⟩ := h.head
    by_cases hc : c = '"'
    · subst hc
      have hquoted := h.of_quote hv
      rw [valueOf_string hquoted, Option.isSome_iff_exists]
      exact exists_congr fun t => nameOf_eq_some hquoted
    · have hread : Format.string.read depth v = .error (mismatch "a string" (c :: more)) := by
        simp only [Format.string, h.skipBlanks_eq hv, if_neg hc]
      exact iff_of_false (valueOf_fault hread) fun ⟨t, ht⟩ => ht.isQuoted.ne_cons hc hv

theorem Takes.bool : Format.bool.Takes .flag where
  settled := .bool
  isSome_iff {depth v} h := by
    obtain ⟨c, more, hv, -⟩ := h.head
    by_cases ht : c = 't'
    · subst ht
      obtain rfl := h.of_t hv
      exact iff_of_true rfl (.inl rfl)
    by_cases hf : c = 'f'
    · subst hf
      obtain rfl := h.of_f hv
      exact iff_of_true rfl (.inr rfl)
    · have hread : Format.bool.read depth v = .error (mismatch "a boolean" (c :: more)) := by
        simp only [Format.bool, h.skipBlanks_eq hv, if_neg ht, if_neg hf]
      refine iff_of_false (valueOf_fault hread) ?_
      rintro (rfl | rfl) <;> cases hv
      · exact ht rfl
      · exact hf rfl

theorem valueOf_map {read : List Char → Except Fault (β × List Char)} {format : Format α}
    {depth : Nat} {v : List Char} {f : α → β}
    (h : read v = (format.read depth v).map fun x => (f x.1, x.2)) :
    valueOf read v = (valueOf (format.read depth) v).map f := by
  rw [valueOf, h, toOption_map, valueOf, Option.map_map, Option.map_map]
  rfl

theorem Takes.map {format : Format α} {schema : Schema} (h : format.Takes schema) (build : α → β)
    (parts : β → α) : (format.map build parts).Takes schema where
  settled := h.settled.map build parts
  isSome_iff {depth v} hv := by
    have hvalue : valueOf ((format.map build parts).read depth) v =
        (valueOf (format.read depth) v).map build := valueOf_map rfl
    rw [hvalue, Option.isSome_map]
    exact h.isSome_iff hv

theorem Takes.nullable {format : Format α} {schema : Schema} (h : format.Takes schema) :
    format.nullable.Takes schema.orNull where
  settled := h.settled.nullable
  isSome_iff {depth v} hv := by
    obtain ⟨c, more, hc, -⟩ := hv.head
    by_cases hn : c = 'n'
    · subst hn
      obtain rfl := hv.of_n hc
      exact iff_of_true rfl (.inl rfl)
    · have hread : format.nullable.read depth v =
          (format.read depth v).map fun x => (some x.1, x.2) := by
        simp only [Format.nullable, hv.skipBlanks_eq hc, if_neg hn]
        rw [hc]
      have hne : v ≠ nullText := by
        rintro rfl
        cases hc
        exact hn rfl
      rw [valueOf_map hread, Option.isSome_map, h.isSome_iff hv, Schema.orNull, or_iff_right hne]

theorem valueOf_int {range : Range} {v : List Char} (h : IsNumeral v) (depth : Nat) :
    valueOf ((Format.int range).read depth) v =
      (valueOf readNumber v).bind fun n => (inRange range n []).toOption.map Prod.fst := by
  obtain ⟨c, more, hv, hc⟩ := h.head
  have hopens : c = '-' ∨ isDigit c = true := hc
  have hread : (Format.int range).read depth v =
      readNumber v >>= fun x => inRange range x.1 x.2 := by
    simp only [Format.int, (IsValue.numeral h).skipBlanks_eq hv, if_pos hopens]
    rw [hv]
    refine congrArg (readNumber _ >>= ·) (funext fun x => ?_)
    obtain ⟨n, rest⟩ := x
    cases n <;> rfl
  obtain ⟨o, ho⟩ := readNumber_steady h
  have hends : Ends [] := nofun
  have hnumber : (readNumber (v ++ [])).toOption = o.map (·, []) := ho [] hends
  rw [List.append_nil] at hnumber
  rw [valueOf, hread, toOption_bind, valueOf, hnumber]
  cases o <;> rfl

theorem inRange_isSome {range : Range} {n : Number} :
    ((inRange range n []).toOption.map Prod.fst).isSome = true ↔
      ∃ m, n = .int m ∧ range.least ≤ m ∧ m ≤ range.greatest := by
  cases n with
  | real x => exact iff_of_false Bool.false_ne_true fun ⟨_, h, _⟩ => by cases h
  | int m =>
    by_cases h : range.least ≤ m ∧ m ≤ range.greatest
    · rw [inRange, dif_pos h]
      exact iff_of_true rfl ⟨m, rfl, h⟩
    · rw [inRange, dif_neg h]
      refine iff_of_false Bool.false_ne_true fun ⟨_, hm, hrange⟩ => ?_
      cases hm
      exact h hrange

theorem Takes.int (range : Range) :
    (Format.int range).Takes (.integer range.least range.greatest) where
  settled := .int range
  isSome_iff {depth v} h := by
    obtain ⟨c, more, hv, -⟩ := h.head
    by_cases hc : OpensNumber c
    · have hnumeral := h.of_opensNumber hv hc
      rw [valueOf_int hnumeral, Schema.integer, and_iff_right hnumeral]
      cases valueOf readNumber v with
      | none => simp
      | some n => simpa using inRange_isSome
    · have hopens : ¬ (c = '-' ∨ isDigit c = true) := hc
      have hread : (Format.int range).read depth v = .error (mismatch range.name (c :: more)) := by
        simp only [Format.int, h.skipBlanks_eq hv, if_neg hopens]
      refine iff_of_false (valueOf_fault hread) fun ⟨hnumeral, _⟩ => hc ?_
      obtain ⟨d, rest, hd, hopen⟩ := hnumeral.head
      cases hv.symm.trans hd
      exact hopen

theorem Takes.int64 :
    Format.int64.Takes (.integer (-0x8000000000000000) 0x7FFFFFFFFFFFFFFF) :=
  .map (.int _) _ _

theorem elementsOf_isSome {element : List Char → Except Fault (α × List Char)}
    {items : List Padded} :
    (elementsOf element items).isSome = true ↔
      ∀ p ∈ items, (valueOf element p.core).isSome = true := by
  induction items with
  | nil => exact iff_of_true rfl (List.forall_mem_nil _)
  | cons p items ih =>
    rw [List.forall_mem_cons, elementsOf, ← ih]
    cases valueOf element p.core with
    | none => simp
    | some a => simp

theorem valueOf_list {format : Format α} {schema : Schema} (h : format.Takes schema)
    {items : List Padded} (hitems : ∀ p ∈ items, IsValue p.core) (depth : Nat) (blanks : Blanks) :
    (valueOf (format.list.read (depth + 1)) (arrayText blanks items)).isSome = true ↔
      ∀ p ∈ items, schema depth p.core := by
  have hread := readElements_row hitems (fun p hp => h.settled depth p.core (hitems p hp)) blanks []
  have hvalue : valueOf (format.list.read (depth + 1)) (arrayText blanks items) =
      elementsOf (format.read depth) items := by
    change (readElements (format.read depth) _).toOption.map Prod.fst = _
    rw [hread]
    cases elementsOf (format.read depth) items <;> rfl
  rw [hvalue, elementsOf_isSome]
  exact forall₂_congr fun p hp => h.isSome_iff (hitems p hp)

theorem Takes.list {format : Format α} {schema : Schema} (h : format.Takes schema) :
    format.list.Takes (.ListOf schema) where
  settled := h.settled.list
  isSome_iff {depth v} hv := by
    constructor
    · intro hsome
      obtain ⟨c, more, hc, -⟩ := hv.head
      by_cases hopen : c = '['
      · subst hopen
        obtain ⟨blanks, items, rfl, hitems⟩ := hv.of_bracket hc
        cases depth with
        | zero => cases hsome
        | succ depth => exact .array hitems ((valueOf_list h hitems depth blanks).1 hsome)
      · have hread : format.list.read depth v = .error (mismatch "a sequence" (c :: more)) := by
          simp only [Format.list, hv.skipBlanks_eq hc, if_neg hopen]
        exact absurd hsome (valueOf_fault hread)
    · rintro ⟨hitems, hschema⟩
      exact (valueOf_list h hitems _ _).2 hschema

section choice

variable {all : List α} {label : α → String} {other : Option α}

theorem variant?_isSome {name : String} :
    (variant? all label other name).isSome = true ↔
      name ∈ all.map label ∨ other.isSome = true := by
  rw [variant?, Option.isSome_or, Bool.or_eq_true, List.find?_isSome, List.mem_map]
  simp only [beq_iff_eq]

theorem valueOf_choice_quoted {v : List Char} (h : IsQuoted v) (depth : Nat) :
    valueOf ((Format.choice all label other).read depth) v =
      (nameOf v).bind (variant? all label other) := by
  obtain ⟨inside, rfl, hinside⟩ := h.exists_inside
  have hread : (Format.choice all label other).read depth (quoted inside) =
      readString (inside ++ '"' :: []) >>= fun x =>
        pickVariant all label other x.1 x.2 >>= fun a => pure (a, x.2) := rfl
  rw [valueOf, hread, toOption_bind, readString_quoted hinside]
  cases nameOf (quoted inside) with
  | none => rfl
  | some name =>
    simp only [Option.map_some, Option.bind_some, toOption_bind, pickVariant_toOption]
    cases variant? all label other name <;> rfl

theorem valueOf_choice_object {members : List (Padded × Padded)}
    (names : ∀ m ∈ members, IsQuoted m.1.core) (values : ∀ m ∈ members, IsValue m.2.core)
    (depth : Nat) (blanks : Blanks) :
    valueOf ((Format.choice all label other).read (depth + 1)) (objectText blanks members) =
      variantOf all label other members := by
  have hread := readVariant_row all label other names values blanks []
  change (readVariant all label other _).toOption.map Prod.fst = _
  rw [hread]
  cases variantOf all label other members <;> rfl

theorem exists_of_variantOf {members : List (Padded × Padded)}
    (names : ∀ m ∈ members, IsQuoted m.1.core) (values : ∀ m ∈ members, IsValue m.2.core)
    (h : (variantOf all label other members).isSome = true) :
    ∃ m : Member, members = [(m.name, m.value)] ∧ m.value.core = nullText ∧
      (variant? all label other m.key).isSome = true := by
  cases members with
  | nil => cases h
  | cons m more =>
    rw [variantOf] at h
    split at h
    · next hshape =>
      obtain ⟨hnull, rfl⟩ := hshape
      cases hname : nameOf m.1.core with
      | none =>
        rw [hname] at h
        cases h
      | some name =>
        rw [hname] at h
        have hquotes := quotes_of_nameOf (names m List.mem_cons_self) hname
        exact ⟨⟨m.1, m.2, name, hquotes, values m List.mem_cons_self⟩, rfl, hnull, h⟩
    · cases h

theorem Takes.choice {names : String → Prop}
    (hnames : ∀ name, names name ↔ name ∈ all.map label ∨ other.isSome = true) :
    (Format.choice all label other).Takes (.oneOf names) where
  settled := .choice all label other
  isSome_iff {depth v} h := by
    simp only [← variant?_isSome] at hnames
    constructor
    · intro hsome
      obtain ⟨c, more, hv, -⟩ := h.head
      by_cases hquote : c = '"'
      · subst hquote
        have hquoted := h.of_quote hv
        rw [valueOf_choice_quoted hquoted] at hsome
        cases hname : nameOf v with
        | none =>
          rw [hname] at hsome
          cases hsome
        | some name =>
          rw [hname] at hsome
          exact ⟨name, .quoted (quotes_of_nameOf hquoted hname), (hnames name).2 hsome⟩
      by_cases hopen : c = '{'
      · subst hopen
        obtain ⟨blanks, members, rfl, names, values⟩ := h.of_brace hv
        cases depth with
        | zero => cases hsome
        | succ depth =>
          rw [valueOf_choice_object names values] at hsome
          obtain ⟨m, rfl, hnull, hname⟩ := exists_of_variantOf names values hsome
          exact ⟨m.key, .object hnull, (hnames m.key).2 hname⟩
      · have hread : (Format.choice all label other).read depth v =
            .error (.next .expectedValue (c :: more)) := by
          simp only [Format.choice, h.skipBlanks_eq hv, if_neg hquote, if_neg hopen]
        exact absurd hsome (valueOf_fault hread)
    · rintro ⟨name, hnamed, hname⟩
      cases hnamed with
      | quoted hquotes =>
        rw [valueOf_choice_quoted hquotes.isQuoted, nameOf_quotes hquotes]
        exact (hnames name).1 hname
      | @object _ blanks m hnull =>
        have names : ∀ p ∈ [(m.name, m.value)], IsQuoted p.1.core :=
          List.forall_mem_singleton.2 m.quotes.isQuoted
        have values : ∀ p ∈ [(m.name, m.value)], IsValue p.2.core :=
          List.forall_mem_singleton.2 m.isValue
        rw [valueOf_choice_object names values, variantOf, if_pos ⟨hnull, rfl⟩,
          nameOf_quotes m.quotes]
        exact (hnames m.key).1 hname

end choice

end Format

end EventStream.Json
