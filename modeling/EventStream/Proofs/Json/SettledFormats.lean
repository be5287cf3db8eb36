import EventStream.Json.Record
import EventStream.Proofs.Json.Formats
import EventStream.Proofs.Json.SettledValues

/-!
Formats are settled by the texts of values, whether they fit the format or not. There is one lemma
for each way to make a format, so that the lemma about the format of a type is put together as the
format is.
-/

set_option autoImplicit false

namespace EventStream.Json

section

variable {v more : List Char}

theorem IsNumeral.ne_cons {c : Char} (h : IsNumeral v) (hc : c ≠ '-' ∧ isDigit c = false) :
    v ≠ c :: more := by
  obtain ⟨d, s, rfl, hd⟩ := h.head
  intro he
  cases he
  exact hd.ne hc rfl

theorem IsQuoted.ne_cons {c : Char} (h : IsQuoted v) (hc : c ≠ '"') : v ≠ c :: more := by
  obtain ⟨inside, rfl, -⟩ := h.exists_inside
  rintro ⟨⟩
  exact hc rfl

theorem IsValue.of_quote (h : IsValue v) (hv : v = '"' :: more) : IsQuoted v := by
  cases h with
  | quoted h => exact h
  | numeral h => exact absurd hv (h.ne_cons (by decide))
  | null | yes | no | array | object => cases hv

theorem IsValue.of_bracket (h : IsValue v) (hv : v = '[' :: more) :
    ∃ blanks items, v = arrayText blanks items ∧ ∀ p ∈ items, IsValue p.core := by
  cases h with
  | array blanks h => exact ⟨blanks, _, rfl, h⟩
  | quoted h => exact absurd hv (h.ne_cons (by decide))
  | numeral h => exact absurd hv (h.ne_cons (by decide))
  | null | yes | no | object => cases hv

theorem IsValue.of_brace (h : IsValue v) (hv : v = '{' :: more) :
    ∃ blanks members, v = objectText blanks members ∧ (∀ m ∈ members, IsQuoted m.1.core) ∧
      ∀ m ∈ members, IsValue m.2.core := by
  cases h with
  | object blanks names values => exact ⟨blanks, _, rfl, names, values⟩
  | quoted h => exact absurd hv (h.ne_cons (by decide))
  | numeral h => exact absurd hv (h.ne_cons (by decide))
  | null | yes | no | array => cases hv

theorem IsValue.of_opensNumber {c : Char} (h : IsValue v) (hv : v = c :: more)
    (hc : OpensNumber c) : IsNumeral v := by
  have hne : ∀ d : Char, d ≠ '-' ∧ isDigit d = false → ∀ s, d :: s ≠ c :: more := by
    intro d hd s he
    cases he
    exact hc.ne hd rfl
  cases h with
  | numeral h => exact h
  | quoted h => exact absurd hv (h.ne_cons (hc.ne (by decide)))
  | null => exact absurd hv (hne 'n' (by decide) _)
  | yes => exact absurd hv (hne 't' (by decide) _)
  | no => exact absurd hv (hne 'f' (by decide) _)
  | array => exact absurd hv (hne '[' (by decide) _)
  | object => exact absurd hv (hne '\x7b' (by decide) _)

theorem IsValue.of_n (h : IsValue v) (hv : v = 'n' :: more) : v = nullText := by
  cases h with
  | null => rfl
  | quoted h => exact absurd hv (h.ne_cons (by decide))
  | numeral h => exact absurd hv (h.ne_cons (by decide))
  | yes | no | array | object => cases hv

theorem IsValue.of_t (h : IsValue v) (hv : v = 't' :: more) : v = trueText := by
  cases h with
  | yes => rfl
  | quoted h => exact absurd hv (h.ne_cons (by decide))
  | numeral h => exact absurd hv (h.ne_cons (by decide))
  | null | no | array | object => cases hv

theorem IsValue.of_f (h : IsValue v) (hv : v = 'f' :: more) : v = falseText := by
  cases h with
  | no => rfl
  | quoted h => exact absurd hv (h.ne_cons (by decide))
  | numeral h => exact absurd hv (h.ne_cons (by decide))
  | null | yes | array | object => cases hv

end

theorem Settled.fault {α : Type} {read : List Char → Except Fault (α × List Char)}
    {v : List Char} (h : ∀ s rest, skipBlanks s = v ++ rest → ∃ fault, read s = .error fault) :
    Settled read v := by
  refine ⟨none, fun s rest hs _ => ?_⟩
  obtain ⟨fault, hfault⟩ := h s rest hs
  rw [hfault]
  rfl

namespace Format

variable {α β : Type}

def IsSettled (format : Format α) : Prop :=
  ∀ (depth : Nat) (v : List Char), IsValue v → Settled (format.read depth) v

theorem IsSettled.any : any.IsSettled :=
  fun depth _ h => h.readValue_settled depth

/-- A quoted text is read behind the quote that opens it. -/
theorem exists_readString {v : List Char} (h : IsQuoted v) :
    ∃ inside, (∀ rest, v ++ rest = '"' :: (inside ++ '"' :: rest)) ∧
      Steady fun rest => readString (inside ++ '"' :: rest) := by
  obtain ⟨inside, rfl, hinside⟩ := h.exists_inside
  obtain ⟨o, ho⟩ := readString_inside hinside
  refine ⟨inside, fun rest => ?_, o, fun rest _ => ho rest⟩
  rw [quoted, List.cons_append, List.append_assoc]
  rfl

theorem IsSettled.string : Format.string.IsSettled := by
  intro depth v h
  obtain ⟨c, more, hv, -⟩ := h.head
  by_cases hc : c = '"'
  · subst hc
    obtain ⟨inside, htext, hread⟩ := exists_readString (h.of_quote hv)
    refine hread.settled fun s rest hs _ => ?_
    rw [htext] at hs
    simp only [Format.string, hs, if_true]
  · refine .fault fun s rest hs => ?_
    simp only [Format.string, hs, hv, List.cons_append, if_neg hc]
    exact ⟨_, rfl⟩

theorem IsSettled.bool : Format.bool.IsSettled := by
  intro depth v h
  obtain ⟨c, more, hv, -⟩ := h.head
  by_cases ht : c = 't'
  · subst ht
    obtain rfl := h.of_t hv
    refine (Steady.ok true).settled fun s rest hs _ => ?_
    simp only [Format.bool, hs]
    rfl
  by_cases hf : c = 'f'
  · subst hf
    obtain rfl := h.of_f hv
    refine (Steady.ok false).settled fun s rest hs _ => ?_
    simp only [Format.bool, hs]
    rfl
  · refine .fault fun s rest hs => ?_
    simp only [Format.bool, hs, hv, List.cons_append, if_neg ht, if_neg hf]
    exact ⟨_, rfl⟩

def inRange (range : Range) (n : Number) (rest : List Char) :
    Except Fault ({ n : Int // range.least ≤ n ∧ n ≤ range.greatest } × List Char) :=
  match n with
  | .int n =>
    if h : range.least ≤ n ∧ n ≤ range.greatest then .ok (⟨n, h⟩, rest)
    else .error (.behind (.integerRange n range.name) rest)
  | .real x => .error (.behind (.invalidType (.number (.real x)) range.name) rest)

theorem inRange_steady (range : Range) (n : Number) : Steady (inRange range n) := by
  cases n with
  | real x => exact .error _
  | int n =>
    by_cases h : range.least ≤ n ∧ n ≤ range.greatest
    · let found : { n : Int // range.least ≤ n ∧ n ≤ range.greatest } := ⟨n, h⟩
      exact (Steady.ok found).congr fun rest _ => dif_pos h
    · exact (Steady.error fun rest => .behind (.integerRange n range.name) rest).congr
        fun rest _ => dif_neg h

theorem IsSettled.int (range : Range) : (Format.int range).IsSettled := by
  intro depth v h
  obtain ⟨c, more, hv, -⟩ := h.head
  by_cases hc : OpensNumber c
  · have hopens : c = '-' ∨ isDigit c = true := hc
    have hnumeral := h.of_opensNumber hv hc
    refine ((readNumber_steady hnumeral).bind (inRange_steady range)).settled
      fun s rest hs _ => ?_
    rw [hv, List.cons_append] at hs
    simp only [Format.int, hs, if_pos hopens, hv, List.cons_append]
    refine congrArg (readNumber _ >>= ·) (funext fun x => ?_)
    obtain ⟨n, rest⟩ := x
    cases n <;> rfl
  · have hopens : ¬ (c = '-' ∨ isDigit c = true) := hc
    refine .fault fun s rest hs => ?_
    simp only [Format.int, hs, hv, List.cons_append, if_neg hopens]
    exact ⟨_, rfl⟩

theorem IsSettled.map {format : Format α} (h : format.IsSettled) (build : α → β)
    (parts : β → α) : (format.map build parts).IsSettled :=
  fun depth v hv => (h depth v hv).map build

theorem IsSettled.int64 : Format.int64.IsSettled :=
  .map (.int _) _ _

theorem IsSettled.nullable {format : Format α} (h : format.IsSettled) :
    format.nullable.IsSettled := by
  intro depth v hv
  obtain ⟨c, more, hc, hblank, -⟩ := hv.head
  by_cases hn : c = 'n'
  · subst hn
    obtain rfl := hv.of_n hc
    refine (Steady.ok none).settled fun s rest hs _ => ?_
    simp only [Format.nullable, hs]
    rfl
  · obtain ⟨o, ho⟩ := h depth v hv
    refine Steady.settled (Steady.map ⟨o, fun rest hrest =>
      ho _ rest (hv.skipBlanks_append rest) hrest⟩ some) fun s rest hs _ => ?_
    rw [hc, List.cons_append] at hs
    simp only [Format.nullable, hs, if_neg hn, hc, List.cons_append]

theorem IsSettled.list {format : Format α} (h : format.IsSettled) : format.list.IsSettled := by
  intro depth v hv
  obtain ⟨c, more, hc, -⟩ := hv.head
  by_cases hopen : c = '['
  · subst hopen
    obtain ⟨blanks, items, rfl, hitems⟩ := hv.of_bracket hc
    refine .array depth (fun depth => readElements (format.read depth)) (fun depth => ?_)
      fun s rest hs => ?_
    · have hread := readElements_row hitems (fun p hp => h depth p.core (hitems p hp)) blanks
      exact ⟨_, fun rest _ => hread rest⟩
    · simp only [Format.list, hs, if_true]
  · refine .fault fun s rest hs => ?_
    simp only [Format.list, hs, hc, List.cons_append, if_neg hopen]
    exact ⟨_, rfl⟩

section choice

variable (all : List α) (label : α → String) (other : Option α)

def variant? (name : String) : Option α :=
  (all.find? fun a => label a == name).or other

theorem pickVariant_toOption (name : String) (rest : List Char) :
    (pickVariant all label other name rest).toOption = variant? all label other name := by
  simp only [pickVariant, variant?]
  cases all.find? fun a => label a == name with
  | some a => rfl
  | none => cases other <;> rfl

theorem readUnit_toOption {v s rest : List Char} (h : IsValue v) (hs : skipBlanks s = v ++ rest) :
    (readUnit s).toOption = if v = nullText then some rest else none := by
  obtain ⟨c, more, hc, -⟩ := h.head
  by_cases hn : c = 'n'
  · subst hn
    obtain rfl := h.of_n hc
    rw [readUnit, hs, if_pos rfl]
    rfl
  · have hne : v ≠ nullText := by
      rintro rfl
      cases hc
      exact hn rfl
    rw [if_neg hne]
    simp only [readUnit, hs, hc, List.cons_append, if_neg hn]
    rfl

/-- Only the first member of an object is looked at, and then it must be the last. -/
theorem readVariantEnd_toOption (blanks : Blanks) (texts : List (List Char)) (rest : List Char) :
    (readVariantEnd (blanks.val ++ rowEnd '}' texts rest)).toOption =
      if texts = [] then some rest else none := by
  cases texts with
  | nil =>
    rw [rowEnd_nil, readVariantEnd, skipBlanks_blanks_cons blanks rfl]
    rfl
  | cons text texts =>
    rw [rowEnd_cons, readVariantEnd, skipBlanks_blanks_cons blanks rfl]
    rfl

def readVariantBehind (all : List α) (label : α → String) (other : Option α)
    (named : String × List Char) : Except Fault (α × List Char) := do
  let a ← pickVariant all label other named.1 named.2
  let s ← readColon named.2
  let s ← readUnit s
  let s ← readVariantEnd s
  return (a, s)

def readVariant (all : List α) (label : α → String) (other : Option α) (s : List Char) :
    Except Fault (α × List Char) :=
  readVariantName s >>= readVariantBehind all label other

theorem readVariantBehind_toOption {value : Padded} (h : IsValue value.core) (name : String)
    (blanks : Blanks) (texts : List (List Char)) (rest : List Char) :
    (readVariantBehind all label other
      (name, blanks.val ++ ':' :: (value.text ++ rowEnd '}' texts rest))).toOption =
        if value.core = nullText ∧ texts = [] then
          (variant? all label other name).map (·, rest) else none := by
  have hread : ∀ s, readVariantBehind all label other (name, blanks.val ++ ':' :: s) =
      pickVariant all label other name (blanks.val ++ ':' :: s) >>= fun a =>
        readUnit s >>= fun s => readVariantEnd s >>= fun s => pure (a, s) := by
    intro s
    simp only [readVariantBehind, readColon_blanks]
    rfl
  rw [hread, toOption_bind, pickVariant_toOption]
  cases variant? all label other name with
  | none => exact (ite_self none).symm
  | some a =>
    rw [Option.bind_some, toOption_bind, readUnit_toOption h (h.skipBlanks_text _)]
    by_cases hnull : value.core = nullText
    · rw [if_pos hnull, Option.bind_some, toOption_bind, readVariantEnd_toOption]
      by_cases htexts : texts = []
      · rw [if_pos htexts, if_pos ⟨hnull, htexts⟩]
        rfl
      · rw [if_neg htexts, if_neg fun h => htexts h.2]
        rfl
    · rw [if_neg hnull, if_neg fun h => hnull h.1]
      rfl

theorem readVariantName_member {m : Padded × Padded} {inside : List Char}
    (h : m.1.core = quoted inside) (blanks : Blanks) (rest : List Char) :
    readVariantName (blanks.val ++ (memberText m ++ rest)) =
      readString (behindQuote inside m rest) := by
  rw [readVariantName, skipBlanks_blanks, skipBlanks_name h]
  rfl

def variantOf : List (Padded × Padded) → Option α
  | [] => none
  | m :: more =>
    if m.2.core = nullText ∧ more = [] then
      (nameOf m.1.core).bind (variant? all label other) else none

theorem readVariant_row {members : List (Padded × Padded)}
    (names : ∀ m ∈ members, IsQuoted m.1.core) (values : ∀ m ∈ members, IsValue m.2.core)
    (blanks : Blanks) (rest : List Char) :
    (readVariant all label other
      (blanks.val ++ (row (members.map memberText) ++ '}' :: rest))).toOption =
        (variantOf all label other members).map (·, rest) := by
  cases members with
  | nil =>
    rw [List.map_nil, row, List.nil_append, readVariant, readVariantName,
      skipBlanks_blanks_cons blanks rfl]
    rfl
  | cons m members =>
    obtain ⟨inside, hcore, hinside⟩ := (names m List.mem_cons_self).exists_inside
    rw [List.map_cons, row_cons_append, readVariant, readVariantName_member hcore, toOption_bind,
      behindQuote, readString_quoted hinside, ← hcore]
    have hbehind := fun name => readVariantBehind_toOption all label other
      (values m List.mem_cons_self) name m.1.behind (members.map memberText) rest
    rw [variantOf]
    cases nameOf m.1.core with
    | none => split <;> rfl
    | some name =>
      simp only [Option.map_some, Option.bind_some, hbehind, List.map_eq_nil_iff]
      split <;> rfl

theorem IsSettled.choice : (Format.choice all label other).IsSettled := by
  intro depth v h
  obtain ⟨c, more, hv, -⟩ := h.head
  by_cases hquote : c = '"'
  · subst hquote
    obtain ⟨inside, htext, hread⟩ := exists_readString (h.of_quote hv)
    have hpick : ∀ name, Steady fun rest =>
        pickVariant all label other name rest >>= fun a => pure (a, rest) := by
      intro name
      refine ⟨variant? all label other name, fun rest _ => ?_⟩
      rw [toOption_bind, pickVariant_toOption]
      cases variant? all label other name <;> rfl
    refine (hread.bind hpick).settled fun s rest hs _ => ?_
    rw [htext] at hs
    simp only [Format.choice, hs, if_true]
  by_cases hopen : c = '{'
  · subst hopen
    obtain ⟨blanks, members, rfl, names, values⟩ := h.of_brace hv
    refine .object depth (fun _ => readVariant all label other) (fun _ => ?_) fun s rest hs => ?_
    · exact ⟨_, fun rest _ => readVariant_row all label other names values blanks rest⟩
    · simp only [Format.choice, hs, Char.reduceEq, if_false, if_true]
      rfl
  · refine .fault fun s rest hs => ?_
    simp only [Format.choice, hs, hv, List.cons_append, if_neg hquote, if_neg hopen]
    exact ⟨_, rfl⟩

end choice

end Format

/-- The rest of a list from where its next element is asked for, up to the bracket. -/
def itemsText (first : Bool) (items : List Padded) (rest : List Char) : List Char :=
  if first then row (items.map Padded.text) ++ ']' :: rest
  else rowEnd ']' (items.map Padded.text) rest

theorem itemsText_nil (first : Bool) (rest : List Char) :
    itemsText first [] rest = ']' :: rest := by
  cases first <;> rfl

theorem nextElement_items {p : Padded} (h : IsValue p.core) (first : Bool) (items : List Padded)
    (blanks : Blanks) (rest : List Char) :
    nextElement first (blanks.val ++ itemsText first (p :: items) rest) =
      .ok (.more (p.core ++ (p.behind.val ++ itemsText false items rest))) := by
  cases first with
  | true =>
    simp only [itemsText, if_true, List.map_cons, row_cons_append]
    exact nextElement_padded h blanks _
  | false =>
    simp only [itemsText, Bool.false_eq_true, if_false, List.map_cons, rowEnd_cons]
    exact nextElement_behind h blanks _

theorem readListEnd_nil (first : Bool) (blanks : Blanks) (rest : List Char) :
    readListEnd (blanks.val ++ itemsText first [] rest) = .ok rest := by
  rw [itemsText_nil, readListEnd, skipBlanks_blanks_cons blanks rfl]
  rfl

/-- A list with elements left is not at its end. -/
theorem readListEnd_cons {p : Padded} (h : IsValue p.core) (first : Bool) (items : List Padded)
    (blanks : Blanks) (rest : List Char) :
    ∃ fault, readListEnd (blanks.val ++ itemsText first (p :: items) rest) = .error fault := by
  obtain ⟨c, more, hc, -, hclose, hcomma⟩ := h.head
  cases first with
  | true =>
    simp only [itemsText, if_true, List.map_cons, row_cons_append, readListEnd,
      skipBlanks_blanks, h.skipBlanks_text, hc, List.cons_append, if_neg hclose, if_neg hcomma]
    exact ⟨_, rfl⟩
  | false =>
    have htext := h.skipBlanks_text (rowEnd ']' (items.map Padded.text) rest)
    rw [hc, List.cons_append] at htext
    simp only [itemsText, Bool.false_eq_true, if_false, List.map_cons, rowEnd_cons, readListEnd,
      skipBlanks_blanks_cons blanks (c := ',') rfl, Char.reduceEq, if_true, htext]
    exact ⟨_, rfl⟩

namespace Members

variable {α σ ρ : Type}

def readLast (members : Members σ ρ) (depth : Nat) (expected : String) (index : Nat)
    (first : Bool) (s : List Char) : Except Fault (ρ × List Char) :=
  members.elements depth expected index first s >>= fun x =>
    readListEnd x.2 >>= fun rest => pure (x.1, rest)

def SettledElements (members : Members σ ρ) (depth : Nat) (expected : String) (index : Nat)
    (first : Bool) (items : List Padded) : Prop :=
  ∃ o : Option ρ, ∀ (blanks : Blanks) (rest : List Char),
    (members.readLast depth expected index first
      (blanks.val ++ itemsText first items rest)).toOption = o.map (·, rest)

/-- What is made of members is settled by the texts of their values, whether they are read from
an object or from an array. -/
structure IsSettled (members : Members σ ρ) : Prop where
  member : ∀ (depth : Nat) (v : List Char), IsValue v →
    SettledMember (readRecordMember members depth) v
  elements : ∀ (depth : Nat) (expected : String) (index : Nat) (first : Bool)
    (items : List Padded), (∀ p ∈ items, IsValue p.core) →
      members.SettledElements depth expected index first items

theorem IsSettled.nil : Members.nil.IsSettled where
  member depth v h := by
    intro key found
    refine ⟨some found, fun blanks s rest hs hrest => ?_⟩
    have hread : readRecordMember Members.nil depth key found (blanks.val ++ ':' :: s) =
        readColon (blanks.val ++ ':' :: s) >>= fun s => skipValue s >>= fun s =>
          pure (found, s) := rfl
    rw [hread, readColon_blanks]
    change (skipValue s >>= fun s => pure (found, s)).toOption = _
    rw [h.skipValue hs hrest]
    rfl
  elements depth expected index first items hitems := by
    have hread : ∀ s, Members.nil.readLast depth expected index first s =
        readListEnd s >>= fun rest => pure ((), rest) := fun s => rfl
    cases items with
    | nil =>
      refine ⟨some (), fun blanks rest => ?_⟩
      rw [hread, readListEnd_nil]
      rfl
    | cons p items =>
      refine ⟨none, fun blanks rest => ?_⟩
      obtain ⟨fault, hfault⟩ :=
        readListEnd_cons (hitems p List.mem_cons_self) first items blanks rest
      rw [hread, hfault]
      rfl

/-- Reads a member for a field that has not been met, or has. -/
theorem readRecordMember_found (field : Field α) (others : Members σ ρ) (depth : Nat)
    (found : Option α) (more : σ) (s : List Char) :
    readRecordMember (cons field others) depth field.name (found, more) s =
      (readField field depth found s).map fun x => ((some x.1, more), x.2) := by
  simp only [readRecordMember, cons, if_true]
  cases readField field depth found s <;> rfl

theorem readLast_absent {field : Field α} {others : Members σ ρ} {depth index : Nat}
    {expected : String} {first : Bool} {s rest : List Char}
    (hnext : nextElement first s = .ok (.close rest)) {a : α} (ha : field.absent = some a) :
    (cons field others).readLast depth expected index first s =
      (others.readLast depth expected (index + 1) first s).map fun x => ((a, x.1), x.2) := by
  simp only [readLast, cons, hnext, ha, bind, Except.bind]
  cases others.elements depth expected (index + 1) first s with
  | error fault => rfl
  | ok x =>
    simp only [pure, Except.pure]
    cases readListEnd x.2 <;> rfl

theorem readLast_more {field : Field α} {others : Members σ ρ} {depth index : Nat}
    {expected : String} {first : Bool} {s s₁ : List Char}
    (hnext : nextElement first s = .ok (.more s₁)) :
    (cons field others).readLast depth expected index first s =
      field.format.read depth s₁ >>= fun x =>
        (others.readLast depth expected (index + 1) false x.2).map fun y =>
          ((x.1, y.1), y.2) := by
  simp only [readLast, cons, hnext, bind, Except.bind]
  cases field.format.read depth s₁ with
  | error fault => rfl
  | ok x =>
    simp only
    cases others.elements depth expected (index + 1) false x.2 with
    | error fault => rfl
    | ok y =>
      simp only [pure, Except.pure]
      cases readListEnd y.2 <;> rfl

section cons

variable {field : Field α} {others : Members σ ρ}

theorem cons_member (hfield : field.format.IsSettled) (h : others.IsSettled) {depth : Nat}
    {v : List Char} (hv : IsValue v) :
    SettledMember (readRecordMember (cons field others) depth) v := by
  rintro key ⟨found, more⟩
  by_cases hkey : key = field.name
  · subst hkey
    cases found with
    | some a =>
      refine ⟨none, fun blanks s rest hs hrest => ?_⟩
      rw [readRecordMember_found, toOption_map]
      rfl
    | none =>
      obtain ⟨o, ho⟩ := hfield depth v hv
      refine ⟨o.map fun a => (some a, more), fun blanks s rest hs hrest => ?_⟩
      rw [readRecordMember_found, readField, readColon_blanks, toOption_map]
      change (field.format.read depth s).toOption.map _ = _
      rw [ho s rest hs hrest]
      cases o <;> rfl
  · obtain ⟨o, ho⟩ := h.member depth v hv key more
    refine ⟨o.map fun more => (found, more), fun blanks s rest hs hrest => ?_⟩
    rw [readRecordMember_cons field others depth hkey, toOption_map, ho blanks s rest hs hrest]
    cases o <;> rfl

/-- Where the array is at its end, the field has the value that it has without a member. -/
theorem cons_elements_nil (h : others.IsSettled) (depth : Nat) (expected : String) (index : Nat)
    (first : Bool) : (cons field others).SettledElements depth expected index first [] := by
  have hnext : ∀ (blanks : Blanks) rest,
      nextElement first (blanks.val ++ itemsText first [] rest) = .ok (.close rest) := by
    intro blanks rest
    rw [itemsText_nil, nextElement_blanks]
  cases habsent : field.absent with
  | none =>
    refine ⟨none, fun blanks rest => ?_⟩
    simp only [readLast, cons, hnext, habsent, bind, Except.bind]
    rfl
  | some a =>
    have hnone : ∀ p ∈ ([] : List Padded), IsValue p.core := fun _ hp => absurd hp List.not_mem_nil
    obtain ⟨o, ho⟩ := h.elements depth expected (index + 1) first [] hnone
    refine ⟨o.map (a, ·), fun blanks rest => ?_⟩
    rw [readLast_absent (hnext blanks rest) habsent, toOption_map, ho]
    cases o <;> rfl

theorem cons_elements_cons (hfield : field.format.IsSettled) (h : others.IsSettled) (depth : Nat)
    (expected : String) (index : Nat) (first : Bool) {p : Padded} {items : List Padded}
    (hp : IsValue p.core) (hitems : ∀ p ∈ items, IsValue p.core) :
    (cons field others).SettledElements depth expected index first (p :: items) := by
  obtain ⟨o, ho⟩ := hfield depth p.core hp
  obtain ⟨more, hmore⟩ := h.elements depth expected (index + 1) false items hitems
  refine ⟨o.bind fun a => more.map (a, ·), fun blanks rest => ?_⟩
  have hends : Ends (p.behind.val ++ itemsText false items rest) :=
    ends_rowEnd (.inl rfl) p.behind (items.map Padded.text) rest
  rw [readLast_more (nextElement_items hp first items blanks rest), toOption_bind,
    ho _ _ (hp.skipBlanks_append _) hends]
  cases o with
  | none => rfl
  | some a =>
    simp only [Option.map_some, Option.bind_some]
    rw [toOption_map, hmore]
    cases more <;> rfl

theorem IsSettled.cons (hfield : field.format.IsSettled) (h : others.IsSettled) :
    (cons field others).IsSettled where
  member depth v := cons_member hfield h
  elements depth expected index first items hitems := by
    cases items with
    | nil => exact cons_elements_nil h depth expected index first
    | cons p items =>
      obtain ⟨hp, hitems⟩ := List.forall_mem_cons.1 hitems
      exact cons_elements_cons hfield h depth expected index first hp hitems

end cons

end Members

namespace Format

def finishRecord {σ ρ : Type} (members : Members σ ρ) (found : σ) (s : List Char) :
    Except Fault (ρ × List Char) :=
  match members.finish found with
  | .ok r => .ok (r, s)
  | .error name => .error (.behind (.missingField name) s)

/-- What is read of the members of an object is made of what is gathered from them. -/
theorem readRecord_row {σ ρ : Type} {members : Members σ ρ} (h : members.IsSettled) (depth : Nat)
    {ms : List (Padded × Padded)} (names : ∀ m ∈ ms, IsQuoted m.1.core)
    (values : ∀ m ∈ ms, IsValue m.2.core) (blanks : Blanks) (rest : List Char) :
    (readRecord members depth
      (blanks.val ++ (row (ms.map memberText) ++ '}' :: rest))).toOption =
        ((gather (readRecordMember members depth) ms members.start).bind fun found =>
          (members.finish found).toOption).map (·, rest) := by
  have hgather : ∀ m ∈ ms, Gatherable (readRecordMember members depth) m := fun m hm =>
    ⟨names m hm, values m hm, h.member depth m.2.core (values m hm)⟩
  have hrecord : ∀ s, readRecord members depth s =
      readMembers (readRecordMember members depth) members.start s >>= fun x =>
        finishRecord members x.1 x.2 := fun s => rfl
  rw [hrecord, toOption_bind, readMembers_row hgather]
  cases gather (readRecordMember members depth) ms members.start with
  | none => rfl
  | some found =>
    simp only [Option.map_some, Option.bind_some, finishRecord]
    cases members.finish found <;> rfl

theorem IsSettled.record {α σ ρ : Type} {name : String} {members : Members σ ρ} {build : ρ → α}
    {parts : α → ρ} (h : members.IsSettled) :
    (Format.record name members build parts).IsSettled := by
  intro depth v hv
  obtain ⟨c, more, hc, -⟩ := hv.head
  by_cases hlist : c = '['
  · subst hlist
    obtain ⟨blanks, items, rfl, hitems⟩ := hv.of_bracket hc
    let expected := recordLength name members.count
    refine .array depth (fun depth rest =>
      (readTuple members expected depth rest).map fun x => (build x.1, x.2))
      (fun depth => ?_) fun s rest hs => ?_
    · obtain ⟨o, ho⟩ := h.elements depth expected 0 true items hitems
      exact Steady.map ⟨o, fun rest _ => ho blanks rest⟩ build
    · simp only [Format.record, hs, if_true]
      exact map_descend depth _ _ build
  by_cases hopen : c = '{'
  · subst hopen
    obtain ⟨blanks, ms, rfl, names, values⟩ := hv.of_brace hc
    refine .object depth (fun depth rest =>
      (readRecord members depth rest).map fun x => (build x.1, x.2))
      (fun depth => ?_) fun s rest hs => ?_
    · have hread := readRecord_row h depth names values blanks
      exact Steady.map ⟨_, fun rest _ => hread rest⟩ build
    · simp only [Format.record, hs, Char.reduceEq, if_false, if_true]
      exact map_descend depth _ _ build
  · refine .fault fun s rest hs => ?_
    simp only [Format.record, hs, hc, List.cons_append, if_neg hlist, if_neg hopen]
    exact ⟨_, rfl⟩

end Format

end EventStream.Json
