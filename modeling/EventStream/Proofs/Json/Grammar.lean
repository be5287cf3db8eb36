import EventStream.Proofs.Json.Values

/-!
The grammar of JSON, told without a reader: which texts are values, and which text the characters
between two quotes spell. Blanks may stand around every value and every name. A quoted text may
name any unit by its number; only a text that pairs its surrogates spells something.
-/

set_option autoImplicit false

namespace EventStream.Json

abbrev Blanks :=
  { s : List Char // ∀ c ∈ s, isBlank c = true }

def Blanks.none : Blanks :=
  ⟨[], nofun⟩

structure Padded where
  before : Blanks
  core : List Char
  behind : Blanks

def Padded.text (p : Padded) : List Char :=
  p.before.val ++ (p.core ++ p.behind.val)

def Padded.bare (core : List Char) : Padded :=
  ⟨.none, core, .none⟩

/-- Texts one behind the other, with a comma between any two. -/
def row : List (List Char) → List Char
  | [] => []
  | first :: more => first ++ more.flatMap (',' :: ·)

def IsDigits (s : List Char) : Prop :=
  s ≠ [] ∧ ∀ c ∈ s, isDigit c = true

inductive IsWhole : List Char → Prop
  | zero : IsWhole ['0']
  | digits {c : Char} {more : List Char} (first : isDigit c = true) (ne : c ≠ '0')
    (others : ∀ d ∈ more, isDigit d = true) : IsWhole (c :: more)

inductive IsFraction : List Char → Prop
  | none : IsFraction []
  | digits {s : List Char} (h : IsDigits s) : IsFraction ('.' :: s)

inductive IsExponentSign : List Char → Prop
  | none : IsExponentSign []
  | plus : IsExponentSign ['+']
  | minus : IsExponentSign ['-']

inductive IsExponent : List Char → Prop
  | none : IsExponent []
  | digits {mark : Char} {sign s : List Char} (marked : mark = 'e' ∨ mark = 'E')
    (signed : IsExponentSign sign) (h : IsDigits s) : IsExponent (mark :: (sign ++ s))

inductive IsUnsigned : List Char → Prop
  | parts {whole fraction exponent : List Char} (hw : IsWhole whole) (hf : IsFraction fraction)
    (he : IsExponent exponent) : IsUnsigned (whole ++ (fraction ++ exponent))

inductive IsNumeral : List Char → Prop
  | unsigned {s : List Char} (h : IsUnsigned s) : IsNumeral s
  | negative {s : List Char} (h : IsUnsigned s) : IsNumeral ('-' :: s)

/-- A character that stands for itself in a quoted text. -/
structure IsPlain (c : Char) : Prop where
  ne_quote : c ≠ '"'
  ne_backslash : c ≠ '\\'
  not_control : isControl c = false

inductive NamesUnit : List Char → Nat → Prop
  | digits {a b c d : Char} {p q r s : Nat} (ha : hexValue? a = some p) (hb : hexValue? b = some q)
    (hc : hexValue? c = some r) (hd : hexValue? d = some s) :
    NamesUnit [a, b, c, d] (((p * 16 + q) * 16 + r) * 16 + s)

inductive Inside : List Char → Prop
  | nil : Inside []
  | plain {c : Char} {s : List Char} (h : IsPlain c) (more : Inside s) : Inside (c :: s)
  | escape {c e : Char} {s : List Char} (h : simpleEscape? c = some e) (more : Inside s) :
    Inside ('\\' :: c :: s)
  | unit {digits s : List Char} {n : Nat} (h : NamesUnit digits n) (more : Inside s) :
    Inside ('\\' :: 'u' :: (digits ++ s))

inductive Spells : List Char → List Char → Prop
  | nil : Spells [] []
  | plain {c : Char} {s text : List Char} (h : IsPlain c) (more : Spells s text) :
    Spells (c :: s) (c :: text)
  | escape {c e : Char} {s text : List Char} (h : simpleEscape? c = some e)
    (more : Spells s text) : Spells ('\\' :: c :: s) (e :: text)
  | unit {digits s text : List Char} {n : Nat} (h : NamesUnit digits n)
    (hleading : isLeading n = false) (htrailing : isTrailing n = false) (more : Spells s text) :
    Spells ('\\' :: 'u' :: (digits ++ s)) (Char.ofNat n :: text)
  | pair {high low s text : List Char} {m n : Nat} (hm : NamesUnit high m) (hn : NamesUnit low n)
    (hleading : isLeading m = true) (htrailing : isTrailing n = true) (more : Spells s text) :
    Spells ('\\' :: 'u' :: (high ++ '\\' :: 'u' :: (low ++ s))) (pairChar m n :: text)

theorem Spells.inside {s text : List Char} (h : Spells s text) : Inside s := by
  induction h with
  | nil => exact .nil
  | plain h _ ih => exact .plain h ih
  | escape h _ ih => exact .escape h ih
  | unit h _ _ _ ih => exact .unit h ih
  | pair hm hn _ _ _ ih => exact .unit hm (.unit hn ih)

def quoted (inside : List Char) : List Char :=
  '"' :: (inside ++ ['"'])

inductive IsQuoted : List Char → Prop
  | quoted {s : List Char} (h : Inside s) : IsQuoted (quoted s)

theorem IsQuoted.exists_inside {s : List Char} (h : IsQuoted s) :
    ∃ inside, s = Json.quoted inside ∧ Inside inside := by
  cases h with
  | quoted h => exact ⟨_, rfl, h⟩

inductive Quotes : List Char → String → Prop
  | quoted {s : List Char} {text : String} (h : Spells s text.toList) : Quotes (quoted s) text

theorem Quotes.isQuoted {s : List Char} {text : String} (h : Quotes s text) : IsQuoted s := by
  cases h with
  | quoted h => exact .quoted h.inside

def arrayText (blanks : Blanks) (items : List Padded) : List Char :=
  '[' :: (blanks.val ++ (row (items.map Padded.text) ++ [']']))

def memberText (m : Padded × Padded) : List Char :=
  m.1.text ++ ':' :: m.2.text

def objectText (blanks : Blanks) (members : List (Padded × Padded)) : List Char :=
  '{' :: (blanks.val ++ (row (members.map memberText) ++ ['}']))

def nullText : List Char := 'n' :: nullTail

def trueText : List Char := 't' :: trueTail

def falseText : List Char := 'f' :: falseTail

/-- The texts of values, which begin and end without blanks. -/
inductive IsValue : List Char → Prop
  | null : IsValue nullText
  | yes : IsValue trueText
  | no : IsValue falseText
  | numeral {s : List Char} (h : IsNumeral s) : IsValue s
  | quoted {s : List Char} (h : IsQuoted s) : IsValue s
  | array (blanks : Blanks) {items : List Padded} (h : ∀ p ∈ items, IsValue p.core) :
    IsValue (arrayText blanks items)
  | object (blanks : Blanks) {members : List (Padded × Padded)}
    (names : ∀ m ∈ members, IsQuoted m.1.core) (values : ∀ m ∈ members, IsValue m.2.core) :
    IsValue (objectText blanks members)

/-- A member of an object: a name and a value with the blanks around them, and the text that the
name spells. -/
structure Member where
  name : Padded
  value : Padded
  key : String
  quotes : Quotes name.core key
  isValue : IsValue value.core

def Member.content (m : Member) : String × List Char :=
  (m.key, m.value.core)

structure Document where
  before : Blanks
  opening : Blanks
  members : List Member
  behind : Blanks

def Document.text (d : Document) : List Char :=
  d.before.val ++
    (objectText d.opening (d.members.map fun m => (m.name, m.value)) ++ d.behind.val)

theorem IsUnsigned.head {s : List Char} (h : IsUnsigned s) :
    ∃ c more, s = c :: more ∧ isDigit c = true := by
  obtain ⟨hw, hf, he⟩ := h
  cases hw with
  | zero => exact ⟨'0', _, rfl, rfl⟩
  | digits first ne others => exact ⟨_, _, rfl, first⟩

theorem IsNumeral.head {s : List Char} (h : IsNumeral s) :
    ∃ c more, s = c :: more ∧ OpensNumber c := by
  cases h with
  | unsigned h =>
    obtain ⟨c, more, hs, hc⟩ := h.head
    exact ⟨c, more, hs, .inr hc⟩
  | negative h => exact ⟨'-', _, rfl, .inl rfl⟩

/-- No value begins with a blank or with punctuation that goes on with a list or closes it. -/
theorem IsValue.head {s : List Char} (h : IsValue s) :
    ∃ c more, s = c :: more ∧ isBlank c = false ∧ c ≠ ']' ∧ c ≠ ',' := by
  cases h with
  | null => exact ⟨'n', _, rfl, rfl, by decide, by decide⟩
  | yes => exact ⟨'t', _, rfl, rfl, by decide, by decide⟩
  | no => exact ⟨'f', _, rfl, rfl, by decide, by decide⟩
  | numeral h =>
    obtain ⟨c, more, hs, hc⟩ := h.head
    exact ⟨c, more, hs, hc.isBlank, hc.ne (by decide), hc.ne (by decide)⟩
  | quoted h =>
    cases h with
    | quoted h => exact ⟨'"', _, rfl, rfl, by decide, by decide⟩
  | array blanks h => exact ⟨'[', _, rfl, rfl, by decide, by decide⟩
  | object blanks names values => exact ⟨'{', _, rfl, rfl, by decide, by decide⟩

theorem skipBlanks_blanks (blanks : Blanks) (s : List Char) :
    skipBlanks (blanks.val ++ s) = skipBlanks s :=
  skipBlanks_append blanks.property s

theorem IsValue.skipBlanks_append {v : List Char} (h : IsValue v) (rest : List Char) :
    skipBlanks (v ++ rest) = v ++ rest := by
  obtain ⟨c, more, rfl, hblank, -, -⟩ := h.head
  exact skipBlanks_cons hblank _

/-- A value alone has no blanks before it and nothing behind it. -/
theorem IsValue.skipBlanks_self {v : List Char} (h : IsValue v) : skipBlanks v = v ++ [] := by
  have hself := h.skipBlanks_append []
  rwa [List.append_nil] at hself ⊢

end EventStream.Json
