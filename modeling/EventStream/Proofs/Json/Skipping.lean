import EventStream.Json.Skip
import EventStream.Proofs.Json.Grammar

/-!
A value that nobody asked for is skipped exactly: the text behind it is what is left, whatever the
value is and however deep it nests. What is still open comes as a stack, so the lemma about a value
is about every stack.
-/

set_option autoImplicit false

namespace EventStream.Json

theorem readHex4_unit {digits : List Char} {n : Nat} (h : NamesUnit digits n) (rest : List Char) :
    readHex4 (digits ++ rest) = .ok (n, rest) := by
  cases h with
  | @digits a b c d p q r s ha hb hc hd =>
    have hlength : ¬ (Utf8.encodeChars ((a :: b :: c :: d :: rest).take 4)).length < 4 :=
      Nat.not_lt.2 (length_le_encodeChars [a, b, c, d])
    change readHex4 (a :: b :: c :: d :: rest) = _
    rw [readHex4, if_neg hlength]
    simp only [ha, hb, hc, hd]

theorem simpleEscape?_u : simpleEscape? 'u' = none := by
  decide

theorem skipEscape_unit {digits : List Char} {n : Nat} (h : NamesUnit digits n)
    (rest : List Char) : skipEscape ('u' :: (digits ++ rest)) = .ok rest := by
  rw [skipEscape, simpleEscape?_u]
  simp only [if_true, readHex4_unit h rest]
  rfl

theorem skipString_escape {s rest : List Char} (h : skipEscape s = .ok rest) :
    skipString ('\\' :: s) = skipString rest := by
  rw [skipString, if_neg (by decide), if_pos rfl]
  split
  · next h' => rw [h] at h'; cases h'
  · next h' => rw [h] at h'; cases h'; rfl

theorem skipString_inside {s : List Char} (h : Inside s) (rest : List Char) :
    skipString (s ++ '"' :: rest) = .ok rest := by
  induction h with
  | nil => rw [List.nil_append, skipString, if_pos rfl]
  | plain h _ ih =>
    have hcontrol : ¬ isControl _ = true := Bool.eq_false_iff.1 h.not_control
    rw [List.cons_append, skipString, if_neg h.ne_quote, if_neg h.ne_backslash, if_neg hcontrol,
      ih]
  | escape h _ ih =>
    rw [List.cons_append, List.cons_append, skipString_escape, ih]
    simp only [skipEscape, h]
  | unit h _ ih =>
    rw [List.cons_append, List.cons_append, List.append_assoc,
      skipString_escape (skipEscape_unit h _), ih]

def Stops (rest : List Char) : Prop :=
  ∀ c ∈ rest.head?, isDigit c = false

theorem Ends.stops {rest : List Char} (h : Ends rest) : Stops rest :=
  fun c hc => (h c hc).1

theorem splitDigits_stops {digits rest : List Char} (hdigits : ∀ c ∈ digits, isDigit c = true)
    (hrest : Stops rest) : splitDigits (digits ++ rest) = (digits, rest) := by
  rw [splitDigits, List.takeWhile_append_of_pos hdigits, List.dropWhile_append_of_pos hdigits]
  cases rest with
  | nil => simp
  | cons c rest => simp [hrest c rfl]

theorem IsDigits.head {s : List Char} (h : IsDigits s) :
    ∃ c more, s = c :: more ∧ isDigit c = true := by
  obtain ⟨hne, hdigits⟩ := h
  cases s with
  | nil => exact absurd rfl hne
  | cons c more => exact ⟨c, more, rfl, hdigits c List.mem_cons_self⟩

theorem IsDigits.not_isEmpty {s : List Char} (h : IsDigits s) : ¬ s.isEmpty = true :=
  fun he => h.1 (List.isEmpty_iff.1 he)

theorem splitSign_digits {sign s : List Char} (hsign : IsExponentSign sign) (hs : IsDigits s)
    (rest : List Char) :
    splitSign (sign ++ (s ++ rest)) = (decide (sign = ['-']), s ++ rest) := by
  obtain ⟨c, more, rfl, hc⟩ := hs.head
  cases hsign with
  | none =>
    have hplus : c ≠ '+' := by
      rintro rfl
      cases hc
    have hminus : c ≠ '-' := by
      rintro rfl
      cases hc
    simp [splitSign, hplus, hminus]
  | plus => rfl
  | minus => rfl

/-- Behind the digits of a whole number or of a fraction neither a digit nor a point comes next. -/
theorem IsExponent.head_append {exponent rest : List Char} (h : IsExponent exponent)
    (hrest : Ends rest) : ∀ c ∈ (exponent ++ rest).head?, isDigit c = false ∧ c ≠ '.' := by
  cases h with
  | none => exact fun c hc => ⟨(hrest c hc).1, (hrest c hc).2.1⟩
  | digits marked signed h =>
    intro c hc
    cases hc
    rcases marked with rfl | rfl <;> decide

theorem IsExponent.stops {exponent rest : List Char} (h : IsExponent exponent)
    (hrest : Ends rest) : Stops (exponent ++ rest) :=
  fun c hc => (h.head_append hrest c hc).1

theorem IsFraction.stops {fraction exponent rest : List Char} (hf : IsFraction fraction)
    (he : IsExponent exponent) (hrest : Ends rest) : Stops (fraction ++ (exponent ++ rest)) := by
  cases hf with
  | none => exact he.stops hrest
  | digits h =>
    intro c hc
    cases hc
    rfl

theorem skipOptionalExponent_of_ends {rest : List Char} (h : Ends rest) :
    skipOptionalExponent rest = .ok rest := by
  cases rest with
  | nil => rfl
  | cons c rest =>
    obtain ⟨-, -, he, hE⟩ := h c rfl
    exact if_neg (not_or.2 ⟨he, hE⟩)

theorem skipOptionalExponent_append {exponent rest : List Char} (h : IsExponent exponent)
    (hrest : Ends rest) : skipOptionalExponent (exponent ++ rest) = .ok rest := by
  cases h with
  | none => exact skipOptionalExponent_of_ends hrest
  | digits marked signed h =>
    rw [List.cons_append, List.append_assoc, skipOptionalExponent, if_pos marked, skipExponent,
      splitSign_digits signed h, splitDigits_stops h.2 hrest.stops]
    exact if_neg h.not_isEmpty

theorem skipAfterDigits_append {fraction exponent rest : List Char} (hf : IsFraction fraction)
    (he : IsExponent exponent) (hrest : Ends rest) :
    skipAfterDigits (fraction ++ (exponent ++ rest)) = .ok rest := by
  have hexponent := skipOptionalExponent_append he hrest
  cases hf with
  | none =>
    have hhead := he.head_append hrest
    rw [List.nil_append]
    generalize exponent ++ rest = s at hexponent hhead
    cases s with
    | nil => exact hexponent
    | cons c s => exact (if_neg (hhead c rfl).2).trans hexponent
  | digits h =>
    rw [List.cons_append, skipAfterDigits, if_pos rfl, splitDigits_stops h.2 (he.stops hrest)]
    exact (if_neg h.not_isEmpty).trans hexponent

theorem skipUnsigned_append {s rest : List Char} (h : IsUnsigned s) (hrest : Ends rest) :
    skipUnsigned (s ++ rest) = .ok rest := by
  obtain ⟨hw, hf, he⟩ := h
  have hstops := hf.stops he hrest
  have hafter := skipAfterDigits_append hf he hrest
  rw [List.append_assoc, List.append_assoc]
  generalize _ ++ (_ ++ rest) = more at hstops hafter
  cases hw with
  | zero =>
    cases more with
    | nil => exact hafter
    | cons c more =>
      have hc : ¬ isDigit c = true := Bool.eq_false_iff.1 (hstops c rfl)
      exact (if_neg hc).trans hafter
  | digits first ne others =>
    simp only [List.cons_append, skipUnsigned, if_neg ne, if_pos first,
      splitDigits_stops others hstops]
    exact hafter

theorem skipNumber_append {s rest : List Char} (h : IsNumeral s) (hrest : Ends rest) :
    skipNumber (s ++ rest) = .ok rest := by
  cases h with
  | unsigned h =>
    obtain ⟨c, more, rfl, hc⟩ := h.head
    have hminus : c ≠ '-' := by
      rintro rfl
      cases hc
    exact (if_neg hminus).trans (skipUnsigned_append h hrest)
  | negative h => exact skipUnsigned_append h hrest

theorem ends_blanks (blanks : Blanks) {s : List Char} (h : Ends s) : Ends (blanks.val ++ s) := by
  obtain ⟨blanks, hblanks⟩ := blanks
  cases blanks with
  | nil => exact h
  | cons b more =>
    apply ends_cons
    have hb := hblanks b List.mem_cons_self
    simp only [isBlank, Bool.or_eq_true, beq_iff_eq] at hb
    rcases hb with ((rfl | rfl) | rfl) | rfl <;> decide

theorem skipBlanks_blanks_cons (blanks : Blanks) {c : Char} (h : isBlank c = false)
    (s : List Char) : skipBlanks (blanks.val ++ c :: s) = c :: s := by
  rw [skipBlanks_blanks, skipBlanks_cons h]

/-- The rest of a row behind one of its texts, up to the bracket that closes it. -/
def rowEnd (closing : Char) (texts : List (List Char)) (rest : List Char) : List Char :=
  texts.flatMap (',' :: ·) ++ closing :: rest

theorem rowEnd_nil (closing : Char) (rest : List Char) :
    rowEnd closing [] rest = closing :: rest :=
  rfl

theorem rowEnd_cons (closing : Char) (text : List Char) (texts : List (List Char))
    (rest : List Char) :
    rowEnd closing (text :: texts) rest = ',' :: (text ++ rowEnd closing texts rest) := by
  rw [rowEnd, rowEnd, List.flatMap_cons, List.cons_append, List.cons_append, List.append_assoc]

theorem row_cons_append (text : List Char) (texts : List (List Char)) (closing : Char)
    (rest : List Char) :
    row (text :: texts) ++ closing :: rest = text ++ rowEnd closing texts rest := by
  rw [row, rowEnd, List.append_assoc]

theorem ends_rowEnd {closing : Char} (hclosing : closing = ']' ∨ closing = '}') (blanks : Blanks)
    (texts : List (List Char)) (rest : List Char) :
    Ends (blanks.val ++ rowEnd closing texts rest) := by
  cases texts with
  | nil =>
    refine ends_blanks blanks (ends_cons ?_ rest)
    rcases hclosing with rfl | rfl <;> decide
  | cons text texts =>
    rw [rowEnd_cons]
    exact ends_blanks blanks (ends_cons (by decide) _)

theorem Padded.text_append (p : Padded) (rest : List Char) :
    p.text ++ rest = p.before.val ++ (p.core ++ (p.behind.val ++ rest)) := by
  rw [Padded.text, List.append_assoc, List.append_assoc]

def skipStill : List Opened × List Char → Except Fault (List Char)
  | ([], rest) => .ok rest
  | (o :: outer, rest) => skipValuesFrom (o :: outer) rest

def skipBehind (opened : List Opened) (s : List Char) : Except Fault (List Char) :=
  skipClosings opened s >>= skipStill

theorem skipValuesFrom_eq (opened : List Opened) (s : List Char) :
    skipValuesFrom opened s = skipOne opened s >>= skipStill := by
  rw [skipValuesFrom]
  split
  · next h => simp only [h]; rfl
  · next h => simp only [h]; rfl
  · next h => simp only [h]; rfl

/-- From the beginning of the text the value is skipped, and then what is open around it. -/
def Skips (v : List Char) : Prop :=
  ∀ (opened : List Opened) (s rest : List Char), skipBlanks s = v ++ rest → Ends rest →
    skipValuesFrom opened s = skipBehind opened rest

theorem skips_scalar {c : Char} {more : List Char} (hc : c ≠ '[' ∧ c ≠ '{')
    (h : ∀ rest, Ends rest → skipScalar c (more ++ rest) = .ok rest) : Skips (c :: more) := by
  intro opened s rest hs hrest
  rw [List.cons_append] at hs
  rw [skipValuesFrom_eq, skipOne, hs]
  simp only [if_neg hc.1, if_neg hc.2, h rest hrest]
  rfl

theorem skips_numeral {v : List Char} (h : IsNumeral v) : Skips v := by
  have hskip : ∀ rest, Ends rest → skipNumber (v ++ rest) = .ok rest :=
    fun _ => skipNumber_append h
  obtain ⟨c, more, rfl, hc⟩ := h.head
  have hopens : c = '-' ∨ isDigit c = true := hc
  refine skips_scalar ⟨hc.ne (by decide), hc.ne (by decide)⟩ fun rest hrest => ?_
  rw [skipScalar, if_neg (hc.ne (by decide)), if_neg (hc.ne (by decide)),
    if_neg (hc.ne (by decide)), if_neg (hc.ne (by decide)), if_pos hopens]
  exact hskip rest hrest

theorem skips_quoted {v : List Char} (h : IsQuoted v) : Skips v := by
  cases h with
  | quoted h =>
    refine skips_scalar (by decide) fun rest _ => ?_
    rw [List.append_assoc]
    exact skipString_inside h rest

structure Passes (o : Opened) (text : List Char) : Prop where
  opens : ∀ rest, ∃ c more, skipBlanks (text ++ rest) = c :: more ∧ isBlank c = false ∧
    c ≠ o.closing
  skips : ∃ behind : Blanks, ∀ (outer : List Opened) (s rest : List Char),
    skipBlanks s = skipBlanks (text ++ rest) → Ends (behind.val ++ rest) →
      skipToValue o s >>= skipValuesFrom (o :: outer) =
        skipBehind (o :: outer) (behind.val ++ rest)

theorem Opened.closing_cases (o : Opened) : o.closing = ']' ∨ o.closing = '}' := by
  cases o
  · exact .inl rfl
  · exact .inr rfl

theorem Opened.isBlank_closing (o : Opened) : isBlank o.closing = false := by
  cases o <;> rfl

theorem skipClosings_close (o : Opened) (outer : List Opened) (blanks : Blanks)
    (rest : List Char) :
    skipClosings (o :: outer) (blanks.val ++ o.closing :: rest) = skipClosings outer rest := by
  rw [skipClosings, skipBlanks_blanks_cons blanks o.isBlank_closing]
  exact if_pos rfl

theorem skipBehind_comma (o : Opened) (outer : List Opened) (blanks : Blanks) (s : List Char) :
    skipBehind (o :: outer) (blanks.val ++ ',' :: s) =
      skipToValue o s >>= skipValuesFrom (o :: outer) := by
  have hcomma : ',' ≠ o.closing := by
    cases o <;> decide
  rw [skipBehind, skipClosings, skipBlanks_blanks_cons blanks rfl]
  simp only [if_neg hcomma, if_true]
  cases skipToValue o s <;> rfl

/-- Behind one of its elements or members, all that is open up to its closing is skipped. -/
theorem skipBehind_rowEnd {o : Opened} {texts : List (List Char)} (h : ∀ t ∈ texts, Passes o t)
    (outer : List Opened) (blanks : Blanks) (rest : List Char) :
    skipBehind (o :: outer) (blanks.val ++ rowEnd o.closing texts rest) =
      skipBehind outer rest := by
  induction texts generalizing blanks with
  | nil => rw [rowEnd_nil, skipBehind, skipClosings_close, skipBehind]
  | cons text texts ih =>
    obtain ⟨behind, hskips⟩ := (h text List.mem_cons_self).skips
    rw [rowEnd_cons, skipBehind_comma, hskips outer _ _ rfl (ends_rowEnd o.closing_cases _ _ _),
      ih fun t ht => h t (List.mem_cons_of_mem _ ht)]

theorem skipOpening_row {o : Opened} {texts : List (List Char)} (h : ∀ t ∈ texts, Passes o t)
    (outer : List Opened) (blanks : Blanks) (rest : List Char) :
    skipOpening o outer (blanks.val ++ (row texts ++ o.closing :: rest)) >>= skipStill =
      skipBehind outer rest := by
  cases texts with
  | nil =>
    rw [row, List.nil_append, skipOpening, skipBlanks_blanks_cons blanks o.isBlank_closing]
    exact congrArg (· >>= skipStill) (if_pos rfl)
  | cons text texts =>
    obtain ⟨hopens, behind, hskips⟩ := h text List.mem_cons_self
    obtain ⟨c, more, hhead, hblank, hc⟩ := hopens (rowEnd o.closing texts rest)
    have hsame : skipBlanks (c :: more) = skipBlanks (text ++ rowEnd o.closing texts rest) :=
      (skipBlanks_cons hblank more).trans hhead.symm
    rw [row_cons_append, skipOpening, skipBlanks_blanks, hhead]
    simp only [if_neg hc]
    -- no comma stands before the first of them, but it is skipped as the others are
    rw [← skipBehind_rowEnd (fun t ht => h t (List.mem_cons_of_mem _ ht)) outer behind rest,
      ← hskips outer _ _ hsame (ends_rowEnd o.closing_cases _ _ _)]
    cases skipToValue o (c :: more) <;> rfl

theorem skips_opening {o : Opened} {opening : Char} {blanks : Blanks}
    {texts : List (List Char)} (h : ∀ t ∈ texts, Passes o t)
    (hone : ∀ opened s rest, skipBlanks s = opening :: rest →
      skipOne opened s = skipOpening o opened rest) :
    Skips (opening :: (blanks.val ++ (row texts ++ [o.closing]))) := by
  intro opened s rest hs _
  rw [List.cons_append, List.append_assoc, List.append_assoc, List.singleton_append] at hs
  rw [skipValuesFrom_eq, hone opened s _ hs, skipOpening_row h]

theorem IsValue.skipBlanks_text {p : Padded} (h : IsValue p.core) (rest : List Char) :
    skipBlanks (p.text ++ rest) = p.core ++ (p.behind.val ++ rest) := by
  rw [p.text_append, skipBlanks_blanks, h.skipBlanks_append]

theorem passes_element {p : Padded} (h : IsValue p.core) (hskips : Skips p.core) :
    Passes .list p.text where
  opens rest := by
    obtain ⟨c, more, hc, hblank, hclose, -⟩ := h.head
    rw [h.skipBlanks_text, hc]
    exact ⟨c, _, rfl, hblank, hclose⟩
  skips := by
    refine ⟨p.behind, fun outer s rest hs hends => ?_⟩
    rw [h.skipBlanks_text] at hs
    exact hskips _ s _ hs hends

theorem readColon_blanks (blanks : Blanks) (s : List Char) :
    readColon (blanks.val ++ ':' :: s) = .ok s := by
  rw [readColon, skipBlanks_blanks_cons blanks rfl]
  rfl

def behindQuote (inside : List Char) (m : Padded × Padded) (rest : List Char) : List Char :=
  inside ++ '"' :: (m.1.behind.val ++ ':' :: (m.2.text ++ rest))

theorem skipBlanks_name {m : Padded × Padded} {inside : List Char}
    (h : m.1.core = quoted inside) (rest : List Char) :
    skipBlanks (memberText m ++ rest) = '"' :: behindQuote inside m rest := by
  rw [memberText, List.append_assoc, Padded.text_append, skipBlanks_blanks, h, quoted,
    List.cons_append, skipBlanks_cons rfl, List.append_assoc]
  rfl

theorem passes_member {m : Padded × Padded} (hname : IsQuoted m.1.core) (h : IsValue m.2.core)
    (hskips : Skips m.2.core) : Passes .object (memberText m) := by
  obtain ⟨inside, hcore, hinside⟩ := hname.exists_inside
  refine ⟨fun rest => ⟨'"', _, skipBlanks_name hcore rest, rfl, by decide⟩, m.2.behind,
    fun outer s rest hs hends => ?_⟩
  have hvalue := hskips (.object :: outer) (m.2.text ++ rest) _ (h.skipBlanks_text rest) hends
  rw [skipToValue, hs, skipBlanks_name hcore]
  simp only [if_true, behindQuote]
  rw [skipString_inside hinside]
  exact (congrArg (· >>= skipValuesFrom (.object :: outer)) (readColon_blanks _ _)).trans hvalue

theorem IsValue.skips {v : List Char} (h : IsValue v) : Skips v := by
  induction h with
  | null => exact skips_scalar (by decide) fun rest _ => rfl
  | yes => exact skips_scalar (by decide) fun rest _ => rfl
  | no => exact skips_scalar (by decide) fun rest _ => rfl
  | numeral h => exact skips_numeral h
  | quoted h => exact skips_quoted h
  | array blanks h ih =>
    refine skips_opening (o := .list) (fun t ht => ?_) fun opened s rest hs => ?_
    · obtain ⟨p, hp, rfl⟩ := List.mem_map.1 ht
      exact passes_element (h p hp) (ih p hp)
    · rw [skipOne, hs]
      exact if_pos rfl
  | object blanks names values ih =>
    refine skips_opening (o := .object) (fun t ht => ?_) fun opened s rest hs => ?_
    · obtain ⟨m, hm, rfl⟩ := List.mem_map.1 ht
      exact passes_member (names m hm) (values m hm) (ih m hm)
    · rw [skipOne, hs]
      exact (if_neg (by decide)).trans (if_pos rfl)

/-- Exactly the value is skipped. -/
theorem IsValue.skipValue {v s rest : List Char} (h : IsValue v) (hs : skipBlanks s = v ++ rest)
    (hrest : Ends rest) : skipValue s = .ok rest :=
  h.skips [] s rest hs hrest

end EventStream.Json
