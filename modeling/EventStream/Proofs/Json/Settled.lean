import EventStream.Json.Value
import EventStream.Proofs.Json.Skipping

/-!
What a reader makes of a value is settled by the text of the value: the reader takes all of the
text or fails, and which of the two, and what it gives, is the same whatever follows. Faults are
left out, since they tell how much text was there.
-/

set_option autoImplicit false

namespace EventStream.Json

section toOption

variable {ε α β : Type}

theorem toOption_bind (x : Except ε α) (f : α → Except ε β) :
    (x >>= f).toOption = x.toOption.bind fun a => (f a).toOption := by
  cases x <;> rfl

theorem toOption_map (f : α → β) (x : Except ε α) :
    (x.map f).toOption = x.toOption.map f := by
  cases x <;> rfl

end toOption

/-- What is made of a text does not depend on what follows, as long as that does not go on with
a number. -/
def Steady {α : Type} (read : List Char → Except Fault (α × List Char)) : Prop :=
  ∃ o : Option α, ∀ rest, Ends rest → (read rest).toOption = o.map (·, rest)

/-- From anywhere in the blanks before it a reader makes the same of a text whatever follows. -/
def Settled {α : Type} (read : List Char → Except Fault (α × List Char)) (text : List Char) :
    Prop :=
  ∃ o : Option α, ∀ s rest, skipBlanks s = text ++ rest → Ends rest →
    (read s).toOption = o.map (·, rest)

def valueOf {α : Type} (read : List Char → Except Fault (α × List Char)) (v : List Char) :
    Option α :=
  (read v).toOption.map Prod.fst

section

variable {α β : Type} {read other : List Char → Except Fault (α × List Char)} {v : List Char}

theorem Steady.ok (a : α) : Steady fun rest => .ok (a, rest) :=
  ⟨some a, fun _ _ => rfl⟩

theorem Steady.error (fault : List Char → Fault) :
    Steady fun rest => (.error (fault rest) : Except Fault (α × List Char)) :=
  ⟨none, fun _ _ => rfl⟩

theorem Steady.congr (h : Steady other) (heq : ∀ rest, Ends rest → read rest = other rest) :
    Steady read := by
  obtain ⟨o, ho⟩ := h
  refine ⟨o, fun rest hrest => ?_⟩
  rw [heq rest hrest, ho rest hrest]

theorem Steady.map (h : Steady read) (f : α → β) :
    Steady fun rest => (read rest).map fun x => (f x.1, x.2) := by
  obtain ⟨o, ho⟩ := h
  refine ⟨o.map f, fun rest hrest => ?_⟩
  rw [toOption_map, ho rest hrest]
  cases o <;> rfl

theorem Steady.bind {f : α → List Char → Except Fault (β × List Char)} (h : Steady read)
    (hf : ∀ a, Steady (f a)) : Steady fun rest => read rest >>= fun x => f x.1 x.2 := by
  obtain ⟨o, ho⟩ := h
  cases o with
  | none =>
    refine ⟨none, fun rest hrest => ?_⟩
    rw [toOption_bind, ho rest hrest]
    rfl
  | some a =>
    obtain ⟨p, hp⟩ := hf a
    refine ⟨p, fun rest hrest => ?_⟩
    rw [toOption_bind, ho rest hrest]
    exact hp rest hrest

/-- A reader that goes by the first character that is not blank is settled by what it makes of
the text from there. -/
theorem Steady.settled (h : Steady other)
    (heq : ∀ s rest, skipBlanks s = v ++ rest → Ends rest → read s = other rest) :
    Settled read v := by
  obtain ⟨o, ho⟩ := h
  refine ⟨o, fun s rest hs hrest => ?_⟩
  rw [heq s rest hs hrest, ho rest hrest]

/-- What a settled reader makes of a value is what it makes of the text alone. -/
theorem Settled.eq_valueOf (h : Settled read v) (hv : IsValue v) {s rest : List Char}
    (hs : skipBlanks s = v ++ rest) (hrest : Ends rest) :
    (read s).toOption = (valueOf read v).map (·, rest) := by
  obtain ⟨o, ho⟩ := h
  have hends : Ends [] := nofun
  have hself : valueOf read v = o := by
    rw [valueOf, ho v [] hv.skipBlanks_self hends]
    cases o <;> rfl
  rw [ho s rest hs hrest, hself]

theorem Settled.map (h : Settled read v) (f : α → β) :
    Settled (fun s => (read s).map fun x => (f x.1, x.2)) v := by
  obtain ⟨o, ho⟩ := h
  refine ⟨o.map f, fun s rest hs hrest => ?_⟩
  rw [toOption_map, ho s rest hs hrest]
  cases o <;> rfl

end

theorem readUnicodeEscape_unit {digits : List Char} {n : Nat} (h : NamesUnit digits n)
    (rest : List Char) :
    readUnicodeEscape (digits ++ rest) =
      if isTrailing n then .error (.behind .loneSurrogate rest)
      else if isLeading n then readTrailing n rest else .ok (Char.ofNat n, rest) := by
  rw [readUnicodeEscape, readHex4_unit h]
  rfl

theorem readTrailing_unit {digits : List Char} {n : Nat} (h : NamesUnit digits n) (m : Nat)
    (rest : List Char) :
    readTrailing m ('\\' :: 'u' :: (digits ++ rest)) =
      if isTrailing n then .ok (pairChar m n, rest)
      else .error (.behind .loneSurrogate rest) := by
  simp only [readTrailing, ne_eq, not_true, if_false, readHex4_unit h]
  rfl

theorem readEscape_unit {digits : List Char} {n : Nat} (h : NamesUnit digits n)
    (rest : List Char) :
    readEscape ('u' :: (digits ++ rest)) =
      if isTrailing n then .error (.behind .loneSurrogate rest)
      else if isLeading n then readTrailing n rest else .ok (Char.ofNat n, rest) := by
  rw [readEscape, simpleEscape?_u, ← readUnicodeEscape_unit h]
  rfl

theorem isTrailing_of_isLeading {n : Nat} (h : isLeading n = true) : isTrailing n = false := by
  simp only [isLeading, isTrailing, Bool.and_eq_true, decide_eq_true_eq, Bool.and_eq_false_iff,
    decide_eq_false_iff_not] at h ⊢
  omega

theorem readCharsFrom_plain {c : Char} (h : IsPlain c) (found s : List Char) :
    readCharsFrom found (c :: s) = readCharsFrom (c :: found) s := by
  have hcontrol : ¬ isControl c = true := Bool.eq_false_iff.1 h.not_control
  rw [readCharsFrom, if_neg h.ne_quote, if_neg h.ne_backslash, if_neg hcontrol]

theorem readCharsFrom_fault {found s : List Char} {fault : Fault}
    (h : readEscape s = .error fault) : readCharsFrom found ('\\' :: s) = .error fault := by
  rw [readCharsFrom, if_neg (by decide), if_pos rfl]
  split
  · next h' => rw [h] at h'; cases h'; rfl
  · next h' => rw [h] at h'; cases h'

theorem readCharsFrom_simple {c e : Char} (h : simpleEscape? c = some e) (found s : List Char) :
    readCharsFrom found ('\\' :: c :: s) = readCharsFrom (e :: found) s := by
  apply readCharsFrom_escape
  simp only [readEscape, h]

/-- Reading from here on quoted characters fails whatever follows them, or passes to further quoted
characters whatever follows those. -/
def Resumes (read : List Char → Except Fault (Char × List Char)) (length : Nat) : Prop :=
  (∀ rest, ∃ fault, read rest = .error fault) ∨
    ∃ e s, Inside s ∧ s.length ≤ length ∧ ∀ rest, read rest = .ok (e, s ++ '"' :: rest)

theorem readTrailing_resumes (m : Nat) {s : List Char} (h : Inside s) :
    Resumes (fun rest => readTrailing m (s ++ '"' :: rest)) s.length := by
  cases h with
  | nil => exact .inl fun rest => ⟨_, rfl⟩
  | plain h _ =>
    left
    intro rest
    simp only [List.cons_append, readTrailing, if_pos h.ne_backslash]
    exact ⟨_, rfl⟩
  | @escape c e s h _ =>
    have hc : c ≠ 'u' := by
      rintro rfl
      rw [simpleEscape?_u] at h
      cases h
    left
    intro rest
    simp only [List.cons_append, readTrailing, ne_eq, not_true, if_false, if_pos hc]
    exact ⟨_, rfl⟩
  | @unit digits s n h more =>
    simp only [List.cons_append, List.append_assoc, readTrailing_unit h]
    by_cases htrailing : isTrailing n = true
    · refine .inr ⟨_, s, more, ?_, fun rest => if_pos htrailing⟩
      simp only [List.length_cons, List.length_append]
      omega
    · exact .inl fun rest => ⟨_, if_neg htrailing⟩

theorem readEscape_resumes {digits s : List Char} {n : Nat} (h : NamesUnit digits n)
    (more : Inside s) :
    Resumes (fun rest => readEscape ('u' :: (digits ++ (s ++ '"' :: rest)))) s.length := by
  simp only [readEscape_unit h]
  by_cases htrailing : isTrailing n = true
  · exact .inl fun rest => ⟨_, if_pos htrailing⟩
  simp only [if_neg htrailing]
  by_cases hleading : isLeading n = true
  · simp only [if_pos hleading]
    exact readTrailing_resumes n more
  · simp only [if_neg hleading]
    exact .inr ⟨_, s, more, Nat.le_refl _, fun rest => rfl⟩

/-- Quoted characters are read to the end or not at all. -/
theorem readCharsFrom_inside {s : List Char} (h : Inside s) (found : List Char) :
    ∃ o : Option (List Char), ∀ rest,
      (readCharsFrom found (s ++ '"' :: rest)).toOption = o.map (·, rest) := by
  -- a pair of surrogates takes up two units at once, so the induction is on the length
  induction hn : s.length using Nat.strongRecOn generalizing s found with
  | _ n ih =>
    subst hn
    cases h with
    | nil =>
      refine ⟨some found.reverse, fun rest => ?_⟩
      rw [List.nil_append, readCharsFrom, if_pos rfl]
      rfl
    | @plain c s hc more =>
      obtain ⟨o, ho⟩ := ih s.length (Nat.lt_succ_self _) more (c :: found) rfl
      refine ⟨o, fun rest => ?_⟩
      rw [List.cons_append, readCharsFrom_plain hc, ho]
    | @escape c e s hc more =>
      obtain ⟨o, ho⟩ := ih s.length (by simp only [List.length_cons]; omega) more (e :: found) rfl
      refine ⟨o, fun rest => ?_⟩
      rw [List.cons_append, List.cons_append, readCharsFrom_simple hc, ho]
    | @unit digits s n hdigits more =>
      simp only [List.cons_append, List.append_assoc]
      rcases readEscape_resumes hdigits more with hfault | ⟨e, t, ht, hlength, hread⟩
      · refine ⟨none, fun rest => ?_⟩
        obtain ⟨fault, hfault⟩ := hfault rest
        rw [readCharsFrom_fault hfault]
        rfl
      · have hlt : t.length < ('\\' :: 'u' :: (digits ++ s)).length := by
          simp only [List.length_cons, List.length_append]
          omega
        obtain ⟨o, ho⟩ := ih t.length hlt ht (e :: found) rfl
        refine ⟨o, fun rest => ?_⟩
        rw [readCharsFrom_escape (hread rest), ho]

theorem readCharsFrom_spells {s text : List Char} (h : Spells s text) (found rest : List Char) :
    readCharsFrom found (s ++ '"' :: rest) = .ok (found.reverse ++ text, rest) := by
  induction h generalizing found with
  | nil => rw [List.nil_append, readCharsFrom, if_pos rfl, List.append_nil]
  | plain h _ ih =>
    rw [List.cons_append, readCharsFrom_plain h, ih, List.reverse_cons, List.append_assoc]
    rfl
  | escape h _ ih =>
    rw [List.cons_append, List.cons_append, readCharsFrom_simple h, ih, List.reverse_cons,
      List.append_assoc]
    rfl
  | @unit digits s text n h hleading htrailing _ ih =>
    have hread := readEscape_unit h (s ++ '"' :: rest)
    rw [htrailing, hleading] at hread
    simp only [List.cons_append, List.append_assoc]
    rw [readCharsFrom_escape hread, ih, List.reverse_cons, List.append_assoc]
    rfl
  | @pair high low s text m n hm hn hleading htrailing _ ih =>
    have hread := readEscape_unit hm ('\\' :: 'u' :: (low ++ (s ++ '"' :: rest)))
    rw [isTrailing_of_isLeading hleading, hleading, if_neg Bool.false_ne_true, if_pos rfl,
      readTrailing_unit hn, if_pos htrailing] at hread
    simp only [List.cons_append, List.append_assoc]
    rw [readCharsFrom_escape hread, ih, List.reverse_cons, List.append_assoc]
    rfl

theorem readString_inside {s : List Char} (h : Inside s) :
    ∃ o : Option String, ∀ rest,
      (readString (s ++ '"' :: rest)).toOption = o.map (·, rest) := by
  obtain ⟨o, ho⟩ := readCharsFrom_inside h []
  refine ⟨o.map String.ofList, fun rest => ?_⟩
  rw [readString, toOption_bind, ho]
  cases o <;> rfl

theorem readString_spells {s : List Char} {text : String} (h : Spells s text.toList)
    (rest : List Char) : readString (s ++ '"' :: rest) = .ok (text, rest) := by
  rw [readString, readCharsFrom_spells h]
  change Except.ok (String.ofList text.toList, rest) = _
  rw [String.ofList_toList]

theorem Parts.value_steady (parts : Parts) (power : Int) : Steady (parts.value power) := by
  unfold Parts.value
  cases Binary64.ofDecimal? parts.negative parts.digits power with
  | none => exact .error _
  | some x => exact .ok _

/-- Whether an exponent is too much does not depend on what follows. -/
theorem exponentOf_cases (n : Nat) (digits : List Char) :
    (∃ m, ∀ rest, exponentOf n digits rest = .value m) ∨
      ∃ more, ∀ rest, exponentOf n digits rest = .excess (more ++ rest) := by
  induction digits generalizing n with
  | nil => exact .inl ⟨n, fun rest => rfl⟩
  | cons c digits ih =>
    by_cases hnext : n * 10 + digitValue c ≤ maxExponent
    · simp only [exponentOf, if_pos hnext]
      exact ih _
    · simp only [exponentOf, if_neg hnext]
      exact .inr ⟨digits, fun rest => rfl⟩

theorem readExponent_value {parts : Parts} {sign s rest : List Char} (hsign : IsExponentSign sign)
    (hs : IsDigits s) (hrest : Ends rest) {n : Nat} (hn : exponentOf 0 s rest = .value n) :
    readExponent parts (sign ++ (s ++ rest)) =
      parts.value (if sign = ['-'] then parts.power - n else parts.power + n) rest := by
  obtain ⟨c, more, rfl, hc⟩ := hs.head
  have hsplit := splitDigits_stops hs.2 hrest.stops
  rw [readExponent, splitSign_digits hsign hs]
  rw [List.cons_append] at hsplit ⊢
  simp only [hc, Bool.not_true, Bool.false_eq_true, if_false, hsplit, hn, decide_eq_true_eq]

theorem readExponent_excess {parts : Parts} {sign s rest : List Char} (hsign : IsExponentSign sign)
    (hs : IsDigits s) (hrest : Ends rest) {behind : List Char}
    (hn : exponentOf 0 s rest = .excess behind) :
    readExponent parts (sign ++ (s ++ rest)) =
      if parts.digits ≠ 0 ∧ sign ≠ ['-'] then .error (.behind .numberOutOfRange behind)
      else .ok (.real (.ofMagnitude parts.negative 0), rest) := by
  obtain ⟨c, more, rfl, hc⟩ := hs.head
  have hsplit := splitDigits_stops hs.2 hrest.stops
  rw [readExponent, splitSign_digits hsign hs]
  rw [List.cons_append] at hsplit ⊢
  simp only [hc, Bool.not_true, Bool.false_eq_true, if_false, hsplit, hn, Bool.not_eq_true',
    decide_eq_false_iff_not, ne_eq]

theorem readExponent_steady (parts : Parts) {sign s : List Char} (hsign : IsExponentSign sign)
    (hs : IsDigits s) : Steady fun rest => readExponent parts (sign ++ (s ++ rest)) := by
  rcases exponentOf_cases 0 s with ⟨n, hn⟩ | ⟨behind, hn⟩
  · let power := if sign = ['-'] then parts.power - n else parts.power + n
    exact (parts.value_steady power).congr fun rest hrest =>
      readExponent_value hsign hs hrest (hn rest)
  · by_cases hexcess : parts.digits ≠ 0 ∧ sign ≠ ['-']
    · refine (Steady.error fun rest => .behind .numberOutOfRange (behind ++ rest)).congr
        fun rest hrest => ?_
      rw [readExponent_excess hsign hs hrest (hn rest), if_pos hexcess]
    · let zero := Number.real (.ofMagnitude parts.negative 0)
      refine (Steady.ok zero).congr fun rest hrest => ?_
      rw [readExponent_excess hsign hs hrest (hn rest), if_neg hexcess]

theorem readOptionalExponent_steady (parts : Parts) {exponent : List Char}
    (h : IsExponent exponent) :
    Steady fun rest => readOptionalExponent parts (exponent ++ rest) := by
  cases h with
  | none =>
    refine (parts.value_steady parts.power).congr fun rest hrest => ?_
    cases rest with
    | nil => rfl
    | cons c rest =>
      obtain ⟨-, -, he, hE⟩ := hrest c rfl
      exact if_neg (not_or.2 ⟨he, hE⟩)
  | digits marked signed h =>
    refine (readExponent_steady parts signed h).congr fun rest _ => ?_
    rw [List.cons_append, List.append_assoc, readOptionalExponent, if_pos marked]

theorem readFraction_steady (parts : Parts) {s exponent : List Char} (hs : IsDigits s)
    (he : IsExponent exponent) :
    Steady fun rest => readFraction parts (s ++ (exponent ++ rest)) := by
  let found := extendDigits parts.digits s
  let behind : Parts := { parts with digits := found.1, power := parts.power - found.2 }
  refine (readOptionalExponent_steady behind he).congr fun rest hrest => ?_
  rw [readFraction, splitDigits_stops hs.2 (he.stops hrest)]
  exact if_neg hs.not_isEmpty

theorem readAfterDigits_steady (negative : Bool) (digits : List Char)
    {fraction exponent : List Char} (hf : IsFraction fraction) (he : IsExponent exponent) :
    Steady fun rest => readAfterDigits negative digits (fraction ++ (exponent ++ rest)) := by
  let found := extendDigits 0 digits
  let parts : Parts := ⟨negative, found.1, (digits.length - found.2 : Nat)⟩
  cases hf with
  | digits h =>
    refine (readFraction_steady parts h he).congr fun rest _ => ?_
    rw [List.cons_append, readAfterDigits]
    exact if_pos rfl
  | none =>
    cases he with
    | digits marked signed h =>
      refine (readExponent_steady parts signed h).congr fun rest _ => ?_
      have hpoint : ∀ c, c = 'e' ∨ c = 'E' → c ≠ '.' := by
        rintro c (rfl | rfl) <;> decide
      rw [List.nil_append, List.cons_append, List.append_assoc, readAfterDigits]
      exact (if_neg (hpoint _ marked)).trans (if_pos marked)
    | none =>
      by_cases htaken : found.2 = digits.length
      · refine (Steady.ok (integerNumber negative found.1)).congr fun rest hrest => ?_
        cases rest with
        | nil => exact if_pos htaken
        | cons c rest =>
          obtain ⟨-, hpoint, hmark, hMark⟩ := hrest c rfl
          exact ((if_neg hpoint).trans (if_neg (not_or.2 ⟨hmark, hMark⟩))).trans
            (if_pos htaken)
      · refine (parts.value_steady parts.power).congr fun rest hrest => ?_
        cases rest with
        | nil => exact if_neg htaken
        | cons c rest =>
          obtain ⟨-, hpoint, hmark, hMark⟩ := hrest c rfl
          exact ((if_neg hpoint).trans (if_neg (not_or.2 ⟨hmark, hMark⟩))).trans
            (if_neg htaken)

theorem readUnsigned_steady (negative : Bool) {s : List Char} (h : IsUnsigned s) :
    Steady fun rest => readUnsigned negative (s ++ rest) := by
  obtain ⟨hw, hf, he⟩ := h
  cases hw with
  | zero =>
    refine (readAfterDigits_steady negative ['0'] hf he).congr fun rest hrest => ?_
    have hstops := hf.stops he hrest
    rw [List.append_assoc, List.append_assoc]
    generalize _ ++ (_ ++ rest) = more at hstops
    cases more with
    | nil => rfl
    | cons c more =>
      have hc : ¬ isDigit c = true := Bool.eq_false_iff.1 (hstops c rfl)
      exact if_neg hc
  | @digits c more first ne others =>
    refine (readAfterDigits_steady negative (c :: more) hf he).congr fun rest hrest => ?_
    have hdigits : ∀ d ∈ c :: more, isDigit d = true := List.forall_mem_cons.2 ⟨first, others⟩
    have hsplit := splitDigits_stops hdigits (hf.stops he hrest)
    rw [List.append_assoc, List.append_assoc]
    rw [List.cons_append] at hsplit ⊢
    simp only [readUnsigned, if_neg ne, if_pos first, hsplit]

theorem readNumber_steady {s : List Char} (h : IsNumeral s) :
    Steady fun rest => readNumber (s ++ rest) := by
  cases h with
  | unsigned h =>
    refine (readUnsigned_steady false h).congr fun rest _ => ?_
    obtain ⟨c, more, rfl, hc⟩ := h.head
    have hminus : c ≠ '-' := by
      rintro rfl
      cases hc
    exact if_neg hminus
  | negative h => exact readUnsigned_steady true h

end EventStream.Json
