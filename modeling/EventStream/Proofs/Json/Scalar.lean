import EventStream.Json.Print
import EventStream.Json.Scan

/-!
Texts and integers. A reader takes exactly what was written for them, and gives it back, whatever
follows a text, and whatever follows an integer that could not go on with it.
-/

set_option autoImplicit false

namespace EventStream.Json

theorem hexValue?_digitChar {d : Nat} (h : d < 16) : hexValue? (Nat.digitChar d) = some d := by
  have hall : ∀ d : Fin 16, hexValue? (Nat.digitChar d) = some d.val := by decide
  exact hall ⟨d, h⟩

theorem length_le_encodeChars (chars : List Char) :
    chars.length ≤ (Utf8.encodeChars chars).length := by
  induction chars with
  | nil => exact Nat.le_refl 0
  | cons c chars ih =>
    have hc : 0 < (String.utf8EncodeChar c).length :=
      List.length_pos_iff.2 String.utf8EncodeChar_ne_nil
    rw [Utf8.encodeChars, List.flatMap_cons, List.length_append, List.length_cons]
    rw [Utf8.encodeChars] at ih
    omega

theorem readHex4_digits {a b c d : Nat} (ha : a < 16) (hb : b < 16) (hc : c < 16) (hd : d < 16)
    (rest : List Char) :
    readHex4 (Nat.digitChar a :: Nat.digitChar b :: Nat.digitChar c :: Nat.digitChar d :: rest) =
      .ok (((a * 16 + b) * 16 + c) * 16 + d, rest) := by
  have hlength : ¬ (Utf8.encodeChars ((Nat.digitChar a :: Nat.digitChar b :: Nat.digitChar c ::
      Nat.digitChar d :: rest).take 4)).length < 4 :=
    Nat.not_lt.2 (length_le_encodeChars
      [Nat.digitChar a, Nat.digitChar b, Nat.digitChar c, Nat.digitChar d])
  rw [readHex4, if_neg hlength]
  simp only [hexValue?_digitChar ha, hexValue?_digitChar hb, hexValue?_digitChar hc,
    hexValue?_digitChar hd]

/-- A control character is read back from the four digits of its code. -/
theorem readEscape_control {c : Char} (h : isControl c = true) (rest : List Char) :
    readEscape ('u' :: '0' :: '0' :: (hexDigits (UInt8.ofNat c.toNat) ++ rest)) =
      .ok (c, rest) := by
  have hc : c.toNat < 32 := of_decide_eq_true h
  have hbyte : (UInt8.ofNat c.toNat).toNat = c.toNat := Nat.mod_eq_of_lt (by omega)
  have hread : readHex4 ('0' :: '0' :: (hexDigits (UInt8.ofNat c.toNat) ++ rest)) =
      .ok (c.toNat, rest) := by
    have hdigits := readHex4_digits (a := 0) (b := 0) (c := c.toNat / 16) (d := c.toNat % 16)
      (by decide) (by decide) (by omega) (by omega) rest
    have hcode : ((0 * 16 + 0) * 16 + c.toNat / 16) * 16 + c.toNat % 16 = c.toNat := by omega
    rw [hcode] at hdigits
    rw [hexDigits, hbyte]
    exact hdigits
  have htrailing : isTrailing c.toNat = false := by
    rw [isTrailing, decide_eq_false (by omega), Bool.false_and]
  have hleading : isLeading c.toNat = false := by
    rw [isLeading, decide_eq_false (by omega), Bool.false_and]
  change readUnicodeEscape _ = _
  rw [readUnicodeEscape, hread]
  change (if isTrailing c.toNat then _ else if isLeading c.toNat then _ else _) = _
  rw [htrailing, hleading, Char.ofNat_toNat]
  rfl

theorem readCharsFrom_escape {found s rest : List Char} {e : Char}
    (h : readEscape s = .ok (e, rest)) :
    readCharsFrom found ('\\' :: s) = readCharsFrom (e :: found) rest := by
  rw [readCharsFrom, if_neg (by decide), if_pos rfl]
  split
  · next h' => rw [h] at h'; cases h'
  · next h' => rw [h] at h'; cases h'; rfl

theorem readCharsFrom_writeChar (found : List Char) (c : Char) (s : List Char) :
    readCharsFrom found (writeChar c ++ s) = readCharsFrom (c :: found) s := by
  unfold writeChar
  split
  · next hc => subst hc; exact readCharsFrom_escape rfl
  rename_i hquote
  split
  · next hc => subst hc; exact readCharsFrom_escape rfl
  rename_i hslash
  split
  · next hc => subst hc; exact readCharsFrom_escape rfl
  split
  · next hc => subst hc; exact readCharsFrom_escape rfl
  split
  · next hc => subst hc; exact readCharsFrom_escape rfl
  split
  · next hc => subst hc; exact readCharsFrom_escape rfl
  split
  · next hc => subst hc; exact readCharsFrom_escape rfl
  split
  · next hcontrol => exact readCharsFrom_escape (readEscape_control hcontrol s)
  · next hcontrol =>
    rw [List.singleton_append, readCharsFrom, if_neg hquote, if_neg hslash, if_neg hcontrol]

theorem readCharsFrom_flatMap (found chars rest : List Char) :
    readCharsFrom found (chars.flatMap writeChar ++ '"' :: rest) =
      .ok (found.reverse ++ chars, rest) := by
  induction chars generalizing found with
  | nil =>
    rw [List.flatMap_nil, List.nil_append, readCharsFrom, if_pos rfl, List.append_nil]
  | cons c chars ih =>
    rw [List.flatMap_cons, List.append_assoc, readCharsFrom_writeChar, ih, List.reverse_cons,
      List.append_assoc]
    rfl

/-- A text is read back behind its opening quote. -/
theorem readString_flatMap (text : String) (rest : List Char) :
    readString (text.toList.flatMap writeChar ++ '"' :: rest) = .ok (text, rest) := by
  rw [readString, readCharsFrom_flatMap]
  change Except.ok (String.ofList text.toList, rest) = _
  rw [String.ofList_toList]

theorem writeString_append (text : String) (rest : List Char) :
    writeString text ++ rest = '"' :: (text.toList.flatMap writeChar ++ '"' :: rest) := by
  change '"' :: ((text.toList.flatMap writeChar ++ ['"']) ++ rest) = _
  rw [List.append_assoc]
  rfl

/-- What may follow an integer: nothing that could go on with it. -/
def Ends (rest : List Char) : Prop :=
  ∀ c ∈ rest.head?, isDigit c = false ∧ c ≠ '.' ∧ c ≠ 'e' ∧ c ≠ 'E'

theorem isDigit_toDigits {n : Nat} {c : Char} (h : c ∈ Nat.toDigits 10 n) : isDigit c = true := by
  have hc := Nat.isDigit_of_mem_toDigits (by decide) (Nat.le_refl 10) h
  rw [isDigit]
  exact hc

/-- No numeral but that of nought begins with a nought. -/
theorem toDigits_eq_zero_cons {n : Nat} {more : List Char} (h : Nat.toDigits 10 n = '0' :: more) :
    n = 0 := by
  induction n using Nat.strongRecOn generalizing more with
  | _ n ih =>
    rw [Nat.toDigits_eq_if (by decide)] at h
    by_cases hn : n < 10
    · rw [if_pos hn] at h
      have hall : ∀ d : Fin 10, Nat.digitChar d = '0' → d.val = 0 := by decide
      exact hall ⟨n, hn⟩ (List.cons.inj h).1
    · rw [if_neg hn] at h
      cases hd : Nat.toDigits 10 (n / 10) with
      | nil => exact absurd hd Nat.toDigits_ne_nil
      | cons c front =>
        rw [hd] at h
        obtain rfl : c = '0' := (List.cons.inj h).1
        have := ih (n / 10) (by omega) hd
        omega

theorem le_ofDigitChars (digits : List Char) (n : Nat) : n ≤ Nat.ofDigitChars 10 digits n := by
  induction digits generalizing n with
  | nil => exact Nat.le_refl n
  | cons c digits ih =>
    rw [Nat.ofDigitChars_cons]
    exact Nat.le_trans (by omega) (ih _)

/-- Digits are taken to the last one if the number that they give fits. -/
theorem extendDigits_eq {n : Nat} {digits : List Char}
    (h : Nat.ofDigitChars 10 digits n ≤ maxUnsigned) :
    extendDigits n digits = (Nat.ofDigitChars 10 digits n, digits.length) := by
  induction digits generalizing n with
  | nil => rfl
  | cons c digits ih =>
    have hvalue : 10 * n + (c.toNat - '0'.toNat) = n * 10 + digitValue c := by
      rw [digitValue, Nat.mul_comm]
    rw [Nat.ofDigitChars_cons, hvalue] at h ⊢
    have hnext : n * 10 + digitValue c ≤ maxUnsigned := Nat.le_trans (le_ofDigitChars digits _) h
    simp only [extendDigits, if_pos hnext, ih h, List.length_cons]

theorem splitDigits_append {digits rest : List Char} (hdigits : ∀ c ∈ digits, isDigit c = true)
    (hrest : Ends rest) : splitDigits (digits ++ rest) = (digits, rest) := by
  rw [splitDigits, List.takeWhile_append_of_pos hdigits, List.dropWhile_append_of_pos hdigits]
  cases rest with
  | nil => rw [List.takeWhile_nil, List.dropWhile_nil, List.append_nil]
  | cons c rest =>
    have hc := (hrest c rfl).1
    rw [List.takeWhile_cons_of_neg (by rw [hc]; exact Bool.false_ne_true),
      List.dropWhile_cons_of_neg (by rw [hc]; exact Bool.false_ne_true), List.append_nil]

theorem readAfterDigits_toDigits {n : Nat} (hn : n ≤ maxUnsigned) (negative : Bool)
    {rest : List Char} (hrest : Ends rest) :
    readAfterDigits negative (Nat.toDigits 10 n) rest = .ok (integerNumber negative n, rest) := by
  have hvalue : Nat.ofDigitChars 10 (Nat.toDigits 10 n) 0 = n :=
    Nat.ofDigitChars_toDigits (by decide) (Nat.le_refl 10)
  rw [readAfterDigits, extendDigits_eq (hvalue.symm ▸ hn), hvalue]
  cases rest with
  | nil => exact if_pos rfl
  | cons c rest =>
    obtain ⟨-, hdot, he, hE⟩ := hrest c rfl
    simp only [if_neg hdot, if_neg (not_or.2 ⟨he, hE⟩)]
    exact if_pos trivial

theorem readUnsigned_toDigits {n : Nat} (hn : n ≤ maxUnsigned) (negative : Bool)
    {rest : List Char} (hrest : Ends rest) :
    readUnsigned negative (Nat.toDigits 10 n ++ rest) = .ok (integerNumber negative n, rest) := by
  have hread := readAfterDigits_toDigits hn negative hrest
  have hsplit := splitDigits_append (fun c hc => isDigit_toDigits (n := n) hc) hrest
  cases hdigits : Nat.toDigits 10 n with
  | nil => exact absurd hdigits Nat.toDigits_ne_nil
  | cons c more =>
    have hc : isDigit c = true := isDigit_toDigits (n := n) (hdigits ▸ List.mem_cons_self)
    rw [hdigits] at hread hsplit
    rw [List.cons_append] at hsplit ⊢
    simp only [readUnsigned]
    -- behind a leading nought no further digit is read, so the number must be nought
    by_cases hzero : c = '0'
    · subst hzero
      have hn0 := toDigits_eq_zero_cons hdigits
      subst hn0
      obtain rfl : more = [] := (List.cons.inj hdigits).2.symm
      rw [if_pos rfl]
      cases rest with
      | nil => exact hread
      | cons d rest =>
        have hd : ¬ isDigit d = true := by
          rw [(hrest d rfl).1]
          exact Bool.false_ne_true
        exact (if_neg hd).trans hread
    · rw [if_neg hzero, if_pos hc, hsplit]
      exact hread

def Fits64 (n : Int) : Prop :=
  -0x8000000000000000 ≤ n ∧ n ≤ 0xFFFFFFFFFFFFFFFF

theorem writeNumber_int (n : Int) :
    writeNumber (.int n) =
      if 0 ≤ n then Nat.toDigits 10 n.toNat else '-' :: Nat.toDigits 10 (-n).toNat := by
  rw [writeNumber, Int.toString_eq_repr, Int.repr_eq_if]
  split
  · exact Nat.toList_repr
  · rw [String.toList_append, Nat.toList_repr]
    rfl

theorem readNumber_int {n : Int} (hn : Fits64 n) {rest : List Char} (hrest : Ends rest) :
    readNumber (writeNumber (.int n) ++ rest) = .ok (.int n, rest) := by
  obtain ⟨hleast, hgreatest⟩ := hn
  rw [writeNumber_int]
  by_cases hsign : 0 ≤ n
  · have hread := readUnsigned_toDigits (n := n.toNat) (by rw [maxUnsigned]; omega) false hrest
    have hint : integerNumber false n.toNat = .int n := by
      rw [integerNumber]
      exact congrArg Number.int (Int.toNat_of_nonneg hsign)
    rw [if_pos hsign, ← hint, ← hread]
    cases hdigits : Nat.toDigits 10 n.toNat with
    | nil => exact absurd hdigits Nat.toDigits_ne_nil
    | cons c more =>
      have hc : isDigit c = true := isDigit_toDigits (n := n.toNat) (hdigits ▸ List.mem_cons_self)
      have hminus : c ≠ '-' := by
        rintro rfl
        exact absurd hc (by decide)
      exact if_neg hminus
  · have hread := readUnsigned_toDigits (n := (-n).toNat) (by rw [maxUnsigned]; omega) true hrest
    have hint : integerNumber true (-n).toNat = .int n := by
      have hnat : ((-n).toNat : Int) = -n := Int.toNat_of_nonneg (by omega)
      have hsmall : ¬ ((-n).toNat = 0 ∨ Binary64.signBit < (-n).toNat) := by
        rw [Binary64.signBit]
        omega
      rw [integerNumber, if_neg (by decide), if_neg hsmall, hnat, Int.neg_neg]
    rw [if_neg hsign, ← hint, ← hread, List.cons_append]
    simp only [readNumber, if_true]

end EventStream.Json
