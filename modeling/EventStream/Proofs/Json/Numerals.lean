import EventStream.Proofs.Json.Grammar

/-!
Every number is written as a numeral. The digits of a floating-point value are those of a shortest
decimal, which is nought only for nought, so that no numeral begins with a nought that its digits
bring along.
-/

set_option autoImplicit false

namespace EventStream.Json

theorem isDigits_zero : IsDigits ['0'] :=
  ⟨List.cons_ne_nil _ _, List.forall_mem_singleton.2 rfl⟩

theorem isDigits_toDigits (n : Nat) : IsDigits (Nat.toDigits 10 n) :=
  ⟨Nat.toDigits_ne_nil, fun _ hc => isDigit_toDigits hc⟩

theorem isWhole_toDigits (n : Nat) : IsWhole (Nat.toDigits 10 n) := by
  obtain ⟨-, hdigits⟩ := isDigits_toDigits n
  cases h : Nat.toDigits 10 n with
  | nil => exact absurd h Nat.toDigits_ne_nil
  | cons c more =>
    rw [h] at hdigits
    obtain ⟨hc, hmore⟩ := List.forall_mem_cons.1 hdigits
    by_cases hzero : c = '0'
    · subst hzero
      obtain rfl := toDigits_eq_zero_cons h
      obtain rfl : more = [] := (List.cons.inj h).2.symm
      exact .zero
    · exact .digits hc hzero hmore

theorem isUnsigned_toDigits (n : Nat) : IsUnsigned (Nat.toDigits 10 n) := by
  have h := IsUnsigned.parts (isWhole_toDigits n) .none .none
  rwa [List.append_nil, List.append_nil] at h

theorem isNumeral_int (n : Int) : IsNumeral (writeNumber (.int n)) := by
  rw [writeNumber_int]
  split
  · exact .unsigned (isUnsigned_toDigits _)
  · exact .negative (isUnsigned_toDigits _)

end EventStream.Json

namespace EventStream.Binary64

open Json

theorem digits_stripZeros {fuel : Nat} {d : Decimal} (h : d.digits ≠ 0) :
    (Decimal.stripZeros fuel d).digits ≠ 0 := by
  induction fuel generalizing d with
  | zero => exact h
  | succ fuel ih =>
    rw [Decimal.stripZeros]
    split
    · apply ih
      change d.digits / 10 ≠ 0
      omega
    · exact h

theorem significand_ne_zero {x : Binary64} (h : x.isZero = false) : x.significand ≠ 0 := by
  have hmagnitude : x.magnitude ≠ 0 := fun h0 => by simp [isZero, h0] at h
  rw [significand, fractionLimit]
  split <;> omega

/-- Nought is in no interval that begins above it. -/
theorem not_contains_zero {i : Interval} (h : 0 < i.lo) (k : Int) : i.contains 0 k = false := by
  have hten : 0 < Nat.pow 10 (-k).toNat := Nat.pow_pos (by decide)
  have htwo : 0 < Nat.pow 2 (- -i.scale).toNat := Nat.pow_pos (by decide)
  have hlo := Nat.mul_pos h (Nat.mul_pos hten htwo)
  simp only [Interval.contains, scaleRatio, Nat.zero_mul]
  split
  · rw [decide_eq_false (Nat.not_le.2 hlo), Bool.false_and]
  · rw [decide_eq_false (Nat.not_lt_zero _), Bool.false_and]

theorem contains_nearest? {i : Interval} {k : Int} {n : Nat} (h : i.nearest? k = some n) :
    i.contains n k = true := by
  unfold Interval.nearest? at h
  dsimp only at h
  generalize roundQuotient _ _ = nearest at h
  generalize (if nearest = _ then _ else _) = other at h
  split at h
  · next hin =>
    cases h
    exact hin
  · split at h
    · next hin =>
      cases h
      exact hin
    · cases h

theorem digits_shortestFrom {i : Interval} (hlo : 0 < i.lo) (hmid : i.mid ≠ 0) (top : Int)
    (fuel count : Nat) : (i.shortestFrom top fuel count).digits ≠ 0 := by
  induction fuel generalizing count with
  | zero => exact hmid
  | succ fuel ih =>
    rw [Interval.shortestFrom]
    split
    · next n hn =>
      apply digits_stripZeros
      rintro rfl
      exact absurd (contains_nearest? hn) (by rw [not_contains_zero hlo]; decide)
    · exact ih _

theorem digits_shortest {x : Binary64} (h : x.isZero = false) : x.shortest.digits ≠ 0 := by
  have hm := significand_ne_zero h
  apply digits_shortestFrom
  · rw [interval]
    dsimp only
    split <;> omega
  · exact Nat.mul_ne_zero (by decide) hm

section layouts

variable {digits : List Char} {c : Char} {more : List Char}

theorem isWhole_take (hdigits : ∀ d ∈ c :: more, isDigit d = true) (hc : c ≠ '0') (n : Nat) :
    IsWhole ((c :: more).take (n + 1)) := by
  obtain ⟨hfirst, hmore⟩ := List.forall_mem_cons.1 hdigits
  exact .digits hfirst hc fun d hd => hmore d (List.mem_of_mem_take hd)

theorem isUnsigned_positional (hdigits : ∀ d ∈ c :: more, isDigit d = true) (hc : c ≠ '0')
    (top : Int) : IsUnsigned (positionalText (c :: more) top) := by
  have hzeros : ∀ n, ∀ d ∈ List.replicate n '0', isDigit d = true := by
    intro n d hd
    rw [List.eq_of_mem_replicate hd]
    rfl
  rw [positionalText]
  split
  -- a fraction alone has noughts before the digits, a whole number may have some behind them
  · have hfraction : IsDigits (List.replicate (-top - 1).toNat '0' ++ c :: more) := by
      refine ⟨List.append_ne_nil_of_right_ne_nil _ (List.cons_ne_nil _ _), fun d hd => ?_⟩
      rcases List.mem_append.1 hd with hd | hd
      · exact hzeros _ d hd
      · exact hdigits d hd
    have h := IsUnsigned.parts .zero (.digits hfraction) .none
    rw [List.append_nil] at h
    rw [List.append_assoc]
    exact h
  · dsimp only
    let zeros := List.replicate (top.toNat + 1 - (c :: more).length) '0'
    have hpadded : ∀ d ∈ c :: (more ++ zeros), isDigit d = true := by
      intro d hd
      rw [← List.cons_append] at hd
      rcases List.mem_append.1 hd with hd | hd
      · exact hdigits d hd
      · exact hzeros _ d hd
    let fraction := (c :: (more ++ zeros)).drop (top.toNat + 1)
    have hfraction : IsDigits (if fraction.isEmpty then ['0'] else fraction) := by
      split
      · exact isDigits_zero
      · next hne =>
        exact ⟨fun he => hne (List.isEmpty_iff.2 he), fun d hd =>
          hpadded d (List.mem_of_mem_drop hd)⟩
    have h := IsUnsigned.parts (isWhole_take hpadded hc top.toNat) (.digits hfraction) .none
    rw [List.append_nil] at h
    rw [List.append_assoc]
    exact h

theorem isUnsigned_exponent (hdigits : ∀ d ∈ c :: more, isDigit d = true) (hc : c ≠ '0')
    (top : Int) : IsUnsigned (exponentText (c :: more) top) := by
  obtain ⟨-, hmore⟩ := List.forall_mem_cons.1 hdigits
  have hfraction : IsFraction (if more.isEmpty then [] else '.' :: more) := by
    split
    · exact .none
    · next hne => exact .digits ⟨fun he => hne (List.isEmpty_iff.2 he), hmore⟩
  have hsign : IsExponentSign [if top < 0 then '-' else '+'] := by
    split
    · exact .minus
    · exact .plus
  have h := IsUnsigned.parts (isWhole_take hdigits hc 0) hfraction
    (.digits (.inl rfl) hsign (isDigits_toDigits top.natAbs))
  rw [exponentText, List.append_assoc, List.append_assoc]
  exact h

end layouts

theorem isUnsigned_digits {n : Nat} (h : n ≠ 0) (top : Int) :
    IsUnsigned (if positionalFrom ≤ top ∧ top < positionalBelow then
      positionalText (Nat.toDigits 10 n) top else exponentText (Nat.toDigits 10 n) top) := by
  obtain ⟨-, hdigits⟩ := isDigits_toDigits n
  cases hn : Nat.toDigits 10 n with
  | nil => exact absurd hn Nat.toDigits_ne_nil
  | cons c more =>
    rw [hn] at hdigits
    have hc : c ≠ '0' := by
      rintro rfl
      exact h (toDigits_eq_zero_cons hn)
    split
    · exact isUnsigned_positional hdigits hc top
    · exact isUnsigned_exponent hdigits hc top

theorem isNumeral_text (x : Binary64) : IsNumeral x.text := by
  have hsigned : ∀ {s : List Char}, IsUnsigned s →
      IsNumeral ((if x.isNegative then ['-'] else []) ++ s) := by
    intro s h
    split
    · exact .negative h
    · exact .unsigned h
  rw [text]
  split
  · exact hsigned (.parts .zero (.digits isDigits_zero) .none)
  · next hzero =>
    exact hsigned (isUnsigned_digits (digits_shortest (Bool.eq_false_iff.2 hzero)) _)

end EventStream.Binary64

namespace EventStream.Json

theorem isNumeral_writeNumber (n : Number) : IsNumeral (writeNumber n) := by
  cases n with
  | int n => exact isNumeral_int n
  | real x => exact x.isNumeral_text

end EventStream.Json
