import EventStream.Json.Fault

/-!
JSON numbers. A number without fraction and exponent that fits 64 bits is an integer; every other
number is floating point, read from as many leading digits as 64 bits hold and a power of ten.
-/

set_option autoImplicit false

namespace EventStream.Json

def isDigit (c : Char) : Bool :=
  '0' ≤ c && c ≤ '9'

def digitValue (c : Char) : Nat :=
  c.toNat - '0'.toNat

def splitDigits (s : List Char) : List Char × List Char :=
  (s.takeWhile isDigit, s.dropWhile isDigit)

theorem splitDigits_rest_length (s : List Char) : (splitDigits s).2.length ≤ s.length :=
  (List.dropWhile_suffix isDigit).length_le

def maxUnsigned : Nat := 0xFFFFFFFFFFFFFFFF

/-- Takes digits behind `n` as long as the result fits 64 bits; also counts them. -/
def extendDigits (n : Nat) : List Char → Nat × Nat
  | [] => (n, 0)
  | c :: rest =>
    let next := n * 10 + digitValue c
    if next ≤ maxUnsigned then
      let (m, taken) := extendDigits next rest
      (m, taken + 1)
    else (n, 0)

def maxExponent : Nat := 0x7FFFFFFF

/-- An exponent, or the text behind its first digit that is too much. -/
inductive Exponent where
  | value (n : Nat)
  | excess (rest : List Char)

def exponentOf (n : Nat) (digits rest : List Char) : Exponent :=
  match digits with
  | [] => .value n
  | c :: more =>
    let next := n * 10 + digitValue c
    if next ≤ maxExponent then exponentOf next more rest else .excess (more ++ rest)

/-- The parts of a number that has a fraction or an exponent, or whose digits exceed 64 bits. -/
structure Parts where
  negative : Bool
  digits : Nat
  power : Int

def Parts.value (parts : Parts) (power : Int) (rest : List Char) :
    Except Fault (Number × List Char) :=
  match Binary64.ofDecimal? parts.negative parts.digits power with
  | some x => .ok (.real x, rest)
  | none => .error (.behind .numberOutOfRange rest)

/-- The sign at the front of an exponent, which may be left out; true for a minus sign. -/
def splitSign (s : List Char) : Bool × List Char :=
  match s with
  | [] => (false, [])
  | c :: rest => if c = '+' then (false, rest) else if c = '-' then (true, rest) else (false, s)

theorem splitSign_rest_length (s : List Char) : (splitSign s).2.length ≤ s.length := by
  unfold splitSign
  split
  · exact Nat.le_refl _
  · split
    · simp
    · split <;> simp

def readExponent (parts : Parts) (s : List Char) : Except Fault (Number × List Char) :=
  let (down, s) := splitSign s
  match s with
  | [] => .error (.behind .endInValue [])
  | c :: _ =>
    if !isDigit c then .error (.next .invalidNumber s)
    else
      let (digits, rest) := splitDigits s
      match exponentOf 0 digits rest with
      | .value n => parts.value (if down then parts.power - n else parts.power + n) rest
      | .excess behind =>
        if parts.digits ≠ 0 ∧ !down then .error (.behind .numberOutOfRange behind)
        else .ok (.real (.ofMagnitude parts.negative 0), rest)

def readOptionalExponent (parts : Parts) (s : List Char) : Except Fault (Number × List Char) :=
  match s with
  | c :: rest => if c = 'e' ∨ c = 'E' then readExponent parts rest else parts.value parts.power s
  | [] => parts.value parts.power []

def readFraction (parts : Parts) (s : List Char) : Except Fault (Number × List Char) :=
  let (digits, rest) := splitDigits s
  if digits.isEmpty then
    if rest.isEmpty then .error (.behind .endInValue []) else .error (.next .invalidNumber rest)
  else
    let (n, taken) := extendDigits parts.digits digits
    readOptionalExponent { parts with digits := n, power := parts.power - taken } rest

/-- The number of an integer numeral that fits 64 bits. A negative one outside the signed range,
and a negative zero, are floating point. -/
def integerNumber (negative : Bool) (n : Nat) : Number :=
  if !negative then .int n
  else if n = 0 ∨ Binary64.signBit < n then .real (Binary64.ofNat true n)
  else .int (-n)

def readAfterDigits (negative : Bool) (digits rest : List Char) :
    Except Fault (Number × List Char) :=
  let (n, taken) := extendDigits 0 digits
  let parts : Parts := ⟨negative, n, (digits.length - taken : Nat)⟩
  match rest with
  | [] =>
    if taken = digits.length then .ok (integerNumber negative n, [])
    else parts.value parts.power []
  | c :: more =>
    if c = '.' then readFraction parts more
    else if c = 'e' ∨ c = 'E' then readExponent parts more
    else if taken = digits.length then .ok (integerNumber negative n, rest)
    else parts.value parts.power rest

def readUnsigned (negative : Bool) (s : List Char) : Except Fault (Number × List Char) :=
  match s with
  | [] => .error (.behind .endInValue [])
  | c :: rest =>
    if c = '0' then
      match rest with
      | [] => readAfterDigits negative ['0'] []
      | d :: _ =>
        if isDigit d then .error (.next .invalidNumber rest)
        else readAfterDigits negative ['0'] rest
    else if isDigit c then
      let (digits, rest) := splitDigits s
      readAfterDigits negative digits rest
    else .error (.next .invalidNumber s)

def readNumber (s : List Char) : Except Fault (Number × List Char) :=
  match s with
  | [] => readUnsigned false []
  | c :: rest => if c = '-' then readUnsigned true rest else readUnsigned false s

def skipExponent (s : List Char) : Except Fault (List Char) :=
  let (digits, rest) := splitDigits (splitSign s).2
  if digits.isEmpty then .error (.next .invalidNumber rest) else .ok rest

def skipOptionalExponent (s : List Char) : Except Fault (List Char) :=
  match s with
  | c :: rest => if c = 'e' ∨ c = 'E' then skipExponent rest else .ok s
  | [] => .ok []

def skipAfterDigits (s : List Char) : Except Fault (List Char) :=
  match s with
  | [] => .ok []
  | c :: more =>
    if c = '.' then
      let (digits, rest) := splitDigits more
      if digits.isEmpty then .error (.next .invalidNumber rest) else skipOptionalExponent rest
    else skipOptionalExponent s

def skipUnsigned (s : List Char) : Except Fault (List Char) :=
  match s with
  | [] => .error (.behind .invalidNumber [])
  | c :: rest =>
    if c = '0' then
      match rest with
      | [] => .ok []
      | d :: _ => if isDigit d then .error (.next .invalidNumber rest) else skipAfterDigits rest
    else if isDigit c then skipAfterDigits (splitDigits rest).2
    else .error (.next .invalidNumber s)

def skipNumber (s : List Char) : Except Fault (List Char) :=
  match s with
  | [] => skipUnsigned []
  | c :: rest => if c = '-' then skipUnsigned rest else skipUnsigned s

theorem skipExponent_ok {s rest : List Char} (h : skipExponent s = .ok rest) :
    rest.length ≤ s.length := by
  simp only [skipExponent] at h
  split at h
  · cases h
  · simp only [Except.ok.injEq] at h
    subst h
    exact Nat.le_trans (splitDigits_rest_length _) (splitSign_rest_length s)

theorem skipOptionalExponent_ok {s rest : List Char} (h : skipOptionalExponent s = .ok rest) :
    rest.length ≤ s.length := by
  unfold skipOptionalExponent at h
  split at h
  · split at h
    · have := skipExponent_ok h
      simp only [List.length_cons]
      omega
    · cases h
      exact Nat.le_refl _
  · cases h
    exact Nat.le_refl _

theorem skipAfterDigits_ok {s rest : List Char} (h : skipAfterDigits s = .ok rest) :
    rest.length ≤ s.length := by
  unfold skipAfterDigits at h
  split at h
  · cases h
    exact Nat.le_refl _
  · next c more =>
    split at h
    · simp only at h
      split at h
      · cases h
      · have h₁ := skipOptionalExponent_ok h
        have h₂ := splitDigits_rest_length more
        simp only [List.length_cons]
        omega
    · exact skipOptionalExponent_ok h

theorem skipUnsigned_ok {s rest : List Char} (h : skipUnsigned s = .ok rest) :
    rest.length < s.length := by
  unfold skipUnsigned at h
  split at h
  · cases h
  · next c more =>
    simp only [List.length_cons]
    split at h
    · split at h
      · cases h
        simp
      · split at h
        · cases h
        · have := skipAfterDigits_ok h
          omega
    · split at h
      · have h₁ := skipAfterDigits_ok h
        have h₂ := splitDigits_rest_length more
        omega
      · cases h

theorem skipNumber_ok {s rest : List Char} (h : skipNumber s = .ok rest) :
    rest.length < s.length := by
  unfold skipNumber at h
  split at h
  · exact skipUnsigned_ok h
  · split at h
    · have := skipUnsigned_ok h
      simp only [List.length_cons]
      omega
    · exact skipUnsigned_ok h

end EventStream.Json
