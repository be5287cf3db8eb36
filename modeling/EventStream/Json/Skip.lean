import EventStream.Json.Scan

/-!
Skipping a value that nobody asked for. Its punctuation is checked, but neither the size of its
numbers, nor the pairing of surrogates, nor how deep it nests.
-/

set_option autoImplicit false

namespace EventStream.Json

inductive Opened where
  | list
  | object
  deriving DecidableEq, Repr

def Opened.closing : Opened → Char
  | .list => ']'
  | .object => '}'

def Opened.ended : Opened → Fault
  | .list => .behind .endInList []
  | .object => .behind .endInObject []

def Opened.unseparated : Opened → Cause
  | .list => .expectedCommaOrBracket
  | .object => .expectedCommaOrBrace

/-- Skips to the next value: past the key of a member, and past nothing in an array. -/
def skipToValue (opened : Opened) (s : List Char) : Except Fault (List Char) :=
  match opened with
  | .list => .ok s
  | .object =>
    match skipBlanks s with
    | [] => .error (.behind .endInObject [])
    | c :: rest =>
      if c = '"' then skipString rest >>= readColon else .error (.next .keyNotString (c :: rest))

/-- Goes on behind a value: closes brackets up to the next comma. What remains open comes with the
text where its next value begins; with nothing open, the outermost value has ended. -/
def skipClosings : List Opened → List Char → Except Fault (List Opened × List Char)
  | [], s => .ok ([], s)
  | opened :: outer, s =>
    match skipBlanks s with
    | [] => .error opened.ended
    | c :: rest =>
      if c = opened.closing then skipClosings outer rest
      else if c = ',' then do
        let s ← skipToValue opened rest
        return (opened :: outer, s)
      else .error (.next opened.unseparated (c :: rest))

def skipOpening (opened : Opened) (outer : List Opened) (s : List Char) :
    Except Fault (List Opened × List Char) :=
  match skipBlanks s with
  | [] => .error opened.ended
  | c :: rest =>
    if c = opened.closing then skipClosings outer rest
    else do
      let s ← skipToValue opened (c :: rest)
      return (opened :: outer, s)

def skipScalar (c : Char) (rest : List Char) : Except Fault (List Char) :=
  if c = 'n' then readWord nullTail rest
  else if c = 't' then readWord trueTail rest
  else if c = 'f' then readWord falseTail rest
  else if c = '"' then skipString rest
  else if c = '-' ∨ isDigit c then skipNumber (c :: rest)
  else .error (.next .expectedValue (c :: rest))

def skipOne (opened : List Opened) (s : List Char) : Except Fault (List Opened × List Char) :=
  match skipBlanks s with
  | [] => .error (.behind .endInValue [])
  | c :: rest =>
    if c = '[' then skipOpening .list opened rest
    else if c = '{' then skipOpening .object opened rest
    else skipScalar c rest >>= skipClosings opened

theorem skipToValue_ok {opened : Opened} {s rest : List Char}
    (h : skipToValue opened s = .ok rest) : rest.length ≤ s.length := by
  have hb := skipBlanks_length s
  unfold skipToValue at h
  split at h
  · cases h
    exact Nat.le_refl _
  · split at h
    · cases h
    · next heq =>
      rw [heq, List.length_cons] at hb
      split at h
      · simp only [bind, Except.bind] at h
        split at h
        · cases h
        · next heq₂ =>
          have h₁ := skipString_ok heq₂
          have h₂ := readColon_ok h
          omega
      · cases h

theorem skipClosings_ok {opened still : List Opened} {s rest : List Char}
    (h : skipClosings opened s = .ok (still, rest)) : rest.length ≤ s.length := by
  induction opened generalizing s with
  | nil =>
    cases h
    exact Nat.le_refl _
  | cons o outer ih =>
    have hb := skipBlanks_length s
    simp only [skipClosings] at h
    split at h
    · cases h
    · next heq =>
      rw [heq, List.length_cons] at hb
      split at h
      · have := ih h
        omega
      · split at h
        · simp only [bind, Except.bind] at h
          split at h
          · cases h
          · next heq₂ =>
            have := skipToValue_ok heq₂
            cases h
            omega
        · cases h

theorem skipOpening_ok {o : Opened} {opened still : List Opened} {s rest : List Char}
    (h : skipOpening o opened s = .ok (still, rest)) : rest.length ≤ s.length := by
  have hb := skipBlanks_length s
  unfold skipOpening at h
  split at h
  · cases h
  · next heq =>
    rw [heq, List.length_cons] at hb
    split at h
    · have := skipClosings_ok h
      omega
    · simp only [bind, Except.bind] at h
      split at h
      · cases h
      · next heq₂ =>
        have := skipToValue_ok heq₂
        cases h
        simp only [List.length_cons] at this
        omega

theorem skipScalar_ok {c : Char} {s rest : List Char} (h : skipScalar c s = .ok rest) :
    rest.length ≤ s.length := by
  unfold skipScalar at h
  split at h
  · exact readWord_ok h
  · split at h
    · exact readWord_ok h
    · split at h
      · exact readWord_ok h
      · split at h
        · exact Nat.le_of_lt (skipString_ok h)
        · split at h
          · have := skipNumber_ok h
            simp only [List.length_cons] at this
            omega
          · cases h

theorem skipOne_ok {opened still : List Opened} {s rest : List Char}
    (h : skipOne opened s = .ok (still, rest)) : rest.length < s.length := by
  have hb := skipBlanks_length s
  unfold skipOne at h
  split at h
  · cases h
  · next heq =>
    rw [heq, List.length_cons] at hb
    split at h
    · have := skipOpening_ok h
      omega
    · split at h
      · have := skipOpening_ok h
        omega
      · simp only [bind, Except.bind] at h
        split at h
        · cases h
        · next heq₂ =>
          have h₁ := skipScalar_ok heq₂
          have h₂ := skipClosings_ok h
          omega

/-- Skips the values that begin here, until nothing is open any more. -/
def skipValuesFrom (opened : List Opened) (s : List Char) : Except Fault (List Char) :=
  match step : skipOne opened s with
  | .error fault => .error fault
  | .ok ([], rest) => .ok rest
  | .ok (o :: outer, rest) =>
    have : rest.length < s.length := skipOne_ok step
    skipValuesFrom (o :: outer) rest
termination_by s.length

def skipValue (s : List Char) : Except Fault (List Char) :=
  skipValuesFrom [] s

end EventStream.Json
