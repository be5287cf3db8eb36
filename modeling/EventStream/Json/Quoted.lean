import EventStream.Json.Fault

/-!
JSON strings. Reading resolves escapes and pairs surrogates; skipping only looks for the end of
the string; writing escapes quotes, backslashes and control characters.
-/

set_option autoImplicit false

namespace EventStream.Json

def hexValue? (c : Char) : Option Nat :=
  if '0' ≤ c ∧ c ≤ '9' then some (c.toNat - '0'.toNat)
  else if 'a' ≤ c ∧ c ≤ 'f' then some (c.toNat - 'a'.toNat + 10)
  else if 'A' ≤ c ∧ c ≤ 'F' then some (c.toNat - 'A'.toNat + 10)
  else none

def readHex4 (s : List Char) : Except Fault (Nat × List Char) :=
  if (Utf8.encodeChars (s.take 4)).length < 4 then .error (.behind .endInString [])
  else match s with
    | a :: b :: c :: d :: rest =>
      match hexValue? a, hexValue? b, hexValue? c, hexValue? d with
      | some a, some b, some c, some d => .ok (((a * 16 + b) * 16 + c) * 16 + d, rest)
      | _, _, _, _ => .error ⟨.invalidEscape, some ⟨s, 4⟩⟩
    | _ => .error ⟨.invalidEscape, some ⟨s, 4⟩⟩

/-- The first half of a pair. -/
def isLeading (unit : Nat) : Bool :=
  0xD800 ≤ unit && unit < 0xDC00

def isTrailing (unit : Nat) : Bool :=
  0xDC00 ≤ unit && unit < 0xE000

def pairChar (leading trailing : Nat) : Char :=
  Char.ofNat ((leading - 0xD800) * 1024 + (trailing - 0xDC00) + 0x10000)

def readTrailing (leading : Nat) (s : List Char) : Except Fault (Char × List Char) :=
  match s with
  | [] => .error (.behind .endInString [])
  | c :: rest =>
    if c ≠ '\\' then .error (.next .unfinishedPair s)
    else match rest with
      | [] => .error (.behind .endInString [])
      | d :: rest₂ =>
        if d ≠ 'u' then .error (.next .unfinishedPair rest)
        else do
          let (trailing, rest₃) ← readHex4 rest₂
          if isTrailing trailing then
            return (pairChar leading trailing, rest₃)
          else throw (.behind .loneSurrogate rest₃)

def readUnicodeEscape (s : List Char) : Except Fault (Char × List Char) := do
  let (unit, rest) ← readHex4 s
  if isTrailing unit then throw (.behind .loneSurrogate rest)
  else if isLeading unit then readTrailing unit rest
  else return (Char.ofNat unit, rest)

def simpleEscape? (c : Char) : Option Char :=
  if c = '"' then some '"'
  else if c = '\\' then some '\\'
  else if c = '/' then some '/'
  else if c = 'b' then some '\x08'
  else if c = 'f' then some '\x0c'
  else if c = 'n' then some '\n'
  else if c = 'r' then some '\r'
  else if c = 't' then some '\t'
  else none

def readEscape (s : List Char) : Except Fault (Char × List Char) :=
  match s with
  | [] => .error (.behind .endInString [])
  | c :: rest =>
    match simpleEscape? c with
    | some e => .ok (e, rest)
    | none => if c = 'u' then readUnicodeEscape rest else .error (.next .invalidEscape s)

theorem readHex4_ok {s rest : List Char} {n : Nat} (h : readHex4 s = .ok (n, rest)) :
    rest.length < s.length := by
  unfold readHex4 at h
  split at h
  · cases h
  · split at h
    · split at h
      · cases h
        simp only [List.length_cons]
        omega
      · cases h
    · cases h

theorem readTrailing_ok {leading : Nat} {s rest : List Char} {c : Char}
    (h : readTrailing leading s = .ok (c, rest)) : rest.length < s.length := by
  unfold readTrailing at h
  split at h
  · cases h
  · split at h
    · cases h
    · split at h
      · cases h
      · split at h
        · cases h
        · simp only [bind, Except.bind] at h
          split at h
          · cases h
          · next heq =>
            have := readHex4_ok heq
            split at h
            · simp only [pure, Except.pure, Except.ok.injEq, Prod.mk.injEq] at h
              obtain ⟨-, rfl⟩ := h
              simp only [List.length_cons]
              omega
            · cases h

theorem readUnicodeEscape_ok {s rest : List Char} {c : Char}
    (h : readUnicodeEscape s = .ok (c, rest)) : rest.length < s.length := by
  simp only [readUnicodeEscape, bind, Except.bind] at h
  split at h
  · cases h
  · next heq =>
    have h₁ := readHex4_ok heq
    split at h
    · cases h
    · split at h
      · have h₂ := readTrailing_ok h
        omega
      · cases h
        exact h₁

theorem readEscape_ok {s rest : List Char} {c : Char} (h : readEscape s = .ok (c, rest)) :
    rest.length < s.length := by
  unfold readEscape at h
  split at h
  · cases h
  · split at h
    · cases h
      simp
    · split at h
      · have := readUnicodeEscape_ok h
        simp only [List.length_cons]
        omega
      · cases h

def isControl (c : Char) : Bool :=
  c.toNat < 0x20

/-- The characters up to the closing quote, behind those found so far, which are held in
reverse. -/
def readCharsFrom (found : List Char) (s : List Char) : Except Fault (List Char × List Char) :=
  match s with
  | [] => .error (.behind .endInString [])
  | c :: rest =>
    if c = '"' then .ok (found.reverse, rest)
    else if c = '\\' then
      match read : readEscape rest with
      | .error fault => .error fault
      | .ok (e, rest₂) =>
        have : rest₂.length < rest.length := readEscape_ok read
        readCharsFrom (e :: found) rest₂
    else if isControl c then .error (.next .controlCharacter s)
    else readCharsFrom (c :: found) rest
termination_by s.length

def readString (s : List Char) : Except Fault (String × List Char) := do
  let (chars, rest) ← readCharsFrom [] s
  return (String.ofList chars, rest)

/-- Skips an escape. Four hexadecimal digits may name any unit. -/
def skipEscape (s : List Char) : Except Fault (List Char) :=
  match s with
  | [] => .error (.behind .endInString [])
  | c :: rest =>
    match simpleEscape? c with
    | some _ => .ok rest
    | none =>
      if c = 'u' then (readHex4 rest).map Prod.snd else .error (.next .invalidEscape s)

theorem skipEscape_ok {s rest : List Char} (h : skipEscape s = .ok rest) :
    rest.length < s.length := by
  unfold skipEscape at h
  split at h
  · cases h
  · next c r =>
    split at h
    · cases h
      simp
    · split at h
      · cases hr : readHex4 r with
        | error f => simp [hr, Except.map] at h
        | ok p =>
          simp only [hr, Except.map, Except.ok.injEq] at h
          have := @readHex4_ok r p.2 p.1 hr
          subst h
          simp only [List.length_cons]
          omega
      · cases h

def skipString (s : List Char) : Except Fault (List Char) :=
  match s with
  | [] => .error (.behind .endInString [])
  | c :: rest =>
    if c = '"' then .ok rest
    else if c = '\\' then
      match skip : skipEscape rest with
      | .error fault => .error fault
      | .ok rest₂ =>
        have : rest₂.length < rest.length := skipEscape_ok skip
        skipString rest₂
    else if isControl c then .error (.behind .controlCharacter s)
    else skipString rest
termination_by s.length

theorem skipString_ok {s rest : List Char} (h : skipString s = .ok rest) :
    rest.length < s.length := by
  fun_induction skipString s with
  | case1 => cases h
  | case2 => cases h; simp
  | case3 => cases h
  | case4 _ _ rest₂ skip _ ih =>
    have := ih h
    simp only [List.length_cons]
    omega
  | case5 => cases h
  | case6 _ _ _ _ _ ih =>
    have := ih h
    simp only [List.length_cons]
    omega

def writeChar (c : Char) : List Char :=
  if c = '"' then ['\\', '"']
  else if c = '\\' then ['\\', '\\']
  else if c = '\x08' then ['\\', 'b']
  else if c = '\x0c' then ['\\', 'f']
  else if c = '\n' then ['\\', 'n']
  else if c = '\r' then ['\\', 'r']
  else if c = '\t' then ['\\', 't']
  else if isControl c then ['\\', 'u', '0', '0'] ++ hexDigits (UInt8.ofNat c.toNat)
  else [c]

def writeString (text : String) : List Char :=
  '"' :: text.toList.flatMap writeChar ++ ['"']

end EventStream.Json
