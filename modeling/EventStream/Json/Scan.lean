import EventStream.Json.Quoted
import EventStream.Json.Numeral

/-!
The punctuation of JSON: blanks, words, and the steps from one element or member to the next.
-/

set_option autoImplicit false

namespace EventStream.Json

def isBlank (c : Char) : Bool :=
  c == ' ' || c == '\n' || c == '\t' || c == '\r'

def skipBlanks (s : List Char) : List Char :=
  s.dropWhile isBlank

theorem skipBlanks_length (s : List Char) : (skipBlanks s).length ≤ s.length :=
  (List.dropWhile_suffix isBlank).length_le

def readWord : List Char → List Char → Except Fault (List Char)
  | [], s => .ok s
  | _ :: _, [] => .error (.behind .endInValue [])
  | w :: word, c :: rest =>
    if c = w then readWord word rest else .error (.next .expectedWord (c :: rest))

theorem readWord_ok {word s rest : List Char} (h : readWord word s = .ok rest) :
    rest.length ≤ s.length := by
  induction word generalizing s with
  | nil => simp_all [readWord]
  | cons w word ih =>
    cases s with
    | nil => simp [readWord] at h
    | cons c s =>
      simp only [readWord] at h
      split at h
      · have := ih h
        simp only [List.length_cons]
        omega
      · cases h

def nullTail : List Char := ['u', 'l', 'l']

def trueTail : List Char := ['r', 'u', 'e']

def falseTail : List Char := ['a', 'l', 's', 'e']

def readColon (s : List Char) : Except Fault (List Char) :=
  match skipBlanks s with
  | [] => .error (.behind .endInObject [])
  | c :: rest => if c = ':' then .ok rest else .error (.next .expectedColon (c :: rest))

theorem readColon_ok {s rest : List Char} (h : readColon s = .ok rest) :
    rest.length < s.length := by
  have := skipBlanks_length s
  unfold readColon at h
  split at h
  · cases h
  · next heq =>
    split at h
    · cases h
      rw [heq, List.length_cons] at this
      omega
    · cases h

inductive Next where
  | more (rest : List Char)
  | close (rest : List Char)

/-- The next element of a list. All but the first stand behind a comma. -/
def nextElement (first : Bool) (s : List Char) : Except Fault Next :=
  match skipBlanks s with
  | [] => .error (.behind .endInList [])
  | c :: rest =>
    if c = ']' then .ok (.close rest)
    else if first then .ok (.more (c :: rest))
    else if c = ',' then
      match skipBlanks rest with
      | [] => .error (.behind .endInValue [])
      | d :: more =>
        if d = ']' then .error (.next .trailingComma (d :: more)) else .ok (.more (d :: more))
    else .error (.next .expectedCommaOrBracket (c :: rest))

def readListEnd (s : List Char) : Except Fault (List Char) :=
  match skipBlanks s with
  | [] => .error (.behind .endInList [])
  | c :: rest =>
    if c = ']' then .ok rest
    else if c = ',' then
      match skipBlanks rest with
      | [] => .error (.behind .trailingCharacters [])
      | d :: more =>
        .error (.next (if d = ']' then .trailingComma else .trailingCharacters) (d :: more))
    else .error (.next .trailingCharacters (c :: rest))

def readKeyStart (s : List Char) : Except Fault Next :=
  match s with
  | [] => .error (.behind .endInValue [])
  | c :: rest =>
    if c = '"' then .ok (.more rest)
    else if c = '}' then .error (.next .trailingComma s)
    else .error (.next .keyNotString s)

def nextKey (first : Bool) (s : List Char) : Except Fault Next :=
  match skipBlanks s with
  | [] => .error (.behind .endInObject [])
  | c :: rest =>
    if c = '}' then .ok (.close rest)
    else if first then readKeyStart (c :: rest)
    else if c = ',' then readKeyStart (skipBlanks rest)
    else .error (.next .expectedCommaOrBrace (c :: rest))

/-- Reads the elements of a list behind its opening bracket; those found so far are held in
reverse. Every element takes up text, so the length of the text bounds their number. -/
def readElementsFrom {α : Type} (element : List Char → Except Fault (α × List Char)) :
    Nat → List α → List Char → Except Fault (List α × List Char)
  | 0, _, s => .error (.behind .endInList s)
  | bound + 1, found, s => do
    match ← nextElement found.isEmpty s with
    | .close rest => return (found.reverse, rest)
    | .more s =>
      let (a, s) ← element s
      readElementsFrom element bound (a :: found) s

def readElements {α : Type} (element : List Char → Except Fault (α × List Char)) (s : List Char) :
    Except Fault (List α × List Char) :=
  readElementsFrom element (s.length + 1) [] s

/-- Reads the members of an object behind its opening brace. `member` takes a key, what was
gathered before, and the text behind the key. -/
def readMembersFrom {σ : Type}
    (member : String → σ → List Char → Except Fault (σ × List Char)) :
    Nat → Bool → σ → List Char → Except Fault (σ × List Char)
  | 0, _, _, s => .error (.behind .endInObject s)
  | bound + 1, first, gathered, s => do
    match ← nextKey first s with
    | .close rest => return (gathered, rest)
    | .more s =>
      let (key, s) ← readString s
      let (gathered, s) ← member key gathered s
      readMembersFrom member bound false gathered s

def readMembers {σ : Type} (member : String → σ → List Char → Except Fault (σ × List Char))
    (start : σ) (s : List Char) : Except Fault (σ × List Char) :=
  readMembersFrom member (s.length + 1) true start s

end EventStream.Json
