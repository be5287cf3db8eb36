import EventStream.Json.Print
import EventStream.Json.Skip
import EventStream.Json.Value

/-!
Formats: how values of one type are read from JSON and written as JSON. Formats of composite
types are made from those of their parts.
-/

set_option autoImplicit false

namespace EventStream.Json

structure Format (α : Type) where
  /-- Reads a value in which the given number of levels may be opened. -/
  read : Nat → List Char → Except Fault (α × List Char)
  write : α → Json

def mismatch (expected : String) (s : List Char) : Fault :=
  let invalid (found : Found) (rest : List Char) : Fault :=
    .behind (.invalidType found expected) rest
  let behindWord (found : Found) (word rest : List Char) : Fault :=
    match readWord word rest with
    | .ok rest => invalid found rest
    | .error fault => fault
  match s with
  | [] => .next .expectedValue []
  | c :: rest =>
    if c = 'n' then behindWord .null nullTail rest
    else if c = 't' then behindWord (.bool true) trueTail rest
    else if c = 'f' then behindWord (.bool false) falseTail rest
    else if c = '-' ∨ isDigit c then
      match readNumber s with
      | .ok (n, rest) => invalid (.number n) rest
      | .error fault => fault
    else if c = '"' then
      match readString rest with
      | .ok (text, rest) => invalid (.string text) rest
      | .error fault => fault
    else if c = '[' then invalid .sequence s
    else if c = '{' then invalid .map s
    else .next .expectedValue s

def descend {α : Type} (depth : Nat) (s : List Char)
    (read : Nat → Except Fault (α × List Char)) : Except Fault (α × List Char) :=
  match depth with
  | 0 => .error (.next .tooDeep s)
  | depth + 1 => read depth

def readUnit (s : List Char) : Except Fault (List Char) :=
  match skipBlanks s with
  | [] => .error (.behind .endInValue [])
  | c :: rest =>
    if c = 'n' then readWord nullTail rest else .error (mismatch "unit" (c :: rest))

/-- Reads the name of a variant behind the brace that opens it. Unlike an object, a variant must
have a member. -/
def readVariantName (s : List Char) : Except Fault (String × List Char) :=
  match skipBlanks s with
  | [] => .error (.behind .endInObject [])
  | c :: rest =>
    if c = '"' then readString rest
    else .error (.next (if c = '}' then .expectedValue else .keyNotString) (c :: rest))

def readVariantEnd (s : List Char) : Except Fault (List Char) :=
  match skipBlanks s with
  | [] => .error (.behind .endInObject [])
  | c :: rest => if c = '}' then .ok rest else .error (.behind .expectedValue (c :: rest))

namespace Format

variable {α β : Type}

def map (format : Format α) (build : α → β) (parts : β → α) : Format β where
  read depth s := (format.read depth s).map fun (a, rest) => (build a, rest)
  write b := format.write (parts b)

def any : Format Json where
  read := readValue
  write v := v

def string : Format String where
  read _ s :=
    match skipBlanks s with
    | [] => .error (.behind .endInValue [])
    | c :: rest =>
      if c = '"' then readString rest else .error (mismatch "a string" (c :: rest))
  write := .string

def bool : Format Bool where
  read _ s :=
    match skipBlanks s with
    | [] => .error (.behind .endInValue [])
    | c :: rest =>
      if c = 't' then (readWord trueTail rest).map fun s => (true, s)
      else if c = 'f' then (readWord falseTail rest).map fun s => (false, s)
      else .error (mismatch "a boolean" (c :: rest))
  write := .bool

/-- A range of integers with the name under which faults mention it. -/
structure Range where
  name : String
  least : Int
  greatest : Int

def int (range : Range) : Format { n : Int // range.least ≤ n ∧ n ≤ range.greatest } where
  read _ s :=
    match skipBlanks s with
    | [] => .error (.behind .endInValue [])
    | c :: rest =>
      if c = '-' ∨ isDigit c then do
        match ← readNumber (c :: rest) with
        | (.int n, rest) =>
          if h : range.least ≤ n ∧ n ≤ range.greatest then return (⟨n, h⟩, rest)
          else throw (.behind (.integerRange n range.name) rest)
        | (.real x, rest) => throw (.behind (.invalidType (.number (.real x)) range.name) rest)
      else .error (mismatch range.name (c :: rest))
  write n := .number (.int n.val)

def int64 : Format Int64 :=
  (int ⟨"i64", -0x8000000000000000, 0x7FFFFFFFFFFFFFFF⟩).map (fun n => Int64.ofInt n.val)
    (fun n => ⟨n.toInt, by exact ⟨n.le_toInt, Int.le_sub_one_of_lt n.toInt_lt⟩⟩)

def int32 : Format Int32 :=
  (int ⟨"i32", -0x80000000, 0x7FFFFFFF⟩).map (fun n => Int32.ofInt n.val)
    (fun n => ⟨n.toInt, by exact ⟨n.le_toInt, Int.le_sub_one_of_lt n.toInt_lt⟩⟩)

def uint64 : Format UInt64 :=
  (int ⟨"u64", 0, 0xFFFFFFFFFFFFFFFF⟩).map (fun n => UInt64.ofNat n.val.toNat)
    (fun n => ⟨n.toNat, by
      have := n.toNat_lt
      refine ⟨Int.natCast_nonneg _, ?_⟩
      show (n.toNat : Int) ≤ 0xFFFFFFFFFFFFFFFF
      omega⟩)

def nullable (format : Format α) : Format (Option α) where
  read depth s :=
    match skipBlanks s with
    | [] => .error (.behind .endInValue [])
    | c :: rest =>
      if c = 'n' then (readWord nullTail rest).map fun s => (none, s)
      else (format.read depth (c :: rest)).map fun (a, s) => (some a, s)
  write
    | none => .null
    | some a => format.write a

def list (format : Format α) : Format (List α) where
  read depth s :=
    match skipBlanks s with
    | [] => .error (.behind .endInValue [])
    | c :: rest =>
      if c = '[' then
        descend depth (c :: rest) fun depth => readElements (format.read depth) rest
      else .error (mismatch "a sequence" (c :: rest))
  write l := .array (l.map format.write)

/-- Finds a variant by its name, or takes the one that stands for unknown names. -/
def pickVariant (all : List α) (label : α → String) (other : Option α) (name : String)
    (rest : List Char) : Except Fault α :=
  match all.find? (fun a => label a == name), other with
  | some a, _ => .ok a
  | none, some a => .ok a
  | none, none => .error (.behind (.unknownVariant name (all.map label)) rest)

/-- One of finitely many values, by name. A variant may also be written as an object with one
member, whose value is `null`. -/
def choice (all : List α) (label : α → String) (other : Option α) : Format α where
  read depth s :=
    match skipBlanks s with
    | [] => .error (.behind .endInValue [])
    | c :: rest =>
      if c = '"' then do
        let (name, rest) ← readString rest
        let a ← pickVariant all label other name rest
        return (a, rest)
      else if c = '{' then
        descend depth (c :: rest) fun _ => do
          let (name, s) ← readVariantName rest
          let a ← pickVariant all label other name s
          let s ← readColon s
          let s ← readUnit s
          let s ← readVariantEnd s
          return (a, s)
      else .error (.next .expectedValue (c :: rest))
  write a := .string (label a)

/-- A value of one of two types, as the only member of an object; the name tells the type. -/
def either (leftName : String) (left : Format α) (rightName : String) (right : Format β) :
    Format (α ⊕ β) where
  read depth s :=
    let pick := pickVariant [leftName, rightName] id none
    match skipBlanks s with
    | [] => .error (.behind .endInValue [])
    | c :: rest =>
      if c = '"' then do
        let (name, rest) ← readString rest
        let _ ← pick name rest
        throw ⟨.invalidType .unitVariant "newtype variant", none⟩
      else if c = '{' then
        descend depth (c :: rest) fun depth => do
          let (name, s) ← readVariantName rest
          let name ← pick name s
          let s ← readColon s
          let (value, s) ←
            if name = leftName then (left.read depth s).map fun (a, s) => (Sum.inl a, s)
            else (right.read depth s).map fun (b, s) => (Sum.inr b, s)
          let s ← readVariantEnd s
          return (value, s)
      else .error (.next .expectedValue (c :: rest))
  write
    | .inl a => .object [(leftName, left.write a)]
    | .inr b => .object [(rightName, right.write b)]

def parse (format : Format α) (text : String) : Except Error α :=
  let chars := text.toList
  let outcome := do
    let (a, rest) ← format.read maxDepth chars
    match skipBlanks rest with
    | [] => return a
    | rest => throw (Fault.next .trailingCharacters rest)
  outcome.mapError (Fault.error chars)

end Format

end EventStream.Json
