import EventStream.Json.Format

/-!
Records: types whose values are objects with known members. A record is read from an object,
whose other members are skipped, or from an array of its members in order. A member that is not
there may have a value all the same, and a member may be left out when it is written.
-/

set_option autoImplicit false

namespace EventStream.Json

structure Field (α : Type) where
  name : String
  format : Format α
  /-- The value when the member is not there; none if it must be. -/
  absent : Option α
  isWritten : α → Bool

namespace Field

variable {α : Type}

def required (name : String) (format : Format α) : Field α :=
  ⟨name, format, none, fun _ => true⟩

def optional (name : String) (format : Format α) : Field (Option α) :=
  ⟨name, format.nullable, some none, Option.isSome⟩

def withDefault (name : String) (format : Format α) (default : α) : Field α :=
  ⟨name, format, some default, fun _ => true⟩

end Field

/-- Members of a record, in order. `ρ` holds their values, and `σ` those found so far. -/
structure Members (σ ρ : Type) where
  count : Nat
  start : σ
  member? : Nat → String → Option (σ → List Char → Except Fault (σ × List Char))
  finish : σ → Except String ρ
  /-- Reads the members as elements of an array, the first of which has the given index. `first`
  tells whether nothing stands before them. -/
  elements : Nat → String → Nat → Bool → List Char → Except Fault (ρ × List Char)
  write : ρ → List (String × Json)

/-- The text behind an object that is given up: a closing brace, if one comes next, is passed. -/
def abandonObject (s : List Char) : List Char :=
  match skipBlanks s with
  | [] => []
  | c :: rest => if c = '}' then rest else c :: rest

namespace Members

variable {α σ ρ : Type}

def nil : Members Unit Unit where
  count := 0
  start := ()
  member? _ _ := none
  finish _ := .ok ()
  elements _ _ _ _ s := .ok ((), s)
  write _ := []

def readField (field : Field α) (depth : Nat) (found : Option α) (s : List Char) :
    Except Fault (α × List Char) :=
  match found with
  | some _ => .error (.behind (.duplicateField field.name) (abandonObject s))
  | none => readColon s >>= field.format.read depth

def cons (field : Field α) (others : Members σ ρ) : Members (Option α × σ) (α × ρ) where
  count := others.count + 1
  start := (none, others.start)
  member? depth name :=
    if name = field.name then
      some fun (found, more) s => do
        let (a, s) ← readField field depth found s
        return ((some a, more), s)
    else
      (others.member? depth name).map fun read (found, more) s => do
        let (more, s) ← read more s
        return ((found, more), s)
  finish
    | (found, more) =>
      match found <|> field.absent with
      | none => .error field.name
      | some a => (others.finish more).map fun r => (a, r)
  elements depth expected index first s := do
    match ← nextElement first s with
    | .more s =>
      let (a, s) ← field.format.read depth s
      let (r, s) ← others.elements depth expected (index + 1) false s
      return ((a, r), s)
    | .close rest =>
      match field.absent with
      | none => throw (.behind (.invalidLength index expected) rest)
      | some a =>
        let (r, s) ← others.elements depth expected (index + 1) first s
        return ((a, r), s)
  write
    | (a, r) =>
      if field.isWritten a then (field.name, field.format.write a) :: others.write r
      else others.write r

end Members

def recordLength (name : String) (count : Nat) : String :=
  s!"struct {name} with {count} " ++ if count = 1 then "element" else "elements"

def readRecordMember {σ ρ : Type} (members : Members σ ρ) (depth : Nat) (key : String) (found : σ)
    (s : List Char) : Except Fault (σ × List Char) :=
  match members.member? depth key with
  | some read => read found s
  | none => do
    let s ← readColon s
    let s ← skipValue s
    return (found, s)

def readRecord {σ ρ : Type} (members : Members σ ρ) (depth : Nat) (s : List Char) :
    Except Fault (ρ × List Char) := do
  let (found, s) ← readMembers (readRecordMember members depth) members.start s
  match members.finish found with
  | .ok r => return (r, s)
  | .error name => throw (.behind (.missingField name) s)

def readTuple {σ ρ : Type} (members : Members σ ρ) (expected : String) (depth : Nat)
    (s : List Char) : Except Fault (ρ × List Char) := do
  let (r, s) ← members.elements depth expected 0 true s
  let s ← readListEnd s
  return (r, s)

def Format.record {α σ ρ : Type} (name : String) (members : Members σ ρ) (build : ρ → α)
    (parts : α → ρ) : Format α where
  read depth s :=
    match skipBlanks s with
    | [] => .error (.behind .endInValue [])
    | c :: rest =>
      let outcome :=
        if c = '[' then
          descend depth (c :: rest) fun depth =>
            readTuple members (recordLength name members.count) depth rest
        else if c = '{' then
          descend depth (c :: rest) fun depth => readRecord members depth rest
        else .error (mismatch ("struct " ++ name) (c :: rest))
      outcome.map fun (r, s) => (build r, s)
  write a := .object (members.write (parts a))

end EventStream.Json
