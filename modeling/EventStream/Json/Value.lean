import EventStream.Json.Scan

/-!
Reading values of any shape. Objects come out with ascending names; of two members with one name
the last counts.
-/

set_option autoImplicit false

namespace EventStream.Json

def maxDepth : Nat := 127

/-- Reads a value in which `depth` more levels may be opened. -/
def readValue : Nat → List Char → Except Fault (Json × List Char)
  | depth, s =>
    match skipBlanks s with
    | [] => .error (.behind .endInValue [])
    | c :: rest =>
      if c = 'n' then do
        let s ← readWord nullTail rest
        return (.null, s)
      else if c = 't' then do
        let s ← readWord trueTail rest
        return (.bool true, s)
      else if c = 'f' then do
        let s ← readWord falseTail rest
        return (.bool false, s)
      else if c = '"' then do
        let (text, s) ← readString rest
        return (.string text, s)
      else if c = '-' ∨ isDigit c then do
        let (n, s) ← readNumber (c :: rest)
        return (.number n, s)
      else if c = '[' then
        match depth with
        | 0 => .error (.next .tooDeep (c :: rest))
        | depth + 1 => do
          let (items, s) ← readElements (readValue depth) rest
          return (.array items, s)
      else if c = '{' then
        match depth with
        | 0 => .error (.next .tooDeep (c :: rest))
        | depth + 1 => do
          let member := fun key members s => do
            let s ← readColon s
            let (value, s) ← readValue depth s
            return (Assoc.insert key value members, s)
          let (members, s) ← readMembers member [] rest
          return (.object members, s)
      else .error (.next .expectedValue (c :: rest))

end EventStream.Json
