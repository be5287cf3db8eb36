import EventStream.Assoc
import EventStream.Number.Binary64

/-!
JSON values. The members of an object keep the order in which they are listed.
-/

set_option autoImplicit false

namespace EventStream

/-- A number: an integer as such, every other number as floating point. -/
inductive Number where
  | int (value : Int)
  | real (value : Binary64)
  deriving DecidableEq, Repr

inductive Json where
  | null
  | bool (value : Bool)
  | number (value : Number)
  | string (value : String)
  | array (items : List Json)
  | object (members : List (String × Json))
  deriving Repr

namespace Json

instance : Inhabited Json := ⟨.null⟩

def member? (name : String) : Json → Option Json
  | .object members => Assoc.get? name members
  | _ => none

def asString? : Json → Option String
  | .string s => some s
  | _ => none

mutual
/-- The value with the members of every object in ascending order of their names. -/
def sorted : Json → Json
  | .array items => .array (sortedItems items)
  | .object members => .object (sortedMembers members)
  | v => v

def sortedItems : List Json → List Json
  | [] => []
  | v :: rest => v.sorted :: sortedItems rest

def sortedMembers : List (String × Json) → List (String × Json)
  | [] => []
  | (name, v) :: rest => Assoc.insert name v.sorted (sortedMembers rest)
end

end Json

end EventStream
