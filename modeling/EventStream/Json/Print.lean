import EventStream.Json.Quoted

/-!
The text of a value, on one line without blanks or spread over lines that are indented by depth.
-/

set_option autoImplicit false

namespace EventStream.Json

inductive Layout where
  | compact
  /-- One element or member a line, two blanks a level. -/
  | indented
  deriving DecidableEq, Repr

namespace Layout

def newline : Layout → Nat → List Char
  | .compact, _ => []
  | .indented, depth => '\n' :: List.replicate (2 * depth) ' '

def colon : Layout → List Char
  | .compact => [':']
  | .indented => [':', ' ']

end Layout

def writeNumber : Number → List Char
  | .int n => (toString n).toList
  | .real x => x.text

mutual
def write (layout : Layout) (depth : Nat) : Json → List Char
  | .null => 'n' :: ['u', 'l', 'l']
  | .bool true => 't' :: ['r', 'u', 'e']
  | .bool false => 'f' :: ['a', 'l', 's', 'e']
  | .number n => writeNumber n
  | .string s => writeString s
  | .array [] => ['[', ']']
  | .array (v :: rest) =>
    '[' :: layout.newline (depth + 1) ++ write layout (depth + 1) v ++
      writeItems layout depth rest
  | .object [] => ['{', '}']
  | .object ((name, v) :: rest) =>
    '{' :: layout.newline (depth + 1) ++ writeString name ++ layout.colon ++
      write layout (depth + 1) v ++ writeMembers layout depth rest

def writeItems (layout : Layout) (depth : Nat) : List Json → List Char
  | [] => layout.newline depth ++ [']']
  | v :: rest =>
    ',' :: layout.newline (depth + 1) ++ write layout (depth + 1) v ++
      writeItems layout depth rest

def writeMembers (layout : Layout) (depth : Nat) : List (String × Json) → List Char
  | [] => layout.newline depth ++ ['}']
  | (name, v) :: rest =>
    ',' :: layout.newline (depth + 1) ++ writeString name ++ layout.colon ++
      write layout (depth + 1) v ++ writeMembers layout depth rest
end

def compact (value : Json) : String :=
  String.ofList (write .compact 0 value)

def pretty (value : Json) : String :=
  String.ofList (write .indented 0 value)

end EventStream.Json
