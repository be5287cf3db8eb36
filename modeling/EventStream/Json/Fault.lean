import EventStream.Json.Basic
import EventStream.Number.Text
import EventStream.Text.Utf8
import EventStream.Text.Quoted

/-!
Why reading JSON failed, and where. A fault names the text that was still unread and how many
bytes of that text belong to the fault; line and column follow from the whole text.
-/

set_option autoImplicit false

namespace EventStream.Json

inductive Found where
  | null
  | bool (value : Bool)
  | number (value : Number)
  | string (value : String)
  | sequence
  | map
  | unitVariant
  deriving DecidableEq, Repr

inductive Cause where
  | endInList
  | endInObject
  | endInString
  | endInValue
  | expectedColon
  | expectedCommaOrBracket
  | expectedCommaOrBrace
  | expectedWord
  | expectedValue
  | invalidEscape
  | invalidNumber
  | numberOutOfRange
  | controlCharacter
  | keyNotString
  | loneSurrogate
  | unfinishedPair
  | trailingComma
  | trailingCharacters
  | tooDeep
  | invalidType (found : Found) (expected : String)
  | integerRange (value : Int) (expected : String)
  | invalidLength (count : Nat) (expected : String)
  | missingField (name : String)
  | duplicateField (name : String)
  | unknownVariant (name : String) (known : List String)
  deriving DecidableEq, Repr

/-- The three ways to fail: ill-formed text, text of another shape, text that ends early. -/
inductive Category where
  | illFormed
  | shape
  | ended
  deriving DecidableEq, Repr

def Cause.category : Cause → Category
  | .endInList => .ended
  | .endInObject => .ended
  | .endInString => .ended
  | .endInValue => .ended
  | .invalidType .. => .shape
  | .integerRange .. => .shape
  | .invalidLength .. => .shape
  | .missingField .. => .shape
  | .duplicateField .. => .shape
  | .unknownVariant .. => .shape
  | _ => .illFormed

def quoteName (name : String) : String :=
  "`" ++ name ++ "`"

def Number.found : Number → String
  | .int n => "integer " ++ quoteName (toString n)
  | .real x => "floating point " ++ quoteName (String.ofList x.text)

def Found.message : Found → String
  | .null => "null"
  | .bool true => "boolean " ++ quoteName "true"
  | .bool false => "boolean " ++ quoteName "false"
  | .number n => Number.found n
  | .string s => "string " ++ Text.quoted s
  | .sequence => "sequence"
  | .map => "map"
  | .unitVariant => "unit variant"

def alternatives : List String → String
  | [a] => quoteName a
  | [a, b] => quoteName a ++ " or " ++ quoteName b
  | names => "one of " ++ ", ".intercalate (names.map quoteName)

def Cause.message : Cause → String
  | .endInList => "EOF while parsing a list"
  | .endInObject => "EOF while parsing an object"
  | .endInString => "EOF while parsing a string"
  | .endInValue => "EOF while parsing a value"
  | .expectedColon => "expected " ++ quoteName ":"
  | .expectedCommaOrBracket => "expected " ++ quoteName "," ++ " or " ++ quoteName "]"
  | .expectedCommaOrBrace => "expected " ++ quoteName "," ++ " or " ++ quoteName "\x7d"
  | .expectedWord => "expected ident"
  | .expectedValue => "expected value"
  | .invalidEscape => "invalid escape"
  | .invalidNumber => "invalid number"
  | .numberOutOfRange => "number out of range"
  | .controlCharacter => "control character (\\u0000-\\u001F) found while parsing a string"
  | .keyNotString => "key must be a string"
  | .loneSurrogate => "lone leading surrogate in hex escape"
  | .unfinishedPair => "unexpected end of hex escape"
  | .trailingComma => "trailing comma"
  | .trailingCharacters => "trailing characters"
  | .tooDeep => "recursion limit exceeded"
  | .invalidType found expected => "invalid type: " ++ found.message ++ ", expected " ++ expected
  | .integerRange value expected =>
    "invalid value: integer " ++ quoteName (toString value) ++ ", expected " ++ expected
  | .invalidLength count expected =>
    "invalid length " ++ toString count ++ ", expected " ++ expected
  | .missingField name => "missing field " ++ quoteName name
  | .duplicateField name => "duplicate field " ++ quoteName name
  | .unknownVariant name known =>
    "unknown variant " ++ quoteName name ++ ", expected " ++ alternatives known

/-- Where a fault lies: the unread text, and how many of its bytes belong to the fault. -/
structure Place where
  unread : List Char
  ahead : Nat
  deriving DecidableEq, Repr

structure Fault where
  cause : Cause
  place : Option Place
  deriving DecidableEq, Repr

def Fault.behind (cause : Cause) (unread : List Char) : Fault :=
  ⟨cause, some ⟨unread, 0⟩⟩

def Fault.next (cause : Cause) (unread : List Char) : Fault :=
  ⟨cause, some ⟨unread, 1⟩⟩

structure Position where
  line : Nat
  column : Nat
  deriving DecidableEq, Repr

def Position.after (bytes : Bytes) : Position where
  line := 1 + bytes.count 10
  column := (bytes.reverse.takeWhile (· != 10)).length

def Place.position (text : List Char) (place : Place) : Position :=
  let bytes := Utf8.encodeChars text
  let unread := (Utf8.encodeChars place.unread).length
  Position.after (bytes.take (bytes.length - unread + min place.ahead unread))

structure Error where
  cause : Cause
  position : Option Position
  deriving DecidableEq, Repr

def Fault.error (text : List Char) (fault : Fault) : Error :=
  ⟨fault.cause, fault.place.map (Place.position text)⟩

def Error.message (error : Error) : String :=
  match error.position with
  | none => error.cause.message
  | some p => error.cause.message ++ s!" at line {p.line} column {p.column}"

end EventStream.Json
