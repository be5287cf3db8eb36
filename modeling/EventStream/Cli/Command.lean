import EventStream.Cli.Arguments

/-!
The commands of the tool, and how they are given on a command line.
-/

set_option autoImplicit false

namespace EventStream.Cli

inductive OutputFormat where
  | json
  | table
  | pretty
  deriving DecidableEq, Repr

namespace OutputFormat

def all : List OutputFormat := [.json, .table, .pretty]

def name : OutputFormat → String
  | .json => "json"
  | .table => "table"
  | .pretty => "pretty"

def ofName? (name : String) : Option OutputFormat :=
  all.find? (·.name == name)

end OutputFormat

inductive Source where
  | standardInput
  | file (path : String)
  deriving DecidableEq, Repr

/-- The source that an argument names: a hyphen is the standard input. -/
def Source.of (argument : String) : Source :=
  if argument = "-" then .standardInput else .file argument

inductive PayloadSource where
  | none
  | json (text : String)
  | file (path : String)
  deriving DecidableEq, Repr

structure Encoding where
  eventType : String
  messageType : String := "event"
  payload : PayloadSource := .none
  out : Option String := none
  deriving DecidableEq, Repr

inductive Command where
  | decode (input : Source) (chunkSize : Nat) (strict : Bool)
  | frames (input : Source) (strict : Bool)
  | encode (encoding : Encoding)
  | request (content : String) (conversationId : Option String) (pretty : Bool)
  | version (extended : Bool)
  deriving DecidableEq, Repr

structure Invocation where
  format : OutputFormat := .json
  command : Command
  deriving DecidableEq, Repr

namespace Invocation

def isFormat (text : String) : Bool :=
  (OutputFormat.ofName? text).isSome

def isLogFormat (text : String) : Bool :=
  ["text", "json"].contains text

def isLogLevel (text : String) : Bool :=
  ["error", "warn", "info", "debug", "trace"].contains text

def isText (_ : String) : Bool := true

def isPath (text : String) : Bool :=
  !text.isEmpty

def chunkSizeLimit : Nat := 0xFFFFFFFF

def chunkSize? (text : String) : Option Nat :=
  let digits := match text.toList with
    | '+' :: rest => rest
    | chars => chars
  let size := Nat.ofDigitChars 10 digits 0
  if !digits.isEmpty && digits.all Char.isDigit && 1 ≤ size && size ≤ chunkSizeLimit then some size
  else none

def isChunkSize (text : String) : Bool :=
  (chunkSize? text).isSome

/-- Flags that are understood before and behind the name of a command. The two on logging are
checked and otherwise without effect, as no log is kept. -/
def sharedFlags : List Flag :=
  [{ name := "format", effect := .value isFormat },
    { name := "log-format", effect := .value isLogFormat },
    { name := "log-level", effect := .value isLogLevel },
    { name := "help", letter := 'h', effect := .halt .help }]

def strictFlag : Flag := { name := "strict" }

structure Entry where
  name : String
  flags : List Flag
  words : List (String → Bool) := []
  build : Given → Option Command

def decodeEntry : Entry where
  name := "decode"
  flags := [{ name := "chunk-size", effect := .value isChunkSize }, strictFlag]
  words := [isPath]
  build given := do
    let [input] := given.words | none
    let chunkSize ← chunkSize? ((given.value? "chunk-size").getD "8192")
    return .decode (.of input) chunkSize (given.has "strict")

def framesEntry : Entry where
  name := "frames"
  flags := [strictFlag]
  words := [isPath]
  build given := do
    let [input] := given.words | none
    return .frames (.of input) (given.has "strict")

/-- The payload that is asked for; a text and a file exclude each other. -/
def payload? (given : Given) : Option PayloadSource :=
  match given.value? "json", given.value? "file" with
  | none, none => some .none
  | some text, none => some (.json text)
  | none, some path => some (.file path)
  | some _, some _ => none

def encodeEntry : Entry where
  name := "encode"
  flags :=
    [{ name := "event-type", effect := .value isText },
      { name := "json", effect := .value isText },
      { name := "file", effect := .value isPath },
      { name := "message-type", effect := .value isText },
      { name := "out", letter := 'o', effect := .value isPath }]
  build given := do
    let eventType ← given.value? "event-type"
    let payload ← payload? given
    let messageType := (given.value? "message-type").getD "event"
    return .encode { eventType, messageType, payload, out := given.value? "out" }

def requestEntry : Entry where
  name := "request"
  flags :=
    [{ name := "content", effect := .value isText },
      { name := "conversation-id", effect := .value isText },
      { name := "pretty" }]
  build given := do
    let content ← given.value? "content"
    return .request content (given.value? "conversation-id") (given.has "pretty")

def versionEntry : Entry where
  name := "version"
  flags := [{ name := "extended" }]
  build given := some (.version (given.has "extended"))

def entries : List Entry :=
  [decodeEntry, framesEntry, encodeEntry, requestEntry, versionEntry]

def opening : Grammar where
  flags := sharedFlags ++ [{ name := "version", letter := 'V', effect := .halt .version }]
  commands := "help" :: entries.map (·.name)

def Entry.grammar (entry : Entry) : Grammar where
  flags := sharedFlags ++ entry.flags
  words := entry.words

/-- Reads what follows the name of a command. The output format may be given on both sides of the
name; then the latter counts. -/
def ofEntry (before : Given) (entry : Entry) (arguments : List String) :
    Except Halt Invocation := do
  let behind := (← entry.grammar.scan arguments).given
  let format := (behind.value? "format" <|> before.value? "format").bind OutputFormat.ofName?
  match entry.build behind with
  | none => .error .usage
  | some command => return { format := format.getD .json, command }

/-- Reads what follows the word for help: nothing, or the name of a command. -/
def ofHelp : List String → Halt
  | [] => .help
  | [name] => if opening.commands.contains name then .help else .usage
  | _ => .usage

def parse (arguments : List String) : Except Halt Invocation := do
  let ⟨before, command⟩ ← opening.scan arguments
  match command with
  | none => .error .usage
  | some (name, rest) =>
    match entries.find? (·.name == name) with
    | none => .error (ofHelp rest)
    | some entry => ofEntry before entry rest

end Invocation

end EventStream.Cli
