/-!
Arguments of a command line: flags, with or without a value, and words. A grammar says which there
are. A flag is given at most once, and a value that stands by itself must not look like a flag.
-/

set_option autoImplicit false

namespace EventStream.Cli

inductive Halt where
  | usage
  | help
  | version
  deriving DecidableEq, Repr

inductive Argument where
  | stop
  | long (name : String) (value : Option String)
  | short (letters : List Char)
  | word (text : String)
  deriving DecidableEq, Repr

/-- The form of an argument; a hyphen alone is a word. -/
def Argument.of (text : String) : Argument :=
  match text.toList with
  | ['-', '-'] => .stop
  | '-' :: '-' :: letters =>
    let name := letters.takeWhile (· != '=')
    match letters.drop name.length with
    | _ :: value => .long (String.ofList name) (some (String.ofList value))
    | [] => .long (String.ofList name) none
  | ['-'] => .word text
  | '-' :: letters => .short letters
  | _ => .word text

inductive Effect where
  | mark
  | value (accepts : String → Bool)
  | halt (halt : Halt)

structure Flag where
  name : String
  letter : Option Char := none
  effect : Effect := .mark

structure Grammar where
  flags : List Flag
  words : List (String → Bool) := []
  commands : List String := []

structure Given where
  flags : List (String × String) := []
  words : List String := []
  deriving DecidableEq, Repr

namespace Given

/-- The value of a flag, which is empty for a mark. -/
def value? (given : Given) (name : String) : Option String :=
  given.flags.lookup name

def has (given : Given) (name : String) : Bool :=
  (given.value? name).isSome

def addFlag (given : Given) (name value : String) : Except Halt Given :=
  if given.has name then .error .usage
  else .ok { given with flags := given.flags ++ [(name, value)] }

def addWord (grammar : Grammar) (given : Given) (word : String) : Except Halt Given :=
  match grammar.words[given.words.length]? with
  | none => .error .usage
  | some accepts =>
    if accepts word then .ok { given with words := given.words ++ [word] } else .error .usage

def addWords (grammar : Grammar) (given : Given) (words : List String) : Except Halt Given :=
  words.foldlM (addWord grammar) given

def addValue (given : Given) (flag : Flag) (value : String) : Except Halt Given :=
  match flag.effect with
  | .value accepts => if accepts value then given.addFlag flag.name value else .error .usage
  | _ => .error .usage

/-- Adds a flag that may have brought its value with it. A flag whose value is still to come is
not added but handed back. -/
def addLong (grammar : Grammar) (given : Given) (name : String) (value : Option String) :
    Except Halt (Given × Option Flag) :=
  match grammar.flags.find? (·.name == name), value with
  | none, _ => .error .usage
  | some flag, some v => do
    return (← given.addValue flag v, none)
  | some flag, none =>
    match flag.effect with
    | .mark => do
      return (← given.addFlag flag.name "", none)
    | .value _ => .ok (given, some flag)
    | .halt halt => .error halt

/-- Adds flags by their letters. What follows the letter of a flag with a value is that value,
behind an equals sign or not. -/
def addShort (grammar : Grammar) (given : Given) : List Char → Except Halt (Given × Option Flag)
  | [] => .ok (given, none)
  | letter :: rest =>
    match grammar.flags.find? (·.letter == some letter) with
    | none => .error .usage
    | some flag =>
      match flag.effect, rest with
      | .mark, _ => do
        let given ← given.addFlag flag.name ""
        addShort grammar given rest
      | .halt halt, _ => .error halt
      | .value _, [] => .ok (given, some flag)
      | .value _, '=' :: v => do
        return (← given.addValue flag (String.ofList v), none)
      | .value _, v => do
        return (← given.addValue flag (String.ofList v), none)

end Given

/-- What has been read, and, if that ended at the name of a command, the name and what follows. -/
structure Scan where
  given : Given
  command : Option (String × List String) := none
  deriving DecidableEq, Repr

def Grammar.scanFrom (grammar : Grammar) (given : Given) (waiting : Option Flag) :
    List String → Except Halt Scan
  | [] => if waiting.isSome then .error .usage else .ok { given }
  | argument :: rest =>
    match Argument.of argument, waiting with
    | .word value, some flag => do
      grammar.scanFrom (← given.addValue flag value) none rest
    | _, some _ => .error .usage
    | .stop, none => do
      return { given := ← given.addWords grammar rest }
    | .long name value, none => do
      let (given, waiting) ← given.addLong grammar name value
      grammar.scanFrom given waiting rest
    | .short letters, none => do
      let (given, waiting) ← given.addShort grammar letters
      grammar.scanFrom given waiting rest
    | .word word, none =>
      if grammar.commands.contains word then .ok { given, command := some (word, rest) }
      else do
        grammar.scanFrom (← given.addWord grammar word) none rest

def Grammar.scan (grammar : Grammar) (arguments : List String) : Except Halt Scan :=
  grammar.scanFrom {} none arguments

end EventStream.Cli
