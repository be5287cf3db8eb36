import EventStream.Cli.Run
import EventStream.Text.Split

/-!
A folder of files as a value, and sessions of commands that run in it one after the other. Paths
are looked up part by part; outside of the folder there is nothing.
-/

set_option autoImplicit false

namespace EventStream.Cli

abbrev Folder := List (String × Bytes)

namespace Folder

def nameLimit : Nat := 255

def pathLimit : Nat := 4095

def missing : IoError := ⟨.notFound, "No such file or directory (os error 2)"⟩

def aDirectory : IoError := ⟨.isADirectory, "Is a directory (os error 21)"⟩

def notADirectory : IoError := ⟨.notADirectory, "Not a directory (os error 20)"⟩

def longName : IoError := ⟨.other, "File name too long (os error 36)"⟩

/-- Where a path leads. -/
inductive Place where
  | directory
  | name (name : String)
  deriving DecidableEq, Repr

/-- Follows the parts of a path, from inside the folder or from around it. A file that is to be
made must not be named like a directory, whatever its name. -/
def follow (folder : Folder) (making inside : Bool) : List String → Except IoError Place
  | [] => .ok .directory
  | part :: rest =>
    if part = "" ∨ part = "." then follow folder making inside rest
    else if part = ".." then follow folder making false rest
    else if making && !rest.isEmpty && rest.all (·.isEmpty) then .error aDirectory
    else if nameLimit < part.utf8ByteSize then .error longName
    else if !inside then .error missing
    else if rest.isEmpty then .ok (.name part)
    else if (folder.lookup part).isSome then .error notADirectory
    else .error missing

/-- Follows a path. One that begins with a slash does not begin in the folder. -/
def resolve (folder : Folder) (making : Bool) (path : String) : Except IoError Place :=
  if pathLimit < path.utf8ByteSize then .error longName
  else
    let parts := (Text.split '/' path.toList).map String.ofList
    follow folder making (parts.head? != some "") parts

/-- Opens a file. A directory can be opened but not be read. -/
def openFile (folder : Folder) (path : String) : Except IoError Stream.Transport :=
  match folder.resolve false path with
  | .error error => .error error
  | .ok .directory => .ok { deliveries := [.failure aDirectory] }
  | .ok (.name name) =>
    match folder.lookup name with
    | none => .error missing
    | some bytes => .ok { deliveries := [.data bytes] }

def appendTo (folder : Folder) (name : String) (bytes : Bytes) : Folder :=
  match folder with
  | [] => [(name, bytes)]
  | (other, content) :: rest =>
    if other = name then (other, content ++ bytes) :: rest
    else (other, content) :: appendTo rest name bytes

def append (folder : Folder) (path : String) (bytes : Bytes) : Except IoError Folder :=
  match folder.resolve true path with
  | .error error => .error error
  | .ok .directory => .error aDirectory
  | .ok (.name name) => .ok (folder.appendTo name bytes)

def host (input : Bytes) : Host (StateM Folder) where
  openSource source := do
    match source with
    | .standardInput => return .ok { deliveries := [.data input] }
    | .file path => return (← get).openFile path
  append path bytes := do
    match (← get).append path bytes with
    | .error error => return .error (.opening, error)
    | .ok folder => do
      set folder
      return .ok ()

end Folder

def runIn (folder : Folder) (arguments : List String) (input : Bytes) : Outcome × Folder :=
  (run (Folder.host input) arguments).run folder

def session (folder : Folder) : List (List String × Bytes) → List Outcome × Folder
  | [] => ([], folder)
  | (arguments, input) :: rest =>
    let (outcome, folder) := runIn folder arguments input
    let (outcomes, folder) := session folder rest
    (outcome :: outcomes, folder)

end EventStream.Cli
