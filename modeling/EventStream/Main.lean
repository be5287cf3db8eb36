import EventStream.Cli.Run

/-!
The command line tool on the files of the system.
-/

set_option autoImplicit false

namespace EventStream.Cli

def numbered (kind : IoKind) (number : UInt32) (text : String) : IoError :=
  ⟨kind, some s!"{text} (os error {number})"⟩

def systemError : IO.Error → IoError
  | .noFileOrDirectory _ number text => numbered .notFound number text
  | .permissionDenied _ number text => numbered .permissionDenied number text
  | .interrupted _ number text => numbered .interrupted number text
  | .timeExpired number text => numbered .timedOut number text
  | .resourceVanished number text => numbered .brokenPipe number text
  | .inappropriateType _ number text => numbered .other number text
  | .resourceExhausted _ number text => numbered .other number text
  | .invalidArgument _ number text => numbered .other number text
  | .otherError number text => numbered .other number text
  | error => ⟨.other, some error.toString⟩

/-- Reads a stream to its end or to its first failure. -/
partial def deliveries (stream : IO.FS.Stream) (found : List Stream.Delivery) :
    IO (List Stream.Delivery) := do
  match ← (stream.read 65536).toBaseIO with
  | .error error => return (Stream.Delivery.failure (systemError error) :: found).reverse
  | .ok chunk =>
    if chunk.isEmpty then return found.reverse
    else deliveries stream (.data chunk.data.toList :: found)

def openStream : Source → IO IO.FS.Stream
  | .standardInput => IO.getStdin
  | .file path => return .ofHandle (← IO.FS.Handle.mk path .read)

def systemHost : Host IO where
  openSource source := do
    match ← (openStream source).toBaseIO with
    | .error error => return .error (systemError error)
    | .ok stream => return .ok { deliveries := ← deliveries stream [] }
  append path bytes := do
    match ← (IO.FS.Handle.mk path .append).toBaseIO with
    | .error error => return .error (.opening, systemError error)
    | .ok handle =>
      let write : IO Unit := do
        handle.write ⟨bytes.toArray⟩
        handle.flush
      match ← write.toBaseIO with
      | .error error => return .error (.writing, systemError error)
      | .ok () => return .ok ()

def runOnSystem (arguments : List String) : IO UInt32 := do
  let outcome ← run systemHost arguments
  let stdout ← IO.getStdout
  stdout.write ⟨outcome.output.toArray⟩
  stdout.flush
  (← IO.getStderr).putStr outcome.failureText
  return outcome.status.code

end EventStream.Cli

def main (arguments : List String) : IO UInt32 :=
  EventStream.Cli.runOnSystem arguments
