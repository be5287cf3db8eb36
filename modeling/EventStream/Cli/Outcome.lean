import EventStream.Stream.Transport
import EventStream.Stream.Item
import EventStream.Text.Utf8

/-!
Outcomes: what a command shows, what it reports as the reason of a failure, and its exit code.
-/

set_option autoImplicit false

namespace EventStream.Cli

inductive Status where
  | success
  | usage
  | unreadable
  | permissionDenied
  | invalidData
  | rejected
  | internal
  deriving DecidableEq, Repr

def Status.code : Status → UInt32
  | .success => 0
  | .usage => 2
  | .unreadable => 3
  | .permissionDenied => 50
  | .invalidData => 60
  | .rejected => 64
  | .internal => 125

def Status.ofIo : IoKind → Status
  | .permissionDenied => .permissionDenied
  | .notFound => .unreadable
  | .unexpectedEof => .unreadable
  | .connectionReset => .unreadable
  | .brokenPipe => .unreadable
  | _ => .internal

structure Outcome where
  output : Bytes := []
  /-- The reason of a failure. -/
  failure : Option String := none
  status : Status := .success
  deriving DecidableEq, Repr

namespace Outcome

def shown (text : String) (status : Status) : Outcome where
  output := Utf8.encode text
  status := status

def failed (status : Status) (reason : String) : Outcome where
  failure := some reason
  status := status

def ofIo (doing : String) (error : IoError) : Outcome :=
  failed (.ofIo error.kind) s!"{doing}: {error.message}"

def failureText (outcome : Outcome) : String :=
  outcome.failure.elim "" fun reason => s!"error: {reason}\n"

end Outcome

end EventStream.Cli
