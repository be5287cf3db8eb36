import EventStream.Stream.Assembler
import EventStream.Stream.Transport

/-!
The reader takes items from a transport: it asks for bytes whenever it has no item left, until the
transport ends or fails.
-/

set_option autoImplicit false

namespace EventStream.Stream

structure Reader where
  assembler : Assembler
  source : Transport
  /-- The most bytes that are asked for at once; nought counts as one. -/
  chunkSize : Nat := 8 * 1024
  isDone : Bool := false
  deriving DecidableEq

namespace Reader

def start (config : Assembler.Config) (chunkSize : Nat) (source : Transport) : Reader where
  assembler := { config }
  source := source
  chunkSize := chunkSize

def fetch (r : Reader) : Except IoError Bytes × Transport :=
  r.source.read (max r.chunkSize 1)

/-- The reader at the end of its transport, and the error that the end means, if any. -/
def conclude (r : Reader) : Option Item × Reader :=
  match r.assembler.finish with
  | (.ok (), a) => (none, { r with assembler := a, isDone := true })
  | (.error error, a) => (some (.error error), { r with assembler := a, isDone := true })

/-- The next item; none at the end of the stream. Interruptions are tried again. -/
def next (r : Reader) : Option Item × Reader :=
  if r.isDone then (none, r)
  else match r.assembler.drainSome 1 with
    | (item :: _, a) => (some item, { r with assembler := a })
    | ([], a) =>
      match got : r.fetch.1 with
      | .error error =>
        have : r.fetch.2.size < r.source.size := Transport.read_error_size got
        let r₁ := { r with assembler := a, source := r.fetch.2 }
        if error.kind = .interrupted then r₁.next
        else (some (.error (.transport error.message)), { r₁ with isDone := true })
      | .ok [] => conclude { r with assembler := a, source := r.fetch.2 }
      | .ok (b :: chunk) =>
        have : r.fetch.2.size < r.source.size :=
          Transport.read_ok_size got (List.cons_ne_nil b chunk)
        match a.feed (b :: chunk) with
        | .error error =>
          (some (.error error), { r with assembler := a, source := r.fetch.2, isDone := true })
        | .ok a => Reader.next { r with assembler := a, source := r.fetch.2 }
termination_by r.source.size

def take : Nat → Reader → List Item × Reader
  | 0, r => ([], r)
  | limit + 1, r =>
    match r.next with
    | (none, r) => ([], r)
    | (some item, r) =>
      let (items, r) := take limit r
      (item :: items, r)

def items (r : Reader) : List Item × Reader :=
  r.take (r.assembler.buffered + r.source.size + 2)

end Reader

end EventStream.Stream
