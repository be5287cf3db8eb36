import EventStream.Bytes

/-!
Transports bring bytes, or fail. A transport is the list of what it will deliver; behind the last
delivery it is at its end.
-/

set_option autoImplicit false

namespace EventStream

inductive IoKind where
  | notFound
  | permissionDenied
  | connectionReset
  | connectionAborted
  | brokenPipe
  | unexpectedEof
  | timedOut
  | interrupted
  | wouldBlock
  | invalidData
  | isADirectory
  | notADirectory
  | other
  deriving DecidableEq, Repr

def IoKind.message : IoKind → String
  | .notFound => "entity not found"
  | .permissionDenied => "permission denied"
  | .connectionReset => "connection reset"
  | .connectionAborted => "connection aborted"
  | .brokenPipe => "broken pipe"
  | .unexpectedEof => "unexpected end of file"
  | .timedOut => "timed out"
  | .interrupted => "operation interrupted"
  | .wouldBlock => "operation would block"
  | .invalidData => "invalid data"
  | .isADirectory => "is a directory"
  | .notADirectory => "not a directory"
  | .other => "other error"

structure IoError where
  kind : IoKind
  text : Option String := none
  deriving DecidableEq, Repr

def IoError.message (error : IoError) : String :=
  error.text.getD error.kind.message

namespace Stream

inductive Delivery where
  | data (bytes : Bytes)
  | failure (error : IoError)
  deriving DecidableEq, Repr

def Delivery.size : Delivery → Nat
  | .data bytes => 1 + bytes.length
  | .failure _ => 1

/-- What is still to be delivered, and how often it was asked for. -/
structure Transport where
  deliveries : List Delivery
  reads : Nat := 0
  deriving DecidableEq, Repr

namespace Transport

def size (t : Transport) : Nat :=
  t.deliveries.foldr (fun delivery n => delivery.size + n) 0

/-- Reads at most `limit` bytes of the next delivery; the rest of it stays. No bytes mean the
end. -/
def read (limit : Nat) (t : Transport) : Except IoError Bytes × Transport :=
  match t.deliveries with
  | [] => (.ok [], ⟨[], t.reads + 1⟩)
  | .failure error :: rest => (.error error, ⟨rest, t.reads + 1⟩)
  | .data bytes :: rest =>
    let more := bytes.drop limit
    (.ok (bytes.take limit), ⟨if more.isEmpty then rest else .data more :: rest, t.reads + 1⟩)

/-- All bytes up to the end, or the failure before it. Interruptions are tried again. -/
def contents : List Delivery → Except IoError Bytes
  | [] => .ok []
  | .failure error :: rest =>
    if error.kind = .interrupted then contents rest else .error error
  | .data [] :: _ => .ok []
  | .data bytes :: rest => (contents rest).map (bytes ++ ·)

theorem read_error_size {limit : Nat} {t : Transport} {error : IoError}
    (h : (t.read limit).1 = .error error) : (t.read limit).2.size < t.size := by
  obtain ⟨deliveries, reads⟩ := t
  cases deliveries with
  | nil => simp [read] at h
  | cons d rest =>
    cases d with
    | data bytes => simp [read] at h
    | failure e =>
      simp only [read, size, List.foldr_cons, Delivery.size]
      omega

theorem read_ok_size {limit : Nat} {t : Transport} {chunk : Bytes}
    (h : (t.read limit).1 = .ok chunk) (hc : chunk ≠ []) :
    (t.read limit).2.size < t.size := by
  obtain ⟨deliveries, reads⟩ := t
  cases deliveries with
  | nil =>
    simp only [read, Except.ok.injEq] at h
    exact absurd h.symm hc
  | cons d rest =>
    cases d with
    | failure e => simp [read] at h
    | data bytes =>
      simp only [read, Except.ok.injEq] at h
      subst h
      simp only [read, size, List.foldr_cons, Delivery.size]
      split
      · omega
      · have : (bytes.take limit).length ≠ 0 := fun hl => hc (List.length_eq_zero_iff.1 hl)
        simp only [List.foldr_cons, List.length_drop, List.length_take] at this ⊢
        omega

end Transport

end Stream

end EventStream
