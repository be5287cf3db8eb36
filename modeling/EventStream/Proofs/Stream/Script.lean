import EventStream.Stream.Transport
import EventStream.Proofs.Stream.Operations

/-!
What a transport delivers, and all items that are to be made of it: those of the findings in its
bytes, and one for its end.
-/

set_option autoImplicit false

namespace EventStream.Stream

/-- The item that the end of a transport adds: its failure, or what the end means for the bytes
behind the last finding. -/
def lastItem (rest : Bytes) : Option IoError → Option Item
  | some error => some (.error (.transport error.message))
  | none =>
    match Assembler.ending rest with
    | .ok () => none
    | .error error => some (.error error)

/-- All items of a stream that brings `bytes`, and then ends or fails. -/
def streamItems (config : Frame.Config) (bytes : Bytes) (failure : Option IoError) : List Item :=
  (findings config bytes).map Finding.item ++
    (lastItem (bytes.drop (span (findings config bytes))) failure).toList

def script (chunks : List Bytes) (failure : Option IoError) : List Delivery :=
  chunks.map .data ++ failure.toList.map .failure

def Delivery.isInterruption : Delivery → Bool
  | .data _ => false
  | .failure error => error.kind = .interrupted

def uninterrupted (deliveries : List Delivery) : List Delivery :=
  deliveries.filter fun delivery => !delivery.isInterruption

section script

variable {chunks : List Bytes} {failure : Option IoError} {rest : List Delivery}

theorem script_eq_nil (h : [] = script chunks failure) : chunks = [] ∧ failure = none := by
  cases chunks with
  | nil =>
    cases failure with
    | none => exact ⟨rfl, rfl⟩
    | some error => cases h
  | cons chunk chunks => cases h

theorem script_eq_failure {error : IoError} (h : .failure error :: rest = script chunks failure) :
    chunks = [] ∧ failure = some error := by
  cases chunks with
  | nil =>
    cases failure with
    | none => cases h
    | some error =>
      cases h
      exact ⟨rfl, rfl⟩
  | cons chunk chunks => cases h

theorem script_eq_data {bytes : Bytes} (h : .data bytes :: rest = script chunks failure) :
    ∃ more, chunks = bytes :: more ∧ rest = script more failure := by
  cases chunks with
  | nil =>
    cases failure with
    | none => cases h
    | some error => cases h
  | cons chunk chunks =>
    cases h
    exact ⟨chunks, rfl, rfl⟩

theorem uninterrupted_data (bytes : Bytes) (rest : List Delivery) :
    uninterrupted (.data bytes :: rest) = .data bytes :: uninterrupted rest := rfl

theorem uninterrupted_interruption {error : IoError} (h : error.kind = .interrupted)
    (rest : List Delivery) : uninterrupted (.failure error :: rest) = uninterrupted rest := by
  rw [uninterrupted, List.filter_cons_of_neg (by simp [Delivery.isInterruption, h])]
  rfl

theorem uninterrupted_failure {error : IoError} (h : error.kind ≠ .interrupted)
    (rest : List Delivery) :
    uninterrupted (.failure error :: rest) = .failure error :: uninterrupted rest := by
  rw [uninterrupted, List.filter_cons_of_pos (by simp [Delivery.isInterruption, h])]
  rfl

theorem flatten_length_le {deliveries : List Delivery} (reads : Nat)
    (h : uninterrupted deliveries = script chunks failure) :
    chunks.flatten.length ≤ Transport.size ⟨deliveries, reads⟩ := by
  induction deliveries generalizing chunks with
  | nil =>
    obtain ⟨rfl, -⟩ := script_eq_nil h
    exact Nat.zero_le _
  | cons delivery rest ih =>
    have hsize : Transport.size ⟨delivery :: rest, reads⟩ =
        delivery.size + Transport.size ⟨rest, reads⟩ := rfl
    rw [hsize]
    cases delivery with
    | data bytes =>
      rw [uninterrupted_data] at h
      obtain ⟨more, rfl, hrest⟩ := script_eq_data h
      have hle := ih hrest
      rw [List.flatten_cons, List.length_append, Delivery.size]
      omega
    | failure error =>
      by_cases hk : error.kind = .interrupted
      · rw [uninterrupted_interruption hk] at h
        exact Nat.le_trans (ih h) (Nat.le_add_left _ _)
      · rw [uninterrupted_failure hk] at h
        obtain ⟨rfl, -⟩ := script_eq_failure h
        exact Nat.zero_le _

end script

section read

variable {t : Transport} {rest : List Delivery}

theorem read_of_nil (limit : Nat) (h : t.deliveries = []) : t.read limit = (.ok [], ⟨[], t.reads + 1⟩) := by
  rw [Transport.read, h]

theorem read_of_failure (limit : Nat) {error : IoError}
    (h : t.deliveries = .failure error :: rest) :
    t.read limit = (.error error, ⟨rest, t.reads + 1⟩) := by
  rw [Transport.read, h]

theorem read_of_data (limit : Nat) {bytes : Bytes} (h : t.deliveries = .data bytes :: rest) :
    t.read limit = (.ok (bytes.take limit), ⟨if (bytes.drop limit).isEmpty then rest
      else .data (bytes.drop limit) :: rest, t.reads + 1⟩) := by
  rw [Transport.read, h]

end read

end EventStream.Stream
