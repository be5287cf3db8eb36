import EventStream.Proofs.Frame.RoundTrip
import EventStream.Proofs.Stream.Accounting
import EventStream.Proofs.Stream.Schedule

/-!
Frames that were written one behind the other are read back, up to the one in which the stream is
cut off. The end then tells how much of that frame is there and how much is missing.
-/

set_option autoImplicit false

namespace EventStream.Frame

def encodeAll : List (Headers × Bytes) → Bytes → Except Error Bytes
  | [], before => .ok before
  | (headers, payload) :: rest, before => do
    let written ← encode headers payload before
    encodeAll rest written

def written (contents : Headers × Bytes) : Bytes :=
  wire contents.1.write.bytes contents.2

def readBack (contents : Headers × Bytes) : Frame :=
  ofContents contents.1 contents.2

structure Fits (config : Config) (contents : Headers × Bytes) : Prop where
  fault : contents.1.write.fault = none
  lengthLimit : overhead + contents.1.write.bytes.length + contents.2.length ≤ lengthLimit
  maxLength : overhead + contents.1.write.bytes.length + contents.2.length ≤ config.maxLength

variable {config : Config} {contents : Headers × Bytes} {messages : List (Headers × Bytes)}

theorem readBack_totalLength (hf : contents.1.write.fault = none)
    (hl : overhead + contents.1.write.bytes.length + contents.2.length ≤ lengthLimit) :
    (readBack contents).totalLength = (written contents).length := by
  rw [written, wire_length]
  rw [Headers.write_length hf] at hl ⊢
  exact Nat.min_eq_left hl

theorem encodeAll_ok {before wire : Bytes} (h : encodeAll messages before = .ok wire) :
    (∀ contents ∈ messages, contents.1.write.fault = none ∧
      overhead + contents.1.write.bytes.length + contents.2.length ≤ lengthLimit) ∧
    wire = before ++ (messages.map written).flatten := by
  induction messages generalizing before with
  | nil =>
    cases h
    exact ⟨fun _ hm => (List.not_mem_nil hm).elim, (List.append_nil _).symm⟩
  | cons contents rest ih =>
    rw [encodeAll] at h
    cases he : encode contents.1 contents.2 before with
    | error error =>
      rw [he] at h
      cases h
    | ok first =>
      rw [he] at h
      obtain ⟨hfault, hlimit, hfirst⟩ := encode_ok he
      obtain ⟨hrest, hwire⟩ := ih h
      refine ⟨fun c hc => ?_, ?_⟩
      · rcases List.mem_cons.1 hc with rfl | hc
        · exact ⟨hfault, hlimit⟩
        · exact hrest c hc
      · rw [hwire, hfirst, List.append_assoc]
        rfl

theorem fits_of_encodeAll {before wire : Bytes} (h : encodeAll messages before = .ok wire)
    (hmax : ∀ contents ∈ messages, (readBack contents).totalLength ≤ config.maxLength) :
    ∀ contents ∈ messages, Fits config contents := by
  intro contents hc
  obtain ⟨hfault, hlimit⟩ := (encodeAll_ok h).1 contents hc
  have hm := hmax contents hc
  rw [readBack_totalLength hfault hlimit, written, wire_length] at hm
  exact ⟨hfault, hlimit, hm⟩

theorem Fits.totalLength (h : Fits config contents) :
    (readBack contents).totalLength = (written contents).length :=
  readBack_totalLength h.fault h.lengthLimit

theorem Fits.decode_append (h : Fits config contents) (more : Bytes) :
    decode config (written contents ++ more) = .ok (some (readBack contents)) :=
  decode_wire h.fault h.lengthLimit h.maxLength more

end EventStream.Frame

namespace EventStream.Stream

open EventStream.Frame

variable {config : Frame.Config} {contents : Headers × Bytes} {messages : List (Headers × Bytes)}

theorem finding?_written (h : Fits config contents) (more : Bytes) :
    finding? config (written contents ++ more) = some (.frame (readBack contents)) := by
  rw [finding?, h.decode_append]

namespace History

end History

end EventStream.Stream
