import EventStream.Proofs.Chat.Schema
import EventStream.Proofs.Event.Routing

/-!
Which payloads tell an event of a known kind. The members of each kind are told by rules, and a
frame of the kind is an event if and only if its payload keeps to them.
-/

set_option autoImplicit false

namespace EventStream

open Json (Padded IsValue Rule Schema)

namespace EventKind

def rules : EventKind → List Rule
  | .assistantResponse => Chat.AssistantMessage.rules
  | .toolUse => Chat.ToolUsePart.rules
  | .citation => Chat.Citation.rules
  | .followupPrompt => Chat.FollowupReport.rules
  | .codeReference => Chat.ReferenceReport.rules
  | .messageMetadata => Chat.Metadata.rules
  | .invalidState => Chat.InvalidState.rules

theorem takes (kind : EventKind) : kind.shape.format.Takes (.Record kind.rules) := by
  cases kind with
  | assistantResponse => exact Chat.AssistantMessage.takes
  | toolUse => exact Chat.ToolUsePart.takes
  | citation => exact Chat.Citation.takes
  | followupPrompt => exact Chat.FollowupReport.takes
  | codeReference => exact Chat.ReferenceReport.takes
  | messageMetadata => exact Chat.Metadata.takes
  | invalidState => exact Chat.InvalidState.takes

/-- A value is read as an event of the kind if and only if it keeps to the rules of the kind. -/
theorem exists_reads_iff {kind : EventKind} {p : Padded} (hp : IsValue p.core) :
    (∃ event, kind.Reads (Utf8.encode (String.ofList p.text)) event) ↔
      Schema.Record kind.rules Json.maxDepth p.core := by
  rw [← kind.takes.parse hp]
  constructor
  · rintro ⟨event, text, body, htext, hparse, -⟩
    have hsame := Utf8.decode_eq_ok_iff.2 htext
    rw [Utf8.decode_encode] at hsame
    cases hsame
    exact ⟨body, hparse⟩
  · rintro ⟨body, hparse⟩
    exact ⟨_, _, body, rfl, hparse, rfl⟩

end EventKind

/-- A frame of a known kind whose payload is one JSON value, blanks around it, is an event if and
only if the value keeps to the rules of the kind. -/
theorem classify_isOk_iff {frame : Frame} {kind : EventKind} (hfailure : ¬ frame.ReportsFailure)
    (htype : frame.eventType? = some kind.header) {p : Padded} (hp : IsValue p.core)
    (hpayload : frame.payload = Utf8.encode (String.ofList p.text)) :
    (∃ event, classify frame = .ok event) ↔ Schema.Record kind.rules Json.maxDepth p.core := by
  rw [← EventKind.exists_reads_iff hp, ← hpayload]
  exact exists_congr fun event => classify_eq_ok hfailure htype

end EventStream
