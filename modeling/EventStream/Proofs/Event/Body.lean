import EventStream.Proofs.Chat.Bounded
import EventStream.Proofs.Chat.RoundTrip
import EventStream.Proofs.Event.Routing
import EventStream.Proofs.Json.Written

/-!
What the text of a body says of an event. The body of an event of a known kind is JSON in the shape
of the kind, and stands for the payload: it is read as the same event.
-/

set_option autoImplicit false

namespace EventStream

open Json (Denotes)

namespace Event

def inputs : Event → List Json
  | .assistantResponse message => message.inputs
  | _ => []

/-- The text says the event, its type apart. That of a known kind is in the shape of the kind and,
unless an input has a number that is none of 64 bits, is read as the event again; a failure is told
by its type and message, and any other event by its payload, as a text if it is one. -/
inductive HasBody : Event → List Char → Prop
  | known {kind : EventKind} {body : kind.shape.Body} {text : List Char}
    (h : Denotes text (kind.shape.format.write body))
    (reads : (∀ input ∈ (kind.shape.event body).inputs, input.Plain) →
      kind.Reads (Utf8.encode (String.ofList text)) (kind.shape.event body)) :
    HasBody (kind.shape.event body) text
  | exception {failure : ServiceException} {text : List Char}
    (h : Denotes text (.object [("exceptionType", .string failure.type),
      ("message", failure.message.elim .null .string)])) :
    HasBody (.exception failure) text
  | unrecognized {eventType : Option String} {payload : String} {text : List Char}
    (h : Denotes text (.object [("payload", .string payload),
      ("payloadSize", .number (.int (Utf8.encode payload).length))])) :
    HasBody (.unrecognized eventType (Utf8.encode payload)) text
  | binary {eventType : Option String} {payload : Bytes} {text : List Char}
    (binary : ¬ Utf8.IsText payload)
    (h : Denotes text (.object [("payload", .string s!"<binary {payload.length} bytes>"),
      ("payloadSize", .number (.int payload.length))])) :
    HasBody (.unrecognized eventType payload) text

/-- The body of an event of a known kind stands for the payload of a frame. -/
theorem HasBody.reads {event : Event} {text : List Char} (h : event.HasBody text)
    {kind : EventKind} (hkind : event.kind? = some kind)
    (hinputs : ∀ input ∈ event.inputs, input.Plain) :
    kind.Reads (Utf8.encode (String.ofList text)) event := by
  cases h with
  | @known other body _ _ reads =>
    rw [other.kind?_event] at hkind
    cases hkind
    exact reads hinputs
  | exception | unrecognized | binary => cases hkind

end Event

namespace EventKind

theorem isBounded (kind : EventKind) : kind.shape.format.IsBounded := by
  cases kind with
  | assistantResponse => exact Chat.AssistantMessage.isBounded
  | toolUse => exact Chat.ToolUsePart.isBounded
  | citation => exact Chat.Citation.isBounded
  | followupPrompt => exact Chat.FollowupReport.isBounded
  | codeReference => exact Chat.ReferenceReport.isBounded
  | messageMetadata => exact Chat.Metadata.isBounded
  | invalidState => exact Chat.InvalidState.isBounded

theorem readsBack {kind : EventKind} {body : kind.shape.Body}
    (h : ∀ input ∈ (kind.shape.event body).inputs, input.Plain) :
    kind.shape.format.ReadsBack body := by
  cases kind with
  | assistantResponse => exact Chat.AssistantMessage.readsBack h
  | toolUse => exact Chat.ToolUsePart.readsBack body
  | citation => exact Chat.Citation.readsBack body
  | followupPrompt => exact Chat.FollowupReport.readsBack body
  | codeReference => exact Chat.ReferenceReport.readsBack body
  | messageMetadata => exact Chat.Metadata.readsBack body
  | invalidState => exact Chat.InvalidState.readsBack body

end EventKind

end EventStream
