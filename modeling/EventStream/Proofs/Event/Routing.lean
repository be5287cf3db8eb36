import EventStream.Event
import EventStream.Proofs.Header.Lookup
import EventStream.Proofs.Text.Strict

/-!
Where frames are routed. The message type is read first and only as a text; failures are told
whatever the payload is. The event type is read as the text of a value of any type, and only a
payload of a known kind can be refused.
-/

set_option autoImplicit false

namespace EventStream

namespace Header

end Header

/-- How the payloads of one kind are laid out, and the event that one tells. -/
structure Shape where
  Body : Type
  format : Json.Format Body
  event : Body → Event

namespace EventKind

def shape : EventKind → Shape
  | .assistantResponse => ⟨Chat.AssistantMessage, Chat.AssistantMessage.format, .assistantResponse⟩
  | .toolUse => ⟨Chat.ToolUsePart, Chat.ToolUsePart.format, .toolUse⟩
  | .citation => ⟨Chat.Citation, Chat.Citation.format, .citation⟩
  | .followupPrompt => ⟨Chat.FollowupReport, Chat.FollowupReport.format, .followupPrompt⟩
  | .codeReference => ⟨Chat.ReferenceReport, Chat.ReferenceReport.format, .codeReference⟩
  | .messageMetadata => ⟨Chat.Metadata, Chat.Metadata.format, .messageMetadata⟩
  | .invalidState => ⟨Chat.InvalidState, Chat.InvalidState.format, .invalidState⟩

/-- The payload is a text in the shape of the kind, and the event is the one that it tells. -/
def Reads (kind : EventKind) (payload : Bytes) (event : Event) : Prop :=
  ∃ text body, payload = Utf8.encode text ∧ kind.shape.format.parse text = .ok body ∧
    event = kind.shape.event body

theorem ofHeader?_eq_some {text : String} {kind : EventKind} :
    ofHeader? text = some kind ↔ text = kind.header := by
  refine ⟨fun h => (beq_iff_eq.1 (List.find?_some h :)).symm, ?_⟩
  rintro rfl
  cases kind <;> decide

theorem ofHeader?_eq_none {text : String} :
    ofHeader? text = none ↔ ∀ kind : EventKind, text ≠ kind.header := by
  simp only [Option.eq_none_iff_forall_ne_some, ne_eq, ofHeader?_eq_some]

theorem kind?_event (kind : EventKind) (body : kind.shape.Body) :
    (kind.shape.event body).kind? = some kind := by
  cases kind <;> rfl

end EventKind

namespace Event

theorem ofPayload_eq (kind : EventKind) (payload : Bytes) :
    ofPayload kind payload = (readPayload kind.shape.format payload).map kind.shape.event := by
  cases kind <;> rfl

section readPayload

variable {α : Type} {format : Json.Format α} {payload : Bytes}

theorem readPayload_eq_ok {a : α} :
    readPayload format payload = .ok a ↔
      ∃ text, payload = Utf8.encode text ∧ format.parse text = .ok a := by
  simp only [readPayload, ← Utf8.decode_eq_ok_iff]
  cases Utf8.decode payload with
  | error fault => simp
  | ok text =>
    simp only [Except.ok.injEq, exists_eq_left']
    cases format.parse text <;> simp [Except.mapError]

end readPayload

theorem reads_iff {kind : EventKind} {payload : Bytes} {event : Event} :
    kind.Reads payload event ↔
      ∃ body, readPayload kind.shape.format payload = .ok body ∧
        event = kind.shape.event body := by
  simp only [readPayload_eq_ok, EventKind.Reads]
  constructor
  · rintro ⟨text, body, hpayload, hbody, hevent⟩
    exact ⟨body, ⟨text, hpayload, hbody⟩, hevent⟩
  · rintro ⟨body, ⟨text, hpayload, hbody⟩, hevent⟩
    exact ⟨text, body, hpayload, hbody, hevent⟩

theorem ofPayload_eq_ok {kind : EventKind} {payload : Bytes} {event : Event} :
    ofPayload kind payload = .ok event ↔ kind.Reads payload event := by
  rw [ofPayload_eq, reads_iff]
  cases readPayload kind.shape.format payload <;> simp [Except.map, eq_comm]

end Event

namespace ServiceException

end ServiceException

namespace Frame

def ReportsFailure (frame : Frame) : Prop :=
  ∃ text, frame.headers.get? Header.messageType = some (.string text) ∧
    (text = "exception" ∨ text = "error")

end Frame

section classify

variable {frame : Frame}

theorem classify_of_error
    (h : frame.headers.get? Header.messageType = some (.string "error")) :
    classify frame = .ok (.exception (.ofError frame)) := by
  rw [classify, if_pos (Headers.getString?_eq_some.2 h)]

theorem classify_of_exception
    (h : frame.headers.get? Header.messageType = some (.string "exception")) :
    classify frame = .ok (.exception (.ofException frame)) := by
  have h := Headers.getString?_eq_some.2 h
  rw [classify, h, if_neg (by decide), if_pos rfl]

theorem classify_of_not_reportsFailure (h : ¬ frame.ReportsFailure) :
    classify frame = match frame.eventType?.bind EventKind.ofHeader? with
      | none => .ok (.unrecognized frame.eventType? frame.payload)
      | some kind => (Event.ofPayload kind frame.payload).mapError fun fault =>
          ⟨kind, fault, preview frame.payload⟩ := by
  have hne : ∀ text, text = "exception" ∨ text = "error" →
      frame.headers.getString? Header.messageType ≠ some text := fun text htext he =>
    h ⟨text, Headers.getString?_eq_some.1 he, htext⟩
  rw [classify]
  exact (if_neg (hne _ (.inr rfl))).trans (if_neg (hne _ (.inl rfl)))

theorem classify_unrecognized (h : ¬ frame.ReportsFailure)
    (hkind : ∀ kind : EventKind, frame.eventType? ≠ some kind.header) :
    classify frame = .ok (.unrecognized frame.eventType? frame.payload) := by
  have hnone : frame.eventType?.bind EventKind.ofHeader? = none := by
    rw [Option.bind_eq_none_iff]
    intro text htext
    exact EventKind.ofHeader?_eq_none.2 fun kind he => hkind kind (htext.trans (congrArg some he))
  rw [classify_of_not_reportsFailure h, hnone]

section kind

variable {kind : EventKind}

theorem classify_of_kind (h : ¬ frame.ReportsFailure)
    (hkind : frame.eventType? = some kind.header) :
    classify frame = (Event.ofPayload kind frame.payload).mapError fun fault =>
      ⟨kind, fault, preview frame.payload⟩ := by
  have hsome : frame.eventType?.bind EventKind.ofHeader? = some kind := by
    rw [hkind]
    exact EventKind.ofHeader?_eq_some.2 rfl
  rw [classify_of_not_reportsFailure h, hsome]

theorem classify_eq_ok (h : ¬ frame.ReportsFailure)
    (hkind : frame.eventType? = some kind.header) {event : Event} :
    classify frame = .ok event ↔ kind.Reads frame.payload event := by
  rw [classify_of_kind h hkind, ← Event.ofPayload_eq_ok]
  cases Event.ofPayload kind frame.payload <;> simp [Except.mapError]

end kind

end classify

end EventStream
