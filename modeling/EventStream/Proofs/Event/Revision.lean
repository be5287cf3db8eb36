import EventStream.Proofs.Chat.Revision
import EventStream.Proofs.Chat.RoundTrip
import EventStream.Proofs.Event.Routing
import EventStream.Proofs.Json.Written

/-!
Events stay the same when their payloads grow. Whoever sends an event may list the members of its
payload in another order, add members that are not known here, and give `null` for a member that
may be left out.
-/

set_option autoImplicit false

namespace EventStream

open Json (Document Revises)

def Json.Document.bytes (d : Document) : Bytes :=
  Utf8.encode (String.ofList d.text)

namespace EventKind

def fieldNames : EventKind → List String
  | .assistantResponse => ["messageId", "content", "supplementaryWebLinks", "references",
      "followupPrompt", "toolUses"]
  | .toolUse => ["toolUseId", "name", "input", "stop"]
  | .citation => ["target", "citationText", "citationLink"]
  | .followupPrompt => ["followupPrompt"]
  | .codeReference => ["references"]
  | .messageMetadata => ["conversationId", "utteranceId"]
  | .invalidState => ["reason", "message"]

/-- The names of the members that a payload of the kind may lack. -/
def optionalNames : EventKind → List String
  | .assistantResponse => ["messageId", "supplementaryWebLinks", "references", "followupPrompt",
      "toolUses"]
  | .toolUse => ["input", "stop"]
  | .citation => ["citationText"]
  | .followupPrompt => ["followupPrompt"]
  | .codeReference => ["references"]
  | .messageMetadata => ["conversationId", "utteranceId"]
  | .invalidState => []

theorem isRevisable (kind : EventKind) :
    kind.shape.format.IsRevisable kind.fieldNames kind.optionalNames := by
  cases kind with
  | assistantResponse => exact Chat.AssistantMessage.isRevisable
  | toolUse => exact Chat.ToolUsePart.isRevisable
  | citation => exact Chat.Citation.isRevisable
  | followupPrompt => exact Chat.FollowupReport.isRevisable
  | codeReference => exact Chat.ReferenceReport.isRevisable
  | messageMetadata => exact Chat.Metadata.isRevisable
  | invalidState => exact Chat.InvalidState.isRevisable

theorem reads_encode {kind : EventKind} {text : String} {event : Event} :
    kind.Reads (Utf8.encode text) event ↔
      (kind.shape.format.parse text).toOption.map kind.shape.event = some event := by
  rw [Event.reads_iff, Event.readPayload, Utf8.decode_encode]
  dsimp only
  cases kind.shape.format.parse text with
  | error fault => simp [Except.mapError, Except.toOption]
  | ok body => simp [Except.mapError, Except.toOption, eq_comm]

theorem reads_revised {kind : EventKind} {before after : Document}
    (h : Revises kind.fieldNames kind.optionalNames before.members after.members)
    {event : Event} : kind.Reads after.bytes event ↔ kind.Reads before.bytes event := by
  rw [Document.bytes, Document.bytes, reads_encode, reads_encode,
    kind.isRevisable before after h]

end EventKind

/-- An event of a known kind comes of a frame that is routed to this kind and of a payload that
tells the event. -/
theorem classify_eq_ok_of_kind {frame : Frame} {event : Event} {kind : EventKind}
    (hkind : event.kind? = some kind) :
    classify frame = .ok event ↔
      ¬ frame.ReportsFailure ∧ frame.eventType? = some kind.header ∧
        kind.Reads frame.payload event := by
  constructor
  · intro h
    -- failures and frames that are kept as they are give events without a kind
    by_cases hfailure : frame.ReportsFailure
    · obtain ⟨text, htype, rfl | rfl⟩ := hfailure
      · rw [classify_of_exception htype] at h
        cases h
        cases hkind
      · rw [classify_of_error htype] at h
        cases h
        cases hkind
    by_cases hknown : ∃ kind : EventKind, frame.eventType? = some kind.header
    · obtain ⟨other, htype⟩ := hknown
      have hreads := (classify_eq_ok hfailure htype).1 h
      obtain ⟨text, body, -, -, rfl⟩ := hreads
      rw [other.kind?_event] at hkind
      cases hkind
      exact ⟨hfailure, htype, (classify_eq_ok hfailure htype).1 h⟩
    · rw [classify_unrecognized hfailure (not_exists.1 hknown)] at h
      cases h
      cases hkind
  · rintro ⟨hfailure, htype, hreads⟩
    exact (classify_eq_ok hfailure htype).2 hreads

/-- A frame tells an event of a known kind if and only if it tells the same event with a revised
payload: with members in another order, with members of other names than those of the kind,
whatever their values are, and with `null` for members that it lacks. -/
theorem classify_revised {frame : Frame} {event : Event} {kind : EventKind}
    {before after : Document} (hkind : event.kind? = some kind)
    (hpayload : frame.payload = before.bytes)
    (h : Revises kind.fieldNames kind.optionalNames before.members after.members) :
    classify { frame with payload := after.bytes } = .ok event ↔ classify frame = .ok event := by
  have hreads : kind.Reads after.bytes event ↔ kind.Reads frame.payload event := by
    rw [hpayload]
    exact EventKind.reads_revised h
  rw [classify_eq_ok_of_kind hkind, classify_eq_ok_of_kind hkind, ← hreads]
  rfl

def citationFrame (payload : Bytes) : Frame :=
  ⟨0, 0, .ofList [(Header.eventType, .string "citationEvent")], payload⟩

theorem payload_citationFrame (payload : Bytes) : (citationFrame payload).payload = payload := rfl

theorem classify_citationFrame {payload : Bytes} {event : Event} :
    classify (citationFrame payload) = .ok event ↔ EventKind.Reads .citation payload event :=
  classify_eq_ok (fun ⟨_, h, _⟩ => nomatch h) rfl

/-- A citation as it is written, and then with its members the other way round, with a list among
them that nobody knows, and with `null` for its text. -/
theorem classify_revised_citation :
    ∃ after : Document,
      String.ofList after.text = Json.compact (.object [("citationLink", .string "x"),
        ("note", .array [.number (.int 1), .null]), ("target", .string "WORD"),
        ("citationText", .null)]) ∧
      classify (citationFrame after.bytes) = .ok (.citation ⟨.word, none, "x"⟩) := by
  let target : Json.Member := .written ("target", .string "WORD")
  let link : Json.Member := .written ("citationLink", .string "x")
  let note : Json.Member := .written ("note", .array [.number (.int 1), .null])
  let text : Json.Member := .written ("citationText", .null)
  let before := Document.written [("target", .string "WORD"), ("citationLink", .string "x")]
  let after := Document.written [("citationLink", .string "x"),
    ("note", .array [.number (.int 1), .null]), ("target", .string "WORD"),
    ("citationText", .null)]
  have hrevises : Revises (EventKind.fieldNames .citation) (EventKind.optionalNames .citation)
      before.members after.members := by
    refine @Revises.trans _ _ [target, link] [link, target] _ (.reorder (.swap _ _ _)) ?_
    refine @Revises.trans _ _ _ [link, note, target] _ ?_ ?_
    · exact @Revises.unknown _ _ [link] [target] note (by decide)
    · refine @Revises.null _ _ [link, note, target] [] text (by decide) rfl ?_
      simp [link, note, target, text, Json.Member.written]
  let citation : Chat.Citation := ⟨.word, none, "x"⟩
  have hparse := (Chat.Citation.readsBack citation).parse (by decide) .compact
  have hreads : EventKind.Reads .citation before.bytes (.citation citation) :=
    ⟨String.ofList before.text, citation, rfl, (Document.text_written _).symm ▸ hparse, rfl⟩
  have hbefore := classify_citationFrame.2 hreads
  have hrevised := @classify_revised (citationFrame before.bytes) (.citation citation) .citation
    before after rfl (payload_citationFrame _) hrevises
  refine ⟨after, ?_, hrevised.2 hbefore⟩
  rw [Document.text_written]
  rfl

end EventStream
