import EventStream.Chat.Message
import EventStream.Frame.Wire
import EventStream.Header.Name

/-!
Events: what a frame tells. The headers say whether it is an event, an exception or an error, and
of which kind an event is; the payload of a known kind is read as JSON of that kind.
-/

set_option autoImplicit false

namespace EventStream

inductive EventKind where
  | assistantResponse
  | toolUse
  | citation
  | followupPrompt
  | codeReference
  | messageMetadata
  | invalidState
  deriving DecidableEq, Repr

namespace EventKind

def all : List EventKind :=
  [.assistantResponse, .toolUse, .citation, .followupPrompt, .codeReference, .messageMetadata,
    .invalidState]

def header : EventKind → String
  | .assistantResponse => "assistantResponseEvent"
  | .toolUse => "toolUseEvent"
  | .citation => "citationEvent"
  | .followupPrompt => "followupPromptEvent"
  | .codeReference => "codeReferenceEvent"
  | .messageMetadata => "messageMetadataEvent"
  | .invalidState => "invalidStateEvent"

def ofHeader? (value : String) : Option EventKind :=
  all.find? fun kind => kind.header == value

end EventKind

structure ServiceException where
  /-- The name of an exception or the code of an error. -/
  type : String
  message : Option String
  payload : Bytes
  deriving DecidableEq, Repr

inductive Event where
  | assistantResponse (message : Chat.AssistantMessage)
  | toolUse (part : Chat.ToolUsePart)
  | citation (citation : Chat.Citation)
  | followupPrompt (report : Chat.FollowupReport)
  | codeReference (report : Chat.ReferenceReport)
  | messageMetadata (metadata : Chat.Metadata)
  | invalidState (state : Chat.InvalidState)
  | exception (failure : ServiceException)
  | unrecognized (eventType : Option String) (payload : Bytes)
  deriving Repr

namespace Event

def kind? : Event → Option EventKind
  | .assistantResponse _ => some .assistantResponse
  | .toolUse _ => some .toolUse
  | .citation _ => some .citation
  | .followupPrompt _ => some .followupPrompt
  | .codeReference _ => some .codeReference
  | .messageMetadata _ => some .messageMetadata
  | .invalidState _ => some .invalidState
  | .exception _ => none
  | .unrecognized _ _ => none

/-- What an event is called: the value of its event type header, where it has one. -/
def typeName (event : Event) : String :=
  match event, event.kind? with
  | .exception _, _ => "exception"
  | .unrecognized eventType _, _ => eventType.getD "<none>"
  | _, some kind => kind.header
  | _, none => "<none>"

def asText? : Event → Option String
  | .assistantResponse message => some message.content
  | _ => none

def isFailure : Event → Bool
  | .invalidState _ => true
  | .exception _ => true
  | _ => false

def body? : Event → Option Json
  | .assistantResponse message => some (Chat.AssistantMessage.format.write message)
  | .toolUse part => some (Chat.ToolUsePart.format.write part)
  | .citation c => some (Chat.Citation.format.write c)
  | .followupPrompt report => some (Chat.FollowupReport.format.write report)
  | .codeReference report => some (Chat.ReferenceReport.format.write report)
  | .messageMetadata metadata => some (Chat.Metadata.format.write metadata)
  | .invalidState state => some (Chat.InvalidState.format.write state)
  | .exception _ => none
  | .unrecognized _ _ => none

end Event

inductive PayloadFault where
  | invalidUtf8 (fault : Utf8.Fault)
  | malformed (error : Json.Error)
  deriving DecidableEq, Repr

structure EventError where
  kind : EventKind
  fault : PayloadFault
  preview : String
  deriving DecidableEq, Repr

def previewLength : Nat := 128

/-- The beginning of a payload as text, with an ellipsis if there is more. -/
def preview (payload : Bytes) : String :=
  let shown := Utf8.decodeLossy (payload.take previewLength)
  if payload.length ≤ previewLength then shown else shown ++ "..."

def EventError.message (error : EventError) : String :=
  let name := error.kind.header
  match error.fault with
  | .invalidUtf8 fault =>
    s!"{name} payload is not valid UTF-8: {fault.message} (payload: {error.preview})"
  | .malformed fault => s!"malformed {name} payload: {fault.message} (payload: {error.preview})"

namespace Event

def readPayload {α : Type} (format : Json.Format α) (payload : Bytes) : Except PayloadFault α :=
  match Utf8.decode payload with
  | .error fault => .error (.invalidUtf8 fault)
  | .ok text => (format.parse text).mapError .malformed

def ofPayload (kind : EventKind) (payload : Bytes) : Except PayloadFault Event :=
  match kind with
  | .assistantResponse =>
    (readPayload Chat.AssistantMessage.format payload).map .assistantResponse
  | .toolUse => (readPayload Chat.ToolUsePart.format payload).map .toolUse
  | .citation => (readPayload Chat.Citation.format payload).map .citation
  | .followupPrompt => (readPayload Chat.FollowupReport.format payload).map .followupPrompt
  | .codeReference => (readPayload Chat.ReferenceReport.format payload).map .codeReference
  | .messageMetadata => (readPayload Chat.Metadata.format payload).map .messageMetadata
  | .invalidState => (readPayload Chat.InvalidState.format payload).map .invalidState

end Event

/-- A header value as text: byte arrays as UTF-8, other values as they are displayed. -/
def Header.Value.text : Header.Value → String
  | .bytes b => Utf8.decodeLossy b
  | v => v.display

namespace ServiceException

/-- The message in a JSON payload, if the payload is JSON and has one that is a text. -/
def payloadMessage? (payload : Bytes) : Option String :=
  match Event.readPayload .any payload with
  | .error _ => none
  | .ok body => ((body.member? "message") <|> (body.member? "Message")).bind Json.asString?

def ofError (frame : Frame) : ServiceException where
  type := (frame.headers.getString? Header.errorCode).getD "unknown"
  message := frame.headers.getString? Header.errorMessage
  payload := frame.payload

/-- An exception carries its message in the payload; a payload without one is the message. -/
def ofException (frame : Frame) : ServiceException where
  type := (frame.headers.getString? Header.exceptionType).getD "unknown"
  message :=
    payloadMessage? frame.payload <|>
      if frame.payload.isEmpty then none else some (Utf8.decodeLossy frame.payload)
  payload := frame.payload

end ServiceException

def Frame.eventType? (frame : Frame) : Option String :=
  (frame.headers.get? Header.eventType).map Header.Value.text

def classify (frame : Frame) : Except EventError Event :=
  let messageType := frame.headers.getString? Header.messageType
  if messageType = some "error" then .ok (.exception (.ofError frame))
  else if messageType = some "exception" then .ok (.exception (.ofException frame))
  else
    let eventType := frame.eventType?
    match eventType.bind EventKind.ofHeader? with
    | none => .ok (.unrecognized eventType frame.payload)
    | some kind =>
      (Event.ofPayload kind frame.payload).mapError fun fault =>
        ⟨kind, fault, preview frame.payload⟩

end EventStream
