import EventStream.Cli.Command
import EventStream.Json.Print
import EventStream.Stream.Listing
import EventStream.Stream.Item
import EventStream.Text.Table

/-!
Reports: how the items of a stream and the frames of a listing are shown, each as a JSON object, as
a row of a table, or as a line of text.
-/

set_option autoImplicit false

namespace EventStream.Cli

structure View (α : Type) where
  record : α → Json
  head : List String
  row : α → List String
  line : α → String

/-- The text that shows a list of things. Every line of it ends with a line feed. -/
def View.render {α : Type} (view : View α) (format : OutputFormat) (things : List α) : String :=
  match format with
  | .json => String.join (things.map fun thing => (view.record thing).compact ++ "\n")
  | .table => Text.Table.render ⟨view.head, things.map view.row⟩ ++ "\n"
  | .pretty => String.join (things.map fun thing => view.line thing ++ "\n")

def count (n : Nat) : Json :=
  .number (.int n)

/-- The payload of no known kind as text, or else its size. -/
def payloadText (payload : Bytes) : String :=
  match Utf8.decode payload with
  | .ok text => text
  | .error _ => s!"<binary {payload.length} bytes>"

def eventBody (event : Event) : Json :=
  match event, event.body? with
  | .exception failure, _ =>
    .object [("exceptionType", .string failure.type),
      ("message", failure.message.elim .null .string)]
  | .unrecognized _ payload, _ =>
    .object [("payload", .string (payloadText payload)), ("payloadSize", count payload.length)]
  | _, some body => body.sorted
  | _, none => .null

def eventSummary (event : Event) : String :=
  event.asText?.getD (eventBody event).compact

abbrev Placed := Stream.Item × Nat

namespace Placed

def record : Placed → Json
  | (.ok event, index) =>
    .object [("index", count index), ("event_type", .string event.typeName),
      ("body", eventBody event)]
  | (.error error, index) =>
    .object [("index", count index), ("error", .string error.label),
      ("fatal", .bool error.isFatal), ("message", .string error.message)]

def row : Placed → List String
  | (.ok event, index) => [toString index, event.typeName, eventSummary event]
  | (.error error, index) => [toString index, s!"error:{error.label}", error.message]

def line : Placed → String
  | (.ok event, index) => s!"[{index}] {event.typeName} {eventSummary event}"
  | (.error error, index) => s!"[{index}] error:{error.label} {error.message}"

def view : View Placed where
  record := record
  head := ["#", "EVENT", "DETAIL"]
  row := row
  line := line

end Placed

abbrev Located := Nat × Stream.Entry

namespace Located

def headerTexts (frame : Frame) : List (String × String) :=
  frame.headers.entries.map fun (name, value) => (name, value.display)

def equations (separator : String) (frame : Frame) : String :=
  separator.intercalate ((headerTexts frame).map fun (name, text) => s!"{name}={text}")

def skippedText (error : Frame.Error) (skipped : Nat) : String :=
  s!"{error.message} (skipped {skipped} bytes)"

def record : Located → Json
  | (offset, .frame f) =>
    .object [("offset", count offset), ("total_length", count f.totalLength),
      ("headers_length", count f.headersLength), ("payload_length", count f.payload.length),
      ("headers", .object ((headerTexts f).map fun (name, text) => (name, .string text)))]
  | (offset, .error e skipped) =>
    .object [("offset", count offset), ("error", .string e.label), ("skipped", count skipped),
      ("message", .string e.message)]

def row : Located → List String
  | (offset, .frame f) =>
    [toString offset, toString f.totalLength, toString f.headersLength,
      toString f.payload.length, equations "\n" f]
  | (offset, .error e skipped) =>
    [toString offset, s!"error:{e.label}", "", "", skippedText e skipped]

def line : Located → String
  | (offset, .frame f) =>
    let lengths := s!"total={f.totalLength} headers={f.headersLength} payload={f.payload.length}"
    s!"@{offset} {lengths} " ++ equations " " f
  | (offset, .error e skipped) => s!"@{offset} error:{e.label} {skippedText e skipped}"

def view : View Located where
  record := record
  head := ["OFFSET", "TOTAL", "HEADERS", "PAYLOAD", "HEADER VALUES"]
  row := row
  line := line

end Located

end EventStream.Cli
