import EventStream.Event

/-!
What a decoded stream consists of: events, and errors. An error of a single frame lets the stream
go on behind that frame; other errors end it.
-/

set_option autoImplicit false

namespace EventStream.Stream

inductive Error where
  | frame (error : Frame.Error)
  | event (error : EventError)
  | truncated (buffered missing : Nat)
  /-- The end of the stream was announced while whole frames were still to be taken out. -/
  | undrained (buffered : Nat)
  | closed
  | transport (message : String)
  deriving DecidableEq

namespace Error

def message : Error → String
  | .frame error => s!"frame error: {error.message}"
  | .event error => s!"event error: {error.message}"
  | .truncated buffered missing =>
    s!"stream truncated: {missing} bytes missing from the final frame ({buffered} buffered)"
  | .undrained buffered => s!"stream finished with undrained frames ({buffered} bytes buffered)"
  | .closed => "stream assembler is closed"
  | .transport message => s!"transport error: {message}"

def isFatal : Error → Bool
  | .frame _ => false
  | .event _ => false
  | .undrained _ => false
  | .truncated .. => true
  | .closed => true
  | .transport _ => true

def label : Error → String
  | .frame error => error.label
  | .event _ => "payload_decode"
  | .truncated .. => "truncated_stream"
  | .undrained _ => "undrained"
  | .closed => "closed"
  | .transport _ => "transport"

end Error

abbrev Item := Except Error Event

end EventStream.Stream
