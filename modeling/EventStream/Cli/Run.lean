import EventStream.Chat.Request
import EventStream.Cli.Outcome
import EventStream.Cli.Report
import EventStream.Stream.Reader
import EventStream.Text.Blank

/-!
What the commands do. Reading and writing of files is left to a host, so that a command runs on
the files of a system as well as on those of a folder that is a value.
-/

set_option autoImplicit false

namespace EventStream.Cli

inductive WriteStep where
  | opening
  | writing
  deriving DecidableEq, Repr

structure Host (m : Type → Type) where
  openSource : Source → m (Except IoError Stream.Transport)
  /-- Writes bytes at the end of a file, which is made if there is none. -/
  append : String → Bytes → m (Except (WriteStep × IoError) Unit)

def frameConfig (strict : Bool) : Frame.Config :=
  if strict then .strict else {}

/-- The failure of the transport that ends a list of items. -/
def transportFailure? (items : List Stream.Item) : Option String :=
  items.findSome? fun
    | .error (.transport message) => some message
    | _ => none

def shownItems (items : List Stream.Item) : List Stream.Item :=
  items.filter fun
    | .error (.transport _) => false
    | _ => true

def decodeItems (chunkSize : Nat) (strict : Bool) (input : Stream.Transport) :
    List Stream.Item :=
  (Stream.Reader.start { frame := frameConfig strict } chunkSize input).items.1

def showItems (format : OutputFormat) (items : List Stream.Item) : Outcome :=
  let shown := shownItems items
  let text := Placed.view.render format shown.zipIdx
  match transportFailure? items with
  | some message =>
    { Outcome.shown text .unreadable with
      failure := some s!"read failed: {(Stream.Error.transport message).message}" }
  | none => .shown text (if shown.all (·.isOk) then .success else .invalidData)

def showListing (format : OutputFormat) (listing : Stream.Listing) : Outcome :=
  let text := Located.view.render format listing.entries
  .shown text (if listing.isSound then .success else .invalidData)

/-- The bytes of a transport, or what it means that they could not be brought. -/
def readAll (doing : String) (input : Stream.Transport) : Except Outcome Bytes :=
  (Stream.Transport.contents input.deliveries).mapError (.ofIo doing)

def Encoding.headers (encoding : Encoding) : Headers :=
  .ofList [(Header.messageType, .string encoding.messageType),
    (Header.eventType, .string encoding.eventType),
    (Header.contentType, .string "application/json")]

def Encoding.wire (encoding : Encoding) (payload : Bytes) : Except Outcome Bytes :=
  (Frame.encode encoding.headers payload []).mapError fun error =>
    .failed .rejected s!"encode failed: {error.message}"

/-- A payload that is given as text. It is taken as it stands if it is JSON. -/
def jsonPayload (text : String) : Except Outcome Bytes :=
  match Json.Format.any.parse text with
  | .ok _ => .ok (Utf8.encode text)
  | .error error => .error (.failed .rejected s!"--json is not valid JSON: {error.message}")

def requestOutcome (content : String) (conversationId : Option String) (pretty : Bool) : Outcome :=
  if Text.allBlank content then .failed .rejected "--content must not be empty"
  else
    let conversation := { Chat.Conversation.manual content with id := conversationId }
    let body := Chat.Request.format.write ⟨conversation⟩
    .shown ((if pretty then body.pretty else body.compact) ++ "\n") .success

def toolName : String := "qstream"

def toolVersion : String := "0.1.0"

def versionText : String :=
  s!"{toolName} {toolVersion}\n"

def extendedVersionText : String :=
  let limit := ({} : Frame.Config).maxLength
  s!"name: {toolName}\nversion: {toolVersion}\nmax_frame_length: {limit}\n" ++
    "features: async=false, cli=true\n"

def helpText : String :=
  s!"Event-stream response decoder\n\nUsage: {toolName} [OPTIONS] <COMMAND>\n\n" ++
    "Commands:\n" ++
    "  decode   Decode a captured response body into typed events\n" ++
    "  frames   List the frames of a captured response body\n" ++
    "  encode   Write a single well-formed event frame\n" ++
    "  request  Print the JSON request body for a single-turn conversation\n" ++
    "  version  Show version information\n" ++
    "  help     Print this message\n"

def Halt.outcome : Halt → Outcome
  | .usage => .failed .usage s!"invalid arguments; {toolName} --help shows what is understood"
  | .help => .shown helpText .success
  | .version => .shown versionText .success

section Run

variable {m : Type → Type} [Monad m]

def withInput (host : Host m) (input : Source) (respond : Stream.Transport → Outcome) :
    m Outcome := do
  match input, ← host.openSource input with
  | _, .ok transport => return respond transport
  | .standardInput, .error error => return .ofIo "failed opening -" error
  | .file path, .error error => return .ofIo s!"failed opening {path}" error

def readPayload (host : Host m) : PayloadSource → m (Except Outcome Bytes)
  | .none => return .ok (Utf8.encode "\x7b\x7d")
  | .json text => return jsonPayload text
  | .file path => do
    let doing := s!"failed reading {path}"
    match ← host.openSource (.file path) with
    | .ok transport => return readAll doing transport
    | .error error => return .error (.ofIo doing error)

def deliver (host : Host m) (out : Option String) (wire : Bytes) : m Outcome := do
  match out with
  | none => return { output := wire }
  | some path =>
    match ← host.append path wire with
    | .ok () => return {}
    | .error (.opening, error) => return .ofIo s!"failed opening {path}" error
    | .error (.writing, error) => return .ofIo s!"failed writing {path}" error

/-- Writes a frame. A frame that cannot be written leaves all files as they are. -/
def encode (host : Host m) (encoding : Encoding) : m Outcome := do
  match ← readPayload host encoding.payload with
  | .error outcome => return outcome
  | .ok payload =>
    match encoding.wire payload with
    | .error outcome => return outcome
    | .ok wire => deliver host encoding.out wire

def Command.run (host : Host m) (format : OutputFormat) : Command → m Outcome
  | .decode input chunkSize strict =>
    withInput host input fun transport =>
      showItems format (decodeItems chunkSize strict transport)
  | .frames input strict =>
    withInput host input fun transport =>
      match readAll "read failed" transport with
      | .ok bytes => showListing format (.of (frameConfig strict) bytes)
      | .error outcome => outcome
  | .encode encoding => Cli.encode host encoding
  | .request content conversationId pretty => return requestOutcome content conversationId pretty
  | .version extended =>
    let text := if extended then extendedVersionText else versionText
    return .shown text .success

def run (host : Host m) (arguments : List String) : m Outcome :=
  match Invocation.parse arguments with
  | .ok invocation => invocation.command.run host invocation.format
  | .error halt => return halt.outcome

end Run

end EventStream.Cli
