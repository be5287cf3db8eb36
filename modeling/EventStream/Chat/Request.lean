import EventStream.Chat.Message

/-!
What is sent to an assistant: the conversation so far, the message of the user, and what the user
has at hand. Each type stands beside its JSON format.
-/

set_option autoImplicit false

namespace EventStream.Chat

open Json (Format Field Members)

inductive Trigger where
  | manual
  | automatic
  deriving DecidableEq, Repr

namespace Trigger

def all : List Trigger := [.manual, .automatic]

def label : Trigger → String
  | .manual => "MANUAL"
  | .automatic => "AUTOMATIC"

def format : Format Trigger := .choice all label none

end Trigger

inductive Origin where
  | aiEditor
  | chatbot
  | cli
  | console
  | documentation
  | gitlab
  | ide
  | marketing
  | md
  | mobile
  | opensearchDashboard
  | sageMaker
  | serviceInternal
  | unifiedSearch
  /-- Every place that has no name here. -/
  | unknown
  deriving DecidableEq, Repr

namespace Origin

def all : List Origin :=
  [.aiEditor, .chatbot, .cli, .console, .documentation, .gitlab, .ide, .marketing, .md, .mobile,
    .opensearchDashboard, .sageMaker, .serviceInternal, .unifiedSearch, .unknown]

def label : Origin → String
  | .aiEditor => "AI_EDITOR"
  | .chatbot => "CHATBOT"
  | .cli => "CLI"
  | .console => "CONSOLE"
  | .documentation => "DOCUMENTATION"
  | .gitlab => "GITLAB"
  | .ide => "IDE"
  | .marketing => "MARKETING"
  | .md => "MD"
  | .mobile => "MOBILE"
  | .opensearchDashboard => "OPENSEARCH_DASHBOARD"
  | .sageMaker => "SAGE_MAKER"
  | .serviceInternal => "SERVICE_INTERNAL"
  | .unifiedSearch => "UNIFIED_SEARCH"
  | .unknown => "UNKNOWN"

def format : Format Origin := .choice all label (some .unknown)

end Origin

inductive ImageFormat where
  | jpeg
  | png
  deriving DecidableEq, Repr

namespace ImageFormat

def all : List ImageFormat := [.jpeg, .png]

def label : ImageFormat → String
  | .jpeg => "JPEG"
  | .png => "PNG"

def format : Format ImageFormat := .choice all label none

end ImageFormat

structure ImageSource where
  bytes : String
  deriving DecidableEq, Repr

def ImageSource.format : Format ImageSource :=
  .record "ImageSource" (.cons (.required "bytes" .string) .nil)
    (fun (bytes, _) => ⟨bytes⟩) (fun x => (x.bytes, ()))

structure Image where
  format : ImageFormat
  source : ImageSource
  deriving DecidableEq, Repr

def Image.jsonFormat : Format Image :=
  .record "ImageBlock"
    (.cons (.required "format" ImageFormat.format) <|
      .cons (.required "source" ImageSource.format) .nil)
    (fun (format, source, _) => ⟨format, source⟩)
    (fun x => (x.format, x.source, ()))

structure TextDocument where
  filePath : String
  content : String
  programmingLanguage : Option String
  deriving DecidableEq, Repr

def TextDocument.format : Format TextDocument :=
  .record "TextDocument"
    (.cons (.required "filePath" .string) <| .cons (.required "content" .string) <|
      .cons (.optional "programmingLanguage" .string) .nil)
    (fun (filePath, content, programmingLanguage, _) => ⟨filePath, content, programmingLanguage⟩)
    (fun x => (x.filePath, x.content, x.programmingLanguage, ()))

structure CursorState where
  position : UInt64
  deriving DecidableEq, Repr

def CursorState.format : Format CursorState :=
  .record "CursorState" (.cons (.required "position" .uint64) .nil)
    (fun (position, _) => ⟨position⟩) (fun x => (x.position, ()))

structure EditorState where
  document : Option TextDocument
  cursorState : Option CursorState
  relevantDocuments : Option (List TextDocument)
  useRelevantDocuments : Option Bool
  workspaceFolders : Option (List String)
  deriving DecidableEq, Repr

def EditorState.format : Format EditorState :=
  .record "EditorState"
    (.cons (.optional "document" TextDocument.format) <|
      .cons (.optional "cursorState" CursorState.format) <|
      .cons (.optional "relevantDocuments" (.list TextDocument.format)) <|
      .cons (.optional "useRelevantDocuments" .bool) <|
      .cons (.optional "workspaceFolders" (.list .string)) .nil)
    (fun (document, cursorState, relevantDocuments, useRelevantDocuments, workspaceFolders, _) =>
      ⟨document, cursorState, relevantDocuments, useRelevantDocuments, workspaceFolders⟩)
    (fun x => (x.document, x.cursorState, x.relevantDocuments, x.useRelevantDocuments,
      x.workspaceFolders, ()))

structure ShellEntry where
  command : String
  exitCode : Option Int32
  deriving DecidableEq, Repr

def ShellEntry.format : Format ShellEntry :=
  .record "ShellHistoryEntry"
    (.cons (.required "command" .string) <| .cons (.optional "exitCode" .int32) .nil)
    (fun (command, exitCode, _) => ⟨command, exitCode⟩)
    (fun x => (x.command, x.exitCode, ()))

structure ShellState where
  shellName : String
  shellHistory : Option (List ShellEntry)
  deriving DecidableEq, Repr

def ShellState.format : Format ShellState :=
  .record "ShellState"
    (.cons (.required "shellName" .string) <|
      .cons (.optional "shellHistory" (.list ShellEntry.format)) .nil)
    (fun (shellName, shellHistory, _) => ⟨shellName, shellHistory⟩)
    (fun x => (x.shellName, x.shellHistory, ()))

structure GitState where
  repositoryRoot : Option String
  branchName : Option String
  commitId : Option String
  stagedChanges : Option String
  unstagedChanges : Option String
  untrackedFiles : Option String
  deriving DecidableEq, Repr

def GitState.format : Format GitState :=
  .record "GitState"
    (.cons (.optional "repositoryRoot" .string) <| .cons (.optional "branchName" .string) <|
      .cons (.optional "commitId" .string) <| .cons (.optional "stagedChanges" .string) <|
      .cons (.optional "unstagedChanges" .string) <|
      .cons (.optional "untrackedFiles" .string) .nil)
    (fun (repositoryRoot, branchName, commitId, stagedChanges, unstagedChanges, untrackedFiles, _) =>
      ⟨repositoryRoot, branchName, commitId, stagedChanges, unstagedChanges, untrackedFiles⟩)
    (fun x => (x.repositoryRoot, x.branchName, x.commitId, x.stagedChanges, x.unstagedChanges,
      x.untrackedFiles, ()))

structure EnvironmentVariable where
  name : String
  value : String
  deriving DecidableEq, Repr

def EnvironmentVariable.format : Format EnvironmentVariable :=
  .record "EnvironmentVariable"
    (.cons (.required "name" .string) <| .cons (.required "value" .string) .nil)
    (fun (name, value, _) => ⟨name, value⟩)
    (fun x => (x.name, x.value, ()))

structure EnvironmentState where
  environmentVariables : Option (List EnvironmentVariable)
  deriving DecidableEq, Repr

def EnvironmentState.format : Format EnvironmentState :=
  .record "EnvState"
    (.cons (.optional "environmentVariables" (.list EnvironmentVariable.format)) .nil)
    (fun (environmentVariables, _) => ⟨environmentVariables⟩)
    (fun x => (x.environmentVariables, ()))

structure AdditionalContent where
  contentType : String
  content : String
  deriving DecidableEq, Repr

def AdditionalContent.format : Format AdditionalContent :=
  .record "AdditionalContentEntry"
    (.cons (.required "contentType" .string) <| .cons (.required "content" .string) .nil)
    (fun (contentType, content, _) => ⟨contentType, content⟩)
    (fun x => (x.contentType, x.content, ()))

structure ToolResult where
  toolUseId : String
  status : String
  output : Option String
  deriving DecidableEq, Repr

def ToolResult.format : Format ToolResult :=
  .record "ToolResult"
    (.cons (.required "toolUseId" .string) <| .cons (.required "status" .string) <|
      .cons (.optional "output" .string) .nil)
    (fun (toolUseId, status, output, _) => ⟨toolUseId, status, output⟩)
    (fun x => (x.toolUseId, x.status, x.output, ()))

structure Tool where
  name : String
  description : Option String
  inputSchema : Option String
  deriving DecidableEq, Repr

def Tool.format : Format Tool :=
  .record "Tool"
    (.cons (.required "name" .string) <| .cons (.optional "description" .string) <|
      .cons (.optional "inputSchema" .string) .nil)
    (fun (name, description, inputSchema, _) => ⟨name, description, inputSchema⟩)
    (fun x => (x.name, x.description, x.inputSchema, ()))

structure Context where
  editorState : Option EditorState
  shellState : Option ShellState
  gitState : Option GitState
  environmentState : Option EnvironmentState
  additionalContent : Option (List AdditionalContent)
  toolResults : Option (List ToolResult)
  tools : Option (List Tool)
  deriving DecidableEq, Repr

def Context.format : Format Context :=
  .record "UserInputMessageContext"
    (.cons (.optional "editorState" EditorState.format) <|
      .cons (.optional "shellState" ShellState.format) <|
      .cons (.optional "gitState" GitState.format) <|
      .cons (.optional "envState" EnvironmentState.format) <|
      .cons (.optional "additionalContext" (.list AdditionalContent.format)) <|
      .cons (.optional "toolResults" (.list ToolResult.format)) <|
      .cons (.optional "tools" (.list Tool.format)) .nil)
    (fun (editorState, shellState, gitState, environmentState, additionalContent, toolResults,
        tools, _) =>
      ⟨editorState, shellState, gitState, environmentState, additionalContent, toolResults, tools⟩)
    (fun x => (x.editorState, x.shellState, x.gitState, x.environmentState, x.additionalContent,
      x.toolResults, x.tools, ()))

structure UserMessage where
  content : String
  context : Option Context := none
  userIntent : Option UserIntent := none
  origin : Option Origin := none
  images : Option (List Image) := none
  modelId : Option String := none
  deriving DecidableEq, Repr

def UserMessage.format : Format UserMessage :=
  .record "UserInputMessage"
    (.cons (.required "content" .string) <|
      .cons (.optional "userInputMessageContext" Context.format) <|
      .cons (.optional "userIntent" UserIntent.format) <|
      .cons (.optional "origin" Origin.format) <|
      .cons (.optional "images" (.list Image.jsonFormat)) <|
      .cons (.optional "modelId" .string) .nil)
    (fun (content, context, userIntent, origin, images, modelId, _) =>
      ⟨content, context, userIntent, origin, images, modelId⟩)
    (fun x => (x.content, x.context, x.userIntent, x.origin, x.images, x.modelId, ()))

inductive Turn where
  | user (message : UserMessage)
  | assistant (message : AssistantMessage)
  deriving Repr

def Turn.ofSum : UserMessage ⊕ AssistantMessage → Turn
  | .inl m => .user m
  | .inr m => .assistant m

def Turn.toSum : Turn → UserMessage ⊕ AssistantMessage
  | .user m => .inl m
  | .assistant m => .inr m

def Turn.format : Format Turn :=
  (Format.either "userInputMessage" UserMessage.format
    "assistantResponseMessage" AssistantMessage.format).map ofSum toSum

structure Conversation where
  id : Option String := none
  history : Option (List Turn) := none
  current : Turn
  trigger : Trigger := .manual
  customizationArn : Option String := none
  deriving Repr

def Conversation.format : Format Conversation :=
  .record "ConversationState"
    (.cons (.optional "conversationId" .string) <|
      .cons (.optional "history" (.list Turn.format)) <|
      .cons (.required "currentMessage" Turn.format) <|
      .cons (.required "chatTriggerType" Trigger.format) <|
      .cons (.optional "customizationArn" .string) .nil)
    (fun (id, history, current, trigger, customizationArn, _) =>
      ⟨id, history, current, trigger, customizationArn⟩)
    (fun x => (x.id, x.history, x.current, x.trigger, x.customizationArn, ()))

/-- A message that the user sends without history. -/
def Conversation.manual (content : String) : Conversation :=
  { current := .user { content } }

structure Request where
  conversation : Conversation
  deriving Repr

def Request.format : Format Request :=
  .record "GenerateAssistantResponseRequest"
    (.cons (.required "conversationState" Conversation.format) .nil)
    (fun (conversation, _) => ⟨conversation⟩)
    (fun x => (x.conversation, ()))

end EventStream.Chat
