import EventStream.Json.Record

/-!
What an assistant answers: messages, the references and tools they mention, and the smaller
reports that come between messages. Each type stands beside its JSON format.
-/

set_option autoImplicit false

namespace EventStream.Chat

open Json (Format Field Members)

structure WebLink where
  url : String
  title : String
  snippet : Option String
  deriving DecidableEq, Repr

def WebLink.format : Format WebLink :=
  .record "SupplementaryWebLink"
    (.cons (.required "url" .string) <| .cons (.required "title" .string) <|
      .cons (.optional "snippet" .string) .nil)
    (fun (url, title, snippet, _) => ⟨url, title, snippet⟩)
    (fun x => (x.url, x.title, x.snippet, ()))

structure Span where
  start : Option Int64
  stop : Option Int64
  deriving DecidableEq, Repr

def Span.format : Format Span :=
  .record "Span"
    (.cons (.optional "start" .int64) <| .cons (.optional "end" .int64) .nil)
    (fun (start, stop, _) => ⟨start, stop⟩)
    (fun x => (x.start, x.stop, ()))

structure Reference where
  licenseName : Option String
  repository : Option String
  url : Option String
  span : Option Span
  deriving DecidableEq, Repr

def Reference.format : Format Reference :=
  .record "Reference"
    (.cons (.optional "licenseName" .string) <| .cons (.optional "repository" .string) <|
      .cons (.optional "url" .string) <|
      .cons (.optional "recommendationContentSpan" Span.format) .nil)
    (fun (licenseName, repository, url, span, _) => ⟨licenseName, repository, url, span⟩)
    (fun x => (x.licenseName, x.repository, x.url, x.span, ()))

inductive UserIntent where
  | applyCommonBestPractices
  | citeSources
  | codeGeneration
  | explainCodeSelection
  | explainLineByLine
  | generateCloudformationTemplate
  | generateUnitTests
  | improveCode
  | showExamples
  | suggestAlternateImplementation
  deriving DecidableEq, Repr

namespace UserIntent

def all : List UserIntent :=
  [.applyCommonBestPractices, .citeSources, .codeGeneration, .explainCodeSelection,
    .explainLineByLine, .generateCloudformationTemplate, .generateUnitTests, .improveCode,
    .showExamples, .suggestAlternateImplementation]

def label : UserIntent → String
  | .applyCommonBestPractices => "APPLY_COMMON_BEST_PRACTICES"
  | .citeSources => "CITE_SOURCES"
  | .codeGeneration => "CODE_GENERATION"
  | .explainCodeSelection => "EXPLAIN_CODE_SELECTION"
  | .explainLineByLine => "EXPLAIN_LINE_BY_LINE"
  | .generateCloudformationTemplate => "GENERATE_CLOUDFORMATION_TEMPLATE"
  | .generateUnitTests => "GENERATE_UNIT_TESTS"
  | .improveCode => "IMPROVE_CODE"
  | .showExamples => "SHOW_EXAMPLES"
  | .suggestAlternateImplementation => "SUGGEST_ALTERNATE_IMPLEMENTATION"

def format : Format UserIntent := .choice all label none

end UserIntent

structure FollowupPrompt where
  content : String
  userIntent : Option UserIntent
  deriving DecidableEq, Repr

def FollowupPrompt.format : Format FollowupPrompt :=
  .record "FollowupPrompt"
    (.cons (.required "content" .string) <|
      .cons (.optional "userIntent" UserIntent.format) .nil)
    (fun (content, userIntent, _) => ⟨content, userIntent⟩)
    (fun x => (x.content, x.userIntent, ()))

structure ToolUse where
  toolUseId : String
  name : String
  input : Json
  deriving Repr

def ToolUse.format : Format ToolUse :=
  .record "ToolUse"
    (.cons (.required "toolUseId" .string) <| .cons (.required "name" .string) <|
      .cons (.withDefault "input" .any .null) .nil)
    (fun (toolUseId, name, input, _) => ⟨toolUseId, name, input⟩)
    (fun x => (x.toolUseId, x.name, x.input, ()))

structure AssistantMessage where
  messageId : Option String := none
  content : String
  webLinks : Option (List WebLink) := none
  references : Option (List Reference) := none
  followupPrompt : Option FollowupPrompt := none
  toolUses : Option (List ToolUse) := none
  deriving Repr

def AssistantMessage.format : Format AssistantMessage :=
  .record "AssistantResponseMessage"
    (.cons (.optional "messageId" .string) <| .cons (.required "content" .string) <|
      .cons (.optional "supplementaryWebLinks" (.list WebLink.format)) <|
      .cons (.optional "references" (.list Reference.format)) <|
      .cons (.optional "followupPrompt" FollowupPrompt.format) <|
      .cons (.optional "toolUses" (.list ToolUse.format)) .nil)
    (fun (messageId, content, webLinks, references, followupPrompt, toolUses, _) =>
      ⟨messageId, content, webLinks, references, followupPrompt, toolUses⟩)
    (fun x => (x.messageId, x.content, x.webLinks, x.references, x.followupPrompt, x.toolUses, ()))

/-- A part of a tool use whose input arrives in pieces. -/
structure ToolUsePart where
  toolUseId : String
  name : String
  input : Option String
  stop : Option Bool
  deriving DecidableEq, Repr

def ToolUsePart.format : Format ToolUsePart :=
  .record "ToolUseEvent"
    (.cons (.required "toolUseId" .string) <| .cons (.required "name" .string) <|
      .cons (.optional "input" .string) <| .cons (.optional "stop" .bool) .nil)
    (fun (toolUseId, name, input, stop, _) => ⟨toolUseId, name, input, stop⟩)
    (fun x => (x.toolUseId, x.name, x.input, x.stop, ()))

def ToolUsePart.isFinal (part : ToolUsePart) : Bool :=
  part.stop.getD false

/-- The extent of text that a citation is for. -/
inductive CitationTarget where
  | paragraph
  | sentence
  | word
  deriving DecidableEq, Repr

namespace CitationTarget

def all : List CitationTarget := [.paragraph, .sentence, .word]

def label : CitationTarget → String
  | .paragraph => "PARAGRAPH"
  | .sentence => "SENTENCE"
  | .word => "WORD"

def format : Format CitationTarget := .choice all label none

end CitationTarget

structure Citation where
  target : CitationTarget
  text : Option String
  link : String
  deriving DecidableEq, Repr

def Citation.format : Format Citation :=
  .record "CitationEvent"
    (.cons (.required "target" CitationTarget.format) <|
      .cons (.optional "citationText" .string) <| .cons (.required "citationLink" .string) .nil)
    (fun (target, text, link, _) => ⟨target, text, link⟩)
    (fun x => (x.target, x.text, x.link, ()))

structure FollowupReport where
  followupPrompt : Option FollowupPrompt
  deriving DecidableEq, Repr

def FollowupReport.format : Format FollowupReport :=
  .record "FollowupPromptEvent"
    (.cons (.optional "followupPrompt" FollowupPrompt.format) .nil)
    (fun (followupPrompt, _) => ⟨followupPrompt⟩)
    (fun x => (x.followupPrompt, ()))

structure ReferenceReport where
  references : Option (List Reference)
  deriving DecidableEq, Repr

def ReferenceReport.format : Format ReferenceReport :=
  .record "CodeReferenceEvent"
    (.cons (.optional "references" (.list Reference.format)) .nil)
    (fun (references, _) => ⟨references⟩)
    (fun x => (x.references, ()))

structure Metadata where
  conversationId : Option String
  utteranceId : Option String
  deriving DecidableEq, Repr

def Metadata.format : Format Metadata :=
  .record "MessageMetadataEvent"
    (.cons (.optional "conversationId" .string) <| .cons (.optional "utteranceId" .string) .nil)
    (fun (conversationId, utteranceId, _) => ⟨conversationId, utteranceId⟩)
    (fun x => (x.conversationId, x.utteranceId, ()))

inductive InvalidStateReason where
  | invalidConversationState
  | invalidRequestContent
  | invalidAuthToken
  /-- Every reason that has no name here. -/
  | unknown
  deriving DecidableEq, Repr

namespace InvalidStateReason

def all : List InvalidStateReason :=
  [.invalidConversationState, .invalidRequestContent, .invalidAuthToken, .unknown]

def label : InvalidStateReason → String
  | .invalidConversationState => "INVALID_CONVERSATION_STATE"
  | .invalidRequestContent => "INVALID_REQUEST_CONTENT"
  | .invalidAuthToken => "INVALID_AUTH_TOKEN"
  | .unknown => "UNKNOWN"

def format : Format InvalidStateReason := .choice all label (some .unknown)

end InvalidStateReason

structure InvalidState where
  reason : InvalidStateReason
  message : String
  deriving DecidableEq, Repr

def InvalidState.format : Format InvalidState :=
  .record "InvalidStateEvent"
    (.cons (.required "reason" InvalidStateReason.format) <|
      .cons (.required "message" .string) .nil)
    (fun (reason, message, _) => ⟨reason, message⟩)
    (fun x => (x.reason, x.message, ()))

end EventStream.Chat
