import EventStream.Chat.Message
import EventStream.Proofs.Json.RecordSchema

/-!
What the documents of assistants have to say. For each type its members are listed with the types of
their values, and the format of the type accepts just the values that have them.
-/

set_option autoImplicit false

namespace EventStream.Chat

open Json (Rule Schema Format Field Members)

def WebLink.rules : List Rule :=
  [.required "url" .text, .required "title" .text, .optional "snippet" .text]

theorem WebLink.takes : WebLink.format.Takes (.Record WebLink.rules) := by
  apply Format.Takes.record
  apply Members.Obeys.cons (.required .string) _ (by decide)
  apply Members.Obeys.cons (.required .string) _ (by decide)
  exact .cons (.optional .string) .nil (by decide)

def Span.rules : List Rule :=
  [.optional "start" (.integer (-0x8000000000000000) 0x7FFFFFFFFFFFFFFF),
    .optional "end" (.integer (-0x8000000000000000) 0x7FFFFFFFFFFFFFFF)]

theorem Span.takes : Span.format.Takes (.Record Span.rules) := by
  apply Format.Takes.record
  apply Members.Obeys.cons (.optional .int64) _ (by decide)
  exact .cons (.optional .int64) .nil (by decide)

def Reference.rules : List Rule :=
  [.optional "licenseName" .text, .optional "repository" .text, .optional "url" .text,
    .optional "recommendationContentSpan" (.Record Span.rules)]

theorem Reference.takes : Reference.format.Takes (.Record Reference.rules) := by
  apply Format.Takes.record
  apply Members.Obeys.cons (.optional .string) _ (by decide)
  apply Members.Obeys.cons (.optional .string) _ (by decide)
  apply Members.Obeys.cons (.optional .string) _ (by decide)
  exact .cons (.optional Span.takes) .nil (by decide)

def UserIntent.names : List String :=
  ["APPLY_COMMON_BEST_PRACTICES", "CITE_SOURCES", "CODE_GENERATION", "EXPLAIN_CODE_SELECTION",
    "EXPLAIN_LINE_BY_LINE", "GENERATE_CLOUDFORMATION_TEMPLATE", "GENERATE_UNIT_TESTS",
    "IMPROVE_CODE", "SHOW_EXAMPLES", "SUGGEST_ALTERNATE_IMPLEMENTATION"]

theorem UserIntent.takes : UserIntent.format.Takes (.oneOf (· ∈ UserIntent.names)) :=
  .choice fun _ => (or_iff_left Bool.false_ne_true).symm

def FollowupPrompt.rules : List Rule :=
  [.required "content" .text, .optional "userIntent" (.oneOf (· ∈ UserIntent.names))]

theorem FollowupPrompt.takes : FollowupPrompt.format.Takes (.Record FollowupPrompt.rules) := by
  apply Format.Takes.record
  apply Members.Obeys.cons (.required .string) _ (by decide)
  exact .cons (.optional UserIntent.takes) .nil (by decide)

/-- The input of a tool may be of any shape, `null` among them, or left out. -/
def ToolUse.rules : List Rule :=
  [.required "toolUseId" .text, .required "name" .text, ⟨"input", false, .anything⟩]

theorem ToolUse.takes : ToolUse.format.Takes (.Record ToolUse.rules) := by
  apply Format.Takes.record
  apply Members.Obeys.cons (.required .string) _ (by decide)
  apply Members.Obeys.cons (.required .string) _ (by decide)
  exact .cons (.withDefault .any) .nil (by decide)

def AssistantMessage.rules : List Rule :=
  [.optional "messageId" .text, .required "content" .text,
    .optional "supplementaryWebLinks" (.ListOf (.Record WebLink.rules)),
    .optional "references" (.ListOf (.Record Reference.rules)),
    .optional "followupPrompt" (.Record FollowupPrompt.rules),
    .optional "toolUses" (.ListOf (.Record ToolUse.rules))]

theorem AssistantMessage.takes : AssistantMessage.format.Takes (.Record AssistantMessage.rules) := by
  apply Format.Takes.record
  apply Members.Obeys.cons (.optional .string) _ (by decide)
  apply Members.Obeys.cons (.required .string) _ (by decide)
  apply Members.Obeys.cons (.optional (.list WebLink.takes)) _ (by decide)
  apply Members.Obeys.cons (.optional (.list Reference.takes)) _ (by decide)
  apply Members.Obeys.cons (.optional FollowupPrompt.takes) _ (by decide)
  exact .cons (.optional (.list ToolUse.takes)) .nil (by decide)

def ToolUsePart.rules : List Rule :=
  [.required "toolUseId" .text, .required "name" .text, .optional "input" .text,
    .optional "stop" .flag]

theorem ToolUsePart.takes : ToolUsePart.format.Takes (.Record ToolUsePart.rules) := by
  apply Format.Takes.record
  apply Members.Obeys.cons (.required .string) _ (by decide)
  apply Members.Obeys.cons (.required .string) _ (by decide)
  apply Members.Obeys.cons (.optional .string) _ (by decide)
  exact .cons (.optional .bool) .nil (by decide)

def CitationTarget.names : List String :=
  ["PARAGRAPH", "SENTENCE", "WORD"]

theorem CitationTarget.takes : CitationTarget.format.Takes (.oneOf (· ∈ CitationTarget.names)) :=
  .choice fun _ => (or_iff_left Bool.false_ne_true).symm

def Citation.rules : List Rule :=
  [.required "target" (.oneOf (· ∈ CitationTarget.names)), .optional "citationText" .text,
    .required "citationLink" .text]

theorem Citation.takes : Citation.format.Takes (.Record Citation.rules) := by
  apply Format.Takes.record
  apply Members.Obeys.cons (.required CitationTarget.takes) _ (by decide)
  apply Members.Obeys.cons (.optional .string) _ (by decide)
  exact .cons (.required .string) .nil (by decide)

def FollowupReport.rules : List Rule :=
  [.optional "followupPrompt" (.Record FollowupPrompt.rules)]

theorem FollowupReport.takes : FollowupReport.format.Takes (.Record FollowupReport.rules) :=
  .record (.cons (.optional FollowupPrompt.takes) .nil (by decide))

def ReferenceReport.rules : List Rule :=
  [.optional "references" (.ListOf (.Record Reference.rules))]

theorem ReferenceReport.takes : ReferenceReport.format.Takes (.Record ReferenceReport.rules) :=
  .record (.cons (.optional (.list Reference.takes)) .nil (by decide))

def Metadata.rules : List Rule :=
  [.optional "conversationId" .text, .optional "utteranceId" .text]

theorem Metadata.takes : Metadata.format.Takes (.Record Metadata.rules) := by
  apply Format.Takes.record
  apply Members.Obeys.cons (.optional .string) _ (by decide)
  exact .cons (.optional .string) .nil (by decide)

/-- A reason may have any name; a name that is not known stands for an unknown reason. -/
def InvalidState.rules : List Rule :=
  [.required "reason" (.oneOf fun _ => True), .required "message" .text]

theorem InvalidStateReason.takes : InvalidStateReason.format.Takes (.oneOf fun _ => True) :=
  .choice fun _ => iff_of_true trivial (.inr rfl)

theorem InvalidState.takes : InvalidState.format.Takes (.Record InvalidState.rules) := by
  apply Format.Takes.record
  apply Members.Obeys.cons (.required InvalidStateReason.takes) _ (by decide)
  exact .cons (.required .string) .nil (by decide)

end EventStream.Chat
