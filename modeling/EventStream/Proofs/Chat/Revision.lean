import EventStream.Chat.Message
import EventStream.Proofs.Json.Revision

/-!
What assistants answer stays readable when it grows. A document of each type may gain members that
the type does not know, and may list those that it does know in another order; each type tells the
names of its members and which of them may be `null`.
-/

set_option autoImplicit false

namespace EventStream.Chat

open Json (Format Members)

theorem WebLink.isSettled : WebLink.format.IsSettled :=
  .record (.cons .string <| .cons .string <| .cons (.nullable .string) .nil)

theorem Span.isSettled : Span.format.IsSettled :=
  .record (.cons (.nullable .int64) <| .cons (.nullable .int64) .nil)

theorem Reference.isSettled : Reference.format.IsSettled :=
  .record (.cons (.nullable .string) <| .cons (.nullable .string) <| .cons (.nullable .string) <|
    .cons (.nullable Span.isSettled) .nil)

theorem FollowupPrompt.isSettled : FollowupPrompt.format.IsSettled :=
  .record (.cons .string <| .cons (.nullable (.choice _ _ _)) .nil)

theorem ToolUse.isSettled : ToolUse.format.IsSettled :=
  .record (.cons .string <| .cons .string <| .cons .any .nil)

theorem AssistantMessage.isRevisable : AssistantMessage.format.IsRevisable
    ["messageId", "content", "supplementaryWebLinks", "references", "followupPrompt", "toolUses"]
    ["messageId", "supplementaryWebLinks", "references", "followupPrompt", "toolUses"] := by
  apply Format.IsRevisable.record
  apply Members.IsRevisable.optional .string _ (by decide)
  apply Members.IsRevisable.required .string _ (by decide)
  apply Members.IsRevisable.optional (.list WebLink.isSettled) _ (by decide)
  apply Members.IsRevisable.optional (.list Reference.isSettled) _ (by decide)
  apply Members.IsRevisable.optional FollowupPrompt.isSettled _ (by decide)
  exact .optional (.list ToolUse.isSettled) .nil (by decide)

theorem ToolUsePart.isRevisable : ToolUsePart.format.IsRevisable
    ["toolUseId", "name", "input", "stop"] ["input", "stop"] := by
  apply Format.IsRevisable.record
  apply Members.IsRevisable.required .string _ (by decide)
  apply Members.IsRevisable.required .string _ (by decide)
  apply Members.IsRevisable.optional .string _ (by decide)
  exact .optional .bool .nil (by decide)

theorem Citation.isRevisable : Citation.format.IsRevisable
    ["target", "citationText", "citationLink"] ["citationText"] := by
  apply Format.IsRevisable.record
  apply Members.IsRevisable.required (.choice _ _ _) _ (by decide)
  apply Members.IsRevisable.optional .string _ (by decide)
  exact .required .string .nil (by decide)

theorem FollowupReport.isRevisable : FollowupReport.format.IsRevisable
    ["followupPrompt"] ["followupPrompt"] :=
  .record (.optional FollowupPrompt.isSettled .nil (by decide))

theorem ReferenceReport.isRevisable : ReferenceReport.format.IsRevisable
    ["references"] ["references"] :=
  .record (.optional (.list Reference.isSettled) .nil (by decide))

theorem Metadata.isRevisable : Metadata.format.IsRevisable
    ["conversationId", "utteranceId"] ["conversationId", "utteranceId"] := by
  apply Format.IsRevisable.record
  apply Members.IsRevisable.optional .string _ (by decide)
  exact .optional .string .nil (by decide)

theorem InvalidState.isRevisable : InvalidState.format.IsRevisable ["reason", "message"] [] := by
  apply Format.IsRevisable.record
  apply Members.IsRevisable.required (.choice _ _ _) _ (by decide)
  exact .required .string .nil (by decide)

end EventStream.Chat
