import EventStream.Chat.Message
import EventStream.Proofs.Json.Bounded

/-!
What is read as an answer of an assistant can be written within the levels of the text that it was
read from. The lemma of a type follows its format field by field.
-/

set_option autoImplicit false

namespace EventStream.Chat

theorem WebLink.isBounded : WebLink.format.IsBounded :=
  .record (.cons (.required .string) <| .cons (.required .string) <|
    .cons (.optional .string) .nil) (by decide) fun _ => rfl

theorem Span.isBounded : Span.format.IsBounded :=
  .record (.cons (.optional .int64) <| .cons (.optional .int64) .nil) (by decide) fun _ => rfl

theorem Reference.isBounded : Reference.format.IsBounded :=
  .record (.cons (.optional .string) <| .cons (.optional .string) <| .cons (.optional .string) <|
    .cons (.optional Span.isBounded) .nil) (by decide) fun _ => rfl

theorem FollowupPrompt.isBounded : FollowupPrompt.format.IsBounded :=
  .record (.cons (.required .string) <| .cons (.optional .choice) .nil) (by decide) fun _ => rfl

theorem ToolUse.isBounded : ToolUse.format.IsBounded :=
  .record (.cons (.required .string) <| .cons (.required .string) <|
    .cons (.withDefault .any fun _ => .null) .nil) (by decide) fun _ => rfl

theorem AssistantMessage.isBounded : AssistantMessage.format.IsBounded :=
  .record (.cons (.optional .string) <| .cons (.required .string) <|
    .cons (.optional (.list WebLink.isBounded)) <|
    .cons (.optional (.list Reference.isBounded)) <|
    .cons (.optional FollowupPrompt.isBounded) <|
    .cons (.optional (.list ToolUse.isBounded)) .nil) (by decide) fun _ => rfl

theorem ToolUsePart.isBounded : ToolUsePart.format.IsBounded :=
  .record (.cons (.required .string) <| .cons (.required .string) <| .cons (.optional .string) <|
    .cons (.optional .bool) .nil) (by decide) fun _ => rfl

theorem Citation.isBounded : Citation.format.IsBounded :=
  .record (.cons (.required .choice) <| .cons (.optional .string) <|
    .cons (.required .string) .nil) (by decide) fun _ => rfl

theorem FollowupReport.isBounded : FollowupReport.format.IsBounded :=
  .record (.cons (.optional FollowupPrompt.isBounded) .nil) (by decide) fun _ => rfl

theorem ReferenceReport.isBounded : ReferenceReport.format.IsBounded :=
  .record (.cons (.optional (.list Reference.isBounded)) .nil) (by decide) fun _ => rfl

theorem Metadata.isBounded : Metadata.format.IsBounded :=
  .record (.cons (.optional .string) <| .cons (.optional .string) .nil) (by decide) fun _ => rfl

theorem InvalidState.isBounded : InvalidState.format.IsBounded :=
  .record (.cons (.required .choice) <| .cons (.required .string) .nil) (by decide) fun _ => rfl

end EventStream.Chat
