import EventStream.Chat.Request
import EventStream.Proofs.Json.Formats

/-!
Every payload and every request is read back from its text. The lemma of a type follows its format
field by field; only the inputs of tools, which may be any JSON, ask for a condition.
-/

set_option autoImplicit false

namespace EventStream.Chat

open Json (Format)

theorem WebLink.readsBack (x : WebLink) : WebLink.format.ReadsBack x :=
  .record (.cons (.required (.string _)) (by decide) <|
    .cons (.required (.string _)) (by decide) <|
    .cons (.optional fun _ _ => .string _) (by decide) .nil) rfl

theorem Span.readsBack (x : Span) : Span.format.ReadsBack x :=
  .record (.cons (.optional fun _ _ => .int64 _) (by decide) <|
    .cons (.optional fun _ _ => .int64 _) (by decide) .nil) rfl

theorem Reference.readsBack (x : Reference) : Reference.format.ReadsBack x :=
  .record (.cons (.optional fun _ _ => .string _) (by decide) <|
    .cons (.optional fun _ _ => .string _) (by decide) <|
    .cons (.optional fun _ _ => .string _) (by decide) <|
    .cons (.optional fun _ _ => Span.readsBack _) (by decide) .nil) rfl

theorem UserIntent.readsBack (x : UserIntent) : UserIntent.format.ReadsBack x :=
  .choice (by cases x <;> rfl)

theorem FollowupPrompt.readsBack (x : FollowupPrompt) : FollowupPrompt.format.ReadsBack x :=
  .record (.cons (.required (.string _)) (by decide) <|
    .cons (.optional fun _ _ => UserIntent.readsBack _) (by decide) .nil) rfl

theorem ToolUse.readsBack {x : ToolUse} (h : x.input.Plain) : ToolUse.format.ReadsBack x :=
  .record (.cons (.required (.string _)) (by decide) <|
    .cons (.required (.string _)) (by decide) <|
    .cons (.withDefault fun _ _ hv hdepth => h.reads hdepth hv) (by decide) .nil) rfl

def AssistantMessage.inputs (message : AssistantMessage) : List Json :=
  (message.toolUses.getD []).map ToolUse.input

theorem AssistantMessage.readsBack {x : AssistantMessage} (h : ∀ input ∈ x.inputs, input.Plain) :
    AssistantMessage.format.ReadsBack x := by
  refine .record (.cons (.optional fun _ _ => .string _) (by decide) <|
    .cons (.required (.string _)) (by decide) <|
    .cons (.optional fun _ _ => .list fun _ _ => WebLink.readsBack _) (by decide) <|
    .cons (.optional fun _ _ => .list fun _ _ => Reference.readsBack _) (by decide) <|
    .cons (.optional fun _ _ => FollowupPrompt.readsBack _) (by decide) <|
    .cons (.optional fun uses huses => .list fun use huse => ToolUse.readsBack (h _ ?_))
      (by decide) .nil) rfl
  rw [AssistantMessage.inputs, Option.mem_def.1 huses]
  exact List.mem_map_of_mem huse

theorem ToolUsePart.readsBack (x : ToolUsePart) : ToolUsePart.format.ReadsBack x :=
  .record (.cons (.required (.string _)) (by decide) <|
    .cons (.required (.string _)) (by decide) <|
    .cons (.optional fun _ _ => .string _) (by decide) <|
    .cons (.optional fun _ _ => .bool _) (by decide) .nil) rfl

theorem CitationTarget.readsBack (x : CitationTarget) : CitationTarget.format.ReadsBack x :=
  .choice (by cases x <;> rfl)

theorem Citation.readsBack (x : Citation) : Citation.format.ReadsBack x :=
  .record (.cons (.required (CitationTarget.readsBack _)) (by decide) <|
    .cons (.optional fun _ _ => .string _) (by decide) <|
    .cons (.required (.string _)) (by decide) .nil) rfl

theorem FollowupReport.readsBack (x : FollowupReport) : FollowupReport.format.ReadsBack x :=
  .record (.cons (.optional fun _ _ => FollowupPrompt.readsBack _) (by decide) .nil) rfl

theorem ReferenceReport.readsBack (x : ReferenceReport) : ReferenceReport.format.ReadsBack x :=
  .record (.cons (.optional fun _ _ => .list fun _ _ => Reference.readsBack _) (by decide) .nil) rfl

theorem Metadata.readsBack (x : Metadata) : Metadata.format.ReadsBack x :=
  .record (.cons (.optional fun _ _ => .string _) (by decide) <|
    .cons (.optional fun _ _ => .string _) (by decide) .nil) rfl

/-- The reason that stands for unknown ones has a name of its own, so it is read back as well. -/
theorem InvalidStateReason.readsBack (x : InvalidStateReason) :
    InvalidStateReason.format.ReadsBack x :=
  .choice (by cases x <;> rfl)

theorem InvalidState.readsBack (x : InvalidState) : InvalidState.format.ReadsBack x :=
  .record (.cons (.required (InvalidStateReason.readsBack _)) (by decide) <|
    .cons (.required (.string _)) (by decide) .nil) rfl

theorem ImageSource.readsBack (x : ImageSource) : ImageSource.format.ReadsBack x :=
  .record (.cons (.required (.string _)) (by decide) .nil) rfl

theorem ImageFormat.readsBack (x : ImageFormat) : ImageFormat.format.ReadsBack x :=
  .choice (by cases x <;> rfl)

theorem Image.readsBack (x : Image) : Image.jsonFormat.ReadsBack x :=
  .record (.cons (.required (ImageFormat.readsBack _)) (by decide) <|
    .cons (.required (ImageSource.readsBack _)) (by decide) .nil) rfl

theorem TextDocument.readsBack (x : TextDocument) : TextDocument.format.ReadsBack x :=
  .record (.cons (.required (.string _)) (by decide) <|
    .cons (.required (.string _)) (by decide) <|
    .cons (.optional fun _ _ => .string _) (by decide) .nil) rfl

theorem CursorState.readsBack (x : CursorState) : CursorState.format.ReadsBack x :=
  .record (.cons (.required (.uint64 _)) (by decide) .nil) rfl

theorem EditorState.readsBack (x : EditorState) : EditorState.format.ReadsBack x :=
  .record (.cons (.optional fun _ _ => TextDocument.readsBack _) (by decide) <|
    .cons (.optional fun _ _ => CursorState.readsBack _) (by decide) <|
    .cons (.optional fun _ _ => .list fun _ _ => TextDocument.readsBack _) (by decide) <|
    .cons (.optional fun _ _ => .bool _) (by decide) <|
    .cons (.optional fun _ _ => .list fun _ _ => .string _) (by decide) .nil) rfl

theorem ShellEntry.readsBack (x : ShellEntry) : ShellEntry.format.ReadsBack x :=
  .record (.cons (.required (.string _)) (by decide) <|
    .cons (.optional fun _ _ => .int32 _) (by decide) .nil) rfl

theorem ShellState.readsBack (x : ShellState) : ShellState.format.ReadsBack x :=
  .record (.cons (.required (.string _)) (by decide) <|
    .cons (.optional fun _ _ => .list fun _ _ => ShellEntry.readsBack _) (by decide) .nil) rfl

theorem GitState.readsBack (x : GitState) : GitState.format.ReadsBack x :=
  .record (.cons (.optional fun _ _ => .string _) (by decide) <|
    .cons (.optional fun _ _ => .string _) (by decide) <|
    .cons (.optional fun _ _ => .string _) (by decide) <|
    .cons (.optional fun _ _ => .string _) (by decide) <|
    .cons (.optional fun _ _ => .string _) (by decide) <|
    .cons (.optional fun _ _ => .string _) (by decide) .nil) rfl

theorem EnvironmentVariable.readsBack (x : EnvironmentVariable) :
    EnvironmentVariable.format.ReadsBack x :=
  .record (.cons (.required (.string _)) (by decide) <|
    .cons (.required (.string _)) (by decide) .nil) rfl

theorem EnvironmentState.readsBack (x : EnvironmentState) : EnvironmentState.format.ReadsBack x :=
  .record (.cons (.optional fun _ _ => .list fun _ _ => EnvironmentVariable.readsBack _)
    (by decide) .nil) rfl

theorem AdditionalContent.readsBack (x : AdditionalContent) :
    AdditionalContent.format.ReadsBack x :=
  .record (.cons (.required (.string _)) (by decide) <|
    .cons (.required (.string _)) (by decide) .nil) rfl

theorem ToolResult.readsBack (x : ToolResult) : ToolResult.format.ReadsBack x :=
  .record (.cons (.required (.string _)) (by decide) <|
    .cons (.required (.string _)) (by decide) <|
    .cons (.optional fun _ _ => .string _) (by decide) .nil) rfl

theorem Tool.readsBack (x : Tool) : Tool.format.ReadsBack x :=
  .record (.cons (.required (.string _)) (by decide) <|
    .cons (.optional fun _ _ => .string _) (by decide) <|
    .cons (.optional fun _ _ => .string _) (by decide) .nil) rfl

theorem Context.readsBack (x : Context) : Context.format.ReadsBack x :=
  .record (.cons (.optional fun _ _ => EditorState.readsBack _) (by decide) <|
    .cons (.optional fun _ _ => ShellState.readsBack _) (by decide) <|
    .cons (.optional fun _ _ => GitState.readsBack _) (by decide) <|
    .cons (.optional fun _ _ => EnvironmentState.readsBack _) (by decide) <|
    .cons (.optional fun _ _ => .list fun _ _ => AdditionalContent.readsBack _) (by decide) <|
    .cons (.optional fun _ _ => .list fun _ _ => ToolResult.readsBack _) (by decide) <|
    .cons (.optional fun _ _ => .list fun _ _ => Tool.readsBack _) (by decide) .nil) rfl

theorem Trigger.readsBack (x : Trigger) : Trigger.format.ReadsBack x :=
  .choice (by cases x <;> rfl)

theorem Origin.readsBack (x : Origin) : Origin.format.ReadsBack x :=
  .choice (by cases x <;> rfl)

theorem UserMessage.readsBack (x : UserMessage) : UserMessage.format.ReadsBack x :=
  .record (.cons (.required (.string _)) (by decide) <|
    .cons (.optional fun _ _ => Context.readsBack _) (by decide) <|
    .cons (.optional fun _ _ => UserIntent.readsBack _) (by decide) <|
    .cons (.optional fun _ _ => Origin.readsBack _) (by decide) <|
    .cons (.optional fun _ _ => .list fun _ _ => Image.readsBack _) (by decide) <|
    .cons (.optional fun _ _ => .string _) (by decide) .nil) rfl

def Turn.inputs : Turn → List Json
  | .user _ => []
  | .assistant message => message.inputs

theorem Turn.readsBack {x : Turn} (h : ∀ input ∈ x.inputs, input.Plain) :
    Turn.format.ReadsBack x := by
  cases x with
  | user message => exact .map (.inl (UserMessage.readsBack message)) rfl
  | assistant message => exact .map (.inr (AssistantMessage.readsBack h) (by decide)) rfl

def Conversation.inputs (conversation : Conversation) : List Json :=
  (conversation.history.getD []).flatMap Turn.inputs ++ conversation.current.inputs

theorem Conversation.readsBack {x : Conversation} (h : ∀ input ∈ x.inputs, input.Plain) :
    Conversation.format.ReadsBack x := by
  have hcurrent : ∀ input ∈ x.current.inputs, input.Plain := fun input hinput =>
    h input (List.mem_append_right _ hinput)
  have hhistory : ∀ turns ∈ x.history, ∀ turn ∈ turns, ∀ input ∈ turn.inputs, input.Plain := by
    intro turns hturns turn hturn input hinput
    refine h input (List.mem_append_left _ ?_)
    rw [Option.mem_def.1 hturns]
    exact List.mem_flatMap.2 ⟨turn, hturn, hinput⟩
  exact .record (.cons (.optional fun _ _ => .string _) (by decide) <|
    .cons (.optional fun turns hturns => .list fun turn hturn =>
      Turn.readsBack (hhistory turns hturns turn hturn)) (by decide) <|
    .cons (.required (Turn.readsBack hcurrent)) (by decide) <|
    .cons (.required (Trigger.readsBack _)) (by decide) <|
    .cons (.optional fun _ _ => .string _) (by decide) .nil) rfl

def Request.inputs (request : Request) : List Json :=
  request.conversation.inputs

theorem Request.readsBack {x : Request} (h : ∀ input ∈ x.inputs, input.Plain) :
    Request.format.ReadsBack x :=
  .record (.cons (.required (Conversation.readsBack h)) (by decide) .nil) rfl

/-- The text of a payload or of a request gives it back, if it nests 127 levels at most and the
numbers in the inputs of tools are integers of 64 bits. -/
theorem payload_and_request_round_trip :
    (∀ v : AssistantMessage, (∀ input ∈ v.inputs, input.Plain) →
      (AssistantMessage.format.write v).depth ≤ 127 →
        AssistantMessage.format.parse (AssistantMessage.format.write v).compact = .ok v) ∧
    (∀ v : ToolUsePart, (ToolUsePart.format.write v).depth ≤ 127 →
      ToolUsePart.format.parse (ToolUsePart.format.write v).compact = .ok v) ∧
    (∀ v : Citation, (Citation.format.write v).depth ≤ 127 →
      Citation.format.parse (Citation.format.write v).compact = .ok v) ∧
    (∀ v : FollowupReport, (FollowupReport.format.write v).depth ≤ 127 →
      FollowupReport.format.parse (FollowupReport.format.write v).compact = .ok v) ∧
    (∀ v : ReferenceReport, (ReferenceReport.format.write v).depth ≤ 127 →
      ReferenceReport.format.parse (ReferenceReport.format.write v).compact = .ok v) ∧
    (∀ v : Metadata, (Metadata.format.write v).depth ≤ 127 →
      Metadata.format.parse (Metadata.format.write v).compact = .ok v) ∧
    (∀ v : InvalidState, (InvalidState.format.write v).depth ≤ 127 →
      InvalidState.format.parse (InvalidState.format.write v).compact = .ok v) ∧
    (∀ v : Request, (∀ input ∈ v.inputs, input.Plain) →
      (Request.format.write v).depth ≤ 127 →
        Request.format.parse (Request.format.write v).compact = .ok v ∧
          Request.format.parse (Request.format.write v).pretty = .ok v) := by
  refine ⟨fun v hinputs hdepth => ?_, fun v hdepth => ?_, fun v hdepth => ?_, fun v hdepth => ?_,
    fun v hdepth => ?_, fun v hdepth => ?_, fun v hdepth => ?_, fun v hinputs hdepth => ⟨?_, ?_⟩⟩
  · exact (AssistantMessage.readsBack hinputs).parse hdepth .compact
  · exact (ToolUsePart.readsBack v).parse hdepth .compact
  · exact (Citation.readsBack v).parse hdepth .compact
  · exact (FollowupReport.readsBack v).parse hdepth .compact
  · exact (ReferenceReport.readsBack v).parse hdepth .compact
  · exact (Metadata.readsBack v).parse hdepth .compact
  · exact (InvalidState.readsBack v).parse hdepth .compact
  · exact (Request.readsBack hinputs).parse hdepth .compact
  · exact (Request.readsBack hinputs).parse hdepth .indented

/-- A request whose history holds a tool use with a nested input. -/
theorem payload_and_request_round_trip_tools :
    ∃ v : Request, v.inputs ≠ [] ∧ (∀ input ∈ v.inputs, input.Plain) ∧
      (Request.format.write v).depth = 9 ∧
        Request.format.parse (Request.format.write v).compact = .ok v ∧
          Request.format.parse (Request.format.write v).pretty = .ok v := by
  let input : Json := .object [("limit", .number (.int (-3))), ("paths", .array [.string "ä\n"])]
  let answer : AssistantMessage := { content := "", toolUses := some [⟨"t1", "read", input⟩] }
  let v : Request := ⟨{ history := some [.assistant answer], current := .user { content := "" } }⟩
  have hinputs : ∀ input ∈ v.inputs, input.Plain := by
    intro other hother
    obtain rfl : other = input := List.mem_singleton.1 hother
    refine .object (List.pairwise_pair.2 (by decide)) fun m hm => ?_
    rcases List.mem_cons.1 hm with rfl | hm
    · exact .int ⟨by decide, by decide⟩
    · obtain rfl := List.mem_singleton.1 hm
      exact .array fun s hs => List.mem_singleton.1 hs ▸ .string "ä\n"
  have hdepth : (Request.format.write v).depth = 9 := by decide
  have hlevels : (Request.format.write v).depth ≤ 127 := hdepth ▸ by decide
  exact ⟨v, List.cons_ne_nil _ _, hinputs, hdepth,
    payload_and_request_round_trip.2.2.2.2.2.2.2 v hinputs hlevels⟩

end EventStream.Chat
