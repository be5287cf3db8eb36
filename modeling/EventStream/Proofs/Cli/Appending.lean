import Mathlib.Data.List.ReduceOption
import EventStream.Cli.Folder
import EventStream.Proofs.Cli.Segmentation
import EventStream.Proofs.Event.Body
import EventStream.Proofs.Frame.Encoding
import EventStream.Proofs.Stream.Truncation

/-!
Sessions that encode frames to the end of a file. A run appends one frame, or leaves the folder as
it was, and what such a session has written can be decoded again, frame by frame.
-/

set_option autoImplicit false

namespace EventStream.Cli

open EventStream.Stream

theorem Status.rejected_code : Status.rejected.code ≠ 0 := by decide

theorem Status.ofIo_code (kind : IoKind) : (Status.ofIo kind).code ≠ 0 := by
  cases kind <;> decide

/-- A computation in a folder goes on with what the first part of it gives and leaves. -/
theorem run_bind_of {σ α β : Type} {first : StateM σ α} {next : α → StateM σ β} {s s' : σ} {a : α}
    (h : first.run s = (a, s')) : (first >>= next).run s = (next a).run s' := by
  rw [StateT.run_bind, h]
  rfl

namespace Folder

/-- Where a path leads to a name, it does so whatever is in the folder, to write as well as to
read. -/
theorem follow_name {folder other : Folder} {making making' inside : Bool} {parts : List String}
    {name : String} (h : follow folder making inside parts = .ok (.name name)) :
    follow other making' inside parts = .ok (.name name) := by
  induction parts generalizing inside with
  | nil => cases h
  | cons part rest ih =>
    rw [follow] at h ⊢
    by_cases hskip : part = "" ∨ part = "."
    · rw [if_pos hskip] at h ⊢
      exact ih h
    rw [if_neg hskip] at h ⊢
    by_cases hup : part = ".."
    · rw [if_pos hup] at h ⊢
      exact ih h
    rw [if_neg hup] at h ⊢
    by_cases hlast : rest.isEmpty = true
    · simp only [hlast, Bool.not_true, Bool.and_false, Bool.false_and] at h ⊢
      exact h
    · rw [if_neg hlast] at h
      split at h
      · cases h
      · split at h
        · cases h
        · split at h
          · cases h
          · split at h <;> cases h

theorem resolve_name {folder other : Folder} {making making' : Bool} {path name : String}
    (h : folder.resolve making path = .ok (.name name)) :
    other.resolve making' path = .ok (.name name) := by
  rw [resolve] at h ⊢
  split at h
  · cases h
  · next hlimit =>
    rw [if_neg hlimit]
    exact follow_name h

theorem lookup_appendTo (folder : Folder) (name : String) (bytes : Bytes) :
    (folder.appendTo name bytes).lookup name = some ((folder.lookup name).getD [] ++ bytes) := by
  induction folder with
  | nil => simp [appendTo]
  | cons entry rest ih =>
    obtain ⟨other, content⟩ := entry
    rw [appendTo]
    split
    · next hsame =>
      subst hsame
      simp
    · next hother =>
      have hne : (name == other) = false := beq_false_of_ne (Ne.symm hother)
      rw [List.lookup_cons, List.lookup_cons, hne]
      exact ih

theorem lookup_appendTo_of_ne (folder : Folder) {name other : String} (h : other ≠ name)
    (bytes : Bytes) : (folder.appendTo name bytes).lookup other = folder.lookup other := by
  induction folder with
  | nil =>
    have hne : (other == name) = false := beq_false_of_ne h
    rw [appendTo, List.lookup_cons, hne]
  | cons entry rest ih =>
    obtain ⟨first, content⟩ := entry
    rw [appendTo]
    split
    · next hsame =>
      have hne : (other == first) = false := beq_false_of_ne (hsame ▸ h)
      rw [List.lookup_cons, List.lookup_cons, hne]
    · rw [List.lookup_cons, List.lookup_cons, ih]

def payload (folder : Folder) (source : PayloadSource) : Except Outcome Bytes :=
  ((readPayload (host []) source).run folder).1

theorem openSource_run (folder : Folder) (input : Bytes) (path : String) :
    ((host input).openSource (.file path)).run folder = (folder.openFile path, folder) := rfl

theorem append_run (folder : Folder) (input : Bytes) (path : String) (bytes : Bytes) :
    ((host input).append path bytes).run folder =
      match folder.append path bytes with
      | .error error => (.error (.opening, error), folder)
      | .ok after => (.ok (), after) := by
  rw [host, run_bind_of (StateT.run_get folder)]
  cases folder.append path bytes <;> rfl

theorem readPayload_run (folder : Folder) (input : Bytes) (source : PayloadSource) :
    (readPayload (host input) source).run folder = (folder.payload source, folder) := by
  cases source with
  | none => rfl
  | json text => rfl
  | file path =>
    rw [payload, readPayload, readPayload, run_bind_of (openSource_run folder input path),
      run_bind_of (openSource_run folder [] path)]
    cases folder.openFile path <;> rfl

theorem payload_file (folder : Folder) (path : String) :
    folder.payload (.file path) =
      match folder.openFile path with
      | .ok transport => readAll s!"failed reading {path}" transport
      | .error error => .error (.ofIo s!"failed reading {path}" error) := by
  rw [payload, readPayload, run_bind_of (openSource_run folder [] path)]
  cases folder.openFile path <;> rfl

def contribution (folder : Folder) (encoding : Encoding) : Option (Headers × Bytes) :=
  match folder.payload encoding.payload with
  | .error _ => none
  | .ok payload => if (encoding.wire payload).isOk then some (encoding.headers, payload) else none

theorem payload_error_code {folder : Folder} {source : PayloadSource} {outcome : Outcome}
    (h : folder.payload source = .error outcome) : outcome.status.code ≠ 0 := by
  cases source with
  | none => cases h
  | json text =>
    change jsonPayload text = _ at h
    rw [jsonPayload] at h
    split at h
    · cases h
    · cases h
      exact Status.rejected_code
  | file path =>
    rw [payload_file] at h
    cases hopen : folder.openFile path with
    | error error =>
      rw [hopen] at h
      cases h
      exact Status.ofIo_code error.kind
    | ok transport =>
      simp only [hopen, readAll] at h
      cases hread : Transport.contents transport.deliveries with
      | error error =>
        rw [hread] at h
        cases h
        exact Status.ofIo_code error.kind
      | ok bytes =>
        rw [hread] at h
        cases h

end Folder

theorem Encoding.wire_ok {encoding : Encoding} {payload wire : Bytes}
    (h : encoding.wire payload = .ok wire) :
    Frame.encode encoding.headers payload [] = .ok wire := by
  rw [Encoding.wire] at h
  cases hencode : Frame.encode encoding.headers payload [] with
  | error error =>
    rw [hencode] at h
    cases h
  | ok written =>
    rw [hencode] at h
    cases h
    rfl

theorem Encoding.wire_error_code {encoding : Encoding} {payload : Bytes} {outcome : Outcome}
    (h : encoding.wire payload = .error outcome) : outcome.status.code ≠ 0 := by
  rw [Encoding.wire] at h
  cases hencode : Frame.encode encoding.headers payload [] with
  | error error =>
    rw [hencode] at h
    cases h
    exact Status.rejected_code
  | ok written =>
    rw [hencode] at h
    cases h

/-- The headers of an encoded frame: its message type, its event type and the type of its payload,
and no others. -/
structure Encoding.Labels (encoding : Encoding) (headers : Headers) : Prop where
  messageType : headers.get? ":message-type" = some (.string encoding.messageType)
  eventType : headers.get? ":event-type" = some (.string encoding.eventType)
  contentType : headers.get? ":content-type" = some (.string "application/json")
  others : ∀ name, name ≠ ":message-type" → name ≠ ":event-type" → name ≠ ":content-type" →
    headers.get? name = none

theorem Encoding.get?_headers (encoding : Encoding) (name : String) :
    encoding.headers.get? name =
      if name = ":content-type" then some (.string "application/json")
      else if name = ":event-type" then some (.string encoding.eventType)
      else if name = ":message-type" then some (.string encoding.messageType) else none := by
  rw [Encoding.headers, Headers.ofList, Headers.insertAll, List.foldl_cons, List.foldl_cons,
    List.foldl_cons, List.foldl_nil, Headers.get?_insert, Headers.get?_insert, Headers.get?_insert]
  rfl

theorem Encoding.labels_iff {encoding : Encoding} {headers : Headers} :
    encoding.Labels headers ↔ headers = encoding.headers := by
  constructor
  · intro h
    refine Headers.ext_get? fun name => ?_
    rw [encoding.get?_headers]
    split
    · next hname => rw [hname, h.contentType]
    split
    · next hname => rw [hname, h.eventType]
    split
    · next hname => rw [hname, h.messageType]
    · next hcontent hevent hmessage => exact h.others name hmessage hevent hcontent
  · rintro rfl
    exact
      { messageType := encoding.get?_headers _
        eventType := encoding.get?_headers _
        contentType := encoding.get?_headers _
        others := fun name hmessage hevent hcontent => by
          rw [encoding.get?_headers, if_neg hcontent, if_neg hevent, if_neg hmessage] }

theorem Encoding.wire_isOk {encoding : Encoding} {payload : Bytes} :
    (encoding.wire payload).isOk = true ↔ Frame.Writable encoding.headers payload := by
  rw [Encoding.wire]
  by_cases h : Frame.Writable encoding.headers payload
  · rw [Frame.encode_of_writable h]
    exact iff_of_true rfl h
  · obtain ⟨error, -, herror⟩ := Frame.encode_of_not_writable h
    rw [herror]
    exact iff_of_false Bool.false_ne_true h

/-- The payload that a source stands for: an empty object where none is asked for, a text as it
stands if it is JSON, and else what is in a file. -/
inductive PayloadSource.Gives (folder : Folder) : PayloadSource → Bytes → Prop
  | default : Gives folder .none (Utf8.encode "\x7b\x7d")
  | json {text : String} {value : Json} (h : Json.Format.any.parse text = .ok value) :
    Gives folder (.json text) (Utf8.encode text)
  | file {path name : String} {content : Bytes}
    (leads : folder.resolve false path = .ok (.name name))
    (h : folder.lookup name = some content) : Gives folder (.file path) content

theorem PayloadSource.Gives.of_json {folder : Folder} {text : String} {payload : Bytes}
    (h : Gives folder (.json text) payload) : payload = Utf8.encode text := by
  cases h
  rfl

theorem jsonPayload_eq_ok {text : String} {bytes : Bytes} :
    jsonPayload text = .ok bytes ↔
      (∃ value, Json.Format.any.parse text = .ok value) ∧ bytes = Utf8.encode text := by
  rw [jsonPayload]
  cases Json.Format.any.parse text with
  | ok value => simp [eq_comm]
  | error error => simp

theorem contents_single (bytes : Bytes) :
    Transport.contents [.data bytes] = .ok bytes := by
  cases bytes with
  | nil => rfl
  | cons byte rest =>
    change (Except.ok ((byte :: rest) ++ []) : Except IoError Bytes) = _
    rw [List.append_nil]

namespace Folder

theorem payload_eq_ok {folder : Folder} {source : PayloadSource} {bytes : Bytes} :
    folder.payload source = .ok bytes ↔ source.Gives folder bytes := by
  cases source with
  | none =>
    constructor
    · intro h
      cases h
      exact .default
    · rintro ⟨⟩
      rfl
  | json text =>
    change jsonPayload text = .ok bytes ↔ _
    rw [jsonPayload_eq_ok]
    constructor
    · rintro ⟨⟨value, h⟩, rfl⟩
      exact .json h
    · rintro ⟨⟩
      exact ⟨⟨_, ‹_›⟩, rfl⟩
  | file path =>
    rw [payload_file, openFile]
    constructor
    · intro h
      cases hleads : folder.resolve false path with
      | error error =>
        rw [hleads] at h
        cases h
      | ok place =>
        cases place with
        | directory =>
          rw [hleads] at h
          cases h
        | name name =>
          cases hlookup : folder.lookup name with
          | none =>
            simp only [hleads, hlookup] at h
            cases h
          | some content =>
            simp only [hleads, hlookup, readAll, contents_single] at h
            cases h
            exact .file hleads hlookup
    · rintro ⟨⟩
      next leads h => simp only [leads, h, readAll, contents_single]; rfl

/-- The contents of the frame that an encoding asks for. -/
structure Asks (folder : Folder) (encoding : Encoding) (contents : Headers × Bytes) : Prop where
  labels : encoding.Labels contents.1
  gives : encoding.payload.Gives folder contents.2
  fits : Frame.Writable contents.1 contents.2

theorem contribution_eq_some {folder : Folder} {encoding : Encoding} {contents : Headers × Bytes} :
    folder.contribution encoding = some contents ↔ folder.Asks encoding contents := by
  obtain ⟨headers, payload⟩ := contents
  constructor
  · intro h
    rw [contribution] at h
    split at h
    · cases h
    next bytes hbytes =>
    split at h
    · next hwire =>
      cases h
      exact ⟨Encoding.labels_iff.2 rfl, payload_eq_ok.1 hbytes, Encoding.wire_isOk.1 hwire⟩
    · cases h
  · rintro ⟨hlabels, hgives, hfits⟩
    obtain rfl := Encoding.labels_iff.1 hlabels
    simp only [contribution, payload_eq_ok.2 hgives, if_pos (Encoding.wire_isOk.2 hfits)]

end Folder

/-- A run that encodes to the end of a file. -/
structure Appending (name : String) where
  arguments : List String
  input : Bytes
  format : OutputFormat
  encoding : Encoding
  parsed : Invocation.parse arguments = .ok ⟨format, .encode encoding⟩
  path : String
  out : encoding.out = some path
  leads : Folder.resolve [] true path = .ok (.name name)

namespace Appending

variable {name : String}

def perform (folder : Folder) (run : Appending name) : Outcome × Folder :=
  runIn folder run.arguments run.input

theorem deliver_run (folder : Folder) (run : Appending name) (wire : Bytes) :
    (deliver (Folder.host run.input) run.encoding.out wire).run folder =
      ({}, folder.appendTo name wire) := by
  have happend : folder.append run.path wire = .ok (folder.appendTo name wire) := by
    rw [Folder.append, Folder.resolve_name run.leads]
  have hrun : ((Folder.host run.input).append run.path wire).run folder =
      (.ok (), folder.appendTo name wire) := by
    rw [Folder.append_run, happend]
  rw [run.out, deliver, run_bind_of hrun]
  rfl

/-- A run does nothing to the folder unless it has a whole frame to write. -/
theorem perform_eq (folder : Folder) (run : Appending name) :
    run.perform folder =
      match folder.payload run.encoding.payload with
      | .error outcome => (outcome, folder)
      | .ok payload =>
        match run.encoding.wire payload with
        | .error outcome => (outcome, folder)
        | .ok wire => ({}, folder.appendTo name wire) := by
  have hrun : run.perform folder =
      (Cli.encode (Folder.host run.input) run.encoding).run folder := by
    rw [perform, runIn, Cli.run, run.parsed]
    rfl
  rw [hrun, Cli.encode, run_bind_of (Folder.readPayload_run folder run.input _)]
  cases folder.payload run.encoding.payload with
  | error outcome => rfl
  | ok payload =>
    simp only
    cases run.encoding.wire payload with
    | error outcome => rfl
    | ok wire => exact deliver_run folder run wire

/-- A run that is rejected leaves the folder as it was. -/
theorem perform_of_none {folder : Folder} {run : Appending name}
    (h : folder.contribution run.encoding = none) :
    (run.perform folder).1.status.code ≠ 0 ∧ (run.perform folder).2 = folder := by
  rw [perform_eq]
  rw [Folder.contribution] at h
  cases hpayload : folder.payload run.encoding.payload with
  | error outcome => exact ⟨Folder.payload_error_code hpayload, rfl⟩
  | ok payload =>
    cases hwire : run.encoding.wire payload with
    | error outcome =>
      simp only [hwire]
      exact ⟨Encoding.wire_error_code hwire, trivial⟩
    | ok wire =>
      simp only [hpayload, hwire] at h
      cases h

/-- A run that is not rejected exits without an error, and its frame is the last of the file. -/
theorem perform_of_some {folder : Folder} {run : Appending name} {contents : Headers × Bytes}
    (h : folder.contribution run.encoding = some contents) :
    ∃ wire, Frame.encode contents.1 contents.2 [] = .ok wire ∧
      run.perform folder = ({}, folder.appendTo name wire) := by
  rw [perform_eq]
  rw [Folder.contribution] at h
  cases hpayload : folder.payload run.encoding.payload with
  | error outcome =>
    simp only [hpayload] at h
    cases h
  | ok payload =>
    cases hwire : run.encoding.wire payload with
    | error outcome =>
      simp only [hpayload, hwire] at h
      cases h
    | ok wire =>
      simp only [hpayload, hwire] at h
      cases h
      exact ⟨wire, Encoding.wire_ok hwire, by simp only [hwire]⟩

end Appending

section session

variable {name : String}

def given (runs : List (Appending name)) : List (List String × Bytes) :=
  runs.map fun run => (run.arguments, run.input)

def contributions (folder : Folder) : List (Appending name) → List (Option (Headers × Bytes))
  | [] => []
  | run :: rest =>
    folder.contribution run.encoding :: contributions (run.perform folder).2 rest

/-- What each run contributes, one after the other: the frame that it asks for in the folder that the
runs before have left, or nothing. -/
inductive Contributes :
    Folder → List (Appending name) → List (Option (Headers × Bytes)) → Prop
  | nil {folder : Folder} : Contributes folder [] []
  | frame {folder : Folder} {run : Appending name} {rest : List (Appending name)}
    {contents : Headers × Bytes} {more : List (Option (Headers × Bytes))}
    (h : folder.Asks run.encoding contents) (others : Contributes (run.perform folder).2 rest more) :
    Contributes folder (run :: rest) (some contents :: more)
  | nothing {folder : Folder} {run : Appending name} {rest : List (Appending name)}
    {more : List (Option (Headers × Bytes))} (h : ∀ contents, ¬ folder.Asks run.encoding contents)
    (others : Contributes (run.perform folder).2 rest more) :
    Contributes folder (run :: rest) (none :: more)

theorem contributes_iff {folder : Folder} {runs : List (Appending name)}
    {contents : List (Option (Headers × Bytes))} :
    Contributes folder runs contents ↔ contents = contributions folder runs := by
  constructor
  · intro h
    induction h with
    | nil => rfl
    | frame h _ ih => rw [contributions, Folder.contribution_eq_some.2 h, ih]
    | @nothing folder run _ _ h _ ih =>
      have hnone : folder.contribution run.encoding = none :=
        Option.eq_none_iff_forall_ne_some.2 fun contents hc =>
          h contents (Folder.contribution_eq_some.1 hc)
      rw [contributions, hnone, ih]
  · rintro rfl
    induction runs generalizing folder with
    | nil => exact .nil
    | cons run rest ih =>
      rw [contributions]
      cases h : folder.contribution run.encoding with
      | none =>
        refine .nothing (fun contents hc => ?_) ih
        rw [Folder.contribution_eq_some.2 hc] at h
        cases h
      | some contents => exact .frame (Folder.contribution_eq_some.1 h) ih

theorem contributions_cons {folder : Folder} {run : Appending name} {rest : List (Appending name)}
    {contents : Headers × Bytes}
    (h : folder.contribution run.encoding = some contents) :
    ∃ more, contributions folder (run :: rest) = some contents :: more :=
  ⟨_, by rw [contributions, h]⟩

theorem session_given (folder : Folder) (run : Appending name) (rest : List (Appending name)) :
    session folder (given (run :: rest)) =
      ((run.perform folder).1 :: (session (run.perform folder).2 (given rest)).1,
        (session (run.perform folder).2 (given rest)).2) := rfl

/-- A run exits without an error if and only if it contributes a frame. -/
theorem session_codes (folder : Folder) (runs : List (Appending name)) :
    (session folder (given runs)).1.map (·.status.code == 0) =
      (contributions folder runs).map Option.isSome := by
  induction runs generalizing folder with
  | nil => rfl
  | cons run rest ih =>
    rw [session_given, contributions, List.map_cons, List.map_cons, ih]
    cases h : folder.contribution run.encoding with
    | none => rw [beq_false_of_ne (Appending.perform_of_none h).1, Option.isSome_none]
    | some contents =>
      obtain ⟨wire, -, hperform⟩ := Appending.perform_of_some h
      rw [hperform]
      rfl

/-- The bytes of a file; a file that is absent has none. -/
def Folder.content (folder : Folder) (name : String) : Bytes :=
  (folder.lookup name).getD []

/-- What can be written to the start of a buffer can be written behind any bytes. -/
theorem encode_behind {headers : Headers} {payload wire : Bytes}
    (h : Frame.encode headers payload [] = .ok wire) (before : Bytes) :
    Frame.encode headers payload before = .ok (before ++ wire) := by
  obtain ⟨hfault, hlimit, hwire⟩ := Frame.encode_ok h
  rw [Frame.encode, hfault, hwire, List.nil_append]
  exact if_pos hlimit

theorem Folder.openFile_content (folder : Folder) {path name : String}
    (hleads : Folder.resolve [] false path = .ok (.name name))
    (hexists : folder.lookup name ≠ none) :
    folder.openFile path = .ok { deliveries := [.data (folder.content name)] } := by
  obtain ⟨content, hlookup⟩ := Option.ne_none_iff_exists'.1 hexists
  rw [Folder.openFile, Folder.resolve_name hleads, Folder.content, hlookup]
  simp only [hlookup]
  rfl

/-- The frames that a session contributes follow the content of the file, in order. -/
theorem session_content (folder : Folder) (runs : List (Appending name)) :
    Frame.encodeAll (contributions folder runs).reduceOption (folder.content name) =
      .ok ((session folder (given runs)).2.content name) := by
  induction runs generalizing folder with
  | nil => rfl
  | cons run rest ih =>
    rw [session_given, contributions]
    cases h : folder.contribution run.encoding with
    | none =>
      rw [(Appending.perform_of_none h).2, List.reduceOption_cons_of_none]
      exact ih folder
    | some contents =>
      obtain ⟨wire, hwire, hperform⟩ := Appending.perform_of_some h
      have hcontent : (folder.appendTo name wire).content name = folder.content name ++ wire := by
        rw [Folder.content, Folder.lookup_appendTo]
        rfl
      have hencode : Frame.encode contents.1 contents.2 (folder.content name) =
          .ok ((folder.appendTo name wire).content name) := by
        rw [hcontent, encode_behind hwire]
      rw [hperform, List.reduceOption_cons_of_some, Frame.encodeAll, hencode]
      exact ih (folder.appendTo name wire)

/-- No file is made unless a frame is written to it. -/
theorem session_lookup (folder : Folder) (runs : List (Appending name)) :
    (session folder (given runs)).2.lookup name = none ↔
      folder.lookup name = none ∧ (contributions folder runs).reduceOption = [] := by
  induction runs generalizing folder with
  | nil => exact ⟨fun h => ⟨h, rfl⟩, fun h => h.1⟩
  | cons run rest ih =>
    rw [session_given, ih, contributions]
    cases h : folder.contribution run.encoding with
    | none => rw [(Appending.perform_of_none h).2, List.reduceOption_cons_of_none]
    | some contents =>
      obtain ⟨wire, -, hperform⟩ := Appending.perform_of_some h
      rw [hperform, List.reduceOption_cons_of_some, Folder.lookup_appendTo]
      exact ⟨fun h => (Option.some_ne_none _ h.1).elim, fun h => (List.cons_ne_nil _ _ h.2).elim⟩

theorem session_lookup_of_ne (folder : Folder) (runs : List (Appending name)) {other : String}
    (hother : other ≠ name) :
    (session folder (given runs)).2.lookup other = folder.lookup other := by
  induction runs generalizing folder with
  | nil => rfl
  | cons run rest ih =>
    rw [session_given, ih]
    cases h : folder.contribution run.encoding with
    | none => rw [(Appending.perform_of_none h).2]
    | some contents =>
      obtain ⟨wire, -, hperform⟩ := Appending.perform_of_some h
      rw [hperform]
      exact folder.lookup_appendTo_of_ne hother wire

end session

section decoding

variable {messages : List (Headers × Bytes)} {wire : Bytes}

theorem encodeAll_append (messages more : List (Headers × Bytes)) (before : Bytes) :
    Frame.encodeAll (messages ++ more) before =
      Frame.encodeAll messages before >>= Frame.encodeAll more := by
  induction messages generalizing before with
  | nil => rfl
  | cons contents rest ih =>
    rw [List.cons_append, Frame.encodeAll, Frame.encodeAll]
    cases Frame.encode contents.1 contents.2 before with
    | error error => rfl
    | ok written => exact ih written

/-- What was written frame by frame is found frame by frame, up to the last byte. -/
theorem findings_flatten_written {config : Frame.Config}
    (h : ∀ contents ∈ messages, Frame.Fits config contents) :
    findings config (messages.map Frame.written).flatten =
        messages.map (fun contents => Finding.frame (Frame.readBack contents)) ∧
      span (messages.map fun contents => Finding.frame (Frame.readBack contents)) =
        (messages.map Frame.written).flatten.length := by
  induction messages with
  | nil => exact ⟨findings_nil config, rfl⟩
  | cons contents rest ih =>
    have hfits := h contents List.mem_cons_self
    have hextent : (Finding.frame (Frame.readBack contents)).extent =
        (Frame.written contents).length := hfits.totalLength
    obtain ⟨hfound, hspan⟩ := ih fun c hc => h c (List.mem_cons_of_mem _ hc)
    rw [List.map_cons, List.map_cons, List.flatten_cons, List.length_append,
      findings_of_some (finding?_written hfits _), hextent, List.drop_left, hfound, span_cons,
      hextent, hspan]
    exact ⟨rfl, rfl⟩

/-- The items of frames that were written one behind the other, each no longer than the limit. -/
theorem streamItems_written {config : Frame.Config} (hwire : Frame.encodeAll messages [] = .ok wire)
    (hmax : ∀ contents ∈ messages, (Frame.readBack contents).totalLength ≤ config.maxLength) :
    streamItems config wire none = (messages.map Frame.readBack).map itemOf := by
  have hw : wire = (messages.map Frame.written).flatten := (Frame.encodeAll_ok hwire).2
  obtain ⟨hfound, hspan⟩ := findings_flatten_written (Frame.fits_of_encodeAll hwire hmax)
  rw [streamItems, hw, hfound, hspan, List.drop_length, List.map_map, List.map_map]
  exact List.append_nil _

theorem isOk_itemOf (frame : Frame) : (itemOf frame).isOk = (classify frame).isOk := by
  rw [itemOf]
  cases classify frame <;> rfl

theorem transportFailure?_frames (frames : List Frame) :
    transportFailure? (frames.map itemOf) = none := by
  refine List.findSome?_eq_none_iff.2 fun item hitem => ?_
  obtain ⟨frame, -, rfl⟩ := List.mem_map.1 hitem
  rw [itemOf]
  cases classify frame <;> rfl

theorem Folder.decode_run (folder : Folder) (input : Bytes) (format : OutputFormat)
    {chunkSize : Nat} (strict : Bool) {path : String} {transport : Transport} (hpath : path ≠ "-")
    (hopen : folder.openFile path = .ok transport) :
    ((Command.decode (.of path) chunkSize strict).run (Folder.host input) format).run folder =
      (showItems format (decodeItems chunkSize strict transport), folder) := by
  rw [Source.of, if_neg hpath, Command.run, withInput,
    run_bind_of (Folder.openSource_run folder input path), hopen]
  rfl

/-- The items of frames are shown with an exit code that tells whether each frame is an event. -/
theorem showItems_frames (format : OutputFormat) (frames : List Frame) :
    (showItems format (frames.map itemOf)).status.code =
      if ∀ frame ∈ frames, (classify frame).isOk = true then 0 else 60 := by
  have hnone := transportFailure?_frames frames
  have hall : (frames.map itemOf).all (·.isOk) = true ↔
      ∀ frame ∈ frames, (classify frame).isOk = true := by
    rw [List.all_map, List.all_eq_true]
    simp only [Function.comp_apply, isOk_itemOf]
  rw [showItems, hnone, shownItems_eq hnone]
  by_cases h : ∀ frame ∈ frames, (classify frame).isOk = true
  · rw [if_pos h, if_pos (hall.2 h)]
    rfl
  · rw [if_neg h, if_neg (fun ha => h (hall.1 ha))]
    rfl

end decoding

/-- Runs that encode to one file, one behind the other. Each run exits without an error and appends
one frame, which has the three headers of the run and its payload as it is then, or it fails and
leaves the folder as it was, so that a file which is absent is not even made. If the file was absent,
empty or made of frames, and no frame of it is longer than the limit, it can be decoded in reads of
any size: the items are what its frames are classified as, in order, and the exit code tells whether
each frame is an event. -/
theorem session_appends {name : String} {folder : Folder} {initial : List (Headers × Bytes)}
    (hinitial : Frame.encodeAll initial [] = .ok (folder.content name))
    (runs : List (Appending name)) :
    let outcomes := (session folder (given runs)).1
    let after := (session folder (given runs)).2
    ∃ contents : List (Option (Headers × Bytes)),
      let added := contents.reduceOption
      let frames := (initial ++ added).map fun contents => Frame.ofContents contents.1 contents.2
      let items := frames.map fun frame => (classify frame).mapError Stream.Error.event
      (∀ other, Contributes folder runs other ↔ other = contents) ∧
      outcomes.map (·.status.code == 0) = contents.map Option.isSome ∧
      Frame.encodeAll added (folder.content name) = .ok (after.content name) ∧
      (after.lookup name = none ↔ folder.lookup name = none ∧ added = []) ∧
      (∀ other, other ≠ name → after.lookup other = folder.lookup other) ∧
      (∀ (before : Folder) (run : Appending name),
        (run.perform before).1.status.code ≠ 0 → (run.perform before).2 = before) ∧
      ∀ {arguments : List String} {input : Bytes} {format : OutputFormat} {path : String}
        {chunkSize : Nat},
        Invocation.parse arguments = .ok ⟨format, .decode (.of path) chunkSize true⟩ →
        path ≠ "-" → Folder.resolve [] false path = .ok (.name name) →
        after.lookup name ≠ none →
        (∀ frame ∈ frames, frame.totalLength ≤ 16 * 1024 * 1024) →
        (∃ transport, after.openFile path = .ok transport ∧
          decodeItems chunkSize true transport = items) ∧
        runIn after arguments input = (showItems format items, after) ∧
        (runIn after arguments input).1.status.code =
          if ∀ frame ∈ frames, (classify frame).isOk = true then 0 else 60 := by
  intro outcomes after
  have hcontent := session_content folder runs
  refine ⟨contributions folder runs, fun other => contributes_iff, session_codes folder runs,
    hcontent, session_lookup folder runs, fun other hother => session_lookup_of_ne folder runs hother,
    ?_, ?_⟩
  · intro before run hcode
    cases h : before.contribution run.encoding with
    | none => exact (Appending.perform_of_none h).2
    | some contents =>
      obtain ⟨wire, -, hperform⟩ := Appending.perform_of_some h
      rw [hperform] at hcode
      exact absurd rfl hcode
  · intro arguments input format path chunkSize hparse hpath hleads hexists hmax
    let added := (contributions folder runs).reduceOption
    let frames := (initial ++ added).map fun contents => Frame.ofContents contents.1 contents.2
    have hwire : Frame.encodeAll (initial ++ added) [] = .ok (after.content name) := by
      rw [encodeAll_append, hinitial]
      exact hcontent
    have hopen := after.openFile_content hleads hexists
    have hitems : decodeItems chunkSize true { deliveries := [.data (after.content name)] } =
        frames.map itemOf := by
      refine (Reader.items_contents { frame := frameConfig true } chunkSize 0
        (contents_single _)).trans (streamItems_written hwire fun contents hc => ?_)
      exact hmax _ (List.mem_map_of_mem hc)
    have hrun : runIn after arguments input = (showItems format (frames.map itemOf), after) := by
      rw [runIn, run, hparse, ← hitems]
      exact after.decode_run input format true hpath hopen
    refine ⟨⟨_, hopen, hitems⟩, hrun, ?_⟩
    rw [hrun]
    exact showItems_frames format frames

/-- A frame that has the headers of an encoding tells an event of the event type that is asked for. -/
theorem classify_labelled {encoding : Encoding} {headers : Headers} {kind : EventKind}
    {payload : Bytes} {event : Event} (hlabels : encoding.Labels headers)
    (hmessage : encoding.messageType = "event") (hkind : encoding.eventType = kind.header)
    (hreads : kind.Reads payload event) :
    classify (Frame.ofContents headers payload) = .ok event := by
  have hfailure : ¬ (Frame.ofContents headers payload).ReportsFailure := by
    rintro ⟨text, htext, hfails⟩
    have htype : some (Header.Value.string encoding.messageType) = some (.string text) :=
      hlabels.messageType.symm.trans htext
    rw [hmessage] at htype
    cases htype
    revert hfails
    decide
  have htype : (Frame.ofContents headers payload).eventType? = some kind.header := by
    rw [← hkind]
    exact congrArg (Option.map Header.Value.text) hlabels.eventType
  exact (classify_eq_ok hfailure htype).2 hreads

def metadataText : String := "\x7b\"conversationId\":\"c\"\x7d"

theorem parse_metadataText :
    Chat.Metadata.format.parse metadataText = .ok ⟨some "c", none⟩ := by decide +kernel

def metadataEncoding : Encoding where
  eventType := "messageMetadataEvent"
  payload := .json metadataText
  out := some "f"

/-- A frame with a payload that is given, one whose payload is not JSON, and one whose payload is the
file itself. -/
def threeRuns : List (Appending "f") :=
  [{ arguments := ["encode", "--event-type", "messageMetadataEvent", "--json", metadataText,
        "--out", "f"]
     input := []
     format := .json
     encoding := metadataEncoding
     parsed := by decide +kernel
     path := "f"
     out := rfl
     leads := by decide +kernel },
    { arguments := ["encode", "--json", "\x7boops", "--event-type", "x", "-o", "./f"]
      input := []
      format := .json
      encoding := { eventType := "x", payload := .json "\x7boops", out := some "./f" }
      parsed := by decide +kernel
      path := "./f"
      out := rfl
      leads := by decide +kernel },
    { arguments := ["--format", "table", "encode", "--event-type=y", "--message-type", "exception",
        "--file", "f", "--out=f"]
      input := []
      format := .table
      encoding :=
        { eventType := "y", messageType := "exception", payload := .file "f", out := some "f" }
      parsed := by decide +kernel
      path := "f"
      out := rfl
      leads := by decide +kernel }]

def frameOfOne : Bytes :=
  [0, 0, 0, 17, 0, 0, 0, 0, 56, 162, 97, 91, 7, 63, 21, 62, 182]

/-- Behind a frame of one byte, two of three runs append one. The frame of the first run is decoded
as the metadata that it was given. -/
theorem session_appends_three :
    let after := (session [("f", frameOfOne)] (given threeRuns)).2
    (session [("f", frameOfOne)] (given threeRuns)).1.map (·.status.code == 0) =
      [true, false, true] ∧
    after.lookup "f" ≠ none ∧
    (runIn after ["decode", "f", "--strict", "--chunk-size", "3"] []).1.status.code = 0 ∧
    ∃ transport, after.openFile "f" = .ok transport ∧
      (decodeItems 3 true transport)[1]? = some (.ok (.messageMetadata ⟨some "c", none⟩)) := by
  have hinitial : Frame.encodeAll [(.empty, [7])] [] =
      .ok (Folder.content [("f", frameOfOne)] "f") := by decide +kernel
  obtain ⟨contents, hunique, hcodes, -, hlookup, -, -, hdecode⟩ :=
    session_appends hinitial threeRuns
  obtain rfl := (hunique _).1 (contributes_iff.2 rfl)
  have hexists : (session [("f", frameOfOne)] (given threeRuns)).2.lookup "f" ≠ none :=
    fun h => Option.some_ne_none _ (hlookup.1 h).1
  have hparse : Invocation.parse ["decode", "f", "--strict", "--chunk-size", "3"] =
      .ok ⟨.json, .decode (.of "f") 3 true⟩ := by decide +kernel
  obtain ⟨⟨transport, hopen, hitems⟩, -, hcode⟩ := @hdecode _ [] _ _ _ hparse (by decide)
    (by decide +kernel) hexists (by decide +kernel)
  have hsuccess := hcode.trans (if_pos (by decide +kernel))
  refine ⟨hcodes.trans (by decide +kernel), hexists, hsuccess, transport, hopen, ?_⟩
  -- what the first run asks for is all that is used of its frame
  obtain ⟨⟨headers, payload⟩, hfirst⟩ :
      ∃ first, Folder.contribution [("f", frameOfOne)] metadataEncoding = some first :=
    Option.isSome_iff_exists.1 (by decide +kernel)
  have hasks := Folder.contribution_eq_some.1 hfirst
  have hreads : EventKind.Reads .messageMetadata payload (.messageMetadata ⟨some "c", none⟩) :=
    ⟨metadataText, _, hasks.gives.of_json, parse_metadataText, rfl⟩
  have hclassify := classify_labelled hasks.labels rfl rfl hreads
  obtain ⟨rest, hrest⟩ : ∃ rest, contributions [("f", frameOfOne)] threeRuns =
      some (headers, payload) :: rest := contributions_cons hfirst
  have hsecond : ([(Headers.empty, [7])] ++ (headers, payload) :: rest.reduceOption)[1]? =
      some (headers, payload) := rfl
  rw [hitems, hrest, List.reduceOption_cons_of_some, List.getElem?_map, List.getElem?_map, hsecond,
    Option.map_some, Option.map_some, hclassify]
  rfl

end EventStream.Cli
