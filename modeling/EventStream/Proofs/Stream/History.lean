import EventStream.Proofs.Stream.Progress

/-!
What a caller does with an assembler, and what came of it. An operation keeps an open assembler's
progress, or closes the assembler; what is closed no operation changes.
-/

set_option autoImplicit false

namespace EventStream.Stream

open Assembler

inductive Op where
  | feed (chunk : Bytes)
  | take (limit : Nat)
  | drain
  | compact
  | finish
  deriving DecidableEq, Repr

namespace Op

def bytes : Op → Bytes
  | feed chunk => chunk
  | _ => []

def Exhausts (a : Assembler) : Op → Prop
  | take limit => (a.drainSome limit).1.length < limit
  | drain => True
  | _ => False

end Op

/-- An assembler with what it took in and gave. -/
structure History where
  assembler : Assembler
  /-- The chunks taken in, joined. -/
  fed : Bytes := []
  items : List Item := []
  /-- The result of the call that closed the assembler. -/
  closing : Option (Except Error Unit) := none

namespace History

def start (config : Assembler.Config) : History where
  assembler := { config }

def take (h : History) (limit : Nat) : History :=
  let (items, a) := h.assembler.drainSome limit
  { h with assembler := a, items := h.items ++ items }

def perform (h : History) : Op → History
  | .feed chunk =>
    match h.assembler.feed chunk with
    | .ok a => { h with assembler := a, fed := h.fed ++ chunk }
    | .error _ => h
  | .take limit => h.take limit
  | .drain => h.take (h.assembler.buffered + 1)
  | .compact => { h with assembler := h.assembler.compact }
  | .finish =>
    let (result, a) := h.assembler.finish
    if h.assembler.state ≠ .closed ∧ a.state = .closed then
      { h with assembler := a, closing := some result }
    else { h with assembler := a }

def run (config : Assembler.Config) (ops : List Op) : History :=
  ops.foldl perform (start config)

structure Open (h : History) (found : List Finding) : Prop where
  state : h.assembler.state ≠ .closed
  progress : Progress h.assembler h.fed found
  items : h.items = found.map Finding.item
  closing : h.closing = none

/-- The bytes that were left when an assembler was closed. -/
inductive Left : Except Error Unit → Nat → Prop where
  | nothing : Left (.ok ()) 0
  | beginning (buffered missing : Nat) : Left (.error (.truncated buffered missing)) buffered

/-- An assembler that has given all it can. -/
structure Closed (h : History) (found : List Finding) : Prop where
  state : h.assembler.state = .closed
  cursor : h.assembler.cursor = 0
  first : found <+: findings h.assembler.config.frame h.fed
  items : h.items = found.map Finding.item
  bytesFed : h.assembler.stats.bytesFed = h.fed.length
  counted : ∃ skip left result, Counted h.assembler.stats skip found ∧
    h.fed.length + skip = span found + left ∧ h.closing = some result ∧ Left result left

variable {h : History} {found : List Finding}

theorem start_open (config : Assembler.Config) : Open (start config) [] :=
  ⟨State.noConfusion, Progress.fresh config, rfl, rfl⟩

theorem start_idle (config : Assembler.Config) : (start config).assembler.IsIdle := by
  have hd : Frame.decode config.frame [] = .ok none := Frame.decode_of_short (by decide)
  change segment config.frame 0 [] = none
  rw [segment, if_neg (Nat.lt_irrefl 0), hd]

@[simp] theorem take_state (h : History) (limit : Nat) :
    (h.take limit).assembler.state = h.assembler.state :=
  drainSome_state limit h.assembler

theorem Open.take (hopen : h.Open found) (limit : Nat) :
    ∃ more, (h.take limit).Open (found ++ more) ∧
      (h.assembler.drainSome limit).1 = more.map Finding.item ∧
      (more.length < limit → (h.take limit).assembler.IsIdle) := by
  obtain ⟨more, hitems, hp, hidle⟩ := hopen.progress.drainSome hopen.state limit
  refine ⟨more, ⟨?_, hp, ?_, hopen.closing⟩, hitems, hidle⟩
  · rw [take_state]
    exact hopen.state
  · rw [List.map_append, ← hopen.items, ← hitems]
    rfl

theorem Open.finish (hopen : h.Open found) :
    (h.perform .finish).Open found ∨ (h.perform .finish).Closed found := by
  have hp := hopen.progress
  have hclose : ∀ {result : Except Error Unit}, h.assembler.finish = (result, h.assembler.close) →
      Left result h.assembler.unread.length → (h.perform .finish).Closed found := by
    intro result hfinish hleft
    have hperform : h.perform .finish =
        { h with assembler := h.assembler.close, closing := some result } := by
      rw [perform, hfinish]
      exact if_pos ⟨hopen.state, rfl⟩
    rw [hperform]
    exact ⟨rfl, rfl, hp.first, hopen.items, hp.bytesFed, h.assembler.skip, _, result, hp.counted,
      hp.position, rfl, hleft⟩
  rcases finish_cases hopen.state with ⟨hu, hf⟩ | ⟨-, hf⟩ | ⟨-, -, -, hf⟩
  · refine Or.inr (hclose hf ?_)
    rw [hu]
    exact .nothing
  · left
    have hperform : h.perform .finish =
        { h with assembler := { h.assembler with state := .draining } } := by
      rw [perform, hf]
      exact if_neg fun hc => State.noConfusion hc.2
    rw [hperform]
    exact ⟨State.noConfusion,
      ⟨hp.first, hp.rest, hp.position, hp.bounded, hp.bytesFed, hp.counted⟩,
      hopen.items, hopen.closing⟩
  · exact Or.inr (hclose hf (.beginning _ _))

theorem Open.feed (hopen : h.Open found) (chunk : Bytes) : (h.perform (.feed chunk)).Open found := by
  rw [History.perform]
  cases hf : h.assembler.feed chunk with
  | error error => exact hopen
  | ok a =>
    refine ⟨?_, hopen.progress.feed hf, hopen.items, hopen.closing⟩
    rw [feed_state hf]
    exact State.noConfusion

theorem Open.compact (hopen : h.Open found) : (h.perform .compact).Open found := by
  refine ⟨?_, hopen.progress.compact, hopen.items, hopen.closing⟩
  change h.assembler.compact.state ≠ .closed
  rw [compact_state]
  exact hopen.state

theorem Open.perform (hopen : h.Open found) {op : Op} (hop : op ≠ .finish) :
    ∃ more, (h.perform op).Open (found ++ more) := by
  cases op with
  | feed chunk =>
    refine ⟨[], ?_⟩
    rw [List.append_nil]
    exact hopen.feed chunk
  | take limit =>
    obtain ⟨more, hmore, -⟩ := hopen.take limit
    exact ⟨more, hmore⟩
  | drain =>
    obtain ⟨more, hmore, -⟩ := hopen.take (h.assembler.buffered + 1)
    exact ⟨more, hmore⟩
  | compact =>
    refine ⟨[], ?_⟩
    rw [List.append_nil]
    exact hopen.compact
  | finish => exact absurd rfl hop

theorem take_closed {a : Assembler} (hstate : a.state = .closed) (limit : Nat) :
    a.take limit = ([], a) := by
  have hn : a.next = (none, a) := by rw [next, if_pos hstate]
  cases limit with
  | zero => rfl
  | succ limit =>
    rw [take_of_none (congrArg Prod.fst hn), hn]

theorem perform_closed (hstate : h.assembler.state = .closed) (hcursor : h.assembler.cursor = 0)
    (op : Op) : h.perform op = h := by
  have hcompact : h.assembler.compact = h.assembler := if_pos hcursor
  have hsettle : h.assembler.settle = h.assembler := by
    rcases settle_cases h.assembler with hs | hs
    · rw [hs, hcompact]
    · exact hs
  have htake : ∀ limit, h.take limit = h := by
    intro limit
    rw [take, drainSome_eq, take_closed hstate, hsettle]
    change { h with items := h.items ++ [] } = h
    rw [List.append_nil]
  cases op with
  | feed chunk => rw [perform, feed_error chunk (Or.inr hstate)]
  | take limit => exact htake limit
  | drain => exact htake (h.assembler.buffered + 1)
  | compact => rw [perform, hcompact]
  | finish =>
    have hf : h.assembler.finish = (.error .closed, h.assembler) := if_pos hstate
    rw [perform, hf]
    exact if_neg fun hc => hc.1 hstate

/-- Every operation leaves an assembler open or closed, with the findings before and new ones. -/
theorem perform_standing (hs : h.Open found ∨ h.Closed found) (op : Op) :
    ∃ more, (h.perform op).Open (found ++ more) ∨ (h.perform op).Closed (found ++ more) := by
  rcases hs with hopen | hclosed
  · by_cases hop : op = .finish
    · subst hop
      refine ⟨[], ?_⟩
      rw [List.append_nil]
      exact hopen.finish
    · obtain ⟨more, hmore⟩ := hopen.perform hop
      exact ⟨more, Or.inl hmore⟩
  · refine ⟨[], ?_⟩
    rw [perform_closed hclosed.state hclosed.cursor, List.append_nil]
    exact Or.inr hclosed

theorem perform_config (h : History) (op : Op) :
    (h.perform op).assembler.config = h.assembler.config := by
  cases op with
  | feed chunk =>
    rw [perform]
    cases hf : h.assembler.feed chunk with
    | error error => rfl
    | ok a => exact feed_config hf
  | take limit => exact drainSome_config limit h.assembler
  | drain => exact drainSome_config (h.assembler.buffered + 1) h.assembler
  | compact => exact compact_config h.assembler
  | finish =>
    rw [perform]
    change (if _ then _ else _ : History).assembler.config = _
    rw [apply_ite History.assembler, ite_self]
    exact finish_config h.assembler

theorem run_config (config : Assembler.Config) (ops : List Op) :
    (run config ops).assembler.config = config := by
  have hfold : ∀ h : History, (ops.foldl perform h).assembler.config = h.assembler.config := by
    induction ops with
    | nil => exact fun _ => rfl
    | cons op ops ih => exact fun h => (ih _).trans (perform_config h op)
  exact hfold (start config)

theorem run_concat (config : Assembler.Config) (ops : List Op) (op : Op) :
    run config (ops ++ [op]) = (run config ops).perform op :=
  List.foldl_concat ..

/-- Whatever is done with an assembler, it is open or closed, and has given the first findings. -/
theorem run_standing (config : Assembler.Config) (ops : List Op) :
    ∃ found, (run config ops).Open found ∨ (run config ops).Closed found := by
  have hfold : ∀ h : History, (∃ found, h.Open found ∨ h.Closed found) →
      ∃ found, (ops.foldl perform h).Open found ∨ (ops.foldl perform h).Closed found := by
    induction ops with
    | nil => exact fun _ hs => hs
    | cons op ops ih =>
      intro h hs
      obtain ⟨found, hs⟩ := hs
      obtain ⟨more, hmore⟩ := perform_standing hs op
      exact ih _ ⟨found ++ more, hmore⟩
  exact hfold _ ⟨[], Or.inl (start_open config)⟩

end History

end EventStream.Stream
