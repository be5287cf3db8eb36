import EventStream.Proofs.Stream.Schedule

/-!
The life of an assembler. Its state only moves forward. Once the end of the stream was announced no
bytes are taken in, and the items still there are those that would have been given without the
announcement; once it is closed nothing changes any more.
-/

set_option autoImplicit false

namespace EventStream.Stream

namespace Assembler

def State.rank : State → Nat
  | .idle => 0
  | .receiving => 1
  | .draining => 2
  | .closed => 3

def announced (a : Assembler) : Assembler :=
  { a with state := .draining }

variable {a : Assembler}

theorem State.rank_le_one {s : State} (hd : s ≠ .draining) (hc : s ≠ .closed) : s.rank ≤ 1 := by
  cases s with
  | idle => exact Nat.zero_le 1
  | receiving => exact Nat.le_refl 1
  | draining => exact absurd rfl hd
  | closed => exact absurd rfl hc

theorem State.rank_le_three (s : State) : s.rank ≤ 3 := by
  cases s <;> decide

theorem State.rank_le_two {s : State} (hc : s ≠ .closed) : s.rank ≤ 2 := by
  cases s with
  | closed => exact absurd rfl hc
  | idle | receiving | draining => decide

theorem next_announced (ha : a.state ≠ .closed) :
    a.announced.next = (a.next.1, a.next.2.announced) := by
  have hopen : a.announced.state ≠ .closed := State.noConfusion
  fun_induction next a with
  | case1 a hc => exact absurd hc ha
  | case2 a hc hs => exact next_idle hopen hs
  | case3 a hc s hs hlt item hi => exact next_item hopen hs hi
  | case4 a hc s hs hlt hi ih => exact (next_skip hopen hs hi).trans (ih ha State.noConfusion)

theorem take_announced (ha : a.state ≠ .closed) (limit : Nat) :
    a.announced.take limit = ((a.take limit).1, (a.take limit).2.announced) := by
  induction limit generalizing a with
  | zero => rfl
  | succ limit ih =>
    have hn := next_announced ha
    cases hnext : a.next.1 with
    | none => rw [take_of_none hnext, take_of_none (by rw [hn, hnext]), hn]
    | some item =>
      have hrest : a.next.2.state ≠ .closed := by
        rw [next_state]
        exact ha
      rw [take_of_some hnext, take_of_some (by rw [hn, hnext]), hn, ih hrest]

theorem compact_announced (a : Assembler) : a.announced.compact = a.compact.announced := by
  have hcursor : a.announced.cursor = a.cursor := rfl
  rw [compact, compact, hcursor]
  split <;> rfl

theorem settle_announced (a : Assembler) : a.announced.settle = a.settle.announced := by
  rw [settle, settle, compact_announced]
  exact (apply_ite announced _ _ _).symm

theorem drainSome_announced (ha : a.state ≠ .closed) (limit : Nat) :
    a.announced.drainSome limit = ((a.drainSome limit).1, (a.drainSome limit).2.announced) := by
  rw [drainSome_eq, drainSome_eq, take_announced ha, settle_announced]

theorem finish_announced (ha : a.state ≠ .closed) : a.announced.finish = a.finish := by
  have hopen : a.announced.state ≠ .closed := State.noConfusion
  rw [finish, finish, if_neg ha, if_neg hopen]
  rfl

/-- An assembler that the end closes has no item left. -/
theorem isIdle_of_finish (ha : a.state ≠ .closed) (hf : a.finish.2.state = .closed) : a.IsIdle := by
  rcases finish_cases ha with ⟨hu, -⟩ | ⟨-, h⟩ | ⟨hi, -⟩
  · exact isIdle_of_unread hu
  · rw [h] at hf
    cases hf
  · exact hi

/-- Without an item left the end closes, and counts the bytes that are still there. -/
theorem finish_idle (ha : a.state ≠ .closed) (hi : a.IsIdle) :
    a.finish.2.state = .closed ∧ (∀ left, a.finish.1 ≠ .error (.undrained left)) ∧
      (a.finish.1 = .ok () ↔ a.buffered = 0) ∧
      (a.buffered ≠ 0 → ∃ missing, a.finish.1 = .error (.truncated a.buffered missing)) := by
  rw [finish_of_idle ha hi]
  exact ⟨rfl, ending_ne_undrained a.unread, ending_eq_ok_iff a.unread,
    fun hz => ⟨_, ending_of_ne_zero hz⟩⟩

theorem finish_of_undrained {left : Nat} (hf : a.finish.1 = .error (.undrained left)) :
    a.state ≠ .closed ∧ a.finish.2 = a.announced := by
  by_cases ha : a.state = .closed
  · rw [finish, if_pos ha] at hf
    cases hf
  · rcases finish_cases ha with ⟨-, h⟩ | ⟨-, h⟩ | ⟨-, -, -, h⟩
    · rw [h] at hf
      cases hf
    · rw [h]
      exact ⟨ha, rfl⟩
    · rw [h] at hf
      cases hf

theorem finish_isIdle (hi : a.IsIdle) : a.finish.2.IsIdle := by
  by_cases hc : a.state = .closed
  · rw [finish, if_pos hc]
    exact hi
  · rw [finish_of_idle hc hi]
    exact isIdle_of_unread rfl

end Assembler

namespace History

open Assembler

variable {h : History} {config : Assembler.Config} {ops : List Op}

theorem perform_finish (h : History) : (h.perform .finish).assembler = h.assembler.finish.2 :=
  (apply_ite History.assembler _ _ _).trans (ite_self _)

/-- An operation leaves the state, or moves it forward; only the end of the stream closes. -/
theorem perform_state (h : History) (op : Op) :
    (h.perform op).assembler.state = h.assembler.state ∨
    (h.assembler.state.rank ≤ 1 ∧ (h.perform op).assembler.state = .receiving) ∨
    (h.assembler.state ≠ .closed ∧ (h.perform op).assembler.state = .draining) ∨
    (h.assembler.state ≠ .closed ∧ (h.perform op).assembler = h.assembler.close) := by
  cases op with
  | feed chunk =>
    by_cases hended : h.assembler.state = .draining ∨ h.assembler.state = .closed
    · rw [perform, feed_error chunk hended]
      exact Or.inl rfl
    · obtain ⟨hd, hc⟩ := not_or.1 hended
      rw [perform, feed_ok chunk hd hc]
      exact Or.inr (Or.inl ⟨State.rank_le_one hd hc, rfl⟩)
  | take limit => exact Or.inl (take_state h limit)
  | drain => exact Or.inl (take_state h _)
  | compact => exact Or.inl (compact_state h.assembler)
  | finish =>
    rw [perform_finish]
    by_cases hc : h.assembler.state = .closed
    · rw [Assembler.finish, if_pos hc]
      exact Or.inl rfl
    · rcases finish_cases hc with ⟨-, hf⟩ | ⟨-, hf⟩ | ⟨-, -, -, hf⟩ <;> rw [hf]
      · exact Or.inr (Or.inr (Or.inr ⟨hc, rfl⟩))
      · exact Or.inr (Or.inr (Or.inl ⟨hc, rfl⟩))
      · exact Or.inr (Or.inr (Or.inr ⟨hc, rfl⟩))

theorem rank_le_perform (h : History) (op : Op) :
    h.assembler.state.rank ≤ (h.perform op).assembler.state.rank := by
  rcases perform_state h op with hs | ⟨hr, hs⟩ | ⟨hc, hs⟩ | ⟨-, hs⟩
  · exact Nat.le_of_eq (congrArg State.rank hs.symm)
  · rw [hs]
    exact hr
  · rw [hs]
    exact State.rank_le_two hc
  · rw [hs]
    exact State.rank_le_three _

theorem rank_le_foldl (h : History) (ops : List Op) :
    h.assembler.state.rank ≤ (ops.foldl perform h).assembler.state.rank := by
  induction ops generalizing h with
  | nil => exact Nat.le_refl _
  | cons op ops ih => exact Nat.le_trans (rank_le_perform h op) (ih _)

def Emptied (h : History) : Prop :=
  h.assembler.state = .closed → h.assembler.buffer = [] ∧ h.assembler.cursor = 0

theorem Emptied.perform (he : h.Emptied) (op : Op) : (h.perform op).Emptied := by
  intro hclosed
  by_cases hc : h.assembler.state = .closed
  · rw [perform_closed hc (he hc).2]
    exact he hc
  · rcases perform_state h op with hs | ⟨-, hs⟩ | ⟨-, hs⟩ | ⟨-, hs⟩
    · exact absurd (hs.symm.trans hclosed) hc
    · cases hs.symm.trans hclosed
    · cases hs.symm.trans hclosed
    · rw [hs]
      exact ⟨rfl, rfl⟩

theorem run_emptied (config : Assembler.Config) (ops : List Op) : (run config ops).Emptied := by
  have hfold : ∀ h : History, h.Emptied → (ops.foldl History.perform h).Emptied := by
    induction ops with
    | nil => exact fun _ he => he
    | cons op ops ih => exact fun h he => ih _ (he.perform op)
  exact hfold (start config) fun hc => State.noConfusion hc

theorem foldl_closed (hc : h.assembler.state = .closed) (hcursor : h.assembler.cursor = 0)
    (ops : List Op) : ops.foldl perform h = h := by
  induction ops with
  | nil => rfl
  | cons op ops ih => rw [List.foldl_cons, perform_closed hc hcursor, ih]

def announced (h : History) : History :=
  { h with assembler := h.assembler.announced }

/-- Only bytes that are to be taken in tell the announced end from one still to come. -/
theorem perform_announced (hc : h.assembler.state ≠ .closed) {op : Op}
    (hop : ∀ chunk, op ≠ .feed chunk) :
    h.announced.perform op = h.perform op ∨
      ((h.perform op).assembler.state ≠ .closed ∧
        h.announced.perform op = (h.perform op).announced) := by
  have htake : ∀ limit, (h.take limit).assembler.state ≠ .closed ∧
      h.announced.take limit = (h.take limit).announced := by
    intro limit
    rw [take_state]
    refine ⟨hc, ?_⟩
    have hd : h.announced.assembler.drainSome limit = _ := drainSome_announced hc limit
    rw [take, hd]
    rfl
  cases op with
  | feed chunk => exact absurd rfl (hop chunk)
  | take limit => exact Or.inr (htake limit)
  | drain => exact Or.inr (htake (h.assembler.buffered + 1))
  | compact =>
    refine Or.inr ⟨?_, ?_⟩
    · rw [perform, compact_state]
      exact hc
    · rw [perform, perform, announced, compact_announced]
      rfl
  | finish =>
    have hopen : h.announced.assembler.state ≠ .closed := State.noConfusion
    have hfinish : h.announced.assembler.finish = h.assembler.finish := finish_announced hc
    left
    rw [perform, perform, hfinish]
    simp only [hopen, hc, ne_eq, not_false_eq_true, true_and]
    rfl

theorem items_announced (hc : h.assembler.state ≠ .closed) {ops : List Op}
    (hops : ∀ chunk, .feed chunk ∉ ops) :
    (ops.foldl perform h.announced).items = (ops.foldl perform h).items := by
  induction ops generalizing h with
  | nil => rfl
  | cons op ops ih =>
    have hop : ∀ chunk, op ≠ .feed chunk := fun chunk he => hops chunk (he ▸ List.mem_cons_self)
    have hrest : ∀ chunk, .feed chunk ∉ ops := fun chunk hm => hops chunk (List.mem_cons_of_mem _ hm)
    rw [List.foldl_cons, List.foldl_cons]
    rcases perform_announced hc hop with hsame | ⟨hopen, hannounced⟩
    · rw [hsame]
    · rw [hannounced]
      exact ih hopen hrest

theorem run_append (config : Assembler.Config) (ops more : List Op) :
    run config (ops ++ more) = more.foldl perform (run config ops) :=
  List.foldl_append

theorem perform_finish_undrained {left : Nat}
    (hf : h.assembler.finish.1 = .error (.undrained left)) : h.perform .finish = h.announced := by
  have hafter := (finish_of_undrained hf).2
  rw [perform]
  generalize h.assembler.finish = r at hafter
  obtain ⟨result, a⟩ := r
  cases hafter
  exact if_neg fun hc => State.noConfusion hc.2

theorem Emptied.isIdle (he : h.Emptied) (hc : h.assembler.state = .closed) : h.assembler.IsIdle :=
  isIdle_of_unread (by rw [unread, (he hc).1, List.drop_nil])

/-- Once all items were taken out, none is left, closed or not. -/
theorem run_idle (config : Assembler.Config) {ops earlier : List Op} {last : Op}
    (hops : ops = earlier ++ [last]) (hlast : last.Exhausts (run config earlier).assembler) :
    (run config ops).assembler.IsIdle := by
  by_cases hc : (run config ops).assembler.state = .closed
  · exact (run_emptied config ops).isIdle hc
  · rw [hops, run_concat] at hc ⊢
    obtain ⟨found, hopen | hclosed⟩ := run_standing config earlier
    · exact hopen.idle hlast
    · rw [perform_closed hclosed.state hclosed.cursor] at hc
      exact absurd hclosed.state hc

theorem take_idle (hi : h.assembler.IsIdle) (limit : Nat) :
    h.assembler.take limit = ([], h.assembler) := by
  by_cases hc : h.assembler.state = .closed
  · exact take_closed hc limit
  · exact Assembler.take_idle hc hi limit

theorem drainSome_idle (hi : h.assembler.IsIdle) (limit : Nat) :
    h.assembler.drainSome limit = ([], h.assembler.settle) := by
  rw [drainSome_eq, take_idle hi]

theorem perform_isIdle (hi : h.assembler.IsIdle) {op : Op} (hop : ∀ chunk, op ≠ .feed chunk) :
    (h.perform op).assembler.IsIdle := by
  have htake : ∀ limit, (h.take limit).assembler.IsIdle := by
    intro limit
    have hs : (h.take limit).assembler = h.assembler.settle :=
      congrArg Prod.snd (drainSome_idle hi limit)
    rw [hs]
    exact settle_isIdle.2 hi
  cases op with
  | feed chunk => exact absurd rfl (hop chunk)
  | take limit => exact htake limit
  | drain => exact htake (h.assembler.buffered + 1)
  | compact => exact compact_isIdle.2 hi
  | finish =>
    rw [perform_finish]
    exact finish_isIdle hi

theorem foldl_isIdle (hi : h.assembler.IsIdle) (hops : ∀ chunk, .feed chunk ∉ ops) :
    (ops.foldl perform h).assembler.IsIdle := by
  induction ops generalizing h with
  | nil => exact hi
  | cons op ops ih =>
    have hop : ∀ chunk, op ≠ .feed chunk := fun chunk he => hops chunk (he ▸ List.mem_cons_self)
    exact ih (perform_isIdle hi hop) fun chunk hm => hops chunk (List.mem_cons_of_mem _ hm)

/-- All items were taken out since a chunk was last fed. -/
def Drained (config : Assembler.Config) (ops : List Op) : Prop :=
  ∃ earlier last later, ops = earlier ++ last :: later ∧
    last.Exhausts (run config earlier).assembler ∧ ∀ chunk, .feed chunk ∉ later

theorem Drained.isIdle (hd : Drained config ops) : (run config ops).assembler.IsIdle := by
  obtain ⟨earlier, last, later, rfl, hlast, hlater⟩ := hd
  have hidle := run_idle config rfl hlast
  rw [← List.singleton_append, ← List.append_assoc, run_append]
  exact foldl_isIdle hidle hlater

/-- The life of an assembler: states only move forward; what is refused changes nothing; the end
closes only where no item is left, and otherwise waits without any other change; once all items
were taken out it closes, and tells the bytes that are left; what is closed stays as it is. -/
theorem lifecycle (config : Assembler.Config) (ops : List Op) :
    let h := run config ops
    let a := h.assembler
    (∀ more, a.state.rank ≤ (run config (ops ++ more)).assembler.state.rank) ∧
    (a.state = .draining ∨ a.state = .closed → ∀ chunk,
      a.feed chunk = .error .closed ∧ run config (ops ++ [.feed chunk]) = h) ∧
    (a.state = .closed → a.finish = (.error .closed, a)) ∧
    (∀ left, a.finish.1 = .error (.undrained left) →
      a.finish.2 = { a with state := .draining } ∧
      ∀ later, (∀ chunk, .feed chunk ∉ later) →
        (run config (ops ++ .finish :: later)).items = (run config (ops ++ later)).items) ∧
    (a.state ≠ .closed → a.finish.2.state = .closed →
      (∀ limit, (a.drainSome limit).1 = []) ∧
      (a.finish.1 = .ok () ∨ ∃ missing, a.finish.1 = .error (.truncated a.buffered missing))) ∧
    (Drained config ops →
      a.finish.2.state = .closed ∧ (∀ left, a.finish.1 ≠ .error (.undrained left)) ∧
      (a.state ≠ .closed →
        (a.finish.1 = .ok () ↔ a.buffered = 0) ∧
        (a.buffered ≠ 0 → ∃ missing, a.finish.1 = .error (.truncated a.buffered missing)))) ∧
    (a.state = .closed →
      a.buffered = 0 ∧ (∀ limit, (a.drainSome limit).1 = []) ∧
        ∀ more, run config (ops ++ more) = h) := by
  intro h a
  have hempty : h.Emptied := run_emptied config ops
  refine ⟨?_, ?_, ?_, ?_, ?_, ?_, ?_⟩
  · intro more
    rw [run_append]
    exact rank_le_foldl h more
  · intro hended chunk
    have hfeed := feed_error chunk hended
    refine ⟨hfeed, ?_⟩
    rw [run_concat, perform, hfeed]
  · exact fun hc => if_pos hc
  · intro left hf
    obtain ⟨hc, hafter⟩ := finish_of_undrained hf
    refine ⟨hafter, fun later hlater => ?_⟩
    rw [run_append, run_append, List.foldl_cons, perform_finish_undrained hf]
    exact items_announced hc hlater
  · intro hc hf
    have hi := isIdle_of_finish hc hf
    refine ⟨fun limit => congrArg Prod.fst (drainSome_idle hi limit), ?_⟩
    obtain ⟨-, -, hok, hleft⟩ := finish_idle hc hi
    by_cases hz : a.buffered = 0
    · exact Or.inl (hok.2 hz)
    · exact Or.inr (hleft hz)
  · intro hdrained
    by_cases hc : a.state = .closed
    · have hf : a.finish = (.error .closed, a) := if_pos hc
      rw [hf]
      exact ⟨hc, fun _ he => Error.noConfusion (Except.error.inj he), fun ho => absurd hc ho⟩
    · obtain ⟨hclosed, hundrained, hends⟩ := finish_idle hc hdrained.isIdle
      exact ⟨hclosed, hundrained, fun _ => hends⟩
  · intro hc
    have hi : a.IsIdle := hempty.isIdle hc
    refine ⟨?_, fun limit => congrArg Prod.fst (drainSome_idle hi limit), fun more => ?_⟩
    · rw [buffered, unread, (hempty hc).1, List.drop_nil, List.length_nil]
    · rw [run_append]
      exact foldl_closed hc (hempty hc).2 more

end History

end EventStream.Stream
