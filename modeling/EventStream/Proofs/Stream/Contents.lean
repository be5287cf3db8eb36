import EventStream.Proofs.Stream.Reading

/-!
Any transport at all. A reader looks at what a transport delivers up to its end, which may be a
failure or a delivery without bytes, and gives the items of the bytes before that end.
-/

set_option autoImplicit false

namespace EventStream.Stream

/-- Deliveries up to the end: to a failure that is no interruption, or until no bytes come. -/
def upToEnd : List Delivery → List Delivery
  | [] => []
  | .failure error :: rest =>
    if error.kind = .interrupted then .failure error :: upToEnd rest else [.failure error]
  | .data bytes :: rest => if bytes.isEmpty then [] else .data bytes :: upToEnd rest

section upToEnd

variable {deliveries : List Delivery}

theorem upToEnd_interruption {error : IoError} (hk : error.kind = .interrupted)
    (rest : List Delivery) : upToEnd (.failure error :: rest) = .failure error :: upToEnd rest :=
  if_pos hk

theorem upToEnd_failure {error : IoError} (hk : error.kind ≠ .interrupted)
    (rest : List Delivery) : upToEnd (.failure error :: rest) = [.failure error] :=
  if_neg hk

theorem upToEnd_empty (rest : List Delivery) : upToEnd (.data [] :: rest) = [] := rfl

theorem upToEnd_data {bytes : Bytes} (hb : bytes ≠ []) (rest : List Delivery) :
    upToEnd (.data bytes :: rest) = .data bytes :: upToEnd rest :=
  if_neg fun he => hb (List.isEmpty_iff.1 he)

/-- What a transport delivers is a script, but for interruptions, and tells what it holds. -/
theorem exists_script (deliveries : List Delivery) :
    ∃ (pieces : List Bytes) (failure : Option IoError), (∀ piece ∈ pieces, piece ≠ []) ∧
      uninterrupted (upToEnd deliveries) = script pieces failure ∧
      Transport.contents deliveries = failure.elim (.ok pieces.flatten) .error := by
  fun_induction Transport.contents deliveries with
  | case1 => exact ⟨[], none, fun _ hm => (List.not_mem_nil hm).elim, rfl, rfl⟩
  | case2 error rest hk ih =>
    obtain ⟨pieces, failure, hpieces, hscript, hcontents⟩ := ih
    refine ⟨pieces, failure, hpieces, ?_, hcontents⟩
    rw [upToEnd_interruption hk, uninterrupted_interruption hk, hscript]
  | case3 error rest hk =>
    refine ⟨[], some error, fun _ hm => (List.not_mem_nil hm).elim, ?_, rfl⟩
    rw [upToEnd_failure hk, uninterrupted_failure hk]
    rfl
  | case4 rest => exact ⟨[], none, fun _ hm => (List.not_mem_nil hm).elim, rfl, rfl⟩
  | case5 piece rest hne ih =>
    obtain ⟨pieces, failure, hpieces, hscript, hcontents⟩ := ih
    refine ⟨piece :: pieces, failure, ?_, ?_, ?_⟩
    · intro p hp
      rcases List.mem_cons.1 hp with rfl | hp
      · exact hne
      · exact hpieces p hp
    · rw [upToEnd_data hne, uninterrupted_data, hscript]
      rfl
    · rw [hcontents]
      cases failure <;> rfl

theorem size_upToEnd_le (deliveries : List Delivery) (reads : Nat) :
    Transport.size ⟨upToEnd deliveries, reads⟩ ≤ Transport.size ⟨deliveries, reads⟩ := by
  fun_induction upToEnd deliveries with
  | case1 => exact Nat.le_refl _
  | case2 error rest hk ih => exact Nat.add_le_add_left ih _
  | case3 error rest hk => exact Nat.le_add_right _ _
  | case4 bytes rest hb => exact Nat.zero_le _
  | case5 bytes rest hb ih => exact Nat.add_le_add_left ih _

end upToEnd

namespace Transport

def cut (t : Transport) : Transport :=
  { t with deliveries := upToEnd t.deliveries }

inductive IsEnd : Except IoError Bytes → Prop
  | nothing : IsEnd (.ok [])
  | failure {error : IoError} (hk : error.kind ≠ .interrupted) : IsEnd (.error error)

/-- Reads bring the same, up to the end. -/
theorem read_cut (limit : Nat) (t : Transport) :
    (t.cut.read limit).1 = (t.read limit).1 ∧
      (IsEnd (t.read limit).1 ∨ (t.cut.read limit).2 = (t.read limit).2.cut) := by
  obtain ⟨deliveries, reads⟩ := t
  cases deliveries with
  | nil => exact ⟨rfl, Or.inl .nothing⟩
  | cons delivery rest =>
    cases delivery with
    | failure error =>
      by_cases hk : error.kind = .interrupted
      · rw [read_of_failure limit (upToEnd_interruption hk rest), read_of_failure limit rfl]
        exact ⟨rfl, Or.inr rfl⟩
      · rw [read_of_failure limit (upToEnd_failure hk rest), read_of_failure limit rfl]
        exact ⟨rfl, Or.inl (.failure hk)⟩
    | data bytes =>
      by_cases hb : bytes = []
      · subst hb
        rw [read_of_nil limit (upToEnd_empty rest), read_of_data limit rfl, List.take_nil]
        exact ⟨rfl, Or.inl .nothing⟩
      · rw [read_of_data limit (upToEnd_data hb rest), read_of_data limit rfl]
        refine ⟨rfl, Or.inr ?_⟩
        by_cases hmore : (bytes.drop limit).isEmpty = true
        · rw [if_pos hmore, if_pos hmore]
          rfl
        · have hne : bytes.drop limit ≠ [] := fun he => hmore (List.isEmpty_iff.2 he)
          rw [if_neg hmore, if_neg hmore, ← upToEnd_data hne]
          rfl

end Transport

namespace Reader

variable {r s : Reader} {a : Assembler}

def cut (r : Reader) : Reader :=
  { r with source := r.source.cut }

theorem conclude_eq (hsame : s.assembler = r.assembler) :
    s.conclude.1 = r.conclude.1 ∧ s.conclude.2.isDone = true ∧ r.conclude.2.isDone = true := by
  rw [conclude, conclude, hsame]
  generalize r.assembler.finish = finished
  obtain ⟨_ | _, a⟩ := finished <;> exact ⟨rfl, rfl, rfl⟩

/-- At the end of its transport a reader gives its last item, whatever would follow. -/
theorem next_of_end {got : Except IoError Bytes} {t u : Transport} (hend : Transport.IsEnd got)
    (hr : r.isDone ≠ true) (hs : s.isDone ≠ true) (hd : r.assembler.drainSome 1 = ([], a))
    (hsame : s.assembler = r.assembler) (hf : r.fetch = (got, t)) (hf' : s.fetch = (got, u)) :
    s.next.1 = r.next.1 ∧ s.next.2.isDone = true ∧ r.next.2.isDone = true := by
  have hd' : s.assembler.drainSome 1 = ([], a) := hsame ▸ hd
  cases hend with
  | nothing =>
    rw [next_end hr hd hf, next_end hs hd' hf']
    exact conclude_eq rfl
  | failure hk =>
    rw [next_failure hr hd hf hk, next_failure hs hd' hf' hk]
    exact ⟨rfl, rfl, rfl⟩

/-- A reader never looks behind the end of its transport. -/
theorem next_cut (r : Reader) : r.cut.next.1 = r.next.1 ∧
    (r.cut.next.2 = r.next.2.cut ∨ r.cut.next.2.isDone = true ∧ r.next.2.isDone = true) := by
  generalize hn : r.source.size = n
  induction n using Nat.strongRecOn generalizing r with
  | _ n ih =>
    by_cases hdone : r.isDone = true
    · rw [next_done hdone, next_done (r := r.cut) hdone]
      exact ⟨rfl, Or.inl rfl⟩
    obtain ⟨items, a, hd⟩ : ∃ items a, r.assembler.drainSome 1 = (items, a) := ⟨_, _, rfl⟩
    cases items with
    | cons item more =>
      rw [next_item hdone hd, next_item (r := r.cut) hdone hd]
      exact ⟨rfl, Or.inl rfl⟩
    | nil =>
      obtain ⟨got, t, hf⟩ : ∃ got t, r.fetch = (got, t) := ⟨_, _, rfl⟩
      obtain ⟨hgot, hleft⟩ := Transport.read_cut (max r.chunkSize 1) r.source
      change r.cut.fetch.1 = r.fetch.1 at hgot
      change Transport.IsEnd r.fetch.1 ∨ r.cut.fetch.2 = r.fetch.2.cut at hleft
      rw [hf] at hgot hleft
      rcases hleft with hend | hleft
      · have hf' : r.cut.fetch = (got, r.cut.fetch.2) := Prod.ext hgot rfl
        obtain ⟨hitem, hdones⟩ := next_of_end (s := r.cut) hend hdone hdone hd rfl hf hf'
        exact ⟨hitem, Or.inr hdones⟩
      · have hf' : r.cut.fetch = (got, t.cut) := Prod.ext hgot hleft
        cases got with
        | error error =>
          by_cases hk : error.kind = .interrupted
          · have hsize := Transport.read_error_size (congrArg Prod.fst hf)
            rw [← Reader.fetch, hf] at hsize
            rw [next_interrupted hdone hd hf hk, next_interrupted (r := r.cut) hdone hd hf' hk]
            exact ih _ (hn ▸ hsize) { r with assembler := a, source := t } rfl
          · rw [next_failure hdone hd hf hk, next_failure (r := r.cut) hdone hd hf' hk]
            exact ⟨rfl, Or.inl rfl⟩
        | ok chunk =>
          by_cases hc : chunk = []
          · subst hc
            obtain ⟨hitem, hdones⟩ := next_of_end (s := r.cut) .nothing hdone hdone hd rfl hf hf'
            exact ⟨hitem, Or.inr hdones⟩
          · have hsize := Transport.read_ok_size (congrArg Prod.fst hf) hc
            rw [← Reader.fetch, hf] at hsize
            cases hb : a.feed chunk with
            | error error =>
              rw [next_refused hdone hd hf hc hb, next_refused (r := r.cut) hdone hd hf' hc hb]
              exact ⟨rfl, Or.inl rfl⟩
            | ok b =>
              rw [next_chunk hdone hd hf hc hb, next_chunk (r := r.cut) hdone hd hf' hc hb]
              exact ih _ (hn ▸ hsize) { r with assembler := b, source := t } rfl

theorem take_cut (limit : Nat) (r : Reader) : (r.cut.take limit).1 = (r.take limit).1 := by
  induction limit generalizing r with
  | zero => rfl
  | succ limit ih =>
    obtain ⟨hitem, hrest⟩ := next_cut r
    cases hn : r.next.1 with
    | none => rw [take_of_none hn, take_of_none (hitem.trans hn)]
    | some item =>
      rw [take_of_some hn, take_of_some (hitem.trans hn)]
      rcases hrest with hcut | ⟨hdone, hdone'⟩
      · rw [hcut, ih]
      · rw [take_done hdone, take_done hdone']

/-- On any transport a reader gives the items of some bytes and of the end behind them; if the
transport can be read, these are the bytes it holds. -/
theorem exists_items (config : Assembler.Config) (chunkSize reads : Nat)
    (deliveries : List Delivery) : ∃ bytes failure,
      (start config chunkSize ⟨deliveries, reads⟩).items.1 =
        streamItems config.frame bytes failure ∧
      Transport.contents deliveries = failure.elim (.ok bytes) .error := by
  obtain ⟨pieces, failure, hpieces, hscript, hcontents⟩ := exists_script deliveries
  refine ⟨pieces.flatten, failure, ?_, hcontents⟩
  have hr := Reading.start config chunkSize reads hpieces hscript
  have hlimit := findings_lt_limit config chunkSize reads hscript
  have hsize := Nat.add_le_add_left (size_upToEnd_le deliveries reads)
    (start config chunkSize ⟨deliveries, reads⟩).assembler.buffered
  have hmore := Nat.lt_of_lt_of_le hlimit (Nat.add_le_add_right hsize 2)
  exact (take_cut _ _).symm.trans (hr.take rfl hmore).1

theorem items_contents (config : Assembler.Config) (chunkSize reads : Nat)
    {deliveries : List Delivery} {bytes : Bytes} (h : Transport.contents deliveries = .ok bytes) :
    (start config chunkSize ⟨deliveries, reads⟩).items.1 = streamItems config.frame bytes none := by
  obtain ⟨held, failure, hitems, hcontents⟩ := exists_items config chunkSize reads deliveries
  rw [h] at hcontents
  cases failure with
  | none =>
    cases hcontents
    exact hitems
  | some error => cases hcontents

end Reader

end EventStream.Stream
