import EventStream.Stream.Reader
import EventStream.Proofs.Stream.Progress
import EventStream.Proofs.Stream.Script

/-!
What a reader does at each state of its assembler and its transport. In whatever pieces the bytes
arrive, and whatever interrupts them, a reader gives the items of its transport one by one.
-/

set_option autoImplicit false

namespace EventStream.Stream.Reader

variable {r : Reader} {a b : Assembler} {t : Transport}

theorem next_done (h : r.isDone = true) : r.next = (none, r) := by
  rw [next, if_pos h]

theorem next_item {item : Item} {more : List Item} (h : r.isDone ≠ true)
    (hd : r.assembler.drainSome 1 = (item :: more, a)) :
    r.next = (some item, { r with assembler := a }) := by
  rw [next, if_neg h]
  split
  · next hd' =>
    rw [hd] at hd'
    cases hd'
    rfl
  · next hd' =>
    rw [hd] at hd'
    cases hd'

/-- Without an item left, a reader goes by what its transport brings. -/
theorem next_read (h : r.isDone ≠ true) (hd : r.assembler.drainSome 1 = ([], a)) :
    r.next = match r.fetch.1 with
      | .error error =>
        if error.kind = .interrupted then { r with assembler := a, source := r.fetch.2 }.next
        else (some (.error (.transport error.message)),
          { r with assembler := a, source := r.fetch.2, isDone := true })
      | .ok [] => conclude { r with assembler := a, source := r.fetch.2 }
      | .ok (byte :: chunk) =>
        match a.feed (byte :: chunk) with
        | .error error =>
          (some (.error error), { r with assembler := a, source := r.fetch.2, isDone := true })
        | .ok b => { r with assembler := b, source := r.fetch.2 }.next := by
  rw [next, if_neg h]
  split
  · next hd' =>
    rw [hd] at hd'
    cases hd'
  · next hd' =>
    rw [hd] at hd'
    cases hd'
    split
    · next got => simp only [got]
    · next got => simp only [got]
    · next byte chunk got =>
      cases hb : a.feed (byte :: chunk) with
      | error error => simp only [got, hb]
      | ok b => simp only [got, hb]

theorem next_failure {error : IoError} (h : r.isDone ≠ true)
    (hd : r.assembler.drainSome 1 = ([], a)) (hf : r.fetch = (.error error, t))
    (hk : error.kind ≠ .interrupted) :
    r.next = (some (.error (.transport error.message)),
      { r with assembler := a, source := t, isDone := true }) := by
  rw [next_read h hd, hf]
  exact if_neg hk

theorem next_interrupted {error : IoError} (h : r.isDone ≠ true)
    (hd : r.assembler.drainSome 1 = ([], a)) (hf : r.fetch = (.error error, t))
    (hk : error.kind = .interrupted) :
    r.next = { r with assembler := a, source := t }.next := by
  rw [next_read h hd, hf]
  exact if_pos hk

theorem next_end (h : r.isDone ≠ true) (hd : r.assembler.drainSome 1 = ([], a))
    (hf : r.fetch = (.ok [], t)) :
    r.next = conclude { r with assembler := a, source := t } := by
  rw [next_read h hd, hf]

theorem next_chunk {chunk : Bytes} (h : r.isDone ≠ true)
    (hd : r.assembler.drainSome 1 = ([], a)) (hf : r.fetch = (.ok chunk, t)) (hc : chunk ≠ [])
    (hb : a.feed chunk = .ok b) :
    r.next = { r with assembler := b, source := t }.next := by
  cases chunk with
  | nil => exact absurd rfl hc
  | cons byte chunk =>
    rw [next_read h hd, hf]
    simp only [hb]

theorem next_refused {chunk : Bytes} {error : Error} (h : r.isDone ≠ true)
    (hd : r.assembler.drainSome 1 = ([], a)) (hf : r.fetch = (.ok chunk, t)) (hc : chunk ≠ [])
    (hb : a.feed chunk = .error error) :
    r.next = (some (.error error), { r with assembler := a, source := t, isDone := true }) := by
  cases chunk with
  | nil => exact absurd rfl hc
  | cons byte chunk =>
    rw [next_read h hd, hf]
    simp only [hb]

theorem take_of_none {limit : Nat} (h : r.next.1 = none) : r.take (limit + 1) = ([], r.next.2) := by
  rw [take]
  generalize r.next = got at h
  obtain ⟨item, r'⟩ := got
  cases h
  rfl

theorem take_of_some {limit : Nat} {item : Item} (h : r.next.1 = some item) :
    r.take (limit + 1) = (item :: (r.next.2.take limit).1, (r.next.2.take limit).2) := by
  rw [take]
  generalize r.next = got at h
  obtain ⟨found, r'⟩ := got
  cases h
  rfl

theorem take_done (h : r.isDone = true) (limit : Nat) : r.take limit = ([], r) := by
  cases limit with
  | zero => rfl
  | succ limit => rw [take_of_none (by rw [next_done h]), next_done h]

/-- How far a reader has come with a transport that brings `bytes`, and then ends or fails. -/
structure Reading (r : Reader) (config : Frame.Config) (bytes : Bytes) (failure : Option IoError)
    (found : List Finding) : Prop where
  active : r.isDone ≠ true
  undrained : r.assembler.state ≠ .draining
  unclosed : r.assembler.state ≠ .closed
  config : r.assembler.config.frame = config
  rest : ∃ fed pieces, Assembler.Progress r.assembler fed found ∧ fed ++ pieces.flatten = bytes ∧
    (∀ piece ∈ pieces, piece ≠ []) ∧
    uninterrupted r.source.deliveries = script pieces failure

variable {config : Frame.Config} {bytes : Bytes} {failure : Option IoError} {found : List Finding}

theorem next_end_idle (hactive : r.isDone ≠ true) (hd : r.assembler.drainSome 1 = ([], a))
    (hf : r.fetch = (.ok [], t)) (hunclosed : a.state ≠ .closed) (hi : a.IsIdle) :
    r.next.1 = lastItem a.unread none ∧ r.next.2.isDone = true := by
  rw [next_end hactive hd hf, conclude]
  simp only [Assembler.finish_of_idle hunclosed hi, lastItem]
  cases Assembler.ending a.unread <;> exact ⟨rfl, rfl⟩

theorem pieces_drop (limit : Nat) {piece : Bytes} {pieces : List Bytes} {rest : List Delivery}
    (hpieces : ∀ p ∈ piece :: pieces, p ≠ [])
    (hrest : uninterrupted rest = script pieces failure) :
    ∃ left, (∀ p ∈ left, p ≠ []) ∧
      piece.take limit ++ left.flatten = (piece :: pieces).flatten ∧
      uninterrupted (if (piece.drop limit).isEmpty then rest
        else .data (piece.drop limit) :: rest) = script left failure := by
  have hothers : ∀ p ∈ pieces, p ≠ [] := fun p hp => hpieces p (List.mem_cons_of_mem _ hp)
  by_cases he : (piece.drop limit).isEmpty = true
  · refine ⟨pieces, hothers, ?_, ?_⟩
    · rw [List.take_of_length_le (List.drop_eq_nil_iff.1 (List.isEmpty_iff.1 he)),
        List.flatten_cons]
    · rw [if_pos he]
      exact hrest
  · refine ⟨piece.drop limit :: pieces, ?_, ?_, ?_⟩
    · intro p hp
      rcases List.mem_cons.1 hp with rfl | hp
      · exact fun hnil => he (List.isEmpty_iff.2 hnil)
      · exact hothers p hp
    · rw [List.flatten_cons, List.flatten_cons, ← List.append_assoc, List.take_append_drop]
    · rw [if_neg he]
      exact congrArg (Delivery.data (piece.drop limit) :: ·) hrest

theorem Reading.item_or_wait (h : Reading r config bytes failure found) :
    (∃ f, r.next.1 = some f.item ∧ Reading r.next.2 config bytes failure (found ++ [f])) ∨
      ∃ a, r.assembler.drainSome 1 = ([], a) ∧ a.IsIdle ∧
        Reading { r with assembler := a } config bytes failure found := by
  obtain ⟨hactive, hundrained, hunclosed, hconfig, fed, pieces, hp, hrest⟩ := h
  have hsettled : ∀ {found' : List Finding}, Assembler.Progress r.assembler.next.2 fed found' →
      Reading { r with assembler := r.assembler.next.2.settle } config bytes failure found' := by
    intro found' hpn
    refine ⟨hactive, ?_, ?_, ?_, fed, pieces, hpn.settle, hrest⟩
    · simpa using hundrained
    · simpa using hunclosed
    · simpa using hconfig
  rcases hp.next hunclosed with ⟨hnone, hpn, hi⟩ | ⟨f, hsome, hpf⟩
  · exact Or.inr ⟨_, Assembler.drainSome_one_of_none hnone, Assembler.settle_isIdle.2 hi,
      hsettled hpn⟩
  · left
    rw [next_item hactive (Assembler.drainSome_one_of_some hsome)]
    exact ⟨f, rfl, hsettled hpf⟩

theorem Reading.all_found {last : Option IoError} (h : Reading r config bytes failure found)
    (hi : r.assembler.IsIdle)
    (hend : ∀ pieces, uninterrupted r.source.deliveries =
      script pieces failure → pieces = [] ∧ failure = last) :
    found = findings config bytes ∧ r.assembler.unread = bytes.drop (span found) ∧
      failure = last := by
  obtain ⟨-, -, -, rfl, fed, pieces, hp, rfl, -, hsource⟩ := h
  obtain ⟨rfl, hlast⟩ := hend pieces hsource
  obtain ⟨hfound, -, hunread⟩ := hp.settled hi
  rw [List.flatten_nil, List.append_nil]
  exact ⟨hfound, hunread, hlast⟩

theorem Reading.interrupted {error : IoError} {rest : List Delivery}
    (h : Reading r config bytes failure found) (hsrc : r.source.deliveries = .failure error :: rest)
    (hk : error.kind = .interrupted) (reads : Nat) :
    Reading { r with source := ⟨rest, reads⟩ } config bytes failure found := by
  obtain ⟨hactive, hundrained, hunclosed, hconfig, fed, pieces, hp, hbytes, hpieces, hsource⟩ := h
  refine ⟨hactive, hundrained, hunclosed, hconfig, fed, pieces, hp, hbytes, hpieces, ?_⟩
  rw [hsrc, uninterrupted_interruption hk] at hsource
  exact hsource

theorem Reading.chunk {piece : Bytes} {rest : List Delivery} {limit : Nat}
    (h : Reading r config bytes failure found) (hsrc : r.source.deliveries = .data piece :: rest)
    (hlimit : 0 < limit) (reads : Nat) :
    piece.take limit ≠ [] ∧ ∃ b, r.assembler.feed (piece.take limit) = .ok b ∧
      Reading { r with
        assembler := b
        source := ⟨if (piece.drop limit).isEmpty then rest
          else .data (piece.drop limit) :: rest, reads⟩ } config bytes failure found := by
  obtain ⟨hactive, hundrained, hunclosed, hconfig, fed, pieces, hp, hbytes, hpieces, hsource⟩ := h
  rw [hsrc, uninterrupted_data] at hsource
  obtain ⟨more, rfl, hrest⟩ := script_eq_data hsource
  have hchunk : piece.take limit ≠ [] := by
    intro hnil
    have hl := congrArg List.length hnil
    have hpos := List.length_pos_of_ne_nil (hpieces piece List.mem_cons_self)
    rw [List.length_take, List.length_nil] at hl
    omega
  obtain ⟨b, hb⟩ := Assembler.exists_feed (piece.take limit) hundrained hunclosed
  obtain ⟨left, hleft, hflat, hfilter⟩ := pieces_drop limit hpieces hrest
  have hstate := Assembler.feed_state hb
  refine ⟨hchunk, b, hb, hactive, ?_, ?_, ?_, fed ++ piece.take limit, left, hp.feed hb, ?_, hleft,
    hfilter⟩
  · simp [hstate]
  · simp [hstate]
  · rw [← hconfig, ← Assembler.feed_config hb]
  · rw [List.append_assoc, hflat]
    exact hbytes

/-- A reader gives the next finding, or all were given and it ends as its transport does. -/
theorem Reading.next (h : Reading r config bytes failure found) :
    (∃ f, r.next.1 = some f.item ∧ Reading r.next.2 config bytes failure (found ++ [f])) ∨
      (found = findings config bytes ∧ r.next.1 = lastItem (bytes.drop (span found)) failure ∧
        r.next.2.isDone = true) := by
  generalize hn : r.source.size = n
  induction n using Nat.strongRecOn generalizing r with
  | _ n ih =>
    rcases h.item_or_wait with hitem | ⟨a, hd, hi, hw⟩
    · exact Or.inl hitem
    · have hactive := h.active
      cases hsrc : r.source.deliveries with
      | nil =>
        obtain ⟨hfound, hunread, rfl⟩ := hw.all_found hi fun pieces hs => by
          rw [hsrc] at hs
          exact script_eq_nil hs
        rw [← hunread]
        exact Or.inr ⟨hfound, next_end_idle hactive hd (read_of_nil _ hsrc) hw.unclosed hi⟩
      | cons delivery rest =>
        cases delivery with
        | failure error =>
          have hf : r.fetch = (.error error, ⟨rest, r.source.reads + 1⟩) := read_of_failure _ hsrc
          by_cases hk : error.kind = .interrupted
          · have hsize : Transport.size ⟨rest, r.source.reads + 1⟩ < r.source.size := by
              have hlt := Transport.read_error_size (congrArg Prod.fst hf)
              rwa [← Reader.fetch, hf] at hlt
            rw [next_interrupted hactive hd hf hk]
            exact ih _ (hn ▸ hsize) (hw.interrupted hsrc hk _) rfl
          · obtain ⟨hfound, -, rfl⟩ := hw.all_found hi fun pieces hs => by
              rw [hsrc, uninterrupted_failure hk] at hs
              exact script_eq_failure hs
            rw [next_failure hactive hd hf hk]
            exact Or.inr ⟨hfound, rfl, rfl⟩
        | data piece =>
          have hf : r.fetch = _ := read_of_data _ hsrc
          obtain ⟨hchunk, b, hb, hr⟩ :=
            hw.chunk hsrc (Nat.lt_of_lt_of_le Nat.one_pos (Nat.le_max_right r.chunkSize 1)) _
          have hsize := Transport.read_ok_size (congrArg Prod.fst hf) hchunk
          rw [← Reader.fetch, hf] at hsize
          rw [next_chunk hactive hd hf hchunk hb]
          exact ih _ (hn ▸ hsize) hr rfl

theorem Reading.first (h : Reading r config bytes failure found) :
    found <+: findings config bytes := by
  obtain ⟨-, -, -, rfl, fed, pieces, hp, rfl, -⟩ := h
  exact hp.first.trans (findings_append _ _ _)

/-- A reader that may give enough items gives all that are left, and is done. -/
theorem Reading.take (h : Reading r config bytes failure found) {more : List Finding}
    (hmore : findings config bytes = found ++ more) {limit : Nat} (hlimit : more.length < limit) :
    (r.take limit).1 = more.map Finding.item ++
        (lastItem (bytes.drop (span (findings config bytes))) failure).toList ∧
      (r.take limit).2.isDone = true := by
  induction limit generalizing r found more with
  | zero => exact absurd hlimit (Nat.not_lt_zero _)
  | succ limit ih =>
    rcases h.next with ⟨f, hitem, hnext⟩ | ⟨hall, hlast, hdone⟩
    · obtain ⟨rest, hrest⟩ := hnext.first
      have hcons : more = f :: rest := by
        rw [hmore, List.append_assoc] at hrest
        exact (List.append_cancel_left hrest).symm
      subst hcons
      obtain ⟨hitems, hdone⟩ := ih hnext hrest.symm (Nat.lt_of_succ_lt_succ hlimit)
      rw [take_of_some hitem, hitems]
      exact ⟨rfl, hdone⟩
    · have hnil : more = [] := List.append_right_eq_self.1 (hmore.symm.trans hall.symm)
      subst hnil
      rw [← hall, ← hlast]
      cases hn : r.next.1 with
      | none =>
        rw [take_of_none hn]
        exact ⟨rfl, hdone⟩
      | some item =>
        rw [take_of_some hn, take_done hdone]
        exact ⟨rfl, hdone⟩

section start

variable {pieces : List Bytes} {deliveries : List Delivery}

theorem Reading.start (config : Assembler.Config) (chunkSize reads : Nat)
    (hpieces : ∀ piece ∈ pieces, piece ≠ [])
    (hsource : uninterrupted deliveries = script pieces failure) :
    Reading (start config chunkSize ⟨deliveries, reads⟩) config.frame pieces.flatten failure [] :=
  ⟨Bool.false_ne_true, Assembler.State.noConfusion, Assembler.State.noConfusion, rfl, [], pieces,
    .fresh config, rfl, hpieces, hsource⟩

/-- A reader asks for enough items to see them all and the end. -/
theorem findings_lt_limit (config : Assembler.Config) (chunkSize reads : Nat)
    (hsource : uninterrupted deliveries = script pieces failure) :
    let r := Reader.start config chunkSize ⟨deliveries, reads⟩
    (findings config.frame pieces.flatten).length < r.assembler.buffered + r.source.size + 2 := by
  have hcount := findings_length config.frame pieces.flatten
  have hsize := flatten_length_le reads hsource
  rw [Frame.preludeLength] at hcount
  change _ < 0 + Transport.size ⟨deliveries, reads⟩ + 2
  omega

/-- Whatever the pieces, interruptions and settings, a reader gives the items of its bytes. -/
theorem items_start (config : Assembler.Config) (chunkSize reads : Nat)
    (hpieces : ∀ piece ∈ pieces, piece ≠ [])
    (hsource : uninterrupted deliveries = script pieces failure) :
    (Reader.start config chunkSize ⟨deliveries, reads⟩).items.1 =
        streamItems config.frame pieces.flatten failure ∧
      (Reader.start config chunkSize ⟨deliveries, reads⟩).items.2.isDone = true :=
  (Reading.start config chunkSize reads hpieces hsource).take rfl
    (findings_lt_limit config chunkSize reads hsource)

end start

end EventStream.Stream.Reader
