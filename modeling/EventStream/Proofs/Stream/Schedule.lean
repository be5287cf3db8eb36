import EventStream.Proofs.Stream.History

/-!
The items of a stream do not depend on how it is cut into chunks, on when items are taken out, or
on when passed bytes are dropped.
-/

set_option autoImplicit false

namespace EventStream.Stream

open Assembler

theorem Assembler.Counted.stats_eq {s t : Stats} {skip : Nat} {found : List Finding}
    (hs : Counted s skip found) (ht : Counted t skip found) (hb : s.bytesFed = t.bytesFed) :
    { s with compactions := 0 } = { t with compactions := 0 } := by
  have hd : s.framesDecoded = t.framesDecoded := by
    rw [hs.framesDecoded, ht.framesDecoded, hs.events, ht.events, hs.eventErrors, ht.eventErrors]
  have hskip : s.bytesSkipped = t.bytesSkipped :=
    Nat.add_right_cancel (hs.bytesSkipped.trans ht.bytesSkipped.symm)
  rw [hb, hd, hs.events, ht.events, hs.frameErrors, ht.frameErrors, hs.eventErrors,
    ht.eventErrors, hskip]

namespace History

variable {h g : History} {found more : List Finding}

structure Receiving (h : History) (found : List Finding) : Prop extends Open h found where
  undrained : h.assembler.state ≠ .draining

def fedBytes (ops : List Op) : Bytes :=
  ops.flatMap Op.bytes

theorem Receiving.perform (hr : h.Receiving found) {op : Op} (hop : op ≠ .finish) :
    (∃ more, (h.perform op).Receiving (found ++ more)) ∧ (h.perform op).fed = h.fed ++ op.bytes := by
  obtain ⟨more, hopen⟩ := hr.toOpen.perform hop
  have hstate : (h.perform op).assembler.state ≠ .draining ∧
      (h.perform op).fed = h.fed ++ op.bytes := by
    cases op with
    | feed chunk =>
      rw [History.perform, feed_ok chunk hr.undrained hr.state]
      exact ⟨State.noConfusion, rfl⟩
    | take limit =>
      refine ⟨?_, (List.append_nil _).symm⟩
      rw [History.perform, take_state]
      exact hr.undrained
    | drain =>
      refine ⟨?_, (List.append_nil _).symm⟩
      rw [History.perform, take_state]
      exact hr.undrained
    | compact =>
      refine ⟨?_, (List.append_nil _).symm⟩
      change h.assembler.compact.state ≠ .draining
      rw [compact_state]
      exact hr.undrained
    | finish => exact absurd rfl hop
  exact ⟨⟨more, hopen, hstate.1⟩, hstate.2⟩

theorem run_receiving (config : Assembler.Config) (ops : List Op) (hops : Op.finish ∉ ops) :
    (∃ found, (run config ops).Receiving found) ∧ (run config ops).fed = fedBytes ops := by
  have hfold : ∀ h : History, (∃ found, h.Receiving found) →
      (∃ found, (ops.foldl perform h).Receiving found) ∧
        (ops.foldl perform h).fed = h.fed ++ fedBytes ops := by
    induction ops with
    | nil => exact fun h hr => ⟨hr, (List.append_nil h.fed).symm⟩
    | cons op ops ih =>
      intro h hr
      obtain ⟨found, hr⟩ := hr
      obtain ⟨hop, hrest⟩ := not_or.1 fun hm => hops (List.mem_cons.2 hm)
      obtain ⟨⟨more, hmore⟩, hfed⟩ := hr.perform (Ne.symm hop)
      obtain ⟨hlast, hall⟩ := ih hrest _ ⟨_, hmore⟩
      refine ⟨hlast, hall.trans ?_⟩
      rw [hfed, List.append_assoc]
      rfl
  exact hfold _ ⟨[], start_open config, State.noConfusion⟩

theorem Open.idle (hopen : h.Open found) {op : Op} (hop : op.Exhausts h.assembler) :
    (h.perform op).assembler.IsIdle := by
  cases op with
  | take limit =>
    obtain ⟨more, -, hitems, hidle⟩ := hopen.take limit
    apply hidle
    rw [← List.length_map Finding.item, ← hitems]
    exact hop
  | drain =>
    obtain ⟨more, -, -, hidle⟩ := hopen.progress.drain hopen.state
    exact hidle
  | feed chunk => exact hop.elim
  | compact => exact hop.elim
  | finish => exact hop.elim

theorem Open.items_prefix (hopen : h.Open found) :
    h.items <+: (findings h.assembler.config.frame h.fed).map Finding.item := by
  rw [hopen.items]
  exact hopen.progress.first.map Finding.item

theorem Open.items_idle (hopen : h.Open found) (hi : h.assembler.IsIdle) :
    h.items = (findings h.assembler.config.frame h.fed).map Finding.item := by
  rw [hopen.items, (hopen.progress.settled hi).1]

/-- Assemblers that wait for more of the same bytes agree in all that can be seen of them. -/
theorem Open.agree (hopen : h.Open found) (gopen : g.Open more) (hi : h.assembler.IsIdle)
    (gi : g.assembler.IsIdle) (hframe : h.assembler.config.frame = g.assembler.config.frame)
    (hfed : h.fed = g.fed) :
    h.assembler.unread = g.assembler.unread ∧
    { h.assembler.stats with compactions := 0 } = { g.assembler.stats with compactions := 0 } := by
  obtain ⟨hfound, hskip, hunread⟩ := hopen.progress.settled hi
  obtain ⟨gfound, gskip, gunread⟩ := gopen.progress.settled gi
  have heq : found = more := by rw [hfound, gfound, hframe, hfed]
  have hs : h.assembler.skip = g.assembler.skip := by rw [hskip, gskip, heq, hfed]
  refine ⟨by rw [hunread, gunread, heq, hfed], ?_⟩
  have hc := hopen.progress.counted
  rw [heq, hs] at hc
  refine hc.stats_eq gopen.progress.counted ?_
  rw [hopen.progress.bytesFed, gopen.progress.bytesFed, hfed]

/-- Once all items have been taken out, they are all items of the bytes fed. -/
theorem run_drained (config : Assembler.Config) {ops : List Op} (hops : Op.finish ∉ ops) :
    (run config (ops ++ [.drain])).Receiving (findings config.frame (fedBytes ops)) ∧
      (run config (ops ++ [.drain])).assembler.IsIdle ∧
      (run config (ops ++ [.drain])).fed = fedBytes ops := by
  obtain ⟨⟨before, hb⟩, -⟩ := run_receiving config ops hops
  obtain ⟨⟨found, hr⟩, hfed⟩ := run_receiving config (ops ++ [.drain]) (by simp [hops])
  have hbytes : fedBytes (ops ++ [.drain]) = fedBytes ops := by simp [fedBytes, Op.bytes]
  rw [hbytes] at hfed
  have hidle : (run config (ops ++ [.drain])).assembler.IsIdle := by
    have hdrain : Op.drain.Exhausts (run config ops).assembler := trivial
    rw [run_concat]
    exact hb.toOpen.idle hdrain
  have hfound := (hr.progress.settled hidle).1
  rw [run_config, hfed] at hfound
  exact ⟨hfound ▸ hr, hidle, hfed⟩

def eachDrained (chunks : List Bytes) : List Op :=
  chunks.flatMap fun chunk => [.feed chunk, .drain]

theorem fedBytes_eachDrained (chunks : List Bytes) :
    fedBytes (eachDrained chunks) = chunks.flatten := by
  induction chunks with
  | nil => rfl
  | cons chunk chunks ih =>
    rw [List.flatten_cons, ← ih]
    rfl

theorem finish_notMem_eachDrained (chunks : List Bytes) : Op.finish ∉ eachDrained chunks := by
  simp [eachDrained]

/-- Taking out all items behind every chunk gives all items of the bytes fed. -/
theorem run_eachDrained (config : Assembler.Config) (chunks : List Bytes) :
    (run config (eachDrained chunks)).Receiving (findings config.frame chunks.flatten) ∧
      (run config (eachDrained chunks)).assembler.IsIdle ∧
      (run config (eachDrained chunks)).fed = chunks.flatten := by
  rcases List.eq_nil_or_concat' chunks with rfl | ⟨earlier, chunk, rfl⟩
  · have hfound : findings config.frame [] = [] := findings_nil config.frame
    rw [List.flatten_nil, hfound]
    exact ⟨⟨start_open config, State.noConfusion⟩, start_idle config, rfl⟩
  · have hops : eachDrained (earlier ++ [chunk]) =
        (eachDrained earlier ++ [.feed chunk]) ++ [.drain] := by
      simp [eachDrained]
    have hfed : fedBytes (eachDrained earlier ++ [.feed chunk]) = (earlier ++ [chunk]).flatten := by
      rw [fedBytes, List.flatMap_append, ← fedBytes, fedBytes_eachDrained, List.flatten_append]
      rfl
    rw [hops, ← hfed]
    exact run_drained config (by simp [finish_notMem_eachDrained])

/-- Whatever is fed, taken out and dropped in whatever order: the items are the first ones that the
whole stream gives at once, and all of them as soon as none is left to be taken out. -/
theorem schedule_independence (config other : Assembler.Config)
    (hframe : other.frame = config.frame) {ops : List Op} (hops : Op.finish ∉ ops) :
    let h := run config ops
    let whole := run other [.feed (fedBytes ops), .drain]
    h.items <+: whole.items ∧
    ∀ earlier last, ops = earlier ++ [last] → last.Exhausts (run config earlier).assembler →
      h.items = whole.items ∧
      h.assembler.next.1 = none ∧
      h.assembler.buffered = whole.assembler.buffered ∧
      { h.assembler.stats with compactions := 0 } =
        { whole.assembler.stats with compactions := 0 } ∧
      h.assembler.finish.1 = whole.assembler.finish.1 := by
  intro h whole
  obtain ⟨⟨found, hr⟩, hfed⟩ := run_receiving config ops hops
  obtain ⟨⟨fresh, hfeed⟩, -⟩ := run_receiving other [.feed (fedBytes ops)] (by simp)
  obtain ⟨⟨all, hw⟩, hwfed⟩ := run_receiving other [.feed (fedBytes ops), .drain] (by simp)
  have hdrain : Op.drain.Exhausts (run other [.feed (fedBytes ops)]).assembler := trivial
  have hidle : whole.assembler.IsIdle := hfeed.toOpen.idle hdrain
  have hframes : h.assembler.config.frame = whole.assembler.config.frame := by
    rw [run_config, run_config, hframe]
  have hbytes : h.fed = whole.fed := by
    rw [hfed, hwfed]
    simp [fedBytes, Op.bytes]
  have hitems : whole.items = (findings h.assembler.config.frame h.fed).map Finding.item := by
    rw [hw.toOpen.items_idle hidle, hframes, hbytes]
  refine ⟨hitems ▸ hr.toOpen.items_prefix, ?_⟩
  rintro earlier last rfl hlast
  obtain ⟨⟨before, hb⟩, -⟩ :=
    run_receiving config earlier fun hm => hops (List.mem_append_left _ hm)
  have hi : h.assembler.IsIdle := by
    change (run config (earlier ++ [last])).assembler.IsIdle
    rw [run_concat]
    exact hb.toOpen.idle hlast
  obtain ⟨hunread, hstats⟩ := hr.toOpen.agree hw.toOpen hi hidle hframes hbytes
  refine ⟨hitems ▸ hr.toOpen.items_idle hi, ?_, ?_, hstats, ?_⟩
  · rw [next_idle hr.state hi]
  · rw [buffered, buffered, hunread]
  · rw [finish_of_idle hr.state hi, finish_of_idle hw.state hidle, hunread]

/-- A damaged frame whose rest arrives later, and a frame in two parts. -/
def scattered : List Op :=
  [.feed [0, 0, 0, 20, 0, 0, 0, 0, 1, 1, 1, 1, 7], .take 0, .take 1, .feed [], .compact,
    .feed [7, 7, 7, 7, 7, 7, 7, 0, 0, 0], .take 5, .feed [16, 0, 0, 0, 0, 0x05, 0xc2, 0x48, 0xeb],
    .compact, .feed [0x7d, 0x98, 0xc8, 0xff, 0], .drain]

theorem schedule_independence_scattered :
    Op.finish ∉ scattered ∧
    (run { frame := .strict, compactThreshold := 4 } scattered).items.length = 2 ∧
    (run { frame := .strict, compactThreshold := 4 } scattered).items =
      (run { frame := .strict } [.feed (fedBytes scattered), .drain]).items := by
  have hops : Op.finish ∉ scattered := by decide
  have h := schedule_independence { frame := .strict, compactThreshold := 4 } { frame := .strict }
    rfl hops
  exact ⟨hops, by decide +kernel, (h.2 scattered.dropLast .drain rfl trivial).1⟩

end History

end EventStream.Stream
