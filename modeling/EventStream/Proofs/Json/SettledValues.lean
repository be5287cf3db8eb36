import EventStream.Json.Format
import EventStream.Proofs.Json.Settled

/-!
Lists, objects and values of any shape. A reader of elements is settled by the texts of the
elements. A reader of members gathers what it takes for each member in turn, and what it takes for
one depends on the key and on the text of the value only.
-/

set_option autoImplicit false

namespace EventStream.Json

section

variable {p : Padded}

theorem nextElement_blanks (first : Bool) (blanks : Blanks) (rest : List Char) :
    nextElement first (blanks.val ++ ']' :: rest) = .ok (.close rest) := by
  rw [nextElement, skipBlanks_blanks_cons blanks rfl]
  rfl

/-- The first element begins behind the blanks before it. -/
theorem nextElement_padded (h : IsValue p.core) (blanks : Blanks) (rest : List Char) :
    nextElement true (blanks.val ++ (p.text ++ rest)) =
      .ok (.more (p.core ++ (p.behind.val ++ rest))) := by
  obtain ⟨c, more, hc, -, hclose, -⟩ := h.head
  rw [nextElement, skipBlanks_blanks, h.skipBlanks_text, hc]
  exact if_neg hclose

theorem nextElement_behind (h : IsValue p.core) (blanks : Blanks) (rest : List Char) :
    nextElement false (blanks.val ++ ',' :: (p.text ++ rest)) =
      .ok (.more (p.core ++ (p.behind.val ++ rest))) := by
  obtain ⟨c, more, hc, -, hclose, -⟩ := h.head
  have htext := h.skipBlanks_text rest
  rw [hc, List.cons_append] at htext
  rw [nextElement, skipBlanks_blanks_cons blanks rfl, hc, List.cons_append]
  simp only [Char.reduceEq, Bool.false_eq_true, if_false, if_true, htext, if_neg hclose]

end

theorem length_lt_rowEnd (closing : Char) (texts : List (List Char)) (rest : List Char) :
    texts.length < (rowEnd closing texts rest).length := by
  induction texts with
  | nil => exact Nat.zero_lt_succ _
  | cons text texts ih =>
    rw [rowEnd_cons]
    simp only [List.length_cons, List.length_append]
    omega

section

variable {α : Type} {element : List Char → Except Fault (α × List Char)}

theorem readElementsFrom_step {bound : Nat} (found : List α) {s s₁ : List Char}
    (h : nextElement found.isEmpty s = .ok (.more s₁)) :
    readElementsFrom element (bound + 1) found s =
      element s₁ >>= fun x => readElementsFrom element bound (x.1 :: found) x.2 := by
  rw [readElementsFrom, h]
  rfl

def elementsOf (element : List Char → Except Fault (α × List Char)) :
    List Padded → Option (List α)
  | [] => some []
  | p :: items =>
    (valueOf element p.core).bind fun a => (elementsOf element items).map (a :: ·)

/-- Behind one of its elements the rest of a list is read to the end or not at all. -/
theorem readElementsFrom_rowEnd {items : List Padded} (hitems : ∀ p ∈ items, IsValue p.core)
    (h : ∀ p ∈ items, Settled element p.core) {bound : Nat} (hbound : items.length < bound)
    (last : α) (found : List α) (blanks : Blanks) (rest : List Char) :
    (readElementsFrom element bound (last :: found)
      (blanks.val ++ rowEnd ']' (items.map Padded.text) rest)).toOption =
        (elementsOf element items).map fun more => ((last :: found).reverse ++ more, rest) := by
  induction items generalizing bound last found blanks with
  | nil =>
    obtain ⟨bound, rfl⟩ := Nat.exists_eq_add_of_lt hbound
    rw [List.map_nil, rowEnd_nil, readElementsFrom_close (last :: found)
      (nextElement_blanks false blanks rest), elementsOf, Option.map_some, List.append_nil]
    rfl
  | cons p items ih =>
    obtain ⟨hp, hitems⟩ := List.forall_mem_cons.1 hitems
    obtain ⟨hsettled, hrest⟩ := List.forall_mem_cons.1 h
    obtain ⟨bound, rfl⟩ := Nat.exists_eq_succ_of_ne_zero (Nat.ne_of_gt (Nat.zero_lt_of_lt hbound))
    rw [List.map_cons, rowEnd_cons,
      readElementsFrom_step (last :: found) (nextElement_behind hp blanks _), toOption_bind,
      hsettled.eq_valueOf hp (hp.skipBlanks_append _) (ends_rowEnd (.inl rfl) _ _ _), elementsOf]
    cases valueOf element p.core with
    | none => rfl
    | some a =>
      simp only [Option.map_some, Option.bind_some]
      rw [ih hitems hrest (Nat.lt_of_succ_lt_succ hbound) a (last :: found) p.behind]
      cases elementsOf element items with
      | none => rfl
      | some more => simp only [Option.map_some, List.reverse_cons, List.append_assoc,
          List.cons_append, List.nil_append]

theorem readElements_row {items : List Padded} (hitems : ∀ p ∈ items, IsValue p.core)
    (h : ∀ p ∈ items, Settled element p.core) (blanks : Blanks) (rest : List Char) :
    (readElements element (blanks.val ++ (row (items.map Padded.text) ++ ']' :: rest))).toOption =
      (elementsOf element items).map (·, rest) := by
  cases items with
  | nil =>
    exact congrArg Except.toOption (readElementsFrom_close [] (nextElement_blanks true blanks rest))
  | cons p items =>
    obtain ⟨hp, hitems⟩ := List.forall_mem_cons.1 hitems
    obtain ⟨hsettled, hrest⟩ := List.forall_mem_cons.1 h
    have hbound := length_lt_rowEnd ']' (items.map Padded.text) rest
    rw [List.length_map] at hbound
    rw [readElements, List.map_cons, row_cons_append,
      readElementsFrom_step [] (nextElement_padded hp blanks _), toOption_bind,
      hsettled.eq_valueOf hp (hp.skipBlanks_append _) (ends_rowEnd (.inl rfl) _ _ _), elementsOf]
    cases valueOf element p.core with
    | none => rfl
    | some a =>
      simp only [Option.map_some, Option.bind_some]
      rw [readElementsFrom_rowEnd hitems hrest (by simp only [List.length_append]; omega)]
      cases elementsOf element items <;> rfl

end

section

variable {m : Padded × Padded}

theorem nextKey_blanks (first : Bool) (blanks : Blanks) (rest : List Char) :
    nextKey first (blanks.val ++ '}' :: rest) = .ok (.close rest) := by
  rw [nextKey, skipBlanks_blanks_cons blanks rfl]
  rfl

theorem nextKey_padded {inside : List Char} (hname : m.1.core = quoted inside) (blanks : Blanks)
    (rest : List Char) :
    nextKey true (blanks.val ++ (memberText m ++ rest)) =
      .ok (.more (behindQuote inside m rest)) := by
  rw [nextKey, skipBlanks_blanks, skipBlanks_name hname]
  rfl

theorem nextKey_behind {inside : List Char} (hname : m.1.core = quoted inside) (blanks : Blanks)
    (rest : List Char) :
    nextKey false (blanks.val ++ ',' :: (memberText m ++ rest)) =
      .ok (.more (behindQuote inside m rest)) := by
  rw [nextKey, skipBlanks_blanks_cons blanks rfl]
  change readKeyStart (skipBlanks (memberText m ++ rest)) = _
  rw [skipBlanks_name hname]
  rfl

end

def nameOf (core : List Char) : Option String :=
  (readString core.tail).toOption.map Prod.fst

theorem readString_quoted {inside : List Char} (h : Inside inside) (rest : List Char) :
    (readString (inside ++ '"' :: rest)).toOption = (nameOf (quoted inside)).map (·, rest) := by
  obtain ⟨o, ho⟩ := readString_inside h
  have hself : nameOf (quoted inside) = o := by
    change (readString (inside ++ '"' :: [])).toOption.map Prod.fst = o
    rw [ho]
    cases o <;> rfl
  rw [ho, hself]

theorem nameOf_quotes {core : List Char} {key : String} (h : Quotes core key) :
    nameOf core = some key := by
  cases h with
  | @quoted s _ h =>
    change (readString (s ++ '"' :: [])).toOption.map Prod.fst = some key
    rw [readString_spells h]
    rfl

section

variable {σ : Type} {member : String → σ → List Char → Except Fault (σ × List Char)}

def taken (member : String → σ → List Char → Except Fault (σ × List Char)) (key : String)
    (v : List Char) (found : σ) : Option σ :=
  (member key found (':' :: v)).toOption.map Prod.fst

def SettledMember (member : String → σ → List Char → Except Fault (σ × List Char))
    (v : List Char) : Prop :=
  ∀ (key : String) (found : σ), ∃ o : Option σ, ∀ (blanks : Blanks) (s rest : List Char),
    skipBlanks s = v ++ rest → Ends rest →
      (member key found (blanks.val ++ ':' :: s)).toOption = o.map (·, rest)

theorem SettledMember.eq_taken {v : List Char} (h : SettledMember member v) (hv : IsValue v)
    (key : String) (found : σ) (blanks : Blanks) {s rest : List Char}
    (hs : skipBlanks s = v ++ rest) (hrest : Ends rest) :
    (member key found (blanks.val ++ ':' :: s)).toOption =
      (taken member key v found).map (·, rest) := by
  obtain ⟨o, ho⟩ := h key found
  have hends : Ends [] := nofun
  have hself : taken member key v found = o := by
    have hbare := ho .none v [] hv.skipBlanks_self hends
    rw [taken, ← List.nil_append (':' :: v)]
    exact (congrArg (Option.map Prod.fst) hbare).trans (by cases o <;> rfl)
  rw [ho blanks s rest hs hrest, hself]

def gather (member : String → σ → List Char → Except Fault (σ × List Char)) :
    List (Padded × Padded) → σ → Option σ
  | [], found => some found
  | m :: more, found =>
    (nameOf m.1.core).bind fun key => (taken member key m.2.core found).bind (gather member more)

structure Gatherable (member : String → σ → List Char → Except Fault (σ × List Char))
    (m : Padded × Padded) : Prop where
  name : IsQuoted m.1.core
  value : IsValue m.2.core
  settled : SettledMember member m.2.core

theorem readMembersFrom_member {m : Padded × Padded} (h : Gatherable member m) {bound : Nat}
    {first : Bool} {s rest : List Char} (found : σ)
    (hkey : ∀ inside, m.1.core = quoted inside →
      nextKey first s = .ok (.more (behindQuote inside m rest)))
    (hrest : Ends (m.2.behind.val ++ rest)) :
    (readMembersFrom member (bound + 1) first found s).toOption =
      (nameOf m.1.core).bind fun key => (taken member key m.2.core found).bind fun next =>
        (readMembersFrom member bound false next (m.2.behind.val ++ rest)).toOption := by
  obtain ⟨inside, hcore, hinside⟩ := h.name.exists_inside
  rw [readMembersFrom, hkey inside hcore]
  change (readString (behindQuote inside m rest) >>= fun x => member x.1 found x.2 >>= fun y =>
    readMembersFrom member bound false y.1 y.2).toOption = _
  rw [toOption_bind, behindQuote, readString_quoted hinside, ← hcore]
  cases nameOf m.1.core with
  | none => rfl
  | some key =>
    simp only [Option.map_some, Option.bind_some]
    rw [toOption_bind, h.settled.eq_taken h.value key found m.1.behind
      (h.value.skipBlanks_text rest) hrest]
    cases taken member key m.2.core found <;> rfl

theorem readMembersFrom_rowEnd {members : List (Padded × Padded)}
    (h : ∀ m ∈ members, Gatherable member m) {bound : Nat} (hbound : members.length < bound)
    (found : σ) (blanks : Blanks) (rest : List Char) :
    (readMembersFrom member bound false found
      (blanks.val ++ rowEnd '}' (members.map memberText) rest)).toOption =
        (gather member members found).map (·, rest) := by
  induction members generalizing bound found blanks with
  | nil =>
    obtain ⟨bound, rfl⟩ := Nat.exists_eq_add_of_lt hbound
    rw [List.map_nil, rowEnd_nil, readMembersFrom_close (nextKey_blanks false blanks rest)]
    rfl
  | cons m members ih =>
    obtain ⟨hm, hmembers⟩ := List.forall_mem_cons.1 h
    obtain ⟨bound, rfl⟩ := Nat.exists_eq_succ_of_ne_zero (Nat.ne_of_gt (Nat.zero_lt_of_lt hbound))
    rw [List.map_cons, rowEnd_cons, readMembersFrom_member hm found
      (fun inside hcore => nextKey_behind hcore blanks _) (ends_rowEnd (.inr rfl) _ _ _)]
    simp only [ih hmembers (Nat.lt_of_succ_lt_succ hbound), gather, Option.map_bind,
      Function.comp_def]

/-- The members of an object are gathered in the order in which they stand there. -/
theorem readMembers_row {members : List (Padded × Padded)}
    (h : ∀ m ∈ members, Gatherable member m) (found : σ) (blanks : Blanks) (rest : List Char) :
    (readMembers member found
      (blanks.val ++ (row (members.map memberText) ++ '}' :: rest))).toOption =
        (gather member members found).map (·, rest) := by
  cases members with
  | nil =>
    rw [readMembers]
    exact congrArg Except.toOption (readMembersFrom_close (nextKey_blanks true blanks rest))
  | cons m members =>
    obtain ⟨hm, hmembers⟩ := List.forall_mem_cons.1 h
    have hbound := length_lt_rowEnd '}' (members.map memberText) rest
    rw [List.length_map] at hbound
    have hlt : members.length < (blanks.val ++ (memberText m ++
        rowEnd '}' (members.map memberText) rest)).length := by
      simp only [List.length_append]
      omega
    rw [readMembers, List.map_cons, row_cons_append, readMembersFrom_member hm found
      (fun inside hcore => nextKey_padded hcore blanks _) (ends_rowEnd (.inr rfl) _ _ _)]
    simp only [readMembersFrom_rowEnd hmembers hlt, gather, Option.map_bind, Function.comp_def]

end

section

variable {α β : Type} {read : List Char → Except Fault (α × List Char)} {blanks : Blanks}

theorem map_descend (depth : Nat) (s : List Char) (f : Nat → Except Fault (α × List Char))
    (build : α → β) :
    ((descend depth s f).map fun x => (build x.1, x.2)) =
      descend depth s fun depth => (f depth).map fun x => (build x.1, x.2) := by
  cases depth <;> rfl

/-- Where no level may be opened, what is behind the bracket makes no difference. -/
theorem Steady.descend {inside : Nat → List Char → Except Fault (α × List Char)}
    {text : List Char → List Char} (c : Char)
    (h : ∀ depth, Steady fun rest => inside depth (text rest)) (depth : Nat) :
    Steady fun rest => descend depth (c :: text rest) fun depth => inside depth (text rest) := by
  cases depth with
  | zero => exact .error fun rest => .next .tooDeep (c :: text rest)
  | succ depth => exact h depth

/-- A reader settles an array if what it reads behind the bracket is steady. -/
theorem Settled.array {items : List Padded} (depth : Nat)
    (inside : Nat → List Char → Except Fault (α × List Char))
    (h : ∀ depth, Steady fun rest =>
      inside depth (blanks.val ++ (row (items.map Padded.text) ++ ']' :: rest)))
    (hread : ∀ s rest, skipBlanks s = '[' :: rest →
      read s = descend depth ('[' :: rest) fun depth => inside depth rest) :
    Settled read (arrayText blanks items) := by
  refine (Steady.descend '[' h depth).settled fun s rest hs _ => ?_
  rw [arrayText, List.cons_append, List.append_assoc, List.append_assoc] at hs
  exact hread s _ hs

/-- A reader settles an object if what it reads behind the brace is steady. -/
theorem Settled.object {members : List (Padded × Padded)} (depth : Nat)
    (inside : Nat → List Char → Except Fault (α × List Char))
    (h : ∀ depth, Steady fun rest =>
      inside depth (blanks.val ++ (row (members.map memberText) ++ '}' :: rest)))
    (hread : ∀ s rest, skipBlanks s = '{' :: rest →
      read s = descend depth ('{' :: rest) fun depth => inside depth rest) :
    Settled read (objectText blanks members) := by
  refine (Steady.descend '{' h depth).settled fun s rest hs _ => ?_
  rw [objectText, List.cons_append, List.append_assoc, List.append_assoc] at hs
  exact hread s _ hs

end

theorem readMember_settled {depth : Nat} {v : List Char} (h : Settled (readValue depth) v) :
    SettledMember (readMember depth) v := by
  intro key members
  obtain ⟨o, ho⟩ := h
  refine ⟨o.map fun value => Assoc.insert key value members, fun blanks s rest hs hrest => ?_⟩
  rw [readMember, readColon_blanks]
  change (readValue depth s >>= fun x => pure (Assoc.insert key x.1 members, x.2)).toOption = _
  rw [toOption_bind, ho s rest hs hrest]
  cases o <;> rfl

theorem readValue_descend_array (depth : Nat) {s rest : List Char}
    (h : skipBlanks s = '[' :: rest) :
    readValue depth s = descend depth ('[' :: rest) fun depth =>
      (readElements (readValue depth) rest).map fun x => (.array x.1, x.2) := by
  cases depth with
  | zero =>
    rw [readValue, h]
    rfl
  | succ depth => exact readValue_array depth h

theorem readValue_descend_object (depth : Nat) {s rest : List Char}
    (h : skipBlanks s = '{' :: rest) :
    readValue depth s = descend depth ('{' :: rest) fun depth =>
      (readMembers (readMember depth) [] rest).map fun x => (.object x.1, x.2) := by
  cases depth with
  | zero =>
    rw [readValue, h]
    rfl
  | succ depth => exact readValue_object depth h

/-- Values of any shape are settled by their texts, however many levels may be opened. -/
theorem IsValue.readValue_settled {v : List Char} (h : IsValue v) (depth : Nat) :
    Settled (readValue depth) v := by
  -- every array and object takes one of the levels, so their number is generalised
  induction h generalizing depth with
  | null =>
    refine (Steady.ok Json.null).settled fun s rest hs _ => ?_
    rw [readValue, hs]
    rfl
  | yes =>
    refine (Steady.ok (Json.bool true)).settled fun s rest hs _ => ?_
    rw [readValue, hs]
    rfl
  | no =>
    refine (Steady.ok (Json.bool false)).settled fun s rest hs _ => ?_
    rw [readValue, hs]
    rfl
  | numeral h =>
    refine ((readNumber_steady h).map Json.number).settled fun s rest hs _ => ?_
    obtain ⟨c, more, rfl, hc⟩ := h.head
    rw [readValue_number depth hs hc]
    rfl
  | quoted h =>
    obtain ⟨inside, rfl, hinside⟩ := h.exists_inside
    obtain ⟨o, ho⟩ := readString_inside hinside
    refine (Steady.map ⟨o, fun rest _ => ho rest⟩ Json.string).settled fun s rest hs _ => ?_
    rw [Json.quoted, List.cons_append, List.append_assoc] at hs
    exact readValue_string depth hs
  | array blanks h ih =>
    refine .array depth _ (fun depth => ?_) fun s rest hs => readValue_descend_array depth hs
    have hitems := readElements_row h (fun p hp => ih p hp depth) blanks
    exact Steady.map ⟨_, fun rest _ => hitems rest⟩ Json.array
  | @object blanks members names values ih =>
    refine .object depth _ (fun depth => ?_) fun s rest hs => readValue_descend_object depth hs
    have hmembers : ∀ m ∈ members, Gatherable (readMember depth) m := fun m hm =>
      ⟨names m hm, values m hm, readMember_settled (ih m hm depth)⟩
    exact Steady.map ⟨_, fun rest _ => readMembers_row hmembers [] blanks rest⟩ Json.object

end EventStream.Json
