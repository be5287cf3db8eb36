import EventStream.Proofs.Frame.Refusal
import EventStream.Proofs.Stream.Finding

/-!
Where the findings of a stream stand. Each place is told by the lengths in the stream alone, so that
readers of one stream stay in step whatever they refuse, up to the unfinished end.
-/

set_option autoImplicit false

namespace EventStream.Stream

open EventStream.Frame

/-- The offset of the item number `k` of a stream, from the length fields at the offsets before. -/
def boundary (stream : Bytes) : Nat → Nat
  | 0 => 0
  | k + 1 => boundary stream k + max (declaredLength (stream.drop (boundary stream k))) preludeLength

theorem boundary_succ (stream : Bytes) (k : Nat) :
    boundary stream (k + 1) = max (declaredLength stream) preludeLength +
      boundary (stream.drop (max (declaredLength stream) preludeLength)) k := by
  induction k with
  | zero => exact Nat.add_comm _ _
  | succ k ih =>
    rw [boundary, ih, boundary, List.drop_drop, Nat.add_assoc]

def along (offset : Nat) : List Finding → List (Nat × Item)
  | [] => []
  | f :: found => (offset, f.item) :: along (offset + f.extent) found

section along

variable {found more : List Finding}

@[simp] theorem along_length (offset : Nat) (found : List Finding) :
    (along offset found).length = found.length := by
  induction found generalizing offset with
  | nil => rfl
  | cons f found ih => rw [along, List.length_cons, ih, List.length_cons]

theorem along_append (offset : Nat) (found more : List Finding) :
    along offset (found ++ more) = along offset found ++ along (offset + span found) more := by
  induction found generalizing offset with
  | nil => rfl
  | cons f found ih => rw [List.cons_append, along, ih, along, span_cons, Nat.add_assoc]; rfl

theorem items_along (offset : Nat) (found : List Finding) :
    (along offset found).map Prod.snd = found.map Finding.item := by
  induction found generalizing offset with
  | nil => rfl
  | cons f found ih => rw [along, List.map_cons, ih, List.map_cons]

/-- The findings of a stream stand at its boundaries. -/
theorem offsets_along (config : Frame.Config) (offset : Nat) (stream : Bytes) :
    (along offset (findings config stream)).map Prod.fst =
      (List.range (findings config stream).length).map (offset + boundary stream ·) := by
  fun_induction findings config stream generalizing offset with
  | case1 => rfl
  | case2 stream f hf hlt ih =>
    have hextent := finding?_extent hf
    rw [along, List.map_cons, ih, List.length_cons, List.range_succ_eq_map, List.map_cons,
      List.map_map]
    congr 1
    apply List.map_congr_left
    intro k _
    rw [Function.comp_apply, Nat.succ_eq_add_one, boundary_succ, ← hextent, Nat.add_assoc]

/-- What is found is what the whole stream holds from the boundary on. -/
theorem finding?_boundary {config : Frame.Config} {stream : Bytes} {k : Nat} {f : Finding}
    (h : (findings config stream)[k]? = some f) :
    finding? config (stream.drop (boundary stream k)) = some f := by
  induction k generalizing stream with
  | zero =>
    cases hf : finding? config stream with
    | none =>
      rw [findings_of_none hf] at h
      cases h
    | some g =>
      rw [findings_of_some hf] at h
      cases h
      exact hf
  | succ k ih =>
    cases hf : finding? config stream with
    | none =>
      rw [findings_of_none hf] at h
      cases h
    | some g =>
      rw [findings_of_some hf, List.getElem?_cons_succ, finding?_extent hf] at h
      rw [boundary_succ, ← List.drop_drop]
      exact ih h

theorem offsets_findings (config : Frame.Config) (stream : Bytes) :
    (along 0 (findings config stream)).map Prod.fst =
      (List.range (findings config stream).length).map (boundary stream) := by
  simpa only [Nat.zero_add] using offsets_along config 0 stream

theorem getElem?_along {config : Frame.Config} {stream : Bytes} {k offset : Nat} {item : Item}
    (h : (along 0 (findings config stream))[k]? = some (offset, item)) :
    offset = boundary stream k ∧ ∃ f, (findings config stream)[k]? = some f ∧ f.item = item := by
  have hoffset := congrArg (·[k]?) (offsets_findings config stream)
  have hitem := congrArg (·[k]?) (items_along 0 (findings config stream))
  simp only [List.getElem?_map, h, Option.map_some] at hoffset hitem
  obtain ⟨f, hf, hi⟩ := Option.map_eq_some_iff.1 hitem.symm
  obtain ⟨j, hj, hb⟩ := Option.map_eq_some_iff.1 hoffset.symm
  rw [List.getElem?_range (List.getElem?_eq_some_iff.1 hf).1] at hj
  cases hj
  exact ⟨hb.symm, f, hf, hi⟩

end along

def Item.isRefusal : Item → Bool
  | .error (.frame error) => error.isRefusal
  | _ => false

/-- Two rows of findings that are as long as each other but for one more at the end of one of them,
and that differ only where a frame was refused. -/
inductive InStep : List Finding → List Finding → Prop
  | done : InStep [] []
  | first (f : Finding) : InStep [f] []
  | second (g : Finding) : InStep [] [g]
  | both {f g : Finding} {found more : List Finding}
      (h : f = g ∨ f.item.isRefusal = true ∨ g.item.isRefusal = true) (rest : InStep found more) :
      InStep (f :: found) (g :: more)

section inStep

variable {config other : Frame.Config} {bytes : Bytes} {f g : Finding} {found more : List Finding}

theorem finding?_agree (hf : finding? config bytes = some f) (hg : finding? other bytes = some g) :
    f = g ∨ f.item.isRefusal = true ∨ g.item.isRefusal = true := by
  obtain hsame | ⟨error, herror, hrefusal⟩ | ⟨error, herror, hrefusal⟩ :=
    decode_agree_or_refusal config other bytes
  · left
    rw [finding?, hsame] at hf
    exact Option.some.inj (hf.symm.trans hg)
  · right; left
    rw [finding?, herror] at hf
    cases hf
    exact hrefusal
  · right; right
    rw [finding?, herror] at hg
    cases hg
    exact hrefusal

/-- Where one reader waits and the other does not, nothing is left behind what the other passes. -/
theorem findings_of_waiting (hnone : finding? config bytes = none)
    (hg : finding? other bytes = some g) : findings other bytes = [g] := by
  have hl := finding?_length hg
  have hextent := finding?_extent hg
  have hunfinished : bytes.length < declaredLength bytes := by
    by_contra hd
    obtain ⟨f, hf⟩ := exists_finding? config hl (Nat.not_lt.1 hd)
    rw [hnone] at hf
    cases hf
  rw [findings_of_some hg, List.drop_eq_nil_of_le (by omega), findings_nil]

theorem findings_inStep (config other : Frame.Config) (bytes : Bytes) :
    InStep (findings config bytes) (findings other bytes) := by
  fun_induction findings config bytes with
  | case1 bytes hf =>
    cases hg : finding? other bytes with
    | none =>
      rw [findings_of_none hg]
      exact .done
    | some g =>
      rw [findings_of_waiting hf hg]
      exact .second g
  | case2 bytes f hf hlt ih =>
    cases hg : finding? other bytes with
    | none =>
      have halone := findings_of_waiting hg hf
      rw [findings_of_some hf] at halone
      rw [findings_of_none hg, halone]
      exact .first f
    | some g =>
      -- Whatever each of them found, both pass what the length field declares.
      have hextent : g.extent = f.extent := (finding?_extent hg).trans (finding?_extent hf).symm
      rw [findings_of_some hg, hextent]
      exact .both (finding?_agree hf hg) ih

theorem InStep.length_le (h : InStep found more) :
    found.length ≤ more.length + 1 ∧ more.length ≤ found.length + 1 := by
  induction h with
  | done => decide
  | first f => exact ⟨Nat.le_refl 1, Nat.zero_le 2⟩
  | second g => exact ⟨Nat.zero_le 2, Nat.le_refl 1⟩
  | both _ _ ih =>
    simp only [List.length_cons]
    omega

theorem InStep.getElem (h : InStep found more) {k : Nat} (hf : found[k]? = some f)
    (hg : more[k]? = some g) : f = g ∨ f.item.isRefusal = true ∨ g.item.isRefusal = true := by
  induction h generalizing k with
  | done | first => cases hg
  | second => cases hf
  | both hfirst _ ih =>
    cases k with
    | zero =>
      cases hf
      cases hg
      exact hfirst
    | succ k => exact ih hf hg

end inStep

end EventStream.Stream
