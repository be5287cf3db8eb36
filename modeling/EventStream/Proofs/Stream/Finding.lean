import EventStream.Stream.Segment
import EventStream.Proofs.Frame.Extension
import Mathlib.Algebra.BigOperators.Group.List.Basic
import Mathlib.Algebra.GroupWithZero.Nat

/-!
What a byte string holds, read as a whole: frames and damaged frames, each of which says by its
length where the next one begins. A segmentation step only ever passes a part of such a finding, so
that the findings of all bytes that arrived tell what any sequence of steps has met.
-/

set_option autoImplicit false

namespace EventStream.Stream

/-- What stands at one place of a byte string. -/
inductive Finding where
  | frame (frame : Frame)
  | damage (error : Frame.Error)
  deriving DecidableEq

namespace Finding

def frameLength : Finding → Nat
  | .frame whole => whole.totalLength
  | .damage _ => 0

def damageLength : Finding → Nat
  | .frame _ => 0
  | .damage error => error.resyncLength?.getD 0

/-- Bytes up to the place where the next finding is expected. -/
def extent (f : Finding) : Nat :=
  f.frameLength + f.damageLength

def item : Finding → Item
  | .frame whole => itemOf whole
  | .damage error => .error (.frame error)

end Finding

/-- A frame becomes an event, or the reason why it is none. -/
theorem itemOf_cases (whole : Frame) :
    (∃ event, itemOf whole = .ok event) ∨ ∃ error, itemOf whole = .error (.event error) := by
  rw [itemOf_eq]
  cases classify whole with
  | ok event => exact Or.inl ⟨event, rfl⟩
  | error error => exact Or.inr ⟨error, rfl⟩

def finding? (config : Frame.Config) (bytes : Bytes) : Option Finding :=
  match Frame.decode config bytes with
  | .ok none => none
  | .ok (some frame) => some (.frame frame)
  | .error error => some (.damage error)

def itemAt? (config : Frame.Config) (bytes : Bytes) : Option Item :=
  (finding? config bytes).map Finding.item

section front

variable {config : Frame.Config} {bytes : Bytes} {f : Finding}

theorem finding?_eq_none_iff : finding? config bytes = none ↔ Frame.decode config bytes = .ok none := by
  unfold finding?
  split <;> simp_all

theorem finding?_nil (config : Frame.Config) : finding? config [] = none :=
  finding?_eq_none_iff.2 (Frame.decode_of_short (by decide))

theorem decode_of_frame {frame : Frame} (h : finding? config bytes = some (.frame frame)) :
    Frame.decode config bytes = .ok (some frame) := by
  unfold finding? at h
  split at h <;> cases h
  assumption

theorem decode_of_damage {error : Frame.Error} (h : finding? config bytes = some (.damage error)) :
    Frame.decode config bytes = .error error := by
  unfold finding? at h
  split at h <;> cases h
  assumption

theorem finding?_length (h : finding? config bytes = some f) :
    Frame.preludeLength ≤ bytes.length := by
  by_cases hs : bytes.length < Frame.preludeLength
  · rw [finding?_eq_none_iff.2 (Frame.decode_of_short hs)] at h
    cases h
  · omega

/-- The damage that a reader reports always tells how far to skip. -/
theorem resyncLength?_of_damage {error : Frame.Error}
    (h : finding? config bytes = some (.damage error)) :
    error.resyncLength? = some (max (Frame.declaredLength bytes) Frame.preludeLength) :=
  Frame.decode_error_resyncLength? (decode_of_damage h)

theorem finding?_extent (h : finding? config bytes = some f) :
    f.extent = max (Frame.declaredLength bytes) Frame.preludeLength := by
  cases f with
  | frame frame =>
    have hd := decode_of_frame h
    have hle := (Frame.decode_frame_length hd).1
    rw [Finding.extent, Finding.frameLength, Finding.damageLength,
      Frame.decode_frame_totalLength hd] at *
    rw [Frame.overhead] at hle
    omega
  | damage error =>
    rw [Finding.extent, Finding.frameLength, Finding.damageLength, resyncLength?_of_damage h]
    exact Nat.zero_add _

theorem preludeLength_le_extent (h : finding? config bytes = some f) :
    Frame.preludeLength ≤ f.extent := by
  rw [finding?_extent h]
  exact Nat.le_max_right _ _

theorem rest_length_of_finding (h : finding? config bytes = some f) :
    bytes.length - f.extent < bytes.length := by
  have h₁ := finding?_length h
  have h₂ := preludeLength_le_extent h
  rw [Frame.preludeLength] at h₁ h₂
  omega

/-- Something is found once the first length is there and as many bytes as it tells. -/
theorem exists_finding? (config : Frame.Config) (hl : Frame.preludeLength ≤ bytes.length)
    (hd : Frame.declaredLength bytes ≤ bytes.length) : ∃ f, finding? config bytes = some f := by
  apply Option.ne_none_iff_exists'.1
  rw [Ne, finding?_eq_none_iff]
  exact Frame.decode_ne_none hl hd

/-- What was found stays whatever bytes follow. -/
theorem finding?_append (h : finding? config bytes = some f) (more : Bytes) :
    finding? config (bytes ++ more) = some f := by
  have hne : Frame.decode config bytes ≠ .ok none := by
    intro hd
    rw [finding?_eq_none_iff.2 hd] at h
    cases h
  rw [finding?, Frame.decode_append hne]
  exact h

end front

/-- All findings of a byte string, one behind the other, up to an unfinished one. -/
def findings (config : Frame.Config) (bytes : Bytes) : List Finding :=
  match front : finding? config bytes with
  | none => []
  | some f =>
    have : bytes.length - f.extent < bytes.length := rest_length_of_finding front
    f :: findings config (bytes.drop f.extent)
termination_by bytes.length

def span (found : List Finding) : Nat :=
  (found.map Finding.extent).sum

section row

variable {config : Frame.Config} {bytes : Bytes} {f : Finding} {found : List Finding}

theorem findings_of_none (h : finding? config bytes = none) : findings config bytes = [] := by
  rw [findings]
  split
  · rfl
  · next hs => rw [h] at hs; cases hs

theorem findings_nil (config : Frame.Config) : findings config [] = [] :=
  findings_of_none (finding?_nil config)

theorem findings_of_some (h : finding? config bytes = some f) :
    findings config bytes = f :: findings config (bytes.drop f.extent) := by
  rw [findings]
  split
  · next hs => rw [h] at hs; cases hs
  · next hs => rw [h] at hs; cases hs; rfl

theorem findings_eq_cons (h : findings config bytes = f :: found) :
    finding? config bytes = some f ∧ findings config (bytes.drop f.extent) = found := by
  cases hf : finding? config bytes with
  | none =>
    rw [findings_of_none hf] at h
    cases h
  | some g =>
    rw [findings_of_some hf] at h
    cases h
    exact ⟨rfl, rfl⟩

@[simp] theorem span_nil : span [] = 0 := rfl

@[simp] theorem span_cons : span (f :: found) = f.extent + span found := rfl

@[simp] theorem span_append (found more : List Finding) :
    span (found ++ more) = span found + span more := by
  rw [span, List.map_append, List.sum_append]
  rfl

theorem findings_drop {more : List Finding} (h : findings config bytes = found ++ more) :
    findings config (bytes.drop (span found)) = more := by
  induction found generalizing bytes with
  | nil => exact h
  | cons f found ih =>
    obtain ⟨-, ht⟩ := findings_eq_cons h
    rw [span_cons, ← List.drop_drop]
    exact ih ht

/-- More bytes add findings behind those that were there. -/
theorem findings_append (config : Frame.Config) (bytes more : Bytes) :
    findings config bytes <+: findings config (bytes ++ more) := by
  fun_induction findings config bytes generalizing more with
  | case1 => exact List.nil_prefix
  | case2 bytes f hf hlt ih =>
    rw [findings_of_some (finding?_append hf more), List.drop_append]
    exact (List.prefix_cons_inj f).2 (ih _)

theorem findings_length (config : Frame.Config) (bytes : Bytes) :
    Frame.preludeLength * (findings config bytes).length ≤ bytes.length := by
  fun_induction findings config bytes with
  | case1 => exact Nat.zero_le _
  | case2 bytes f hf hlt ih =>
    have h₁ := finding?_length hf
    have h₂ := preludeLength_le_extent hf
    rw [List.length_drop] at ih
    rw [List.length_cons, Nat.mul_succ]
    rw [Frame.preludeLength] at *
    omega

theorem damageLength_pos {error : Frame.Error}
    (h : finding? config bytes = some (.damage error)) : 0 < (Finding.damage error).damageLength := by
  rw [Finding.damageLength, resyncLength?_of_damage h]
  exact Nat.lt_of_lt_of_le (by decide : 0 < Frame.preludeLength) (Nat.le_max_right _ _)

end row

/-- A step either passes bytes that were to be skipped, or the finding at the front. Behind a frame
nothing is to be skipped. -/
theorem segment_inv {config : Frame.Config} {skip : Nat} {bytes : Bytes} {s : Segment}
    (h : segment config skip bytes = some s) :
    (0 < skip ∧ s.item = none ∧ s.consumed = min skip bytes.length ∧
      s.skip = skip - s.consumed) ∨
    (skip = 0 ∧ ∃ f, finding? config bytes = some f ∧ s.item = some f.item ∧
      s.consumed = min f.extent bytes.length ∧ s.skip = f.extent - s.consumed ∧
      (f.damageLength = 0 → s.skip = 0)) := by
  unfold segment at h
  split at h
  · next hpos =>
    split at h
    · cases h
    · cases h
      exact Or.inl ⟨hpos, rfl, rfl, rfl⟩
  · next hzero =>
    refine Or.inr ⟨Nat.eq_zero_of_not_pos hzero, ?_⟩
    split at h
    · cases h
    · next frame hd =>
      cases h
      have hf : finding? config bytes = some (.frame frame) := by rw [finding?, hd]
      have hl := (Frame.decode_frame_length hd).2
      have he : (Finding.frame frame).extent = frame.totalLength := Nat.add_zero _
      exact ⟨.frame frame, hf, rfl, by simp only [he]; omega, by simp only [he]; omega,
        fun _ => rfl⟩
    · next error hd =>
      cases h
      have hf : finding? config bytes = some (.damage error) := by rw [finding?, hd]
      have he : (Finding.damage error).extent = error.resyncLength?.getD Frame.preludeLength := by
        rw [Finding.extent, Finding.frameLength, Finding.damageLength, resyncLength?_of_damage hf]
        exact Nat.zero_add _
      exact ⟨.damage error, hf, rfl, by simp only [he], by simp only [he],
        fun hz => absurd hz (Nat.ne_of_gt (damageLength_pos hf))⟩

/-- A step over a finding passes no less than a prelude. -/
theorem segment_item_consumed {config : Frame.Config} {skip : Nat} {bytes : Bytes} {s : Segment}
    {item : Item} (h : segment config skip bytes = some s) (hi : s.item = some item) :
    Frame.preludeLength ≤ s.consumed := by
  obtain ⟨-, hn, -⟩ | ⟨-, f, hf, -, hc, -⟩ := segment_inv h
  · rw [hi] at hn
    cases hn
  · rw [hc]
    exact Nat.le_min.2 ⟨preludeLength_le_extent hf, finding?_length hf⟩

/-- No step is possible where bytes to be skipped or bytes of a finding are missing. -/
theorem segment_eq_none {config : Frame.Config} {skip : Nat} {bytes : Bytes}
    (h : segment config skip bytes = none) :
    (0 < skip ∧ bytes = []) ∨ (skip = 0 ∧ finding? config bytes = none) := by
  unfold segment at h
  split at h
  · next hpos =>
    split at h
    · next he => exact Or.inl ⟨hpos, List.isEmpty_iff.1 he⟩
    · cases h
  · next hzero =>
    refine Or.inr ⟨by omega, ?_⟩
    split at h
    · next hd => exact finding?_eq_none_iff.2 hd
    · cases h
    · cases h

end EventStream.Stream
