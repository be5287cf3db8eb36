import EventStream.Checksum
import EventStream.Proofs.Bytes
import Mathlib.Data.Nat.Bitwise

/-!
The checksum is linear: two states differ as their difference would after the same steps. A
difference that lies within four bytes can therefore be read off the states behind it, and no bytes
that follow make it vanish.
-/

set_option autoImplicit false

namespace EventStream.Checksum

theorem and_one_eq_one_iff (state : UInt32) : state &&& 1 = 1 ↔ state.toNat % 2 = 1 := by
  rw [← UInt32.toNat_inj, UInt32.toNat_and]
  simp [Nat.and_one_is_mod]

theorem bit_of_odd {state : UInt32} (h : state.toNat % 2 = 1) :
    bit state = (state >>> 1) ^^^ 0xEDB88320 :=
  if_pos ((and_one_eq_one_iff state).2 h)

theorem bit_of_even {state : UInt32} (h : state.toNat % 2 = 0) : bit state = state >>> 1 := by
  apply if_neg
  rw [and_one_eq_one_iff]
  omega

/-- The polynomial is divided out of a difference exactly where it is divided out of one of the
two states. -/
theorem bit_xor (s t : UInt32) : bit (s ^^^ t) = bit s ^^^ bit t := by
  have hparity : (s ^^^ t).toNat % 2 = (s.toNat + t.toNat) % 2 := by
    rw [UInt32.toNat_xor]
    exact Nat.xor_mod_two_eq
  rcases Nat.mod_two_eq_zero_or_one s.toNat with hs | hs <;>
    rcases Nat.mod_two_eq_zero_or_one t.toNat with ht | ht
  · rw [bit_of_even (by omega), bit_of_even hs, bit_of_even ht, UInt32.shiftRight_xor]
  · rw [bit_of_odd (by omega), bit_of_even hs, bit_of_odd ht, UInt32.shiftRight_xor,
      UInt32.xor_assoc]
  · rw [bit_of_odd (by omega), bit_of_odd hs, bit_of_even ht, UInt32.shiftRight_xor]
    ac_rfl
  · -- The polynomial is divided out of both, and of their difference not at all.
    have hcancel : ∀ a b p : UInt32, (a ^^^ p) ^^^ (b ^^^ p) = (a ^^^ b) ^^^ (p ^^^ p) := by
      intro a b p
      ac_rfl
    rw [bit_of_even (by omega), bit_of_odd hs, bit_of_odd ht, UInt32.shiftRight_xor, hcancel,
      UInt32.xor_self, UInt32.xor_zero]

theorem repeat_bit_xor (n : Nat) (s t : UInt32) :
    Nat.repeat bit n (s ^^^ t) = Nat.repeat bit n s ^^^ Nat.repeat bit n t := by
  induction n with
  | zero => rfl
  | succ n ih =>
    simp only [Nat.repeat]
    rw [ih, bit_xor]

theorem update_xor (s t : UInt32) (a b : UInt8) :
    update (s ^^^ t) (a ^^^ b) = update s a ^^^ update t b := by
  have hmix : (s ^^^ t) ^^^ (a ^^^ b).toUInt32 = (s ^^^ a.toUInt32) ^^^ (t ^^^ b.toUInt32) := by
    rw [UInt8.toUInt32_xor]
    ac_rfl
  rw [update, hmix, repeat_bit_xor]
  rfl

def difference (a b : Bytes) : Bytes :=
  List.zipWith (· ^^^ ·) a b

theorem run_xor {a b : Bytes} (h : a.length = b.length) (s t : UInt32) :
    run (s ^^^ t) (difference a b) = run s a ^^^ run t b := by
  induction a generalizing b s t with
  | nil =>
    cases b with
    | nil => rfl
    | cons y b => cases h
  | cons x a ih =>
    cases b with
    | nil => cases h
    | cons y b =>
      have hl : a.length = b.length := Nat.succ.inj h
      have hstep := ih hl (update s x) (update t y)
      rw [← update_xor] at hstep
      exact hstep

/-- A bit that was divided out stands at the top of the state, so a state without it was only
moved. -/
theorem toNat_of_bit_lt {state : UInt32} (h : (bit state).toNat < 2 ^ 31) :
    state.toNat = 2 * (bit state).toNat := by
  rcases Nat.mod_two_eq_zero_or_one state.toNat with hs | hs
  · rw [bit_of_even hs, UInt32.toNat_shiftRight]
    simp only [Nat.shiftRight_eq_div_pow]
    change state.toNat = 2 * (state.toNat / 2)
    omega
  · -- The polynomial has the top bit, and the moved state leaves it free.
    rw [bit_of_odd hs, UInt32.toNat_xor] at h
    have hlow : (state >>> 1).toNat < 2 ^ 31 := by
      have hlt : state.toNat < 2 ^ 32 := state.toNat_lt
      rw [UInt32.toNat_shiftRight, Nat.shiftRight_eq_div_pow]
      change state.toNat / 2 < 2 ^ 31
      omega
    have htop := Nat.testBit_lt_two_pow h
    rw [Nat.testBit_xor, Nat.testBit_lt_two_pow hlow] at htop
    exact absurd htop (by decide)

theorem toNat_of_repeat_bit_lt {n : Nat} (hn : n ≤ 32) {state : UInt32}
    (h : (Nat.repeat bit n state).toNat < 2 ^ (32 - n)) :
    state.toNat = 2 ^ n * (Nat.repeat bit n state).toNat := by
  induction n with
  | zero => simp [Nat.repeat]
  | succ n ih =>
    simp only [Nat.repeat] at h ⊢
    have hle : 2 ^ (32 - (n + 1)) ≤ 2 ^ 31 := Nat.pow_le_pow_right (by omega) (by omega)
    have hstep := toNat_of_bit_lt (Nat.lt_of_lt_of_le h hle)
    have hpow : 2 ^ (32 - n) = 2 * 2 ^ (32 - (n + 1)) := by
      rw [← pow_succ']
      congr 1
      omega
    rw [ih (by omega) (by omega), hstep, pow_succ, Nat.mul_assoc]

/-- A small state behind a byte tells the state and the byte before it. -/
theorem toNat_of_update_lt {state : UInt32} {b : UInt8} (h : (update state b).toNat < 2 ^ 24) :
    state.toNat = (update state b).toNat * 256 + b.toNat := by
  have hmoved : (state ^^^ b.toUInt32).toNat = 2 ^ 8 * (update state b).toNat :=
    toNat_of_repeat_bit_lt (by omega) h
  rw [UInt32.toNat_xor, UInt8.toNat_toUInt32] at hmoved
  have hlow : (state.toNat ^^^ b.toNat) % 2 ^ 8 = 0 := by omega
  have hhigh : (state.toNat ^^^ b.toNat) / 2 ^ 8 = (update state b).toNat := by omega
  have hb : b.toNat < 2 ^ 8 := b.toNat_lt
  rw [Nat.xor_mod_two_pow, Nat.mod_eq_of_lt hb] at hlow
  rw [Nat.xor_div_two_pow, Nat.div_eq_of_lt hb, Nat.xor_zero] at hhigh
  have hequal := Nat.eq_of_xor_eq_zero hlow
  omega

/-- Up to four bytes behind which the state is nought are the state before them. -/
theorem toNat_of_run_eq_zero {bytes : Bytes} (hl : bytes.length ≤ 4) {state : UInt32}
    (h : run state bytes = 0) : state.toNat = ofBigEndian bytes.reverse := by
  induction bytes generalizing state with
  | nil =>
    rw [show state = 0 from h]
    rfl
  | cons b bytes ih =>
    rw [List.length_cons] at hl
    have hrest : (update state b).toNat = ofBigEndian bytes.reverse := ih (by omega) h
    have hlt : (update state b).toNat < 2 ^ 24 := by
      have hdigits := ofBigEndian_lt bytes.reverse
      have hpow : 256 ^ bytes.reverse.length ≤ 256 ^ 3 :=
        Nat.pow_le_pow_right (by omega) (by rw [List.length_reverse]; omega)
      omega
    rw [List.reverse_cons, ofBigEndian_concat, ← hrest]
    exact toNat_of_update_lt hlt

theorem update_injective {s t : UInt32} {b : UInt8} (h : update s b = update t b) : s = t := by
  have hzero : update (s ^^^ t) (b ^^^ b) = 0 := by
    rw [update_xor, h, UInt32.xor_self]
  have hdiff := toNat_of_update_lt (show (update (s ^^^ t) (b ^^^ b)).toNat < 2 ^ 24 by
    rw [hzero]
    decide)
  rw [hzero, UInt8.xor_self] at hdiff
  exact UInt32.xor_eq_zero_iff.1 (UInt32.toNat_inj.1 hdiff)

/-- States that differ still differ behind any further bytes. -/
theorem run_injective {s t : UInt32} {bytes : Bytes} (h : run s bytes = run t bytes) : s = t := by
  induction bytes generalizing s t with
  | nil => exact h
  | cons b bytes ih => exact update_injective (ih h)

theorem eq_of_difference {a b : Bytes} (hl : a.length = b.length)
    (h : ∀ d ∈ difference a b, d = 0) : a = b := by
  induction a generalizing b with
  | nil => exact (List.length_eq_zero_iff.1 hl.symm).symm
  | cons x a ih =>
    cases b with
    | nil => cases hl
    | cons y b =>
      obtain ⟨hfirst, hrest⟩ := List.forall_mem_cons.1 h
      rw [UInt8.xor_eq_zero_iff.1 hfirst, ih (Nat.succ.inj hl) hrest]

/-- From one state, different byte strings of one length up to four lead to different states. -/
theorem eq_of_run_eq {a b : Bytes} (hl : a.length = b.length) (hfour : a.length ≤ 4) {state : UInt32}
    (h : run state a = run state b) : a = b := by
  have hzero : run 0 (difference a b) = 0 := by
    have hx := run_xor hl state state
    rwa [h, UInt32.xor_self, UInt32.xor_self] at hx
  have hlength : (difference a b).length ≤ 4 := by
    rw [difference, List.length_zipWith]
    omega
  have hnumber := toNat_of_run_eq_zero hlength hzero
  apply eq_of_difference hl
  intro d hd
  exact eq_zero_of_ofBigEndian hnumber.symm d (List.mem_reverse.2 hd)

end EventStream.Checksum

namespace EventStream

/-- Byte strings that differ in at most four consecutive bytes differ in their checksum. -/
theorem eq_of_crc32_eq {front a b behind : Bytes} (hl : a.length = b.length) (hfour : a.length ≤ 4)
    (h : crc32 (front ++ a ++ behind) = crc32 (front ++ b ++ behind)) : a = b := by
  have hrun := UInt32.not_inj.1 h
  simp only [Checksum.run_append] at hrun
  exact Checksum.eq_of_run_eq hl hfour (Checksum.run_injective hrun)

end EventStream
