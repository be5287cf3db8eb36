import EventStream.Bytes
import Mathlib.Algebra.GroupWithZero.Nat
import Mathlib.Data.List.Induction

/-!
Numbers written with the big end first are read back, digits that were read are written back, and a
slice depends only on the bytes up to its end.
-/

set_option autoImplicit false

namespace EventStream

theorem ofBigEndian_concat (digits : Bytes) (digit : UInt8) :
    ofBigEndian (digits ++ [digit]) = ofBigEndian digits * 256 + digit.toNat := by
  unfold ofBigEndian
  rw [List.foldl_append]
  rfl

/-- Reading undoes writing as long as the digits suffice. -/
theorem ofBigEndian_bigEndian {width n : Nat} (h : n < 256 ^ width) :
    ofBigEndian (bigEndian width n) = n := by
  induction width generalizing n with
  | zero =>
    have hn : n = 0 := by omega
    rw [hn]
    rfl
  | succ width ih =>
    have hq : n / 256 < 256 ^ width := by
      rw [pow_succ] at h
      exact Nat.div_lt_of_lt_mul (by rwa [Nat.mul_comm])
    rw [bigEndian, ofBigEndian_concat, ih hq, UInt8.toNat_ofNat']
    omega

theorem ofBigEndian_lt (digits : Bytes) : ofBigEndian digits < 256 ^ digits.length := by
  induction digits using List.reverseRecOn with
  | nil => decide
  | append_singleton digits digit ih =>
    have hd : digit.toNat < 256 := digit.toNat_lt
    rw [ofBigEndian_concat, List.length_append, List.length_singleton, pow_succ]
    omega

/-- Writing undoes reading. -/
theorem bigEndian_ofBigEndian (digits : Bytes) :
    bigEndian digits.length (ofBigEndian digits) = digits := by
  induction digits using List.reverseRecOn with
  | nil => rfl
  | append_singleton digits digit ih =>
    have hd : digit.toNat < 256 := digit.toNat_lt
    have hq : (ofBigEndian digits * 256 + digit.toNat) / 256 = ofBigEndian digits := by omega
    have hr : UInt8.ofNat (ofBigEndian digits * 256 + digit.toNat) = digit := by
      apply UInt8.toNat_inj.1
      rw [UInt8.toNat_ofNat']
      omega
    rw [ofBigEndian_concat, List.length_append, List.length_singleton, bigEndian, hq, hr, ih]

theorem ofBigEndian_inj {a b : Bytes} (hl : a.length = b.length)
    (h : ofBigEndian a = ofBigEndian b) : a = b := by
  rw [← bigEndian_ofBigEndian a, ← bigEndian_ofBigEndian b, hl, h]

theorem eq_zero_of_ofBigEndian {digits : Bytes} (h : ofBigEndian digits = 0) :
    ∀ digit ∈ digits, digit = 0 := by
  induction digits using List.reverseRecOn with
  | nil => simp
  | append_singleton digits digit ih =>
    rw [ofBigEndian_concat] at h
    have hlast : digit = 0 := UInt8.toNat_inj.1 (by rw [UInt8.toNat_zero]; omega)
    intro d hd
    rcases List.mem_append.1 hd with hd | hd
    · exact ih (by omega) d hd
    · rw [List.mem_singleton.1 hd, hlast]

theorem getElem?_slice (start stop : Nat) (bytes : Bytes) (i : Nat) :
    (slice start stop bytes)[i]? = if i < stop - start then bytes[start + i]? else none := by
  rw [slice, List.getElem?_take, List.getElem?_drop]

theorem slice_length_le (start stop : Nat) (bytes : Bytes) :
    (slice start stop bytes).length ≤ stop - start := by
  rw [slice, List.length_take]
  exact Nat.min_le_left _ _

theorem slice_append_slice {start middle stop : Nat} (h₁ : start ≤ middle) (h₂ : middle ≤ stop)
    (bytes : Bytes) :
    slice start middle bytes ++ slice middle stop bytes = slice start stop bytes := by
  have hd : bytes.drop middle = (bytes.drop start).drop (middle - start) := by
    rw [List.drop_drop]
    congr 1
    omega
  have hn : stop - start = middle - start + (stop - middle) := by omega
  rw [slice, slice, slice, hd, hn, List.take_add]

theorem slice_append_left {start stop : Nat} {bytes : Bytes} (h : stop ≤ bytes.length)
    (more : Bytes) : slice start stop (bytes ++ more) = slice start stop bytes := by
  unfold slice
  by_cases hs : start ≤ bytes.length
  · rw [List.drop_append_of_le_length hs]
    exact List.take_append_of_le_length (by rw [List.length_drop]; omega)
  · have hz : stop - start = 0 := by omega
    rw [hz, List.take_zero, List.take_zero]

theorem slice_append_right {start stop : Nat} {front : Bytes} (h : front.length ≤ start)
    (bytes : Bytes) :
    slice start stop (front ++ bytes) = slice (start - front.length) (stop - front.length) bytes := by
  unfold slice
  have hd : (front ++ bytes).drop start = bytes.drop (start - front.length) := by
    rw [List.drop_append, List.drop_eq_nil_of_le h, List.nil_append]
  have hn : stop - start = stop - front.length - (start - front.length) := by omega
  rw [hd, hn]

theorem slice_take {start stop n : Nat} (h : stop ≤ n) (bytes : Bytes) :
    slice start stop (bytes.take n) = slice start stop bytes := by
  have hn : min (stop - start) (n - start) = stop - start := Nat.min_eq_left (by omega)
  rw [slice, slice, List.drop_take, List.take_take, hn]

theorem slice_zero (stop : Nat) (bytes : Bytes) : slice 0 stop bytes = bytes.take stop := rfl

theorem slice_front {stop : Nat} {part : Bytes} (h : part.length = stop) (behind : Bytes) :
    slice 0 stop (part ++ behind) = part := by
  rw [slice_zero, List.take_append_of_le_length (by omega)]
  exact List.take_of_length_le (by omega)

theorem slice_append_self {start stop : Nat} {front part : Bytes} (h : front.length = start)
    (hs : start + part.length = stop) (behind : Bytes) :
    slice start stop (front ++ (part ++ behind)) = part := by
  rw [slice_append_right (by omega), h, Nat.sub_self]
  exact slice_front (by omega) behind

end EventStream
