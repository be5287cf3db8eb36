/-!
Byte strings, natural numbers written in them with the big end first, and their
hexadecimal text.
-/

set_option autoImplicit false

namespace EventStream

abbrev Bytes := List UInt8

/-- The `width` lowest base-256 digits of `n`, the most significant first. -/
def bigEndian : Nat → Nat → Bytes
  | 0, _ => []
  | width + 1, n => bigEndian width (n / 256) ++ [UInt8.ofNat n]

def ofBigEndian (digits : Bytes) : Nat :=
  digits.foldl (fun n digit => n * 256 + digit.toNat) 0

@[simp] theorem bigEndian_length (width n : Nat) : (bigEndian width n).length = width := by
  induction width generalizing n with
  | zero => rfl
  | succ width ih => rw [bigEndian, List.length_append, ih]; rfl

/-- The bytes from offset `start` up to, not including, offset `stop`. -/
def slice (start stop : Nat) (bytes : Bytes) : Bytes :=
  (bytes.drop start).take (stop - start)

theorem slice_length {start stop : Nat} {bytes : Bytes} (h : stop ≤ bytes.length) :
    (slice start stop bytes).length = stop - start := by
  simp only [slice, List.length_take, List.length_drop]
  omega

def hexDigits (b : UInt8) : List Char :=
  [Nat.digitChar (b.toNat / 16), Nat.digitChar (b.toNat % 16)]

def hex (bytes : Bytes) : String :=
  String.ofList (bytes.flatMap hexDigits)

end EventStream
