/-!
Classes of characters that are given as ranges of code points, in ascending order.
-/

set_option autoImplicit false

namespace EventStream.Text

/-- Whether a code point lies between two others, both ends included. -/
def isBetween (first last : Nat) (c : Char) : Bool :=
  first ≤ c.toNat && c.toNat ≤ last

def inRanges (ranges : Array (Nat × Nat)) (c : Char) : Bool :=
  ranges.any fun r => isBetween r.1 r.2 c

end EventStream.Text
