/-!
Binary floating point of 64 bits, in exact arithmetic on natural numbers: a finite value is
`m · 2^q`, and an operation gives the value nearest to its exact result, a tie going to the even
significand.
-/

set_option autoImplicit false

namespace EventStream

structure Binary64 where
  bits : UInt64
  deriving DecidableEq, Repr

namespace Binary64

def signBit : Nat := 0x8000000000000000

def fractionLimit : Nat := 0x10000000000000

def isNegative (x : Binary64) : Bool :=
  signBit ≤ x.bits.toNat

/-- The bits without the sign. They order values as their magnitudes do. -/
def magnitude (x : Binary64) : Nat :=
  x.bits.toNat % signBit

def infinityBits : Nat := 2047 * fractionLimit

def isInfinite (x : Binary64) : Bool :=
  x.magnitude == infinityBits

def isZero (x : Binary64) : Bool :=
  x.magnitude == 0

/-- The integer `m` of `m · 2^q`. -/
def significand (x : Binary64) : Nat :=
  let fraction := x.magnitude % fractionLimit
  if x.magnitude / fractionLimit = 0 then fraction else fraction + fractionLimit

/-- The power `q` of `m · 2^q`. -/
def exponent (x : Binary64) : Int :=
  max (x.magnitude / fractionLimit : Nat) 1 - 1075

def ofMagnitude (negative : Bool) (magnitude : Nat) : Binary64 :=
  ⟨UInt64.ofNat (if negative then signBit + magnitude else magnitude)⟩

def roundQuotient (num den : Nat) : Nat :=
  let floor := num / den
  let twice := 2 * (num % den)
  if twice < den then floor
  else if den < twice then floor + 1
  else if floor % 2 = 0 then floor else floor + 1

def scaleRatio (num den : Nat) (q : Int) : Nat × Nat :=
  (num * Nat.pow 2 q.toNat, den * Nat.pow 2 (-q).toNat)

/-- The value nearest to `num / den`; too large a ratio becomes infinite. -/
def ofRatio (negative : Bool) (num den : Nat) : Binary64 :=
  if num = 0 then ofMagnitude negative 0
  else
    let guess : Int := (Nat.log2 num : Int) - Nat.log2 den - 52
    let (n, d) := scaleRatio num den (-guess)
    let q : Int := max (if n < d * fractionLimit then guess - 1 else guess) (-1074)
    let (n, d) := scaleRatio num den (-q)
    let magnitude := (q + 1074).toNat * fractionLimit + roundQuotient n d
    ofMagnitude negative (min magnitude infinityBits)

def ofNat (negative : Bool) (n : Nat) : Binary64 :=
  ofRatio negative n 1

def mul (x y : Binary64) : Binary64 :=
  let (num, den) := scaleRatio (x.significand * y.significand) 1 (x.exponent + y.exponent)
  ofRatio (x.isNegative != y.isNegative) num den

def div (x y : Binary64) : Binary64 :=
  let (num, den) := scaleRatio x.significand y.significand (x.exponent - y.exponent)
  ofRatio (x.isNegative != y.isNegative) num den

def neg (x : Binary64) : Binary64 :=
  ofMagnitude (!x.isNegative) x.magnitude

def ten (k : Nat) : Binary64 :=
  ofNat false (Nat.pow 10 k)

def maxTen : Nat := 308

def divTen (x : Binary64) (k : Nat) : Binary64 :=
  if k ≤ maxTen then x.div (ten k)
  else if x.isZero then x
  else divTen (x.div (ten maxTen)) (k - maxTen)
termination_by k
decreasing_by simp only [maxTen] at *; omega

def mulTen? (x : Binary64) (k : Nat) : Option Binary64 :=
  if k ≤ maxTen then
    let y := x.mul (ten k)
    if y.isInfinite then none else some y
  else if x.isZero then some x
  else none

/-- The magnitude read from the decimal `digits · 10^k`. The digits and the power of ten are
rounded each for itself, and then their product or quotient. -/
def ofDecimal? (negative : Bool) (digits : Nat) (k : Int) : Option Binary64 :=
  let x := ofNat false digits
  let y := if 0 ≤ k then x.mulTen? k.toNat else some (x.divTen (-k).toNat)
  y.map fun y => if negative then y.neg else y

end Binary64

end EventStream
