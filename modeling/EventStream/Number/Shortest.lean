import EventStream.Number.Binary64

/-!
The shortest decimal that reads back as a given floating-point value, and of the shortest the
nearest.
-/

set_option autoImplicit false

namespace EventStream

structure Decimal where
  digits : Nat
  exponent : Int
  deriving DecidableEq, Repr

namespace Decimal

def digitCount (n : Nat) : Nat :=
  (Nat.toDigits 10 n).length

def leadingPower (num den : Nat) : Int :=
  if den ≤ num then (digitCount (num / den) : Int) - 1
  else
    let j := digitCount (den / num)
    if den ≤ num * Nat.pow 10 (j - 1) then 1 - (j : Int) else -(j : Int)

/-- Drops final zeros of the digits; `fuel` bounds how many. -/
def stripZeros : Nat → Decimal → Decimal
  | 0, d => d
  | fuel + 1, d =>
    if d.digits % 10 = 0 ∧ d.digits ≠ 0 then stripZeros fuel ⟨d.digits / 10, d.exponent + 1⟩
    else d

end Decimal

namespace Binary64

/-- The ratios that round to a value lie between two ends; all three are in the same unit. -/
structure Interval where
  lo : Nat
  mid : Nat
  hi : Nat
  closed : Bool
  scale : Int

/-- Halfway to the neighbours on both sides. Below a power of two the neighbour is nearer. -/
def interval (x : Binary64) : Interval :=
  let m := x.significand
  let q := x.exponent
  { lo := if m = fractionLimit ∧ -1074 < q then 4 * m - 1 else 4 * m - 2
    mid := 4 * m
    hi := 4 * m + 2
    closed := m % 2 == 0
    scale := q - 2 }

def Interval.contains (i : Interval) (n : Nat) (k : Int) : Bool :=
  let (num, den) := scaleRatio (n * Nat.pow 10 k.toNat) (Nat.pow 10 (-k).toNat) (-i.scale)
  if i.closed then i.lo * den ≤ num && num ≤ i.hi * den
  else i.lo * den < num && num < i.hi * den

/-- The point of the grid of `10^k` in the interval that is nearest to its middle, a tie going to
the even one. -/
def Interval.nearest? (i : Interval) (k : Int) : Option Nat :=
  let (num, den) := scaleRatio (i.mid * Nat.pow 10 (-k).toNat) (Nat.pow 10 k.toNat) i.scale
  let below := num / den
  let nearest := roundQuotient num den
  let other := if nearest = below then below + 1 else below
  if i.contains nearest k then some nearest
  else if i.contains other k then some other
  else none

def Interval.shortestFrom (i : Interval) (top : Int) : Nat → Nat → Decimal
  | 0, _ => ⟨i.mid, 0⟩
  | fuel + 1, count =>
    let k := top + 1 - count
    match i.nearest? k with
    | some n => Decimal.stripZeros 20 ⟨n, k⟩
    | none => i.shortestFrom top fuel (count + 1)

/-- The shortest decimal that reads back as a positive finite value. Seventeen digits always do. -/
def shortest (x : Binary64) : Decimal :=
  let i := x.interval
  let (num, den) := scaleRatio i.mid 1 i.scale
  i.shortestFrom (Decimal.leadingPower num den) 17 1

end Binary64

end EventStream
