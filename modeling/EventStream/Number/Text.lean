import EventStream.Number.Shortest

/-!
The text of a floating-point value: the shortest digits that read back, positional where the
first digit stands between `10^-5` and `10^15`, and with a signed exponent elsewhere.
-/

set_option autoImplicit false

namespace EventStream.Binary64

/-- Powers of ten of the first digit that are written without an exponent. -/
def positionalFrom : Int := -5

def positionalBelow : Int := 16

def positionalText (digits : List Char) (top : Int) : List Char :=
  if top < 0 then
    ['0', '.'] ++ List.replicate (-top - 1).toNat '0' ++ digits
  else
    let whole := top.toNat + 1
    let padded := digits ++ List.replicate (whole - digits.length) '0'
    let fraction := padded.drop whole
    padded.take whole ++ ['.'] ++ if fraction.isEmpty then ['0'] else fraction

def exponentText (digits : List Char) (top : Int) : List Char :=
  let fraction := digits.drop 1
  digits.take 1 ++ (if fraction.isEmpty then [] else '.' :: fraction) ++
    ['e', if top < 0 then '-' else '+'] ++ Nat.toDigits 10 top.natAbs

def text (x : Binary64) : List Char :=
  let sign := if x.isNegative then ['-'] else []
  if x.isZero then sign ++ ['0', '.', '0']
  else
    let d := x.shortest
    let digits := Nat.toDigits 10 d.digits
    let top := d.exponent + digits.length - 1
    sign ++
      if positionalFrom ≤ top ∧ top < positionalBelow then positionalText digits top
      else exponentText digits top

end EventStream.Binary64
