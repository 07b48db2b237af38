import Inference.Number.Fraction

/-!
# Inference.Number.Double

Numbers of double precision that are not negative: a whole number below 2^53, times a power of two
from 2^-1074 to 2^971. They are kept as exact pairs, and rounding works on exact fractions.

* `Double.nearest?`: the double nearest to a fraction; of two equally near, the one with the even
  mantissa. A fraction beyond the greatest double has none.
* `Double.scale?`: a double times a power of ten, rounded.
-/

namespace Inference

structure Double where
  mantissa : Nat
  exponent : Int
  deriving DecidableEq

namespace Double

def zero : Double := ⟨0, 0⟩

def value (d : Double) : Fraction := Fraction.scale ⟨d.mantissa, 1⟩ 2 d.exponent

/-- The exponent of the greatest power of two that is at most `x`, for `x > 0`. -/
def binaryOrder (x : Fraction) : Int :=
  let guess : Int := (x.num.log2 : Int) - x.den.log2
  if (Fraction.scale ⟨1, 1⟩ 2 guess).le x then guess else guess - 1

/-- A whole number times a power of two, brought below 2^53 if it has just reached it. -/
def ofRounded? (mantissa : Nat) (exponent : Int) : Option Double :=
  if mantissa = 9007199254740992 then
    if 970 < exponent then none else some ⟨4503599627370496, exponent + 1⟩
  else if 971 < exponent then none
  else some ⟨mantissa, exponent⟩

def nearest? (x : Fraction) : Option Double :=
  if x.num = 0 then some zero
  else
    let exponent := max (-1074) (binaryOrder x - 52)
    ofRounded? (x.scale 2 (-exponent)).roundHalfEven exponent

/-- The double nearest to a power of ten, up to 10^308. -/
def powerOfTen (k : Nat) : Double := (nearest? (Fraction.scale ⟨1, 1⟩ 10 k)).getD zero

def product (d e : Double) : Fraction := ⟨d.value.num * e.value.num, d.value.den * e.value.den⟩

/-- The double nearest to a quotient of doubles, which is at most the first of them. -/
def quotient (d e : Double) : Double :=
  (nearest? ⟨d.value.num * e.value.den, d.value.den * e.value.num⟩).getD zero

/-- Divides by a power of ten. One division takes off at most 10^308, and each rounds. -/
def unscale (d : Double) (k : Nat) : Double :=
  if k ≤ 308 then d.quotient (powerOfTen k)
  else if d.mantissa = 0 then zero
  else unscale (d.quotient (powerOfTen 308)) (k - 308)
termination_by k

def scale? (d : Double) : Int → Option Double
  | .negSucc k => some (d.unscale (k + 1))
  | .ofNat k =>
    if d.mantissa = 0 then some zero
    else if 308 < k then none
    else nearest? (d.product (powerOfTen k))

end Double
end Inference
