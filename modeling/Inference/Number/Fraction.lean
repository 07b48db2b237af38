/-!
# Inference.Number.Fraction

Exact fractions that are not negative, as a pair of a numerator and a positive denominator. They
need not be in lowest terms.

* `Fraction.scale`: times a power of a base.
* `Fraction.roundHalfEven`: the nearest whole number; a half goes to the even neighbour.
-/

namespace Inference

structure Fraction where
  num : Nat
  den : Nat := 1
  deriving DecidableEq

namespace Fraction

def scale (x : Fraction) (base : Nat) : Int → Fraction
  | .ofNat k => ⟨x.num * Nat.pow base k, x.den⟩
  | .negSucc k => ⟨x.num, x.den * Nat.pow base (k + 1)⟩

def le (x y : Fraction) : Bool := Nat.ble (x.num * y.den) (y.num * x.den)

def lt (x y : Fraction) : Bool := Nat.blt (x.num * y.den) (y.num * x.den)

def floor (x : Fraction) : Nat := x.num / x.den

def roundHalfEven (x : Fraction) : Nat :=
  let below := x.floor
  let twice := 2 * (x.num % x.den)
  if twice < x.den then below
  else if x.den < twice then below + 1
  else if below % 2 = 0 then below else below + 1

end Fraction
end Inference
