import Inference.Number.Double

/-!
# Inference.Number.Shortest

Doubles in decimal. A double is written with the fewest digits that round back to it, and with the
digits nearest to it among those of that length.

* `Double.shortest`: the digits, as a whole number, and the power of ten that they count.
* `Double.text`: the written form. It is positional for powers of ten from -5 to 15, always with a
  point and a digit after it, and otherwise has an exponent with its sign.
-/

namespace Inference
namespace Double

/-- Whether a fraction rounds to the double. It does between the middles of the gaps to the
neighbours, and on the middles themselves when the mantissa is even. The gap below a power of two is
half the gap above it, but for the least such double. -/
def roundsFrom (d : Double) (x : Fraction) : Bool :=
  let below := if d.mantissa = 4503599627370496 ∧ d.exponent ≠ -1074 then 1 else 2
  let low := Fraction.scale ⟨4 * d.mantissa - below, 1⟩ 2 (d.exponent - 2)
  let high := Fraction.scale ⟨4 * d.mantissa + 2, 1⟩ 2 (d.exponent - 2)
  if d.mantissa % 2 = 0 then low.le x && x.le high else low.lt x && x.lt high

def powerOfTenLe (power : Int) (x : Fraction) : Bool := (Fraction.scale ⟨1, 1⟩ 10 power).le x

/-- The exponent of the greatest power of ten that is at most `x`, for `x > 0`. The guess is the
binary order times 1233/4096, which is close to the decimal logarithm of two, and is at most one
off. -/
def decimalOrder (x : Fraction) : Int :=
  let guess := Int.fdiv (binaryOrder x * 1233) 4096
  if powerOfTenLe (guess + 1) x then guess + 1
  else if powerOfTenLe guess x then guess
  else guess - 1

/-- The better of the two neighbours of a double on the grid of multiples of a power of ten, if one
of them rounds to the double. -/
def onGrid? (d : Double) (power : Int) : Option Nat :=
  let counted := d.value.scale 10 (-power)
  let nearer := counted.roundHalfEven
  let farther := if nearer = counted.floor then nearer + 1 else counted.floor
  if d.roundsFrom (Fraction.scale ⟨nearer, 1⟩ 10 power) then some nearer
  else if d.roundsFrom (Fraction.scale ⟨farther, 1⟩ 10 power) then some farther
  else none

/-- Tries grids with one digit, two digits and so on. Seventeen digits are always enough. -/
def search (d : Double) (power : Int) : Nat → Nat × Int
  | 0 => ((d.value.scale 10 (-power)).roundHalfEven, power)
  | more + 1 =>
    match d.onGrid? power with
    | some digits => (digits, power)
    | none => d.search (power - 1) more

def shortest (d : Double) : Nat × Int := d.search (decimalOrder d.value) 16

/-- Writes digits with a point after the first `point` of them. -/
def positional (digits : String) (point : Int) : String :=
  let zeros (n : Int) : String := String.ofList (List.replicate n.toNat '0')
  let size : Int := digits.length
  if point ≤ 0 then "0." ++ zeros (-point) ++ digits
  else if size ≤ point then digits ++ zeros (point - size) ++ ".0"
  else String.ofList (digits.toList.take point.toNat) ++ "." ++
    String.ofList (digits.toList.drop point.toNat)

def scientific (digits : String) (exponent : Int) : String :=
  let first := String.ofList (digits.toList.take 1)
  let rest := String.ofList (digits.toList.drop 1)
  let sign := if exponent < 0 then "-" else "+"
  first ++ (if rest = "" then "" else "." ++ rest) ++ "e" ++ sign ++ toString exponent.natAbs

def text (d : Double) : String :=
  if d.mantissa = 0 then "0.0"
  else
    let (number, power) := d.shortest
    -- a neighbour above may end in zeros, as 10 does on the grid of tens
    let kept := (toString number).toList.reverse.dropWhile (· == '0')
    let digits := String.ofList kept.reverse
    let point : Int := power + (toString number).length
    if -4 ≤ point ∧ point ≤ 16 then positional digits point else scientific digits (point - 1)

end Double
end Inference
