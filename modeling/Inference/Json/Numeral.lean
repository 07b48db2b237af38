import Inference.Number.Shortest

/-!
# Inference.Json.Numeral

The numbers of JSON. A numeral keeps the digits as they are written; what number it stands for is
worked out only where a number is wanted.

* `Numeral.read?`: reads the longest numeral at the front of a text.
* `Numeral.value?`: the number it stands for. Whole numbers of 64 bits are exact; any other number
  is a double, found from the leading digits that fit into 64 bits by one scaling with a power of
  ten. There is none beyond the greatest double.
-/

namespace Inference
namespace Json

structure Numeral where
  negative : Bool
  whole : List Char
  /-- The digits after the point. There is no point when there are none. -/
  fraction : List Char
  exponent : Option Int
  deriving DecidableEq

/-- A number, with the sign of a double apart, since there is a negative zero. -/
inductive Number where
  | integer (n : Int)
  | double (negative : Bool) (d : Double)
  deriving DecidableEq

def Number.text : Number → String
  | integer n => toString n
  | double negative d => (if negative then "-" else "") ++ d.text

def digitValue (c : Char) : Nat := c.toNat - '0'.toNat

def ofDigits (digits : List Char) : Nat :=
  digits.foldl (fun n c => 10 * n + digitValue c) 0

namespace Numeral

def spanDigits (cs : List Char) : List Char × List Char :=
  (cs.takeWhile Char.isDigit, cs.dropWhile Char.isDigit)

/-- The part before the point: a zero, or digits that do not start with one. -/
def readWhole? (cs : List Char) : Option (List Char × List Char) :=
  match spanDigits cs with
  | ([], _) => none
  | ('0' :: _ :: _, _) => none
  | (digits, rest) => some (digits, rest)

/-- The part after the point, empty when there is no point. -/
def readFraction? : List Char → Option (List Char × List Char)
  | '.' :: cs =>
    match spanDigits cs with
    | ([], _) => none
    | (digits, rest) => some (digits, rest)
  | cs => some ([], cs)

def readExponentDigits? (negative : Bool) (cs : List Char) : Option (Option Int × List Char) :=
  match spanDigits cs with
  | ([], _) => none
  | (digits, rest) =>
    some (some (if negative then -(ofDigits digits : Int) else ofDigits digits), rest)

def readExponent? : List Char → Option (Option Int × List Char)
  | 'e' :: cs | 'E' :: cs =>
    match cs with
    | '+' :: rest => readExponentDigits? false rest
    | '-' :: rest => readExponentDigits? true rest
    | rest => readExponentDigits? false rest
  | cs => some (none, cs)

def readUnsigned? (negative : Bool) (cs : List Char) : Option (Numeral × List Char) :=
  match readWhole? cs with
  | none => none
  | some (whole, cs) =>
    match readFraction? cs with
    | none => none
    | some (fraction, cs) =>
      match readExponent? cs with
      | none => none
      | some (exponent, rest) => some (⟨negative, whole, fraction, exponent⟩, rest)

def read? : List Char → Option (Numeral × List Char)
  | '-' :: cs => readUnsigned? true cs
  | cs => readUnsigned? false cs

/-- Appends digits to a number for as long as it fits into 64 bits. The digits left over come
back. -/
def keepDigits (n : Nat) : List Char → Nat × List Char
  | [] => (n, [])
  | c :: cs =>
    let next := 10 * n + digitValue c
    if next < 18446744073709551616 then keepDigits next cs else (n, c :: cs)

/-- The double nearest to the leading digits, scaled by the power of ten that they count. -/
def double? (n : Numeral) : Option Double :=
  let (whole, left) := keepDigits 0 n.whole
  let (kept, leftOver) := keepDigits whole n.fraction
  let power : Int := left.length - (n.fraction.length - leftOver.length) + n.exponent.getD 0
  (Double.nearest? ⟨kept, 1⟩).bind fun d => d.scale? power

/-- Whether the numeral is a whole number that 64 bits hold. A negative zero is not one. -/
def isInteger (n : Numeral) : Bool :=
  let whole := ofDigits n.whole
  n.fraction.isEmpty && n.exponent.isNone &&
    if n.negative then Nat.blt 0 whole && Nat.ble whole 9223372036854775808
    else Nat.blt whole 18446744073709551616

def value? (n : Numeral) : Option Number :=
  if n.isInteger then
    some (.integer (if n.negative then -(ofDigits n.whole : Int) else ofDigits n.whole))
  else n.double?.map (.double n.negative)

end Numeral
end Json
end Inference
