import SolidScript.Decimal.Shortest

namespace SolidScript

namespace Decimal

def digits (d : Decimal) : String := toString d.coefficient

-- The exponent that the number has with one digit in front of the point.
def magnitude (d : Decimal) : Int := d.exponent + (d.digits.length - 1 : Nat)

def zeros (count : Nat) : String := String.ofList (List.replicate count '0')

-- All digits around a point, which is left out if nothing follows it.
def positional (d : Decimal) : String :=
  let width := (-d.exponent).toNat
  if 0 ≤ d.exponent then d.digits ++ zeros d.exponent.toNat
  else if width < d.digits.length then
    let whole := d.digits.length - width
    String.ofList (d.digits.toList.take whole) ++ "." ++ String.ofList (d.digits.toList.drop whole)
  else "0." ++ zeros (width - d.digits.length) ++ d.digits

-- One digit, the others behind a point, and a power of ten.
def scientific (d : Decimal) : String :=
  let fraction := d.digits.toList.drop 1
  let point := if fraction.isEmpty then "" else "." ++ String.ofList fraction
  String.ofList (d.digits.toList.take 1) ++ point ++ "e" ++ toString d.magnitude

-- Puts ".0" behind an integral number that is written without a point.
def positionalWithPoint (d : Decimal) : String :=
  if 0 ≤ d.exponent then d.positional ++ ".0" else d.positional

end Decimal

namespace Number

def isNegative (x : Float) : Bool := x.toBits >>> 63 == 1

-- The shortest decimal of the magnitude of a finite number.
def decimal (x : Float) : Decimal :=
  let binary := Binary.ofBits x.toBits
  if binary.significand = 0 then ⟨0, 0⟩ else binary.shortest

-- Writes a number whose finite magnitude is written by `write`. Not-a-number has no sign.
def written (write : Decimal → String) (x : Float) : String :=
  if x.isNaN then "NaN"
  else
    let magnitude := if x.isInf then "inf" else write (decimal x)
    if isNegative x then "-" ++ magnitude else magnitude

-- Numbers as values are shown: never with an exponent, and integral numbers without a point.
def plain (x : Float) : String := written Decimal.positional x

-- Numbers as literals of a program: there is always a point or an exponent. The exponent is written below 10^-4 and
-- from 10^16 on.
def literal (x : Float) : String :=
  written (fun d => if -4 ≤ d.magnitude ∧ d.magnitude < 16 then d.positionalWithPoint else d.scientific) x

-- Numbers in a shader. Zero has no sign, and an exponent is written for numbers whose decimal logarithm is below -4 or
-- at least 21.
def shader (x : Float) : String :=
  let x := x + 0.0
  let power := x.abs.log10.floor
  if x.isFinite && x != 0.0 && (power < -4.0 || power >= 21.0) then written Decimal.scientific x
  else plain x

end Number

end SolidScript
