namespace SolidScript

namespace Number

-- The value of a run of decimal digits.
def digitsValue (digits : List Char) : Nat :=
  digits.foldl (fun value c => value * 10 + (c.toNat - '0'.toNat)) 0

-- Removes a sign. The flag says whether it was a minus.
def splitSign : List Char → Bool × List Char
  | '-' :: rest => (true, rest)
  | '+' :: rest => (false, rest)
  | text => (false, text)

-- A run of digits and what follows it.
def splitDigits (text : List Char) : List Char × List Char := text.span Char.isDigit

-- The digits behind a point, if there is a point, and what follows them.
def splitFraction : List Char → List Char × List Char
  | '.' :: rest => splitDigits rest
  | text => ([], text)

-- The exponent that makes up all of `text`. An exponent needs at least one digit.
def exponent? : List Char → Option Int
  | [] => some 0
  | c :: rest =>
    if c = 'e' ∨ c = 'E' then
      let (negative, digits) := splitSign rest
      if !digits.isEmpty && digits.all Char.isDigit then
        let value : Int := digitsValue digits
        some (if negative then -value else value)
      else none
    else none

-- The double-precision number nearest to coefficient · 10^power. Numbers far outside the range are settled by their
-- size, so that no large power has to be computed.
def nearest (coefficient : Nat) (power : Int) : Float :=
  let size : Int := power + (toString coefficient).length
  if coefficient = 0 then 0.0
  else if 400 < size then 1.0 / 0.0
  else if size < -400 then 0.0
  else Float.ofScientific coefficient (power < 0) power.natAbs

-- Digits on at least one side of the point, then an exponent.
def ofNumeral? (text : List Char) : Option Float :=
  let (whole, rest) := splitDigits text
  let (fraction, rest) := splitFraction rest
  if whole.isEmpty && fraction.isEmpty then none
  else match exponent? rest with
    | some power => some (nearest (digitsValue (whole ++ fraction)) (power - fraction.length))
    | none => none

def ofName? (text : List Char) : Option Float :=
  match String.ofList (text.map Char.toLower) with
  | "inf" | "infinity" => some (1.0 / 0.0)
  | "nan" => some (0.0 / 0.0)
  | _ => none

def ofText? (text : String) : Option Float :=
  let (negative, magnitude) := splitSign text.toList
  match (ofName? magnitude).or (ofNumeral? magnitude) with
  | some x => some (if negative then -x else x)
  | none => none

-- A literal for an integer. It has to be below 2^63.
def integer? (text : String) : Option Int64 :=
  let digits := text.toList
  if !digits.isEmpty && digits.all Char.isDigit && digitsValue digits < Nat.pow 2 63 then
    some (Int64.ofNat (digitsValue digits))
  else none

end Number

end SolidScript
