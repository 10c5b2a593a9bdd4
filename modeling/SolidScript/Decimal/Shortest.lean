namespace SolidScript

-- The number coefficient · 10^exponent.
structure Decimal where
  coefficient : Nat
  exponent : Int
deriving Repr, DecidableEq, Inhabited

-- The positive number significand · 2^exponent. A number with a `closeBelow` neighbour is a power of two, below which
-- the next number is only half as far away as above it.
structure Binary where
  significand : Nat
  exponent : Int
  closeBelow : Bool
deriving Repr, DecidableEq, Inhabited

namespace Binary

-- The magnitude of a finite double-precision number. The sign is not part of it.
def ofBits (bits : UInt64) : Binary :=
  let field : Nat := bits.toNat % Nat.pow 2 52
  let power : Nat := bits.toNat / Nat.pow 2 52 % Nat.pow 2 11
  if power = 0 then ⟨field, -1074, false⟩
  else ⟨Nat.pow 2 52 + field, (power : Int) - 1075, field == 0 && power != 1⟩

-- The rounding interval in quarters of a unit in the last place.
def low (b : Binary) : Nat := if b.closeBelow then 4 * b.significand - 1 else 4 * b.significand - 2

def high (b : Binary) : Nat := 4 * b.significand + 2

-- A quarter of a unit in the last place is `num k / den k` steps of the grid of multiples of 10^k.
def num (b : Binary) (k : Int) : Nat := Nat.pow 2 (b.exponent - 2).toNat * Nat.pow 10 (-k).toNat

def den (b : Binary) (k : Int) : Nat := Nat.pow 2 (2 - b.exponent).toNat * Nat.pow 10 k.toNat

-- Whether the grid point d · 10^k rounds to the number.
def covers (b : Binary) (k : Int) (d : Nat) : Bool :=
  let point := d * b.den k
  let low := b.low * b.num k
  let high := b.high * b.num k
  if b.significand % 2 = 0 then low ≤ point && point ≤ high else low < point && point < high

-- The neighbour on the grid of multiples of 10^k that rounds to the number. Of two such neighbours the nearer one is
-- taken, and the upper one if they are equally near.
def onGrid? (b : Binary) (k : Int) : Option Nat :=
  let value := 4 * b.significand * b.num k
  let below := value / b.den k
  match b.covers k below, b.covers k (below + 1) with
  | true, true => if 2 * (value % b.den k) < b.den k then some below else some (below + 1)
  | true, false => some below
  | false, true => some (below + 1)
  | false, false => none

-- An exponent so large that the number is smaller than that power of ten.
def topGrid (b : Binary) : Int :=
  let bound : Int := b.significand.log2 + 1 + b.exponent
  if 0 ≤ bound then bound / 3 + 1 else -(-bound / 4)

-- Tests `grids` grids in turn, from the multiples of 10^k downward.
def firstHit (b : Binary) : Nat → Int → Option Decimal
  | 0, _ => none
  | grids + 1, k =>
    match b.onGrid? k with
    | some d => some ⟨d, k⟩
    | none => firstHit b grids (k - 1)

-- More grids than lie between the coarsest and the finest one that any double-precision number needs.
def gridLimit : Nat := 1200

-- The shortest decimal that rounds to the number. Longer ones lie on finer grids.
def shortest (b : Binary) : Decimal :=
  (b.firstHit gridLimit b.topGrid).getD ⟨0, 0⟩

end Binary

end SolidScript
