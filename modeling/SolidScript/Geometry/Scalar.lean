namespace SolidScript

-- `precedes` is a total order, also for numbers that compare with nothing. `least` and `greatest` pass over such a
-- number if the other one is ordinary.
class Scalar (α : Type) extends Add α, Sub α, Mul α, Div α, Neg α where
  zero : α
  one : α
  half : α
  less : α → α → Bool
  lessEq : α → α → Bool
  equal : α → α → Bool
  precedes : α → α → Bool
  least : α → α → α
  greatest : α → α → α
  magnitude : α → α
  -- The nearest integer, and the one farther from zero if two are equally near.
  round : α → α
  isFinite : α → Bool
  -- Stands for a bound where no number that equals itself gives one.
  infinite : α

namespace Scalar

-- A number that equals itself, or else the given one.
def settled [Scalar α] (fallback a : α) : α := if equal a a then a else fallback

def leastFloat (a b : Float) : Float :=
  if a.isNaN then b else if b.isNaN then a else if b < a then b else a

def greatestFloat (a b : Float) : Float :=
  if a.isNaN then b else if b.isNaN then a else if a < b then b else a

instance : Scalar Float where
  zero := 0.0
  one := 1.0
  half := 0.5
  less a b := a < b
  lessEq a b := a ≤ b
  equal a b := a == b
  precedes a b := a.isNaN || a ≤ b
  least := leastFloat
  greatest := greatestFloat
  magnitude := Float.abs
  round := Float.round
  isFinite := Float.isFinite
  infinite := 1.0 / 0.0

end Scalar

end SolidScript
