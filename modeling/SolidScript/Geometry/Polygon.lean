import SolidScript.Geometry.Vector

namespace SolidScript

-- An edge that is not level, from its lower to its upper end.
structure Edge (α : Type) where
  low : Vec2 α
  high : Vec2 α
deriving Repr, DecidableEq, Inhabited

-- The part of a polygon between two neighbouring heights, which is filled between two of its edges.
structure Band (α : Type) where
  low : α
  high : α
  left : Edge α
  right : Edge α
deriving Repr, DecidableEq, Inhabited

namespace Polygon

variable [Scalar α]

def insertAscending (a : α) : List α → List α
  | [] => [a]
  | b :: rest => if Scalar.precedes a b then a :: b :: rest else b :: insertAscending a rest

def ascending (values : List α) : List α := values.foldr insertAscending []

-- Drops every value that equals the one kept before it.
def distinctAfter (kept : α) : List α → List α
  | [] => []
  | b :: rest => if Scalar.equal kept b then distinctAfter kept rest else b :: distinctAfter b rest

def distinct : List α → List α
  | [] => []
  | a :: rest => a :: distinctAfter a rest

-- The heights at which bands begin and end.
def heights (points : List (Vec2 α)) : List α := distinct (ascending (points.map Vec2.y))

-- The edge between two points, unless it is level.
def edge? (start finish : Vec2 α) : Option (Edge α) :=
  if Scalar.equal start.y finish.y then none
  else if Scalar.less start.y finish.y then some ⟨start, finish⟩
  else some ⟨finish, start⟩

-- The edges of the closed outline, in its order.
def edges (points : List (Vec2 α)) : List (Edge α) :=
  match points with
  | [] => []
  | first :: rest => (points.zip (rest ++ [first])).filterMap fun (start, finish) => edge? start finish

-- Whether an edge reaches into the band.
def crosses (low high : α) (e : Edge α) : Bool :=
  !(Scalar.lessEq e.high.y low || Scalar.lessEq high e.low.y)

-- The second edge of a band is the left one if one of its ends is left of the same end of the first.
def ordered (first second : Edge α) : Edge α × Edge α :=
  if Scalar.less second.low.x first.low.x || Scalar.less second.high.x first.high.x then (second, first)
  else (first, second)

-- The fill of one band. A band that fewer than two edges cross is left out, and one with more than two is refused.
def band? (points : List (Vec2 α)) (low high : α) : Option (Option (Band α)) :=
  match (edges points).filter (crosses low high) with
  | [first, second] =>
    let (left, right) := ordered first second
    some (some ⟨low, high, left, right⟩)
  | _ :: _ :: _ => none
  | _ => some none

-- The bands between neighbouring heights, unless one of them is refused.
def bandsBetween (points : List (Vec2 α)) : List α → Option (List (Band α))
  | low :: high :: rest => do
    let band ← band? points low high
    let bands ← bandsBetween points (high :: rest)
    return band.toList ++ bands
  | _ => some []

def bands? (points : List (Vec2 α)) : Option (List (Band α)) := bandsBetween points (heights points)

-- The corners of the box around the points.
def corners (first : Vec2 α) (rest : List (Vec2 α)) : Vec2 α × Vec2 α :=
  let low := rest.foldl Vec2.least first
  let high := rest.foldl Vec2.greatest first
  (low.map (Scalar.settled Scalar.infinite), high.map (Scalar.settled (-Scalar.infinite)))

end Polygon

end SolidScript
