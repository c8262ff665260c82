/-!
# Lattice geometry

Points with integer coordinates, on which the questions of plane geometry have exact answers.

* `LatticePoint.cross`, `LatticePoint.turn`: on which side of a line a point lies.
* `Edge.meets`: whether two edges share a point.
* `doubledArea`: twice the signed area of a polygon.
-/

namespace WallPanel

/-- A point with integer coordinates. -/
structure LatticePoint where
  x : Int
  y : Int
deriving DecidableEq, Repr

namespace LatticePoint

/-- The cross product of the vectors from `p` to `q` and from `p` to `r`: positive if `r` is to the
left of the way from `p` to `q`, zero if the three are in line. -/
def turn (p q r : LatticePoint) : Int :=
  (q.x - p.x) * (r.y - p.y) - (q.y - p.y) * (r.x - p.x)

/-- The dot product of the vectors from `p` to `q` and from `p` to `r`. -/
def dot (p q r : LatticePoint) : Int :=
  (q.x - p.x) * (r.x - p.x) + (q.y - p.y) * (r.y - p.y)

/-- The cross product of the vectors from `p` to `q` and from `r` to `s`. -/
def cross (p q r s : LatticePoint) : Int :=
  (q.x - p.x) * (s.y - r.y) - (q.y - p.y) * (s.x - r.x)

end LatticePoint

/-- A straight edge from one point to another. -/
structure Edge where
  start : LatticePoint
  stop : LatticePoint
deriving DecidableEq, Repr

namespace Edge

/-- Whether two ranges of integers, each given by its ends in either order, overlap. -/
def rangesMeet (a b c d : Int) : Bool :=
  min c d ≤ max a b && min a b ≤ max c d

/-- Whether the boxes around two edges share a point. -/
def boxesMeet (e f : Edge) : Bool :=
  rangesMeet e.start.x e.stop.x f.start.x f.stop.x &&
    rangesMeet e.start.y e.stop.y f.start.y f.stop.y

/-- Whether the line through an edge has a point of another edge on it or passes between its
ends. -/
def straddles (e f : Edge) : Bool :=
  let a := LatticePoint.turn e.start e.stop f.start
  let b := LatticePoint.turn e.start e.stop f.stop
  !(0 < a && 0 < b) && !(a < 0 && b < 0)

/-- Whether two edges share a point. -/
def meets (e f : Edge) : Bool :=
  boxesMeet e f && straddles e f && straddles f e

/-- The edges along a run of points, without those of length zero. -/
def ofRun (ps : List LatticePoint) : List Edge :=
  ((ps.zip ps.tail).map fun (p, q) => ⟨p, q⟩).filter fun e => e.start ≠ e.stop

end Edge

/-- Whether two edges that start at `p` run in the same direction, and so share more than `p`. -/
def overlapFrom (p q r : LatticePoint) : Bool :=
  LatticePoint.turn p q r == 0 && 0 < LatticePoint.dot p q r

/-- Each vertex of a polygon with the one after it. -/
def polygonPairs {β : Type} (ps : List β) : List (β × β) :=
  match ps with
  | [] => []
  | p :: rest => ps.zip (rest ++ [p])

/-- The sum of integers. -/
def total (ns : List Int) : Int :=
  ns.foldr (· + ·) 0

/-- Twice the area of a polygon, negative if its vertices run clockwise. -/
def doubledArea (ps : List LatticePoint) : Int :=
  total ((polygonPairs ps).map fun (p, q) => p.x * q.y - q.x * p.y)

end WallPanel
