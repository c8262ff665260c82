import WallPanel.Geometry.Lattice
import WallPanel.Geometry.Point

/-!
# Self-crossing paths

Whether a path touches or crosses itself, decided exactly. This stands for the simplicity test of a
geometry library, to which the check of a model gives the outlines of its polygons.

* `latticeOf`: points with finite coordinates on a common lattice. Other points are dropped.
* `isSimplePath`: no two edges of a path share a point, except neighbours the vertex between them.
* `crossesItself`: the question for points of the wall plane.
-/

namespace WallPanel

/-! ## Exact coordinates -/

/-- A denominator that all the numbers share. -/
def commonDenominator (qs : List Rat) : Nat :=
  qs.foldl (fun d q => Nat.lcm d q.den) 1

/-- A rational number as a multiple of a fraction of one. -/
def onLattice (den : Nat) (q : Rat) : Int :=
  q.num * (den / q.den : Nat)

section Scalars

variable {α : Type} [Scalar α]

/-- The exact coordinates of a point, if they are finite. -/
def Point.rational? (p : Point α) : Option (Rat × Rat) := do
  let x ← (Scalar.reading p.x).value?
  let y ← (Scalar.reading p.y).value?
  return (x, y)

/-- The points of a run with finite coordinates, scaled to a common lattice. The other points are
dropped, so that their neighbours are joined. -/
def latticeOf (ps : List (Point α)) : List LatticePoint :=
  let exact := ps.filterMap Point.rational?
  let den := commonDenominator (exact.map Prod.fst ++ exact.map Prod.snd)
  exact.map fun (x, y) => ⟨onLattice den x, onLattice den y⟩

end Scalars

/-! ## Simple paths -/

/-- Whether two edges of a path share more than they may. The edges are given with their positions
among `count`; neighbours may share the vertex between them, which the first and the last do on a
closed path. -/
def conflict (count : Nat) (closed : Bool) (e f : Nat × Edge) : Bool :=
  if f.1 = e.1 + 1 then overlapFrom e.2.stop e.2.start f.2.stop
  else if closed && e.1 == 0 && f.1 + 1 == count then overlapFrom e.2.start e.2.stop f.2.start
  else e.2.meets f.2

/-- Whether no two edges of a list are in conflict. -/
def noConflict (count : Nat) (closed : Bool) : List (Nat × Edge) → Bool
  | [] => true
  | e :: es => es.all (fun f => !conflict count closed e f) && noConflict count closed es

/-- The edges with their positions. -/
def numbered (es : List Edge) : List (Nat × Edge) :=
  (List.range es.length).zip es

/-- Whether a run of points is a path that neither touches nor crosses itself. -/
def isSimplePath (ps : List LatticePoint) : Bool :=
  let es := Edge.ofRun ps
  let closed := ps.head? == ps.getLast?
  noConflict es.length closed (numbered es)

/-- Whether a path of at least three points touches or crosses itself: the answer of a geometry
library that the path is not simple. Points that are not finite count for the length, but are dropped
before the edges are drawn. -/
def crossesItself {α : Type} [Scalar α] (ps : List (Point α)) : Bool :=
  if ps.length < 3 then false else !isSimplePath (latticeOf ps)

end WallPanel
