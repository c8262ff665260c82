import WallPanel.Number.Scalar

/-!
# Points

A point of the wall plane in millimetres: `x` runs along the wall, `y` up.

* `Point.isFinite`: whether a point is usable.
* `Point.near`: whether two points count as one vertex.
* `dedupe`: a run of points without repeated vertices.
* `closePath`: the vertices of a run, and whether it is closed.
* `closureViolations`: how many neighbours on a loop count as one vertex.
-/

namespace WallPanel

/-- A point of the wall plane. -/
structure Point (α : Type) where
  x : α
  y : α
deriving Repr

variable {α : Type} [Scalar α]

/-- The distance, in both coordinates, below which two points count as one vertex. -/
def closeTolerance : α := 1e-6

namespace Point

/-- Whether both coordinates are finite. -/
def isFinite (p : Point α) : Bool :=
  Scalar.isFinite p.x && Scalar.isFinite p.y

/-- Whether two points count as one vertex. -/
def near (p q : Point α) : Bool :=
  Scalar.abs (p.x - q.x) < closeTolerance && Scalar.abs (p.y - q.y) < closeTolerance

/-- Whether two points have equal coordinates. -/
def same (p q : Point α) : Bool :=
  p.x == q.x && p.y == q.y

end Point

/-! ## Runs of points -/

/-- The points of a run that are usable and not near the one kept before them, after `last`. -/
def dedupeAfter (last : Option (Point α)) : List (Point α) → List (Point α)
  | [] => []
  | p :: ps =>
    if p.isFinite && !(last.any (·.near p)) then p :: dedupeAfter (some p) ps
    else dedupeAfter last ps

/-- The usable points of a run, each kept only if it is not near the one kept before it. -/
def dedupe (ps : List (Point α)) : List (Point α) :=
  dedupeAfter none ps

/-- Whether a run of at least two points ends near its start. -/
def isClosedLoop (ps : List (Point α)) : Bool :=
  match ps with
  | p :: _ :: _ =>
    match ps.getLast? with
    | some q => p.near q
    | none => false
  | _ => false

/-- The vertices of a run of points and whether they form a closed path. A point at the end that
repeats the start is dropped; three vertices or more are closed in any case. -/
def closePath (ps : List (Point α)) : List (Point α) × Bool :=
  if isClosedLoop ps then (ps.dropLast, true) else (ps, 3 ≤ ps.length)

/-- Each point of a loop with the one after it, the last with the first. -/
def loopPairs (ps : List (Point α)) : List (Point α × Point α) :=
  match ps with
  | [] => []
  | p :: rest => ps.zip (rest ++ [p])

/-- The number of neighbours on a loop of at least two points that count as one vertex. -/
def closureViolations (ps : List (Point α)) : Nat :=
  if ps.length < 2 then 0 else (loopPairs ps).countP fun (p, q) => p.near q

end WallPanel
