import WallPanel.Fault
import WallPanel.Geometry.Point
import WallPanel.Geometry.Winding
import WallPanel.Number.Decimal

/-!
# Offset outlines

A closed outline moved outward or inward by a distance, with round corners.

The work is done on a lattice of micrometres. Each edge is moved along its normal; between two moved
edges the corner is rounded on the outside (`OffsetPen.corner`) and joined through the vertex on the
inside. The ring that arises may cross itself; `positiveRegion` takes what it winds around.

* `offsetOutline`: the outline that results, closed by repeating its first point.
-/

namespace WallPanel

variable {α : Type} [Scalar α]

/-! ## Lattice coordinates -/

/-- The lattice points in a millimetre. -/
def latticeScale : α := 1000.0

/-- The nearest integer; a half goes to the even one. -/
def roundHalfEven (x : α) : Except Fault Int :=
  match Scalar.reading x with
  | .finite negative magnitude =>
    let n : Int := Decimal.roundDiv magnitude.num.natAbs magnitude.den
    .ok (if negative then -n else n)
  | .infinite _ => .error .infiniteInteger
  | .undefined => .error .undefinedInteger

/-- The nearest integer of a finite number; a half goes away from zero. -/
def roundHalfAway (x : α) : Int :=
  if x < 0.0 then -Scalar.floor (0.5 - x) else Scalar.floor (x + 0.5)

/-- A point on the lattice. -/
def toLattice (p : Point α) : Except Fault LatticePoint := do
  let x ← roundHalfEven (p.x * latticeScale)
  let y ← roundHalfEven (p.y * latticeScale)
  return ⟨x, y⟩

/-- A lattice point in millimetres. -/
def ofLattice (p : LatticePoint) : Point α :=
  ⟨Scalar.ofInt p.x / latticeScale, Scalar.ofInt p.y / latticeScale⟩

/-- Where the coordinates of the lattice end: they are signed 64-bit integers. -/
def coordinateLimit : Int := 0x8000000000000000

/-- Whether an integer is in the signed 64-bit range. -/
def inRange (n : Int) : Bool :=
  -coordinateLimit ≤ n && n < coordinateLimit

/-- The outline on the lattice, within the range of its coordinates. -/
def latticeOutline (ps : List (Point α)) : Except Fault (List LatticePoint) := do
  let qs ← ps.mapM toLattice
  if qs.all fun q => inRange q.x && inRange q.y then return qs
  else throw .coordinateRange

/-- An outline without vertices that repeat the one before, and counter-clockwise. -/
def orientedOutline (ps : List LatticePoint) : List LatticePoint :=
  let opened := (ps.reverse.dropWhile fun p => ps.head? == some p).reverse
  let kept := if opened.isEmpty then ps.take 1 else opened
  let qs := kept.foldr (fun p rest => if rest.head? = some p then rest else p :: rest) []
  if doubledArea qs < 0 then qs.reverse else qs

/-! ## The moved ring -/

/-- The unit vector to the right of the way from one point to another. -/
def unitNormal (p q : LatticePoint) : Point α :=
  let dx : α := Scalar.ofInt (q.x - p.x)
  let dy : α := Scalar.ofInt (q.y - p.y)
  let f := 1.0 / Scalar.sqrt (dx * dx + dy * dy)
  ⟨dy * f, -(dx * f)⟩

/-- What the rounding of corners needs: the distance in lattice units, the turn from one point of a
rounded corner to the next, and the number of points in an angle of one. -/
structure OffsetPen (α : Type) where
  distance : α
  sin : α
  cos : α
  stepsPerUnit : α

namespace OffsetPen

/-- The pen for a distance. The points of a full circle are so many that its chords stay within a
quarter of a lattice unit of it. -/
def ofDistance (distance : α) : OffsetPen α :=
  let size := Scalar.abs distance
  let sag := Scalar.least 0.25 (size * 0.25)
  let steps := Scalar.least (Scalar.pi / Scalar.acos (1.0 - sag / size)) (size * Scalar.pi)
  let turn := 2.0 * Scalar.pi / steps
  let sin := Scalar.sin turn
  { distance
    sin := if distance < 0.0 then -sin else sin
    cos := Scalar.cos turn
    stepsPerUnit := steps / (2.0 * Scalar.pi) }

/-- The lattice point at the pen's distance from a vertex in a direction. -/
def moved (pen : OffsetPen α) (p : LatticePoint) (direction : Point α) : LatticePoint :=
  ⟨roundHalfAway (Scalar.ofInt p.x + direction.x * pen.distance),
    roundHalfAway (Scalar.ofInt p.y + direction.y * pen.distance)⟩

/-- The points of a rounded corner from a direction on, so many. -/
def round (pen : OffsetPen α) (p : LatticePoint) : Nat → Point α → List LatticePoint
  | 0, _ => []
  | n + 1, v =>
    pen.moved p v ::
      pen.round p n ⟨v.x * pen.cos - pen.sin * v.y, v.x * pen.sin + v.y * pen.cos⟩

/-- Whether a corner between two normals is so slight that one moved point makes it. -/
def isSlight (pen : OffsetPen α) (before after : Point α) : Bool :=
  let cross := before.x * after.y - after.x * before.y
  let dot := before.x * after.x + after.y * before.y
  decide (Scalar.abs (cross * pen.distance) < 1.0) && decide (0.0 < dot)

/-- The points at a vertex, given the normals of the edges before and after it. -/
def corner (pen : OffsetPen α) (p : LatticePoint) (before after : Point α) : List LatticePoint :=
  let cross := before.x * after.y - after.x * before.y
  let dot := before.x * after.x + after.y * before.y
  let slight := decide (Scalar.abs (cross * pen.distance) < 1.0)
  if pen.isSlight before after then [pen.moved p before]
  else
    let sin :=
      if slight then cross
      else if 1.0 < cross then 1.0
      else if cross < -1.0 then -1.0
      else cross
    if sin * pen.distance < 0.0 then [pen.moved p before, p, pen.moved p after]
    else
      let angle := Scalar.abs (Scalar.atan2 sin dot)
      let steps := max (roundHalfAway (pen.stepsPerUnit * angle)).toNat 1
      pen.round p steps before ++ [pen.moved p after]

/-- The points at vertices, each given with the normal of the edge after it. A slight corner keeps
the direction of the edge before it, so that a row of them does not drift. -/
def corners (pen : OffsetPen α) (before : Point α) :
    List (LatticePoint × Point α) → List LatticePoint
  | [] => []
  | (p, after) :: rest =>
    pen.corner p before after ++
      pen.corners (if pen.isSlight before after then before else after) rest

/-- The ring that the corners of an outline make. -/
def ring (pen : OffsetPen α) (ps : List LatticePoint) : List LatticePoint :=
  let normals : List (Point α) := (polygonPairs ps).map fun (p, q) => unitNormal p q
  match normals.getLast? with
  | some last => pen.corners last (ps.zip normals)
  | none => []

end OffsetPen

/-- The distance in lattice units below which an outline stays where it is. -/
def leastDistance : α := 1e-20

/-- The outline of lattice points that results from moving an outline by a distance in lattice
units. -/
def offsetLattice (ps : List LatticePoint) (distance : α) : List LatticePoint :=
  let outline := orientedOutline ps
  if outline.length < 3 || !Scalar.isFinite distance then []
  else if Scalar.abs distance < leastDistance then largestPolygon (positiveRegion outline)
  else largestPolygon (positiveRegion ((OffsetPen.ofDistance distance).ring outline))

/-- An outline moved outward by a distance in millimetres, inward by a negative one. The result is
closed by repeating its first point; it is empty where nothing is left, or with fewer than three
points. Without a distance the outline is only closed. -/
def offsetOutline (ps : List (Point α)) (distance : α) : Except Fault (List (Point α)) :=
  match ps with
  | p :: _ :: _ :: _ =>
    if distance == 0.0 then .ok (ps ++ [p])
    else do
      let outline ← latticeOutline ps
      let result := offsetLattice outline (distance * latticeScale)
      return (result ++ result.take 1).map ofLattice
  | _ => .ok []

end WallPanel
