import WallPanel.Geometry.Point

/-!
# Bounds

The extent of the points seen so far, as a box with sides along the axes.

* `Bounds.extend`, `Bounds.extendRect`: take in a point, or two opposite corners of a rectangle.
* `Bounds.feedAll`: take in points and rectangles, one after the other.
* `Bounds.contains`: whether a point lies in the box, up to a tolerance.
* `Bounds.sides`: the four sides, also where there is no box.

Points without finite coordinates have no extent and are passed over.
-/

namespace WallPanel

/-- A box with sides along the axes. -/
structure Box (α : Type) where
  minX : α
  maxX : α
  minY : α
  maxY : α
deriving Repr

/-- The extent of the points seen so far: none before the first. -/
inductive Bounds (α : Type) where
  | empty
  | box (b : Box α)
deriving Repr

variable {α : Type} [Scalar α]

namespace Box

/-- The box of one point. -/
def ofPoint (p : Point α) : Box α :=
  ⟨p.x, p.x, p.y, p.y⟩

/-- The least box that holds a box and a point. -/
def extend (b : Box α) (p : Point α) : Box α :=
  { minX := Scalar.least b.minX p.x
    maxX := Scalar.greatest b.maxX p.x
    minY := Scalar.least b.minY p.y
    maxY := Scalar.greatest b.maxY p.y }

/-- The box at the origin without extent. -/
def origin : Box α :=
  ⟨0.0, 0.0, 0.0, 0.0⟩

def width (b : Box α) : α :=
  b.maxX - b.minX

def height (b : Box α) : α :=
  b.maxY - b.minY

end Box

namespace Bounds

/-- Take in a point. -/
def extend (b : Bounds α) (p : Point α) : Bounds α :=
  if p.isFinite then
    match b with
    | empty => box (.ofPoint p)
    | box b => box (b.extend p)
  else b

/-- Take in all points of a list. -/
def extendAll (b : Bounds α) (ps : List (Point α)) : Bounds α :=
  ps.foldl extend b

/-- The corner at the origin of a rectangle and the one opposite. -/
def corners (x y width height : α) : List (Point α) :=
  [⟨x, y⟩, ⟨x + width, y + height⟩]

/-- Take in a rectangle. -/
def extendRect (b : Bounds α) (x y width height : α) : Bounds α :=
  b.extendAll (corners x y width height)

/-- What is fed to bounds. -/
inductive Feed (α : Type) where
  /-- A point of which a coordinate may be missing. -/
  | point (x? y? : Option α)
  /-- A rectangle by a corner and its size, which may be negative. -/
  | rect (x y width height : α)
deriving Repr

/-- The points that are fed: none if a coordinate is missing, and two corners of a rectangle. -/
def Feed.points : Feed α → List (Point α)
  | point (some x) (some y) => [⟨x, y⟩]
  | point _ _ => []
  | rect x y width height => corners x y width height

/-- Take in a point if both coordinates are given. -/
def extendGiven (b : Bounds α) (x? y? : Option α) : Bounds α :=
  match x?, y? with
  | some x, some y => b.extend ⟨x, y⟩
  | _, _ => b

/-- Take in what is fed. -/
def feed (b : Bounds α) : Feed α → Bounds α
  | .point x? y? => b.extendGiven x? y?
  | .rect x y width height => b.extendRect x y width height

/-- Take in all that is fed. -/
def feedAll (b : Bounds α) (fs : List (Feed α)) : Bounds α :=
  fs.foldl feed b

/-- Whether any point has been taken in. -/
def isFinite : Bounds α → Bool
  | empty => false
  | box _ => true

/-- The tolerance with which points are checked against the bounds. -/
def containsTolerance : α := 1e-6

/-- Whether a point lies in the bounds, up to a tolerance on each side. -/
def contains (b : Bounds α) (tolerance : α) (p : Point α) : Bool :=
  match b with
  | empty => false
  | box b =>
    b.minX - tolerance ≤ p.x && p.x ≤ b.maxX + tolerance &&
      b.minY - tolerance ≤ p.y && p.y ≤ b.maxY + tolerance

/-- The four sides of the bounds. Where there is no box, they reach from infinity back to minus
infinity. -/
def sides (infinity : α) : Bounds α → Box α
  | empty => ⟨infinity, -infinity, infinity, -infinity⟩
  | box b => b

/-- The box of the bounds, or one without extent at the origin where there is none. -/
def boxOrOrigin : Bounds α → Box α
  | empty => .origin
  | box b => b

end Bounds

end WallPanel
