import WallPanel.Geometry.Bounds
import WallPanel.Geometry.Path
import WallPanel.Model.Sheathing

/-!
# Routings and drillings

The cuts that a router makes and the holes drilled into the members of the frame.

* `RoutingSegment`: a circle or a path.
* `Routing.ofHeader`, `CircleCut.ofStatement?`: a routing as its header opens it, and a circle.
* `Routing.extent`: the points that a routing occupies.
* `Drilling.place`: where a drilling lies in the wall.
* `Drilling.ofStatement?`: a drilling.
-/

namespace WallPanel

/-- A vertex line that a path was read from. -/
structure SourceEntry (α : Type) where
  command : String
  numbers : List α
  statementIndex : Nat
  /-- The flag of a curve, as it is spelled. -/
  flag : Option String
deriving Repr

/-- A circle that is cut. -/
structure CircleCut (α : Type) where
  position : Point α
  radius : α
  /-- The depth as it is written, perhaps negative. -/
  depthRaw : Option α
  orientation : Option α
  feed : Option α
  controlCode : Option Int
  extras : List α
  source : List α
  statementIndex : Nat
deriving Repr

inductive PathKind where
  /-- A closed path. -/
  | polygon
  /-- An open one, with two vertices. -/
  | polyline
deriving DecidableEq, Repr

/-- The shape of a path with some count of vertices, if they are enough for one. -/
def PathKind.of? (count : Nat) (closed : Bool) : Option PathKind :=
  if closed && 3 ≤ count then some .polygon
  else if 2 ≤ count then some .polyline
  else none

/-- A path that is cut. Depth, offset, orientation and height are means over its vertices. -/
structure PathCut (α : Type) where
  kind : PathKind
  points : List (Point α)
  segments : List (Segment α)
  depth : Option α
  depthRaw : Option α
  offset : Option α
  orientation : Option α
  z : Option α
  controlCode : Option Int
  source : List (SourceEntry α)
  samples : List (Point α)
deriving Repr

/-- One cut of a routing. -/
inductive RoutingSegment (α : Type) where
  | circle (c : CircleCut α)
  | path (p : PathCut α)
deriving Repr

/-- A routing with its cuts. -/
structure Routing (α : Type) where
  tool : Option α
  face : Option α
  passes : Option α
  segments : List (RoutingSegment α)
  /-- The layer of the last panel before the routing. -/
  layer : Option PanelLayer
  source : List α
  body : String
  statementIndex : Nat
  /-- The statements of the routing: its header, its circles and its vertices. -/
  statementIndices : List Nat
  editorId : Option Int
deriving Repr

/-- A hole drilled into the frame. -/
structure Drilling (α : Type) where
  x : α
  z : α
  localX : α
  localZ : α
  diameter : α
  depth : α
  /-- The member that is drilled. -/
  target : Option (FrameMember α)
  source : List α
  body : String
  statementIndex : Nat
  editorId : Option Int
deriving Repr

variable {α : Type} [Scalar α]

namespace PathCut

/-- The points along a path: its samples, or its vertices where there are none. -/
def outline (p : PathCut α) : List (Point α) :=
  if p.samples.isEmpty then p.points else p.samples

end PathCut

namespace CircleCut

/-- The depth of a circle without its sign. -/
def depth (c : CircleCut α) : Option α :=
  c.depthRaw.map Scalar.abs

/-- Two opposite corners of the square around a circle. -/
def corners (position : Point α) (radius : α) : List (Point α) :=
  [⟨position.x - radius, position.y - radius⟩, ⟨position.x + radius, position.y + radius⟩]

/-- The circle of a statement. It fails if its orientation, which is its control code, is not
finite. -/
def read (s : Statement α) (x y size : α) : Except NoInteger (CircleCut α) := do
  let orientation := s.number? 4
  let controlCode ← orientation.mapM Scalar.roundHalfUp
  return {
    position := ⟨x, y⟩, radius := Scalar.abs size, depthRaw := s.number? 3, orientation
    feed := s.number? 5, controlCode, extras := s.numbers.drop 6, source := s.numbers
    statementIndex := s.index }

/-- The circle of a statement with a place and a size, as far as it can be read. -/
def ofStatement? (s : Statement α) : Option (Except NoInteger (CircleCut α)) :=
  match s.numbers with
  | x :: y :: size :: _ => some (read s x y size)
  | _ => none

end CircleCut

/-- The points that a cut occupies. -/
def RoutingSegment.extent : RoutingSegment α → List (Point α)
  | circle c => CircleCut.corners c.position (Scalar.orZero c.radius)
  | path p => p.outline

namespace Routing

/-- The command word of a routing. -/
def word : String := "PAF"

/-- The routing that a header opens, without cuts and without an id. -/
def ofHeader (s : Statement α) (layer : Option PanelLayer) : Routing α :=
  { tool := s.number? 0
    face := s.number? 1
    passes := s.number? 2
    segments := []
    layer
    source := s.numbers
    body := s.body
    statementIndex := s.index
    statementIndices := [s.index]
    editorId := none }

/-- The points that a routing occupies. -/
def extent (r : Routing α) : List (Point α) :=
  r.segments.flatMap RoutingSegment.extent

end Routing

namespace Drilling

/-- The command word of a drilling. -/
def word : String := "BOY"

/-- The side that a drilling comes from: -1 for the top face, which a negative depth stands for, and
1 otherwise. -/
def direction (d : Drilling α) : Int :=
  if d.depth < 0.0 then -1 else 1

/-- Where a drilling lies. Along the wall it is relative to the member it drills, or else to the
module; its height is relative to the module. -/
def place (localX localZ : α) (module? : Option (ModuleFrame α)) (targetX : Option α) : α × α :=
  let base := targetX <|> module?.map (·.originX)
  let x := match base with
    | some b => b + localX
    | none => localX
  let originZ := match module? with
    | some m => m.originZ
    | none => 0.0
  (x, originZ + localZ)

/-- The points left and right of a drilling at a distance. -/
def sides (x z radius : α) : List (Point α) :=
  [⟨x - radius, z⟩, ⟨x + radius, z⟩]

/-- The drilling of a statement, into a member if one is given, without an id. -/
def ofStatement? (s : Statement α) (module? : Option (ModuleFrame α))
    (member? : Option (FrameMember α)) : Option (Drilling α) :=
  match s.numbers with
  | localX :: localZ :: size :: depth :: _ =>
    let (x, z) := place localX localZ module? (member?.map (·.x))
    some {
      x, z, localX, localZ, depth
      diameter := Scalar.abs size
      target := member?
      source := s.numbers
      body := s.body
      statementIndex := s.index
      editorId := none }
  | _ => none

end Drilling

end WallPanel
