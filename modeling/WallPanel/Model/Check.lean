import WallPanel.Geometry.Crossing
import WallPanel.Model.Basic
import WallPanel.Number.Decimal

/-!
# Checking a model

`WallModel.issues` lists what is wrong with the geometry of a model: closed cuts that cross
themselves or repeat a vertex, and entities outside the bounds.
-/

namespace WallPanel

/-- What kind of entity a point belongs to. -/
inductive PointOwner where
  | frame
  | panel
  | entity (kind : EntityKind)
deriving DecidableEq, Repr

def PointOwner.name : PointOwner → String
  | frame => "frame"
  | panel => "panel"
  | entity kind => kind.name

/-- What is wrong. -/
inductive Defect (α : Type) where
  | selfIntersection
  | closure
  | outside (owner : PointOwner) (point : Point α)
deriving Repr

/-- Something wrong, with the entity that it was found in. -/
structure Issue (α : Type) where
  defect : Defect α
  editorId : Option Int
  statementIndex : Nat
deriving Repr

variable {α : Type} [Scalar α]

namespace Defect

def kind : Defect α → String
  | selfIntersection => "self_intersection"
  | closure => "closure"
  | outside .. => "bounds"

def message : Defect α → String
  | selfIntersection => "routing polygon crosses itself"
  | closure => "routing polygon repeats a vertex"
  | outside owner p =>
    owner.name ++ " point (" ++ String.ofList (Scalar.reading p.x).general ++ ", " ++
      String.ofList (Scalar.reading p.y).general ++ ") lies outside the model bounds"

end Defect

/-- A path that ends where it starts: the first point is repeated unless it is there already. -/
def closedOutline (ps : List (Point α)) : List (Point α) :=
  match ps, ps.getLast? with
  | p :: _, some q => if p.same q then ps else ps ++ [p]
  | _, _ => ps

/-- What is wrong with the shape of a cut. -/
def RoutingSegment.defects : RoutingSegment α → List (Defect α)
  | circle _ => []
  | path p =>
    match p.kind with
    | .polyline => []
    | .polygon =>
      (if crossesItself (closedOutline p.outline) then [.selfIntersection] else []) ++
        (if closureViolations p.points ≠ 0 then [.closure] else [])

/-- The points of an entity that have to lie in the bounds. -/
structure OwnedPoints (α : Type) where
  owner : PointOwner
  editorId : Option Int
  statementIndex : Nat
  points : List (Point α)

namespace WallModel

/-- The points of all entities. -/
def ownedPoints (m : WallModel α) : List (OwnedPoints α) :=
  m.members.map (fun r => ⟨.frame, none, r.statementIndex, r.corners⟩) ++
    m.sheathing.map (fun p => ⟨.panel, none, p.statementIndex, p.extent⟩) ++
    m.nailRows.map (fun r => ⟨.entity .nailRow, r.editorId, r.statementIndex, [r.start, r.stop]⟩) ++
    m.routings.map (fun r => ⟨.entity .routing, r.editorId, r.statementIndex, r.extent⟩) ++
    m.drillings.map (fun d => ⟨.entity .drilling, d.editorId, d.statementIndex, [⟨d.x, d.z⟩]⟩)

/-- What is wrong with the shapes of the cuts. -/
def shapeIssues (m : WallModel α) : List (Issue α) :=
  m.routings.flatMap fun r =>
    r.segments.flatMap fun s => s.defects.map fun d => ⟨d, r.editorId, r.statementIndex⟩

/-- The entities outside the bounds, each by the first of its points there. -/
def boundsIssues (m : WallModel α) : List (Issue α) :=
  m.ownedPoints.filterMap fun o =>
    (o.points.find? fun p => !m.bounds.contains Bounds.containsTolerance p).map fun p =>
      ⟨.outside o.owner p, o.editorId, o.statementIndex⟩

/-- All that is wrong with the geometry of a model. -/
def issues (m : WallModel α) : List (Issue α) :=
  m.shapeIssues ++ m.boundsIssues

end WallModel

end WallPanel
