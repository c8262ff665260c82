import WallPanel.Model.Routing
import WallPanel.Number.Decimal
import WallPanel.Text.Separated

/-!
# Path data

A path cut as the steps of a pen, in the notation of vector graphics: `M` moves, `L` draws a line,
`A` draws an arc, `Z` draws back to the start. Arcs stay arcs; they are given by their radius, by
which of the two arcs it is, and by the sense of rotation.

* `PenStep.ofSegment`: the step that draws a piece of a path.
* `PathCut.penSteps`: the steps that draw a cut.
* `pathData`: the steps as text.
-/

namespace WallPanel

/-- A step of the pen. -/
inductive PenStep (α : Type) where
  | moveTo (p : Point α)
  | lineTo (p : Point α)
  /-- An arc to a point: the larger of the two or not, counter-clockwise or not. -/
  | arcTo (radius : α) (large counterclockwise : Bool) (p : Point α)
  | close
deriving Repr

variable {α : Type} [Scalar α]

namespace PenStep

/-- The step that draws a piece of a path from where the pen stands. An arc is the larger one if it
turns by more than half a turn. -/
def ofSegment : Segment α → PenStep α
  | .line _ stop _ => lineTo stop
  | .arc a => arcTo a.radius (decide (Scalar.pi < a.sweep)) (!a.clockwise) a.stop

/-- The steps that join points by straight lines. -/
def ofPoints : List (Point α) → List (PenStep α)
  | [] => []
  | p :: ps => moveTo p :: ps.map lineTo

/-- A coordinate, with three decimal places. -/
def coordinate (x : α) : List Char :=
  (Scalar.reading x).fixed 3

def flag (b : Bool) : List Char :=
  [if b then '1' else '0']

/-- The words of a step: its letter and its numbers. -/
def words : PenStep α → List (List Char)
  | moveTo p => [['M'], coordinate p.x, coordinate p.y]
  | lineTo p => [['L'], coordinate p.x, coordinate p.y]
  | arcTo radius large counterclockwise p =>
    [['A'], coordinate radius, coordinate radius, ['0'], flag large, flag counterclockwise,
      coordinate p.x, coordinate p.y]
  | close => [['Z']]

end PenStep

namespace PathCut

/-- The steps that draw a cut: along its pieces, or through its points where there are none. A
polygon that is drawn along its pieces is closed at the end. -/
def penSteps (p : PathCut α) : List (PenStep α) :=
  match p.segments with
  | [] => PenStep.ofPoints p.points
  | first :: _ =>
    .moveTo first.start :: p.segments.map PenStep.ofSegment ++
      (match p.kind with
        | .polygon => [.close]
        | .polyline => [])

end PathCut

/-- Steps as text, with a space between each two words. -/
def pathData (steps : List (PenStep α)) : String :=
  String.ofList (Separated.join ' ' (steps.flatMap PenStep.words))

end WallPanel
