import WallPanel.Model.Basic
import WallPanel.Model.Vertex
import WallPanel.Statement.Written

/-!
# Moving entities

An entity is moved along an axis of the wall, with the statements it was read from. A statement
keeps its spelling except for the numbers that move; where these cannot be found in it, it is
written anew.

* `EntityKind.axis?`: the axes along which a kind can be moved.
* `NailRow.translate?`, `Drilling.translate?`, `Routing.translate?`: the entity moved.
* `WallModel.translateEntity?`: the model with an entity moved.
-/

namespace WallPanel

/-- An axis of the wall: along it, or up it. The height of a drilling is called `z`. -/
inductive Axis where
  | along
  | up
deriving DecidableEq, Repr

/-- The position of the coordinate on an axis among the numbers of a statement. -/
def Axis.position : Axis → Nat
  | along => 0
  | up => 1

/-- The axis of a name, for a kind of entity. -/
def EntityKind.axis? (kind : EntityKind) (name : String) : Option Axis :=
  let upName := match kind with
    | .drilling => "z"
    | _ => "y"
  if name = "x" then some .along else if name = upName then some .up else none

/-- Change the first member of a list that satisfies `p`. -/
def modifyFirst {β : Type} (p : β → Bool) (f : β → β) : List β → List β
  | [] => []
  | b :: bs => if p b then f b :: bs else b :: modifyFirst p f bs

variable {α : Type} [Scalar α]

/-! ## Moving -/

/-- A point moved along an axis. -/
def Point.shift (p : Point α) (axis : Axis) (distance : α) : Point α :=
  match axis with
  | .along => { p with x := p.x + distance }
  | .up => { p with y := p.y + distance }

/-- Numbers with the one at a position moved, if there is one. -/
def shiftNumber (numbers : List α) (position : Nat) (distance : α) : List α :=
  numbers.modify position (· + distance)

namespace NailRow

/-- A nail row moved. It needs the four numbers of its ends. -/
def translate? (r : NailRow α) (axis : Axis) (distance : α) : Option (NailRow α) :=
  if r.source.length < 4 then none
  else
    let i := axis.position
    some { r with
      start := r.start.shift axis distance
      stop := r.stop.shift axis distance
      source := shiftNumber (shiftNumber r.source i distance) (i + 2) distance }

end NailRow

namespace Drilling

/-- A drilling moved. It needs the two numbers of its place. -/
def translate? (d : Drilling α) (axis : Axis) (distance : α) : Option (Drilling α) :=
  if d.source.length < 2 then none
  else
    let source := shiftNumber d.source axis.position distance
    match axis with
    | .along => some { d with x := d.x + distance, localX := d.localX + distance, source }
    | .up => some { d with z := d.z + distance, localZ := d.localZ + distance, source }

end Drilling

namespace RoutingSegment

/-- A cut moved. A path is drawn again from its moved lines. -/
def translate (axis : Axis) (distance : α) : RoutingSegment α → RoutingSegment α
  | circle c =>
    circle { c with
      position := c.position.shift axis distance
      source := shiftNumber c.source axis.position distance }
  | path p =>
    let source := p.source.map fun e =>
      { e with numbers := shiftNumber e.numbers axis.position distance }
    path { p with source }.redrawn.1

end RoutingSegment

/-- A routing moved. It needs a cut. -/
def Routing.translate? (r : Routing α) (axis : Axis) (distance : α) : Option (Routing α) :=
  if r.segments.isEmpty then none
  else some { r with segments := r.segments.map (RoutingSegment.translate axis distance) }

/-! ## Statements -/

/-- The statement of a line of a path. -/
def SourceEntry.statement (e : SourceEntry α) : String :=
  if e.command = "KB" then writeCurve e.command e.numbers e.flag
  else writeStatement e.command e.numbers

/-- The statement at an index with the numbers at some positions moved, or `fresh` where that cannot
be done. -/
def movedStatement (statements : List (Option String)) (index : Nat) (positions : List Nat)
    (distance : α) (fresh : String) : String :=
  ((statements[index]?.join).bind fun s => shiftStatement s positions distance).getD fresh

/-- The statements of a cut that has been moved, with their indices. -/
def RoutingSegment.movedStatements (statements : List (Option String)) (axis : Axis)
    (distance : α) : RoutingSegment α → List (Nat × String)
  | circle c =>
    [(c.statementIndex, movedStatement statements c.statementIndex [axis.position] distance
      (writeStatement "MP" c.source))]
  | path p =>
    p.source.map fun e =>
      (e.statementIndex,
        movedStatement statements e.statementIndex [axis.position] distance e.statement)

/-- Statements with some of them replaced. -/
def setStatements (statements : List (Option String)) (changes : List (Nat × String)) :
    List (Option String) :=
  changes.foldl (fun ss (i, text) => ss.set i (some text)) statements

/-! ## The model -/

namespace WallModel

/-- The model with an entity moved, if the entity can be. The bounds are left as they are. -/
def translateEntity? (m : WallModel α) (entity : Entity α) (axis : Axis) (distance : α) :
    Option (WallModel α) :=
  let i := axis.position
  match entity with
  | .nailRow r => do
    let r ← r.translate? axis distance
    let text := movedStatement m.statements r.statementIndex [i, i + 2] distance
      (writeStatement NailRow.word r.source)
    return { m with
      nailRows := modifyFirst (·.editorId == r.editorId) (fun _ => r) m.nailRows
      statements := setStatements m.statements [(r.statementIndex, text)] }
  | .drilling d => do
    let d ← d.translate? axis distance
    let text := movedStatement m.statements d.statementIndex [i] distance
      (writeStatement Drilling.word d.source)
    return { m with
      drillings := modifyFirst (·.editorId == d.editorId) (fun _ => d) m.drillings
      statements := setStatements m.statements [(d.statementIndex, text)] }
  | .routing r => do
    let r ← r.translate? axis distance
    let changes := r.segments.flatMap (RoutingSegment.movedStatements m.statements axis distance)
    return { m with
      routings := modifyFirst (·.editorId == r.editorId) (fun _ => r) m.routings
      statements := setStatements m.statements changes }

end WallModel

end WallPanel
