import WallPanel.Model.Basic
import WallPanel.Model.Vertex

/-!
# The roles of statements

What a statement contributes to the model of a wall. That hangs on the statement and on what those
before it have left open: a module, a panel, a routing, a path within the routing.

* `Setting`: what the statements of the frame leave for those after them.
* `Context`: the same with the panel, the routing and the path that are open.
* `Role`: what a statement is.
* `Context.role`: the role of a statement in a context.

A point belongs to the open panel, or else to the open routing. A statement without a place is
unhandled.
-/

namespace WallPanel

/-- What the statements of the frame leave for those after them. -/
structure Setting (α : Type) where
  /-- Whether the size of the wall has been declared. -/
  hasWall : Bool
  /-- The module whose frame statements are relative to. -/
  module : Option (ModuleFrame α)
  /-- The member that a drilling goes into. -/
  member : Option (FrameMember α)
  /-- The layer of the last panel. -/
  layer : Option PanelLayer

/-- What the statements before one leave open for it. -/
structure Context (α : Type) where
  setting : Setting α
  /-- The panel that takes the points that follow, as its header describes it. -/
  panel : Option (SheathingPanel α)
  /-- The header of the open routing, by its position. -/
  routing : Option Nat
  /-- The first vertex of the path that is open, by its position. -/
  run : Option Nat

/-- What a statement is in its document. -/
inductive Role (α : Type) where
  /-- It declares the size of the wall. -/
  | wall (w : WallSize α)
  | moduleBegin (m : ModuleFrame α)
  | moduleEnd
  | member (m : FrameMember α)
  /-- It opens a panel. -/
  | panel (p : SheathingPanel α)
  /-- It puts a point on the boundary of the panel with a header. -/
  | boundary (panel : Nat) (p : PanelPoint α)
  /-- It opens a routing. -/
  | header (r : Routing α)
  /-- It cuts a circle in the routing with a header. The circle may fail to be readable. -/
  | circle (routing : Nat) (c : Except NoInteger (CircleCut α))
  /-- It is a vertex of the routing with a header, on the path with a first vertex. -/
  | vertex (routing run : Nat) (v : Vertex α)
  | nailRow (r : NailRow α)
  | drilling (d : Drilling α)
  /-- It has no place. -/
  | unhandled (u : Unhandled α)
  /-- It is of no known command. Such a statement has no place and ends the open routing. -/
  | foreign (u : Unhandled α)

variable {α : Type} [Scalar α]

/-- A path without two usable points, recorded by its first vertex. -/
def Vertex.unhandled (v : Vertex α) : Unhandled α :=
  { command := v.entry.command, numbers := v.entry.numbers, body := v.body
    statementIndex := v.entry.statementIndex }

/-- A routing without cuts, recorded by its header. -/
def Routing.unhandled (r : Routing α) : Unhandled α :=
  { command := Routing.word, numbers := r.source, body := r.body, statementIndex := r.statementIndex }

/-! ## Roles -/

/-- The role of a statement, if it has one, that hangs on the frame alone: that of any but a point,
a curve or a circle. Only the first declaration of the wall counts. -/
def Setting.role? (g : Setting α) (s : Statement α) : Option (Role α) :=
  match s.command.kind with
  | .wall => if g.hasWall then none else (WallSize.ofNumbers? s.numbers).map .wall
  | .moduleBegin => (ModuleFrame.ofNumbers? s.numbers).map .moduleBegin
  | .moduleEnd => some .moduleEnd
  | .stud => (FrameMember.ofStatement? s .stud .vertical g.module none).map .member
  | .blocking => (FrameMember.ofStatement? s .blocking .horizontal g.module none).map .member
  | .topPlate => (FrameMember.ofStatement? s .plate .horizontal none (some .top)).map .member
  | .bottomPlate => (FrameMember.ofStatement? s .plate .horizontal none (some .bottom)).map .member
  | .routing => some (.header (Routing.ofHeader s g.layer))
  | .panel side => (SheathingPanel.ofStatement? s side g.module).map .panel
  | .nailRow => (NailRow.ofStatement? s g.layer).map .nailRow
  | .drilling => (Drilling.ofStatement? s g.module g.member).map .drilling
  | .unknown => some (.foreign (.ofStatement s))
  | .circle | .point | .curve => none

namespace Context

/-- The start of a document. -/
def start : Context α :=
  { setting := { hasWall := false, module := none, member := none, layer := none }
    panel := none, routing := none, run := none }

/-- What ends before a statement is taken in: anything but a point closes the panel, and anything
but points and curves ends the path. -/
def settle (c : Context α) (kind : CommandKind) : Context α :=
  match kind with
  | .point => c
  | .curve => { c with panel := none }
  | _ => { c with panel := none, run := none }

/-- A point on the boundary of the open panel. -/
def boundary? (c : Context α) (s : Statement α) : Option (Role α) := do
  let panel ← c.panel
  let p ← PanelPoint.ofNumbers? s.numbers panel c.setting.module
  return .boundary panel.statementIndex p

/-- A vertex of the open routing: of the open path, or else the first of a new one. -/
def vertex? (c : Context α) (s : Statement α) (v? : Option (Vertex α)) : Option (Role α) := do
  let routing ← c.routing
  let v ← v?
  return .vertex routing (c.run.getD s.index) v

/-- A circle in the open routing. -/
def circle? (c : Context α) (s : Statement α) : Option (Role α) := do
  let routing ← c.routing
  let circle ← CircleCut.ofStatement? s
  return .circle routing circle

/-- The role of a statement, if it has one, after what it ends. -/
def role? (c : Context α) (s : Statement α) : Option (Role α) :=
  match s.command.kind with
  | .circle => c.circle? s
  | .point => c.boundary? s <|> c.vertex? s (Vertex.ofPoint? s c.run.isNone)
  | .curve => c.vertex? s (Vertex.ofCurve? s)
  | _ => c.setting.role? s

/-- The role of a statement, after what it ends. One with too few numbers has no place. -/
def role (c : Context α) (s : Statement α) : Role α :=
  ((if s.isUsable then c.role? s else none)).getD (.unhandled (.ofStatement s))

end Context

end WallPanel
