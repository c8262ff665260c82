import WallPanel.Fault
import WallPanel.Model.Routing

/-!
# The model of a wall

All that a document says, in one record (`WallModel`), with the ids by which an editor finds nail
rows, drillings and routings.

* `WallModel.find?`: the entity of a kind with an id.
* `WallModel.withIds`: the model with an id for every entity.
* `WallModel.extent`, `WallModel.withBounds`: the points that the entities occupy, and the bounds
  recomputed from them.
* `WallModel.view?`: the size to display.
-/

namespace WallPanel

/-- A statement that has no place in the model. -/
structure Unhandled (α : Type) where
  command : String
  numbers : List α
  body : String
  statementIndex : Nat
deriving Repr

/-- A statement without a place, as it stands in the document. -/
def Unhandled.ofStatement {α : Type} (s : Statement α) : Unhandled α :=
  { command := s.command.word, numbers := s.numbers, body := s.body, statementIndex := s.index }

/-- A wall as a document describes it. -/
structure WallModel (α : Type) where
  wall : Option (WallSize α)
  modules : List (ModuleFrame α)
  studs : List (FrameMember α)
  blocking : List (FrameMember α)
  plates : List (FrameMember α)
  sheathing : List (SheathingPanel α)
  nailRows : List (NailRow α)
  routings : List (Routing α)
  drillings : List (Drilling α)
  bounds : Bounds α
  unhandled : List (Unhandled α)
  /-- The statements by position; an edit leaves a gap where it deletes one. -/
  statements : List (Option String)
  source : Option String
  nextEditorId : Int
deriving Repr

/-! ## Entities -/

/-- The kinds of entities that can be edited. -/
inductive EntityKind where
  | nailRow
  | drilling
  | routing
deriving DecidableEq, Repr

namespace EntityKind

/-- The name by which a request calls a kind. -/
def name : EntityKind → String
  | nailRow => "nail_row"
  | drilling => "boy"
  | routing => "paf"

/-- The kinds in the order of the model. -/
def all : List EntityKind := [nailRow, drilling, routing]

/-- The kind of a name. -/
def ofName? (s : String) : Option EntityKind :=
  all.find? (·.name == s)

end EntityKind

/-- An entity that can be edited. -/
inductive Entity (α : Type) where
  | nailRow (r : NailRow α)
  | drilling (d : Drilling α)
  | routing (r : Routing α)
deriving Repr

namespace Entity

variable {α : Type}

/-- The statements that an entity was read from. -/
def statementIndices : Entity α → List Nat
  | nailRow r => [r.statementIndex]
  | drilling d => [d.statementIndex]
  | routing r => r.statementIndices

/-- The first statement of an entity. -/
def statementIndex : Entity α → Nat
  | nailRow r => r.statementIndex
  | drilling d => d.statementIndex
  | routing r => r.statementIndex

end Entity

/-! ## Ids -/

/-- Give the entities of a list that have no id the next ones, in order. The answer is the list and
the next id after it. -/
def assignIds {β : Type} (id? : β → Option Int) (setId : β → Int → β) :
    Int → List β → List β × Int
  | next, [] => ([], next)
  | next, b :: bs =>
    match id? b with
    | some _ =>
      let (rest, after) := assignIds id? setId next bs
      (b :: rest, after)
    | none =>
      let (rest, after) := assignIds id? setId (next + 1) bs
      (setId b next :: rest, after)

namespace WallModel

variable {α : Type} [Scalar α]

/-- The members of the frame: studs, then blocking, then plates. -/
def members (m : WallModel α) : List (FrameMember α) :=
  m.studs ++ m.blocking ++ m.plates

/-- The first entity of a kind with an id. -/
def find? (m : WallModel α) (kind : EntityKind) (id : Int) : Option (Entity α) :=
  match kind with
  | .nailRow => (m.nailRows.find? (·.editorId == some id)).map .nailRow
  | .drilling => (m.drillings.find? (·.editorId == some id)).map .drilling
  | .routing => (m.routings.find? (·.editorId == some id)).map .routing

/-- The model with an id for every entity. Those without one get the next ids: nail rows first,
then drillings, then routings. -/
def withIds (m : WallModel α) : WallModel α :=
  let (nailRows, next) :=
    assignIds NailRow.editorId (fun r id => { r with editorId := some id }) m.nextEditorId
      m.nailRows
  let (drillings, next) :=
    assignIds Drilling.editorId (fun d id => { d with editorId := some id }) next m.drillings
  let (routings, next) :=
    assignIds Routing.editorId (fun r id => { r with editorId := some id }) next m.routings
  { m with nailRows, drillings, routings, nextEditorId := next }

/-! ## Extent -/

/-- The points that the entities of a model occupy. -/
def extent (m : WallModel α) : List (Point α) :=
  m.members.flatMap FrameMember.corners ++
    m.sheathing.flatMap SheathingPanel.extent ++
    m.nailRows.flatMap (fun r => [r.start, r.stop]) ++
    m.routings.flatMap Routing.extent ++
    m.drillings.flatMap (fun d => Drilling.sides d.x d.z (Scalar.orZero d.diameter / 2.0))

/-- The model with its bounds recomputed. A model without extent gets a box at the origin. -/
def withBounds (m : WallModel α) : WallModel α :=
  { m with bounds := .box (Bounds.empty.extendAll m.extent).boxOrOrigin }

/-- The size to display: that of the wall where it is declared, else that of the bounds. It has to
be finite. -/
def view? (m : WallModel α) : Except Fault (α × α) :=
  let size := match m.wall, m.bounds with
    | some w, _ => some (w.width, w.height)
    | none, .box b => some (b.width, b.height)
    | none, .empty => none
  match size with
  | some (width, height) =>
    if Scalar.isFinite width && Scalar.isFinite height then .ok (width, height)
    else .error (.refused .badDimensions)
  | none => .error (.refused .badDimensions)

end WallModel

end WallPanel
