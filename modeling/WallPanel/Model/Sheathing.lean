import WallPanel.Model.Frame

/-!
# Sheathing

The panels on both faces of the frame, and the rows of nails that hold them.

* `SheathingPanel.ofStatement?`: a panel from its header, without boundary.
* `PanelPoint.ofNumbers?`: a point on the boundary of a panel.
* `NailRow.ofStatement?`: a nail row.
-/

namespace WallPanel

/-- A layer of sheathing, as the command of a panel names it. -/
structure PanelLayer where
  side : Side
  index : Nat
  word : String
deriving DecidableEq, Repr

/-- The short name of a layer by its side. -/
def Side.layerName : Side → String
  | .inner => "pli"
  | .outer => "pla"

/-- The direction in which a layer faces. -/
def Side.direction : Side → Int
  | .inner => 1
  | .outer => -1

/-- A point on the boundary of a panel. -/
structure PanelPoint (α : Type) where
  x : α
  y : α
  thickness : Option α
  offset : Option α
  extras : List α
deriving Repr

/-- A panel of sheathing. -/
structure SheathingPanel (α : Type) where
  width : α
  height : α
  thickness : α
  x : α
  y : α
  localX : α
  localY : α
  offset : Option α
  rotation : α
  materialIndex : α
  material : Option String
  layer : PanelLayer
  /-- The boundary; where it has fewer than three points, the rectangle of the panel. -/
  points : List (PanelPoint α)
  source : List α
  statementIndex : Nat
deriving Repr

/-- A row of nails from one point to another. -/
structure NailRow (α : Type) where
  start : Point α
  stop : Point α
  spacing : Option α
  gauge : Option α
  /-- The layer of the last panel before the row. -/
  layer : Option PanelLayer
  source : List α
  body : String
  statementIndex : Nat
  editorId : Option Int
deriving Repr

variable {α : Type} [Scalar α]

/-- The place of a point on the boundary of a panel. -/
def PanelPoint.position (p : PanelPoint α) : Point α :=
  ⟨p.x, p.y⟩

namespace SheathingPanel

/-- The layer that a panel command names. Without a number, or with the number zero, it is the first
of its side. -/
def layerOf (command : Command) (side : Side) : PanelLayer :=
  let index := match command.layerIndex with
    | some (n + 1) => n + 1
    | _ => 1
  { side, index, word := command.word }

/-- The panel of a header, relative to a module if one is given, with no points on its boundary yet.
Its numbers are the tokens that are numbers, or failing six of those all numbers of the body. -/
def ofStatement? (s : Statement α) (side : Side) (module? : Option (ModuleFrame α)) :
    Option (SheathingPanel α) :=
  let plain := tokenNumbers s.body
  let numbers := if plain.length < 6 then s.numbers else plain
  match numbers with
  | width :: height :: thickness :: x :: y :: materialIndex :: rest =>
    let origin := ModuleFrame.origin module?
    some {
      width, height, thickness, materialIndex
      x := origin.x + x
      y := origin.y + y
      localX := x
      localY := y
      offset := rest[0]?
      rotation := Scalar.orZero rest[1]?
      material := label? s.body
      layer := layerOf s.command side
      points := []
      source := numbers
      statementIndex := s.index }
  | _ => none

/-- Two opposite corners of the rectangle of a panel. -/
def corners (p : SheathingPanel α) : List (Point α) :=
  Bounds.corners p.x p.y p.width p.height

/-- The corners of a panel and the points of its boundary. -/
def extent (p : SheathingPanel α) : List (Point α) :=
  p.corners ++ p.points.map PanelPoint.position

end SheathingPanel

/-- The point of the numbers `x, y, thickness, offset, …` on the boundary of a panel. Thickness and
offset are those of the panel unless they are given. -/
def PanelPoint.ofNumbers? (numbers : List α) (panel : SheathingPanel α)
    (module? : Option (ModuleFrame α)) : Option (PanelPoint α) :=
  match numbers with
  | x :: y :: rest =>
    let origin := ModuleFrame.origin module?
    some {
      x := origin.x + x
      y := origin.y + y
      thickness := rest[0]? <|> some panel.thickness
      offset := rest[1]? <|> panel.offset
      extras := rest.drop 2 }
  | _ => none

namespace NailRow

/-- The command word of a nail row. -/
def word : String := "NR"

/-- The side of the layer that a row nails; the inner one where no panel comes before it. -/
def side (r : NailRow α) : Side :=
  match r.layer with
  | some layer => layer.side
  | none => .inner

/-- The nail row of a statement, without an id. -/
def ofStatement? (s : Statement α) (layer : Option PanelLayer) : Option (NailRow α) :=
  match s.numbers with
  | x₁ :: y₁ :: x₂ :: y₂ :: rest =>
    some {
      start := ⟨x₁, y₁⟩, stop := ⟨x₂, y₂⟩, spacing := rest[0]?, gauge := rest[1]?, layer
      source := s.numbers, body := s.body, statementIndex := s.index, editorId := none }
  | _ => none

end NailRow

end WallPanel
