import WallPanel.Data.Datum
import WallPanel.Model.Basic
import WallPanel.Text.LetterCase

/-!
# Layered drawings

A drawing of a wall for other programs: plain shapes, each on a named layer. The layers have names
of their own unless others are asked for.

* `Shape`: a closed outline, a line, a circle or an arc.
* `Arc.turn`: the angles between which an arc is drawn, which always runs counter-clockwise.
* `PathCut.shapes`: the shapes of a path, with the line that closes a polygon.
* `WallModel.drawing`: the drawing of a wall.
-/

namespace WallPanel

/-- What a layer holds. -/
inductive LayerRole where
  | stud
  | blocking
  | plate
  | sheathing
  | nailRow
  | routing
  | drilling
deriving DecidableEq, Repr

namespace LayerRole

/-- The roles in the order in which their layers are added. -/
def all : List LayerRole := [stud, blocking, plate, sheathing, nailRow, routing, drilling]

/-- The name of the layer where no other is asked for. -/
def name : LayerRole → String
  | stud => "STUD"
  | blocking => "BLOCKING"
  | plate => "PLATE"
  | sheathing => "SHEATHING"
  | nailRow => "NAILROW"
  | routing => "PAF"
  | drilling => "BOY"

/-- The colour of the layer, by its number in the standard palette. -/
def color : LayerRole → Nat
  | stud => 30
  | blocking => 40
  | plate => 32
  | sheathing => 3
  | nailRow => 5
  | routing => 1
  | drilling => 6

def ofMember : MemberKind → LayerRole
  | .stud => stud
  | .blocking => blocking
  | .plate => plate

end LayerRole

/-- The names that are asked for in place of others, as they are given. -/
abbrev LayerNames := List (String × Datum)

/-- The name of a layer, by its code points. -/
abbrev LayerName := List Nat

namespace LayerName

def ofString (s : String) : LayerName :=
  s.toList.map Char.toNat

/-- The name of the layer of a role. One that is asked for has to be a text. -/
def ofRole (names : LayerNames) (role : LayerRole) : Except Fault LayerName :=
  match names.lookup role.name with
  | none => .ok (ofString role.name)
  | some d =>
    match d.toCodes? with
    | some name => .ok name
    | none => .error (.noLayerName d.typeName)

/-- The characters of a name. -/
def chars (name : LayerName) : List Char :=
  charactersOf name

/-- Whether two names are the same: the case of letters does not count. -/
def same (a b : LayerName) : Bool :=
  LetterCase.lowerCodes a == LetterCase.lowerCodes b

/-- The names of the layers that every drawing has. -/
def standing : List LayerName := [ofString "0", ofString "Defpoints"]

/-- The characters that a name cannot have. -/
def reservedCharacters : List Char :=
  ['<', '>', '/', '\\', '"', ':', ';', '?', '*', '=', '\x60']

/-- A text without the places where a mark stands, which is a backslash, a letter and a plus. -/
def dropMark (letter : Char) : List Char → List Char
  | '\\' :: l :: '+' :: cs =>
    if l = letter then dropMark letter cs else '\\' :: dropMark letter (l :: '+' :: cs)
  | c :: cs => c :: dropMark letter cs
  | [] => []

/-- A name without the asterisk of a name that a program has given. -/
def dropAsterisk : List Char → List Char
  | '*' :: c :: cs => c :: cs
  | cs => cs

/-- Whether a layer can have a name. The marks in front of the code of a character may stand in
it. -/
def isAllowed (name : LayerName) : Bool :=
  !(dropMark 'M' (dropMark 'U' (dropAsterisk name.chars))).any reservedCharacters.contains

end LayerName

/-- A layer with the number of its colour. -/
structure Layer where
  name : LayerName
  color : Nat
deriving DecidableEq, Repr

/-- Add the layer of a role, unless there is one of that name. -/
def addLayer (names : LayerNames) (layers : List Layer) (role : LayerRole) :
    Except Fault (List Layer) := do
  let name ← LayerName.ofRole names role
  if (LayerName.standing ++ layers.map Layer.name).any name.same then return layers
  else if name.isAllowed then return layers ++ [⟨name, role.color⟩]
  else .error (.badLayerName (String.ofList name.chars))

/-! ## Units -/

/-- The units of a drawing. -/
inductive DrawingUnits where
  | millimetres
  | inches
  | unitless
deriving DecidableEq, Repr

namespace DrawingUnits

/-- The number that stands for the units in a drawing file. -/
def code : DrawingUnits → Nat
  | millimetres => 4
  | inches => 1
  | unitless => 0

/-- The units of a name; the case of letters does not count. -/
def ofName? (name : String) : Option DrawingUnits :=
  let lower := String.ofList (LetterCase.lower name.toList)
  if lower = "mm" then some millimetres
  else if lower = "in" then some inches
  else if lower = "unitless" then some unitless
  else none

end DrawingUnits

/-! ## Shapes -/

/-- A shape of a drawing. -/
inductive Shape (α : Type) where
  /-- A closed line through points. -/
  | outline (points : List (Point α))
  | line (start stop : Point α)
  | circle (center : Point α) (radius : α)
  /-- An arc that runs counter-clockwise between two angles in degrees. -/
  | arc (center : Point α) (radius startDegrees stopDegrees : α)
deriving Repr

/-- A drawing: its units, its own layers, and its shapes with the names of their layers. -/
structure Drawing (α : Type) where
  units : DrawingUnits
  layers : List Layer
  shapes : List (LayerName × Shape α)
deriving Repr

variable {α : Type} [Scalar α]

/-- An angle in degrees. -/
def degrees (angle : α) : α :=
  angle * (180.0 / Scalar.pi)

/-- The angles at which an arc begins and ends when it is drawn counter-clockwise. -/
def Arc.turn (a : Arc α) : α × α :=
  if a.clockwise then (a.stopAngle, a.startAngle) else (a.startAngle, a.stopAngle)

namespace Shape

/-- The outline of a rectangle. -/
def rectangle (x y width height : α) : Shape α :=
  outline [⟨x, y⟩, ⟨x + width, y⟩, ⟨x + width, y + height⟩, ⟨x, y + height⟩]

/-- The shape of a piece of a path. -/
def ofSegment : Segment α → Shape α
  | .line start stop _ => line start stop
  | .arc a => arc a.center a.radius (degrees a.turn.1) (degrees a.turn.2)

/-- The name of the type of a shape. -/
def typeName : Shape α → String
  | outline _ => "LWPOLYLINE"
  | line _ _ => "LINE"
  | circle _ _ => "CIRCLE"
  | arc .. => "ARC"

end Shape

/-- The shape of a member of the frame. -/
def FrameMember.shape (m : FrameMember α) : Shape α :=
  .rectangle m.x m.y m.width m.height

/-- The shape of a panel: its boundary, or its rectangle where the boundary has fewer than three
points. -/
def SheathingPanel.shape (p : SheathingPanel α) : Shape α :=
  if 3 ≤ p.points.length then .outline (p.points.map PanelPoint.position)
  else .rectangle p.x p.y p.width p.height

namespace PathCut

/-- The line that closes a polygon whose pieces do not end where they start. -/
def closingLine (p : PathCut α) : List (Shape α) :=
  match p.kind, p.segments.head?, p.segments.getLast? with
  | .polygon, some first, some last =>
    if last.stop.same first.start then [] else [.line last.stop first.start]
  | _, _, _ => []

/-- The shapes of a path: its pieces, and the line that closes it. -/
def shapes (p : PathCut α) : List (Shape α) :=
  p.segments.map Shape.ofSegment ++ p.closingLine

end PathCut

/-- The shapes of a cut. -/
def RoutingSegment.shapes : RoutingSegment α → List (Shape α)
  | circle c => [.circle c.position (Scalar.orZero c.radius)]
  | path p => p.shapes

/-- The shape of a drilling. -/
def Drilling.shape (d : Drilling α) : Shape α :=
  .circle ⟨d.x, d.z⟩ (Scalar.orZero d.diameter / 2.0)

namespace WallModel

/-- The shapes of a wall, each with what its layer holds. -/
def shapes (m : WallModel α) : List (LayerRole × Shape α) :=
  m.members.map (fun r => (.ofMember r.kind, r.shape)) ++
    m.sheathing.map (fun p => (.sheathing, p.shape)) ++
    m.nailRows.map (fun r => (.nailRow, .line r.start r.stop)) ++
    (m.routings.flatMap fun r => r.segments.flatMap RoutingSegment.shapes).map (.routing, ·) ++
    m.drillings.map (fun d => (.drilling, d.shape))

/-- A shape on the layer of a role. Of two names of one layer this may be one that cannot be. -/
def placed (names : LayerNames) (s : LayerRole × Shape α) :
    Except Fault (LayerName × Shape α) := do
  let name ← LayerName.ofRole names s.1
  if name.isAllowed then return (name, s.2)
  else .error (.badShapeLayer s.2.typeName (String.ofList name.chars))

/-- The drawing of a wall in units of a name. -/
def drawing (m : WallModel α) (units : String) (names : LayerNames) : Except Fault (Drawing α) :=
  match DrawingUnits.ofName? units with
  | none => .error (.unknownUnits units)
  | some units => do
    let layers ← LayerRole.all.foldlM (addLayer names) []
    let shapes ← m.shapes.mapM (placed names)
    return { units, layers, shapes }

end WallModel

end WallPanel
