import WallPanel.Drawing.Markup
import WallPanel.Drawing.PathData
import WallPanel.Model.Basic
import WallPanel.Number.Binary64

/-!
# Pictures

A picture of a wall in vector graphics, for a quick look: the frame, the sheathing, the nail rows,
the routings and the drillings, each in its colours. The wall has its height upwards and a picture
downwards, so that everything stands in a group that is flipped.

* `PictureStyle`: the margin around the wall and the width of the lines.
* `WallModel.pictureElements`: the elements of a picture.
* `WallModel.picture`: the text of the file.
-/

namespace WallPanel

open Binary64 (shortest)

/-- How a picture is drawn. -/
structure PictureStyle where
  /-- The space around the wall, in millimetres. -/
  margin : Float
  /-- The width of the lines, as it is written. -/
  strokeWidth : String

/-- The style where nothing else is asked for. -/
def PictureStyle.standard : PictureStyle :=
  { margin := 50.0, strokeWidth := "2" }

/-! ## Colours -/

/-- The colours of an element: what fills it and what surrounds it. -/
structure Paint where
  fill : String
  stroke : String

namespace Paint

def ofMember : MemberKind → Paint
  | .stud => ⟨"#d9b382", "#7a5230"⟩
  | .blocking => ⟨"#e6c9a0", "#7a5230"⟩
  | .plate => ⟨"#c49a6c", "#5c3b1e"⟩

def ofSide : Side → Paint
  | .inner => ⟨"none", "#2f7d32"⟩
  | .outer => ⟨"none", "#1f5fa8"⟩

def routing : Paint := ⟨"none", "#c62828"⟩

def drilling : Paint := ⟨"#6a1b9a", "none"⟩

def attributes (p : Paint) : List Attribute :=
  [⟨"fill", p.fill⟩, ⟨"stroke", p.stroke⟩]

/-- The colours together with the width of the line. -/
def outlined (p : Paint) (style : PictureStyle) : List Attribute :=
  p.attributes ++ [⟨"stroke-width", style.strokeWidth⟩]

end Paint

/-! ## Elements -/

namespace Element

/-- The name under which a vocabulary of elements is registered. -/
def vocabulary (path : String) : String :=
  "/".intercalate ["http:", "", "www.w3.org", path]

/-- An attribute that is a number. -/
def number (name : String) (x : Float) : Attribute :=
  ⟨name, shortest x⟩

def rectangle (x y width height : Float) (drawn : List Attribute) : Element :=
  ⟨"rect", [number "x" x, number "y" y, number "width" width, number "height" height] ++ drawn⟩

def polygon (ps : List (Point Float)) (drawn : List Attribute) : Element :=
  let pairs := ps.map fun p => shortest p.x ++ "," ++ shortest p.y
  ⟨"polygon", ⟨"points", " ".intercalate pairs⟩ :: drawn⟩

def circle (x y : Float) (radius : String) (drawn : List Attribute) : Element :=
  ⟨"circle", [number "cx" x, number "cy" y, ⟨"r", radius⟩] ++ drawn⟩

end Element

/-- A member of the frame is a rectangle. -/
def FrameMember.element (style : PictureStyle) (m : FrameMember Float) : Element :=
  .rectangle m.x m.y m.width m.height ((Paint.ofMember m.kind).outlined style)

/-- A panel is its boundary, or its rectangle where the boundary has fewer than three points. -/
def SheathingPanel.element (style : PictureStyle) (p : SheathingPanel Float) : Element :=
  let drawn := (Paint.ofSide p.layer.side).outlined style
  if 3 ≤ p.points.length then .polygon (p.points.map PanelPoint.position) drawn
  else .rectangle p.x p.y p.width p.height drawn

/-- A nail row is a dashed line in the colour of its side. -/
def NailRow.element (style : PictureStyle) (r : NailRow Float) : Element :=
  ⟨"line", [Element.number "x1" r.start.x, Element.number "y1" r.start.y,
    Element.number "x2" r.stop.x, Element.number "y2" r.stop.y,
    ⟨"stroke", (Paint.ofSide r.side).stroke⟩, ⟨"stroke-width", style.strokeWidth⟩,
    ⟨"stroke-dasharray", "6,4"⟩]⟩

/-- The radius of a circle that is cut; none is written for one of radius zero. -/
def CircleCut.radiusText (c : CircleCut Float) : String :=
  if c.radius == 0.0 then "0" else shortest c.radius

/-- A cut is a circle or a path. A path needs something to draw. -/
def RoutingSegment.element (style : PictureStyle) : RoutingSegment Float → Except Fault Element
  | circle c => .ok (.circle c.position.x c.position.y c.radiusText (Paint.routing.outlined style))
  | path p =>
    match pathData p.penSteps with
    | "" => .error .emptyPath
    | data => .ok ⟨"path", ⟨"d", data⟩ :: Paint.routing.outlined style⟩

/-- A drilling is a dot, of the size of two millimetres where it has none. -/
def Drilling.element (d : Drilling Float) : Element :=
  let diameter := if d.diameter == 0.0 then 2.0 else d.diameter
  .circle d.x d.z (shortest (diameter / 2.0)) Paint.drilling.attributes

namespace WallModel

/-- The elements of a picture, the later ones on top. -/
def pictureElements (m : WallModel Float) (style : PictureStyle) : Except Fault (List Element) := do
  let cuts ← (m.routings.flatMap (·.segments)).mapM (RoutingSegment.element style)
  return m.members.map (FrameMember.element style) ++
    m.sheathing.map (SheathingPanel.element style) ++ m.nailRows.map (NailRow.element style) ++
    cuts ++ m.drillings.map Drilling.element

/-- A size of a picture with its unit. It has to be finite. -/
def pictureSize (dimension : String) (size : Float) : Except Fault String :=
  let written := shortest size ++ "mm"
  if size.isFinite then .ok written else .error (.badSize written dimension)

/-- The outermost element of a picture file. -/
def pictureRoot (width height viewBox : String) : Element :=
  ⟨"svg", [⟨"width", width⟩, ⟨"height", height⟩, ⟨"viewBox", viewBox⟩, ⟨"version", "1.1"⟩,
    ⟨"baseProfile", "full"⟩, ⟨"xmlns", Element.vocabulary "2000/svg"⟩,
    ⟨"xmlns:ev", Element.vocabulary "2001/xml-events"⟩,
    ⟨"xmlns:xlink", Element.vocabulary "1999/xlink"⟩]⟩

/-- The text of a picture of a wall. -/
def picture (m : WallModel Float) (style : PictureStyle) : Except Fault String := do
  let box := m.bounds.boxOrOrigin
  let width := box.width + 2.0 * style.margin
  let height := box.height + 2.0 * style.margin
  let widthText ← pictureSize "width" width
  let heightText ← pictureSize "height" height
  let elements ← m.pictureElements style
  let flip := "translate(" ++ shortest (style.margin - box.minX) ++ "," ++
    shortest (style.margin + box.maxY) ++ ") scale(1,-1)"
  let viewBox := "0 0 " ++ shortest width ++ " " ++ shortest height
  let group : Element := ⟨"g", [⟨"transform", flip⟩]⟩
  let drawn := group.around (String.join (elements.map Element.render))
  return "<?xml version=\"1.0\" encoding=\"utf-8\" ?>\n" ++
    (pictureRoot widthText heightText viewBox).around ("<defs />" ++ drawn)

end WallModel

end WallPanel
