import WallPanel.Data.Datum
import WallPanel.Model.Basic
import WallPanel.Number.Binary64

/-!
# Models as data

`WallModel.datum` is all that a model says, as a value that can be written to a file. Every part is
a mapping with its fields in a fixed order, and a field without a value is null.
-/

namespace WallPanel

open Datum (int text bool ofNat ofOption ofList mapping null)

namespace Datum

def floats (xs : List Float) : Datum :=
  ofList float xs

/-- A text that may be missing. -/
def text? (s? : Option String) : Datum :=
  ofOption text s?

/-- A number that may be missing. -/
def float? (x? : Option Float) : Datum :=
  ofOption float x?

/-- An id that may be missing. -/
def int? (n? : Option Int) : Datum :=
  ofOption int n?

end Datum

open Datum (float floats float? text? int?)

/-! ## Geometry -/

def Point.datum (p : Point Float) : Datum :=
  mapping [("x", float p.x), ("y", float p.y)]

def Arc.datum (a : Arc Float) : Datum :=
  mapping [
    ("start", a.start.datum), ("end", a.stop.datum), ("center", a.center.datum),
    ("radius", float a.radius), ("start_angle", float a.startAngle),
    ("end_angle", float a.stopAngle), ("signed_sweep", float a.signedSweep),
    ("clockwise", bool a.clockwise), ("large_arc", bool a.large), ("raw_type", text? a.flag),
    ("type", text "arc")]

def Segment.datum : Segment Float → Datum
  | line start stop fallback =>
    mapping [("start", start.datum), ("end", stop.datum), ("fallback", bool fallback),
      ("type", text "line")]
  | arc a => a.datum

def Box.datum (b : Box Float) : Datum :=
  mapping [("min_x", float b.minX), ("max_x", float b.maxX), ("min_y", float b.minY),
    ("max_y", float b.maxY)]

/-- The bounds of nothing reach from infinity back to minus infinity. -/
def Bounds.datum : Bounds Float → Datum
  | empty =>
    let infinity : Float := 1.0 / 0.0
    Box.datum ⟨infinity, -infinity, infinity, -infinity⟩
  | box b => b.datum

/-! ## Frame -/

def WallSize.datum (w : WallSize Float) : Datum :=
  mapping [("width", float w.width), ("height", float w.height), ("thickness", float? w.thickness),
    ("side", float? w.side)]

def ModuleFrame.datum (m : ModuleFrame Float) : Datum :=
  mapping [
    ("width", float m.width), ("height", float m.height), ("thickness", float m.thickness),
    ("origin_x", float m.originX), ("origin_y", float m.originY), ("origin_z", float m.originZ)]

def MemberKind.name : MemberKind → String
  | stud => "stud"
  | blocking => "blocking"
  | plate => "plate"

def PlateRole.name : PlateRole → String
  | top => "top"
  | bottom => "bottom"

def Orientation.name : Orientation → String
  | vertical => "vertical"
  | horizontal => "horizontal"

def FrameMember.datum (m : FrameMember Float) : Datum :=
  mapping [
    ("kind", text m.kind.name), ("x", float m.x), ("y", float m.y), ("local_x", float m.localX),
    ("local_y", float m.localY), ("width", float m.width), ("height", float m.height),
    ("rotation", float m.rotation), ("offset", float? m.offset),
    ("orientation", text m.orientation.name), ("role", text? (m.role.map PlateRole.name)),
    ("source", floats m.source), ("statement_index", ofNat m.statementIndex)]

/-! ## Sheathing -/

def PanelPoint.datum (p : PanelPoint Float) : Datum :=
  mapping [("x", float p.x), ("y", float p.y), ("thickness", float? p.thickness),
    ("offset", float? p.offset), ("extras", floats p.extras)]

def SheathingPanel.datum (p : SheathingPanel Float) : Datum :=
  mapping [
    ("width", float p.width), ("height", float p.height), ("thickness", float p.thickness),
    ("x", float p.x), ("y", float p.y), ("local_x", float p.localX), ("local_y", float p.localY),
    ("offset", float? p.offset), ("rotation", float p.rotation),
    ("material_index", float p.materialIndex), ("material", text? p.material),
    ("face_direction", int p.layer.side.direction), ("layer", text p.layer.side.layerName),
    ("layer_index", ofNat p.layer.index), ("layer_command", text p.layer.word),
    ("points", ofList PanelPoint.datum p.points), ("source", floats p.source),
    ("statement_index", ofNat p.statementIndex)]

/-- The number and the word of a layer, where there is one. -/
def PanelLayer.entries (layer : Option PanelLayer) : List (String × Datum) :=
  [("layer_index", ofOption (fun l : PanelLayer => ofNat l.index) layer),
    ("layer_command", text? (layer.map PanelLayer.word))]

def NailRow.datum (r : NailRow Float) : Datum :=
  mapping <| [
    ("start", r.start.datum), ("end", r.stop.datum), ("spacing", float? r.spacing),
    ("gauge", float? r.gauge), ("layer", text r.side.layerName)] ++ PanelLayer.entries r.layer ++ [
    ("source", floats r.source), ("command", text NailRow.word), ("body", text r.body),
    ("statement_index", ofNat r.statementIndex), ("editor_id", int? r.editorId)]

/-! ## Routings and drillings -/

def SourceEntry.datum (e : SourceEntry Float) : Datum :=
  mapping [("command", text e.command), ("numbers", floats e.numbers),
    ("statement_index", ofNat e.statementIndex), ("arc_type", text? e.flag)]

def CircleCut.datum (c : CircleCut Float) : Datum :=
  mapping [
    ("position", c.position.datum), ("radius", float c.radius), ("depth", float? c.depth),
    ("depth_raw", float? c.depthRaw), ("orientation", float? c.orientation),
    ("feed", float? c.feed), ("control_code", int? c.controlCode), ("extras", floats c.extras),
    ("source", floats c.source), ("statement_index", ofNat c.statementIndex),
    ("kind", text "circle")]

def PathKind.name : PathKind → String
  | polygon => "polygon"
  | polyline => "polyline"

def PathCut.datum (p : PathCut Float) : Datum :=
  mapping [
    ("kind", text p.kind.name), ("points", ofList Point.datum p.points),
    ("path_segments", ofList Segment.datum p.segments), ("depth", float? p.depth),
    ("depth_raw", float? p.depthRaw), ("offset", float? p.offset),
    ("orientation", float? p.orientation), ("z", float? p.z), ("control_code", int? p.controlCode),
    ("source", ofList SourceEntry.datum p.source), ("samples", ofList Point.datum p.samples)]

def RoutingSegment.datum : RoutingSegment Float → Datum
  | circle c => c.datum
  | path p => p.datum

def Routing.datum (r : Routing Float) : Datum :=
  mapping <| [
    ("tool", float? r.tool), ("face", float? r.face), ("passes", float? r.passes),
    ("segments", ofList RoutingSegment.datum r.segments),
    ("layer", text? (r.layer.map (·.side.layerName)))] ++ PanelLayer.entries r.layer ++ [
    ("source", floats r.source), ("command", text Routing.word), ("body", text r.body),
    ("statement_index", ofNat r.statementIndex),
    ("statement_indices", ofList ofNat r.statementIndices), ("editor_id", int? r.editorId)]

def Drilling.datum (d : Drilling Float) : Datum :=
  mapping [
    ("x", float d.x), ("z", float d.z), ("local_x", float d.localX), ("local_z", float d.localZ),
    ("diameter", float d.diameter), ("depth", float d.depth),
    ("target", ofOption FrameMember.datum d.target),
    ("target_kind", text? (d.target.map (·.kind.name))),
    ("target_role", text? ((d.target.bind (·.role)).map PlateRole.name)),
    ("source", floats d.source), ("command", text Drilling.word), ("body", text d.body),
    ("statement_index", ofNat d.statementIndex), ("editor_id", int? d.editorId)]

/-! ## The whole -/

def Unhandled.datum (u : Unhandled Float) : Datum :=
  mapping [("command", text u.command), ("numbers", floats u.numbers), ("body", text u.body),
    ("statement_index", ofNat u.statementIndex)]

/-- All that a model says but its source text, and how many statements have no place in it. -/
def WallModel.datum (m : WallModel Float) : Datum :=
  mapping [
    ("wall", ofOption WallSize.datum m.wall), ("modules", ofList ModuleFrame.datum m.modules),
    ("studs", ofList FrameMember.datum m.studs), ("blocking", ofList FrameMember.datum m.blocking),
    ("plates", ofList FrameMember.datum m.plates),
    ("sheathing", ofList SheathingPanel.datum m.sheathing),
    ("nail_rows", ofList NailRow.datum m.nailRows),
    ("paf_routings", ofList Routing.datum m.routings),
    ("boy_operations", ofList Drilling.datum m.drillings), ("bounds", m.bounds.datum),
    ("unhandled", ofList Unhandled.datum m.unhandled), ("statements", ofList text? m.statements),
    ("next_editor_id", int m.nextEditorId), ("unhandled_count", ofNat m.unhandled.length)]

end WallPanel
