import WallPanel.Geometry.Offset
import WallPanel.Number.Decimal
import WallPanel.Model.Builder
import WallPanel.Routing.ControlCode

/-!
# Footprints

How much wider than drawn a cut becomes. With left compensation the whole cutter runs outside of the
drawn contour, without compensation half of it does.

* `Adjustment.ofCode`: what a control code adds to a cut.
* `Footprint.ofPoints?`: the size of a cut.
* `PathCut.removedOutline`: the outline that the cutter removes.
* `formatMillimetres`, `tryFormatMillimetres`: a length as it is reported.
-/

namespace WallPanel

/-- What an adjustment follows from. -/
inductive AdjustmentMode where
  | unknown
  | diameter
  | internal
  | radius
  | auto
deriving DecidableEq, Repr

namespace AdjustmentMode

def name : AdjustmentMode → String
  | unknown => "unknown"
  | diameter => "diameter"
  | internal => "internal"
  | radius => "radius"
  | auto => "auto"

/-- Whether a cut of this mode becomes wider. -/
def isApplied (m : AdjustmentMode) : Bool :=
  m = diameter || m = radius

end AdjustmentMode

/-- What is added to the size of a cut, both sides together. -/
structure Adjustment (α : Type) where
  expansion : α
  mode : AdjustmentMode
deriving Repr

/-- The size of a cut as drawn, and what is added to it. -/
structure Footprint (α : Type) where
  baseWidth : α
  baseHeight : α
  adjustment : Adjustment α
deriving Repr

variable {α : Type} [Scalar α]

/-- The tool radius where none is given, in millimetres. -/
def defaultToolRadius : α := 8.0

/-- What a control code adds to a cut with a tool of a radius. -/
def Adjustment.ofCode (c : ControlCode) (toolRadius : α) : Adjustment α :=
  if !c.isValid then ⟨0.0, .unknown⟩
  else
    match c.compensation with
    | .left => ⟨toolRadius * 4.0, .diameter⟩
    | .right => ⟨0.0, .internal⟩
    | .center => ⟨toolRadius * 2.0, .radius⟩
    | .auto => ⟨0.0, .auto⟩

namespace Footprint

def width (f : Footprint α) : α :=
  f.baseWidth + f.adjustment.expansion

def height (f : Footprint α) : α :=
  f.baseHeight + f.adjustment.expansion

/-- The size of a cut through points; none if no point is finite. -/
def ofPoints? (ps : List (Point α)) (c : ControlCode) (toolRadius : α) : Option (Footprint α) :=
  match ps.filter Point.isFinite with
  | [] => none
  | p :: rest =>
    let b := rest.foldl Box.extend (.ofPoint p)
    some ⟨b.width, b.height, .ofCode c toolRadius⟩

end Footprint

/-- The points of a path without a last one that equals the first. -/
def openOutline (ps : List (Point α)) : List (Point α) :=
  match ps, ps.getLast? with
  | p :: _ :: _, some q => if p.same q then ps.dropLast else ps
  | _, _ => ps

/-- The outline that the cutter removes along a closed path. Open paths have none. -/
def PathCut.removedOutline (p : PathCut α) (toolRadius : α) : Except Fault (List (Point α)) :=
  match p.kind with
  | .polyline => .ok []
  | .polygon => do
    let code ← p.code?.mapError NoInteger.toFault
    let adjustment := Adjustment.ofCode (.ofCode α code) toolRadius
    offsetOutline (openOutline p.outline) (adjustment.expansion / 2.0)

/-- The outline that the cutter removes. Circles have none. -/
def RoutingSegment.removedOutline (s : RoutingSegment α) (toolRadius : α) :
    Except Fault (List (Point α)) :=
  match s with
  | circle _ => .ok []
  | path p => p.removedOutline toolRadius

/-- A length in millimetres with a number of decimal places, which are left out if all are zero. A
length that is missing or not finite is a dash. -/
def formatMillimetres (x? : Option α) (places : Nat) : String :=
  match x?.map Scalar.reading with
  | some (.finite negative magnitude) =>
    let cs := (Reading.finite negative magnitude).fixed places
    let fraction := cs.dropWhile (· ≠ '.')
    let shown := if fraction.all (fun c => c == '.' || c == '0') then cs.takeWhile (· ≠ '.') else cs
    String.ofList shown ++ " mm"
  | _ => "-"

/-- The most decimal places that a number can be written with. -/
def placesLimit : Int := 0x7FFFFFFF

/-- The greatest number of decimal places that is looked at. -/
def readablePlaces : Int := 0x7FFFFFFFFFFFFFFF

/-- A length in millimetres with a number of decimal places that may be out of range. A length that
is written as a dash does not need them. -/
def tryFormatMillimetres (x? : Option α) (places : Int) : Except Fault String :=
  if !x?.any Scalar.isFinite then .ok (formatMillimetres x? 0)
  else if places < 0 then .error .negativePlaces
  else if readablePlaces < places then .error .unreadablePlaces
  else if placesLimit < places then .error .excessivePlaces
  else .ok (formatMillimetres x? places.toNat)

end WallPanel
