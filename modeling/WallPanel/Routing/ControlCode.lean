import WallPanel.Model.Routing
import WallPanel.Number.Decimal

/-!
# Control codes

The control code of a cut is a number of four digits: from the last to the first, the tool, the
treatment of edges, the side on which the tool is compensated, and the rotation of the spindle.

* `ControlCode`: a code, or none, with its digits and what they stand for.
* `RoutingSegment.controlCode?`: the code of a cut, recovered from its lines where it is not stored.
-/

namespace WallPanel

/-- A control code; none where a cut gives no usable one. -/
structure ControlCode where
  code : Option Int
deriving DecidableEq, Repr

namespace ControlCode

/-! ## Digits -/

/-- The digit of a code at a place, counted from the last. Without a code every digit is zero, and
the sign does not count. -/
def digit (c : ControlCode) (place : Nat) : Nat :=
  match c.code with
  | some n => n.natAbs / Decimal.tenTo place % 10
  | none => 0

def ones (c : ControlCode) : Nat := c.digit 0
def tens (c : ControlCode) : Nat := c.digit 1
def hundreds (c : ControlCode) : Nat := c.digit 2
def thousands (c : ControlCode) : Nat := c.digit 3

def isValid (c : ControlCode) : Bool :=
  c.code.isSome

/-! ## Meanings -/

/-- The label of a digit in a table; digits without one are reserved. -/
def label (table : List String) (digit : Nat) : String :=
  table.getD digit ("Reserved (" ++ toString digit ++ ")")

def toolCategory (c : ControlCode) : String :=
  if c.isValid then
    label ["Machine default", "Cylindrical trimmer", "Chamfer trimmer", "Horizontal groove trimmer",
      "Vertical marking trimmer"] c.ones
  else "Not specified"

def edgeMode (c : ControlCode) : String :=
  label ["Standard contour", "Overcut", "Undercut"] c.tens

def radiusMode (c : ControlCode) : String :=
  label ["Machine default", "Left compensation", "Right compensation", "No compensation"] c.hundreds

def rotationMode (c : ControlCode) : String :=
  label ["Machine default", "Synchronous rotation"] c.thousands

/-- The side on which the tool is compensated. -/
inductive Compensation where
  | left
  | right
  | center
  | auto
deriving DecidableEq, Repr

def compensation (c : ControlCode) : Compensation :=
  match c.hundreds with
  | 1 => .left
  | 2 => .right
  | 3 => .center
  | _ => .auto

/-- Whether the cut is wider than what is drawn. -/
def addsRadius (c : ControlCode) : Bool :=
  c.compensation = .left || c.compensation = .center

def hasOvercut (c : ControlCode) : Bool :=
  c.tens = 1

def hasUndercut (c : ControlCode) : Bool :=
  c.tens = 2

variable {α : Type} [Scalar α]

/-- The code that a number stands for: the nearest integer, none if the number is not finite. -/
def ofNumber (x? : Option α) : ControlCode :=
  ⟨x?.bind fun x => (Scalar.roundHalfUp x).toOption⟩

/-- The code of an integer, read as a number. -/
def ofCode (α : Type) [Scalar α] (n? : Option Int) : ControlCode :=
  ofNumber (n?.map fun n => (Scalar.ofInt n : α))

end ControlCode

/-! ## The code of a cut -/

variable {α : Type} [Scalar α]

/-- The number of a line that is the control code: a curve has one number more before it. -/
def SourceEntry.code? (e : SourceEntry α) : Option α :=
  e.numbers[if e.command = "KB" then 4 else 3]?

/-- The code of a circle: the stored one, the one of its line, or its orientation. -/
def CircleCut.code? (c : CircleCut α) : Except NoInteger (Option Int) :=
  match c.controlCode with
  | some n => .ok (some n)
  | none => (c.source[4]? <|> c.orientation).mapM Scalar.roundHalfUp

/-- The code of a path: the stored one, its offset, the mean of the codes of its lines, or its
orientation. -/
def PathCut.code? (p : PathCut α) : Except NoInteger (Option Int) :=
  match p.controlCode with
  | some n => .ok (some n)
  | none =>
    (p.offset <|> Scalar.mean? (p.source.filterMap SourceEntry.code?) <|> p.orientation).mapM
      Scalar.roundHalfUp

/-- The control code of a cut. -/
def RoutingSegment.controlCode? : RoutingSegment α → Except NoInteger (Option Int)
  | circle c => c.code?
  | path p => p.code?

end WallPanel
