import WallPanel.Geometry.Bounds
import WallPanel.Statement.Basic

/-!
# The frame of a wall

The declared size of a wall, the modules it is built of, and the members of its frame.

* `WallSize.ofNumbers?`, `ModuleFrame.ofNumbers?`: a size or a module from the numbers of its
  statement.
* `FrameMember.ofNumbers?`, `FrameMember.ofStatement?`: a member from the numbers of its statement,
  and from the statement.
* `Orientation.extent`: how length and thickness become width and height.
-/

namespace WallPanel

/-- The size that a wall declares. -/
structure WallSize (α : Type) where
  width : α
  height : α
  thickness : Option α
  side : Option α
deriving Repr

/-- A module of the wall. Members between its begin and its end are placed relative to its
origin. -/
structure ModuleFrame (α : Type) where
  width : α
  height : α
  thickness : α
  originX : α
  originY : α
  originZ : α
deriving Repr

inductive MemberKind where
  | stud
  | blocking
  | plate
deriving DecidableEq, Repr

/-- Whether a plate closes the wall at the top or at the bottom. -/
inductive PlateRole where
  | top
  | bottom
deriving DecidableEq, Repr

/-- Vertical members stand their length tall, horizontal ones lie their length wide. -/
inductive Orientation where
  | vertical
  | horizontal
deriving DecidableEq, Repr

/-- A stud, blocking or plate, placed in the wall. -/
structure FrameMember (α : Type) where
  kind : MemberKind
  x : α
  y : α
  localX : α
  localY : α
  width : α
  height : α
  rotation : α
  /-- The offset through the thickness of the wall. -/
  offset : Option α
  orientation : Orientation
  role : Option PlateRole
  source : List α
  statementIndex : Nat
deriving Repr

variable {α : Type} [Scalar α]

/-- The size of the wall of the numbers `width, height, thickness, side`. -/
def WallSize.ofNumbers? (numbers : List α) : Option (WallSize α) :=
  match numbers with
  | width :: height :: rest => some { width, height, thickness := rest[0]?, side := rest[1]? }
  | _ => none

/-- The module of the numbers `width, height, thickness, originX, originY, originZ`. -/
def ModuleFrame.ofNumbers? (numbers : List α) : Option (ModuleFrame α) :=
  match numbers with
  | width :: height :: thickness :: originX :: originY :: rest =>
    some { width, height, thickness, originX, originY, originZ := Scalar.orZero rest[0]? }
  | _ => none

/-- The origin of a module in the wall plane; without a module, that of the wall. -/
def ModuleFrame.origin (module? : Option (ModuleFrame α)) : Point α :=
  match module? with
  | some m => ⟨m.originX, m.originY⟩
  | none => ⟨0.0, 0.0⟩

/-- Whether a rotation in degrees swaps width and height: it is a quarter turn up to half turns. -/
def isQuarterTurn (rotation : α) : Bool :=
  Scalar.abs (Scalar.abs (Scalar.modulo rotation 180.0) - 90.0) < 1e-6

/-- Width and height of a member of a length and a thickness. -/
def Orientation.extent (o : Orientation) (length thickness rotation : α) : α × α :=
  let upright := decide (o = .vertical)
  if upright != isQuarterTurn rotation then (thickness, length) else (length, thickness)

/-- What a statement says of a member besides its numbers. -/
structure MemberLabel (α : Type) where
  kind : MemberKind
  orientation : Orientation
  role : Option PlateRole
  /-- The number that stands last in the body, if the last token is one. -/
  offset : Option α
  statementIndex : Nat

namespace FrameMember

/-- The member of the numbers `length, thickness, _, x, y, rotation, …`. Without an offset of its
own the last number is the offset, if there are more than six. -/
def ofNumbers? (numbers : List α) (module? : Option (ModuleFrame α)) (label : MemberLabel α) :
    Option (FrameMember α) :=
  match numbers with
  | length :: thickness :: _ =>
    let x := Scalar.orZero numbers[3]?
    let y := Scalar.orZero numbers[4]?
    let rotation := Scalar.orZero numbers[5]?
    let (width, height) := label.orientation.extent length thickness rotation
    let origin := ModuleFrame.origin module?
    some {
      kind := label.kind
      x := origin.x + x
      y := origin.y + y
      localX := x
      localY := y
      width := Scalar.abs width
      height := Scalar.abs height
      rotation
      offset := label.offset <|> (if 6 < numbers.length then numbers.getLast? else none)
      orientation := label.orientation
      role := label.role
      source := numbers
      statementIndex := label.statementIndex }
  | _ => none

/-- The member of a statement, relative to a module if one is given. Its offset is the number that
stands last in the body, if the last token is one. -/
def ofStatement? (s : Statement α) (kind : MemberKind) (orientation : Orientation)
    (module? : Option (ModuleFrame α)) (role : Option PlateRole) : Option (FrameMember α) :=
  ofNumbers? s.numbers module?
    { kind, orientation, role, offset := lastNumber? s.body, statementIndex := s.index }

/-- Two opposite corners of a member. -/
def corners (m : FrameMember α) : List (Point α) :=
  Bounds.corners m.x m.y m.width m.height

end FrameMember

end WallPanel
