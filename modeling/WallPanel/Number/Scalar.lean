/-!
# Numbers of a panel document

Lengths, angles and codes of a document are numbers of one type `α`, and all that the library
needs of it is in `Scalar α`. A run of the program takes the 64-bit floats
(`WallPanel.Number.Binary64`); exact number types fit as well.

* `Reading`: the exact worth of a number, from which every decimal text is made.
* `Scalar`: the operations.
* `Scalar.isFinite`, `Scalar.floor?`: what is asked of a number before it becomes an integer.
-/

namespace WallPanel

/-- The exact worth of a number. The sign stands beside the magnitude, because a zero has one. -/
inductive Reading where
  | finite (negative : Bool) (magnitude : Rat)
  | infinite (negative : Bool)
  | undefined
deriving DecidableEq, Repr

namespace Reading

/-- The rational number that a finite reading stands for. -/
def value? : Reading → Option Rat
  | finite negative magnitude => some (if negative then -magnitude else magnitude)
  | _ => none

/-- Whether the reading is that of a number, neither infinite nor undefined. -/
def isFinite : Reading → Bool
  | finite .. => true
  | _ => false

end Reading

/-- Why a number has no integer part. -/
inductive NoInteger where
  | infinite
  | undefined
deriving DecidableEq, Repr

/-- The operations that the geometry of a panel document needs of its numbers. -/
class Scalar (α : Type) extends Add α, Sub α, Mul α, Div α, Neg α, OfScientific α, BEq α, LT α,
    LE α where
  decidableLT : DecidableLT α
  decidableLE : DecidableLE α
  /-- The magnitude. -/
  abs : α → α
  /-- The greatest integer that is not above a finite number. -/
  floor : α → Int
  /-- The remainder of a division, with the sign of the divisor. -/
  modulo : α → α → α
  sqrt : α → α
  /-- The length of the vector with two components. -/
  hypot : α → α → α
  sin : α → α
  cos : α → α
  acos : α → α
  /-- The angle of the vector whose components are given as `y`, then `x`. -/
  atan2 : α → α → α
  pi : α
  reading : α → Reading

namespace Scalar

variable {α : Type} [Scalar α]

instance : DecidableLT α := decidableLT
instance : DecidableLE α := decidableLE

/-- Whether a number is neither infinite nor undefined. -/
def isFinite (x : α) : Bool :=
  (reading x).isFinite

/-- Whether a number is infinite. -/
def isInfinite (x : α) : Bool :=
  match reading x with
  | .infinite _ => true
  | _ => false

/-- The number of an integer. -/
def ofInt (n : Int) : α :=
  if n < 0 then -OfScientific.ofScientific n.natAbs false 0
  else OfScientific.ofScientific n.natAbs false 0

/-- The lesser of two numbers, the first unless the second is strictly less. -/
def least (x y : α) : α :=
  if y < x then y else x

/-- The greater of two numbers, the first unless the second is strictly greater. -/
def greatest (x y : α) : α :=
  if x < y then y else x

/-- The greatest integer that is not above the number, if the number is finite. -/
def floor? (x : α) : Except NoInteger Int :=
  match reading x with
  | .finite .. => .ok (floor x)
  | .infinite _ => .error .infinite
  | .undefined => .error .undefined

/-- The nearest integer; a half goes up. -/
def roundHalfUp (x : α) : Except NoInteger Int :=
  floor? (x + 0.5)

/-- The least integer that is not below a finite number. -/
def ceil (x : α) : Int :=
  -floor (-x)

/-- The sum of a list, from the left. -/
def sum (xs : List α) : α :=
  xs.foldl (· + ·) 0.0

/-- The arithmetic mean of a list, none if it is empty. -/
def mean? (xs : List α) : Option α :=
  if xs.isEmpty then none else some (sum xs / ofInt xs.length)

/-- The number given, or zero. A zero that is given loses its sign. -/
def orZero (x? : Option α) : α :=
  match x? with
  | some x => if x == 0.0 then 0.0 else x
  | none => 0.0

end Scalar

end WallPanel
