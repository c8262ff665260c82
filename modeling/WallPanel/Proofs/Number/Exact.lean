import Mathlib.Analysis.SpecialFunctions.Complex.Arg
import WallPanel.Number.Scalar

/-!
# Exact arithmetic

What holds of the lengths and angles of a wall when nothing is rounded is stated for numbers that
stand for real numbers and are reckoned with as these are (`Scalar.Exact`). What a statement needs
of roots and angles beyond that is assumed where it is needed. The real numbers are such numbers
(`RealNumber`).
-/

namespace WallPanel

/-- Numbers with exact arithmetic. Each stands for a real number of its own; sums, differences,
products, quotients, magnitudes, whole parts and comparisons are those of the real numbers, and so
are decimal numerals and the half turn. No number is infinite or undefined. -/
class Scalar.Exact (α : Type) [Scalar α] where
  /-- The real number that a number stands for. -/
  real : α → ℝ
  real_injective : Function.Injective real
  isFinite (x : α) : Scalar.isFinite x = true
  real_ofScientific (m : Nat) (s : Bool) (e : Nat) :
    real (OfScientific.ofScientific m s e) = OfScientific.ofScientific m s e
  real_pi : real Scalar.pi = Real.pi
  real_add (x y : α) : real (x + y) = real x + real y
  real_sub (x y : α) : real (x - y) = real x - real y
  real_neg (x : α) : real (-x) = -real x
  real_mul (x y : α) : real (x * y) = real x * real y
  real_div (x y : α) : real (x / y) = real x / real y
  real_abs (x : α) : real (Scalar.abs x) = |real x|
  floor_eq (x : α) : Scalar.floor x = ⌊real x⌋
  lt_iff {x y : α} : x < y ↔ real x < real y
  le_iff {x y : α} : x ≤ y ↔ real x ≤ real y
  beq_iff {x y : α} : (x == y) = true ↔ real x = real y

namespace Scalar.Exact

attribute [simp] isFinite real_ofScientific real_pi real_add real_sub real_neg real_mul real_div
  real_abs

variable {α : Type} [Scalar α] [Exact α] {x y z : α}

/-- Two terms of a sum can be added in either order. -/
theorem add_right_comm (x y z : α) : x + y + z = x + z + y :=
  real_injective (by rw [real_add, real_add, real_add, real_add]; ring)

theorem real_greatest (x y : α) : real (greatest x y) = max (real x) (real y) := by
  unfold greatest
  split
  · next h => rw [max_eq_right (lt_iff.mp h).le]
  · next h => rw [max_eq_left (not_lt.mp (mt lt_iff.mpr h))]

end Scalar.Exact

/-! ## The real numbers -/

/-- A real number, as a number of a document. -/
@[ext]
structure RealNumber where
  value : ℝ

namespace RealNumber

/-- The real numbers with the roots and angles of analysis. A reading is rational, so what a real
number reads as is its whole part: that it is finite is all there is to read exactly. -/
noncomputable instance : Scalar RealNumber where
  add x y := ⟨x.value + y.value⟩
  sub x y := ⟨x.value - y.value⟩
  mul x y := ⟨x.value * y.value⟩
  div x y := ⟨x.value / y.value⟩
  neg x := ⟨-x.value⟩
  ofScientific m s e := ⟨OfScientific.ofScientific m s e⟩
  beq x y := decide (x.value = y.value)
  lt x y := x.value < y.value
  le x y := x.value ≤ y.value
  decidableLT x y := inferInstanceAs (Decidable (x.value < y.value))
  decidableLE x y := inferInstanceAs (Decidable (x.value ≤ y.value))
  abs x := ⟨|x.value|⟩
  floor x := ⌊x.value⌋
  modulo x y := ⟨x.value - y.value * ⌊x.value / y.value⌋⟩
  sqrt x := ⟨√x.value⟩
  hypot x y := ⟨√(x.value ^ 2 + y.value ^ 2)⟩
  sin x := ⟨Real.sin x.value⟩
  cos x := ⟨Real.cos x.value⟩
  acos x := ⟨Real.arccos x.value⟩
  atan2 y x := ⟨Complex.arg ⟨x.value, y.value⟩⟩
  pi := ⟨Real.pi⟩
  reading x := .finite (decide (x.value < 0)) ⌊|x.value|⌋

noncomputable instance : Scalar.Exact RealNumber where
  real := value
  real_injective _ _ := RealNumber.ext
  isFinite _ := rfl
  real_ofScientific _ _ _ := rfl
  real_pi := rfl
  real_add _ _ := rfl
  real_sub _ _ := rfl
  real_neg _ := rfl
  real_mul _ _ := rfl
  real_div _ _ := rfl
  real_abs _ := rfl
  floor_eq _ := rfl
  lt_iff := Iff.rfl
  le_iff := Iff.rfl
  beq_iff := decide_eq_true_iff

/-- The angle of a vector is not beyond a half turn, in either sense. -/
theorem atan2_mem (y x : RealNumber) :
    -Scalar.pi ≤ Scalar.atan2 y x ∧ Scalar.atan2 y x ≤ Scalar.pi :=
  ⟨(Complex.neg_pi_lt_arg ⟨x.value, y.value⟩).le, Complex.arg_le_pi ⟨x.value, y.value⟩⟩

end RealNumber

end WallPanel
