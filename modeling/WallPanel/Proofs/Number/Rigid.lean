import Mathlib.Tactic.Ring
import WallPanel.Proofs.Geometry.Sweeps

/-!
# Numbers that are moved exactly

To move what is drawn from coordinates, all that is asked of the arithmetic is that the same number
added to two others does not show in their difference, shows once in the middle between them, and
can be added before or after any other (`Scalar.Rigid`). Nothing is asked of roots and angles. So it
is in exact arithmetic, and in that of fractions (`Fraction`), with which a document can be read and
edited to the end.
-/

namespace WallPanel

/-- Numbers to which a distance can be added without rounding. -/
class Scalar.Rigid (α : Type) [Scalar α] : Prop where
  isFinite_add (x d : α) : Scalar.isFinite (x + d) = Scalar.isFinite x
  add_zero (x : α) : x + 0.0 = x
  add_sub_add (x y d : α) : x + d - (y + d) = x - y
  middle_add (x y d : α) : (x + d + (y + d)) / 2.0 = (x + y) / 2.0 + d
  add_right_comm (x d o : α) : x + d + o = x + o + d
  add_sub_comm (x d o : α) : x + d - o = x - o + d

attribute [simp] Scalar.Rigid.isFinite_add Scalar.Rigid.add_zero Scalar.Rigid.add_sub_add

open Scalar.Exact in
/-- Exact numbers can be moved. -/
instance (α : Type) [Scalar α] [Scalar.Exact α] : Scalar.Rigid α where
  isFinite_add x d := by rw [isFinite, isFinite]
  add_zero x := real_injective (by rw [real_add, real_zero, add_zero])
  add_sub_add x y d := real_injective (by simp)
  middle_add x y d := real_injective (by
    simp only [real_div, real_add, real_ofScientific]
    norm_num
    ring)
  add_right_comm := Scalar.Exact.add_right_comm
  add_sub_comm x d o := real_injective (by simp only [real_add, real_sub]; ring)

/-! ## Fractions -/

/-- A fraction, as a number of a document. -/
@[ext]
structure Fraction where
  value : ℚ
deriving DecidableEq, Repr

namespace Fraction

/-- The root of a fraction, exact for a square. -/
def root (q : ℚ) : ℚ :=
  mkRat q.num.toNat.sqrt q.den.sqrt

/-- The fractions, with a half turn of 22 / 7. The length of a vector and its angle are exact along
the axes, and between these the angle grows with the share of the one component in both. The sine and
the cosine are the first terms of their series. -/
instance : Scalar Fraction where
  add x y := ⟨x.value + y.value⟩
  sub x y := ⟨x.value - y.value⟩
  mul x y := ⟨x.value * y.value⟩
  div x y := ⟨x.value / y.value⟩
  neg x := ⟨-x.value⟩
  ofScientific m s e := ⟨OfScientific.ofScientific m s e⟩
  beq x y := decide (x.value = y.value)
  lt x y := x.value < y.value
  le x y := x.value ≤ y.value
  decidableLT x y := inferInstanceAs (Decidable (x.value < y.value))
  decidableLE x y := inferInstanceAs (Decidable (x.value ≤ y.value))
  abs x := ⟨if x.value < 0 then -x.value else x.value⟩
  floor x := x.value.floor
  modulo x y := ⟨x.value - y.value * (x.value / y.value).floor⟩
  sqrt x := ⟨root x.value⟩
  hypot x y := ⟨root (x.value * x.value + y.value * y.value)⟩
  sin x := ⟨x.value - x.value ^ 3 / 6⟩
  cos x := ⟨1 - x.value ^ 2 / 2⟩
  acos x := ⟨11 / 7 - x.value⟩
  atan2 y x :=
    let size (q : ℚ) := if q < 0 then -q else q
    let share := 11 / 7 * (size y.value / (size x.value + size y.value))
    let fromAxis := if x.value < 0 then 22 / 7 - share else share
    ⟨if y.value < 0 then -fromAxis else fromAxis⟩
  pi := ⟨22 / 7⟩
  reading x := .finite (decide (x.value < 0)) (if x.value < 0 then -x.value else x.value)

instance : Scalar.Rigid Fraction where
  isFinite_add _ _ := rfl
  add_zero x := Fraction.ext (by
    change x.value + (0.0 : ℚ) = x.value
    norm_num)
  add_sub_add x y d := Fraction.ext (by
    change x.value + d.value - (y.value + d.value) = x.value - y.value
    ring)
  middle_add x y d := Fraction.ext (by
    change (x.value + d.value + (y.value + d.value)) / (2.0 : ℚ) =
      (x.value + y.value) / (2.0 : ℚ) + d.value
    norm_num
    ring)
  add_right_comm x d o := Fraction.ext (add_right_comm x.value d.value o.value)
  add_sub_comm x d o := Fraction.ext (add_sub_right_comm x.value d.value o.value)

end Fraction

end WallPanel
