import WallPanel.Proofs.Number.Widening

/-!
# Infinities

Beside the finite floats there are two infinities, beyond all of them on either side
(`Binary64.lt_infinity`, `Binary64.neg_infinity_lt`). So an interval that is widened holds what it
held, also if it is widened without end (`Binary64.sub_le`, `Binary64.le_add`).
-/

namespace WallPanel.Binary64

open Float.Model Float.Model.UnpackedFloat

variable {x y r : Float}

/-- The infinity that is above all finite floats. -/
def infinity : Float := 1.0 / 0.0

theorem unpack_infinity : infinity.toModel.unpack = .infinity .positive := by
  have hbits : infinity.toModel.toBits.toBitVec = packedInfinity .binary64 .positive := by
    decide +kernel
  change UnpackedFloat.unpack .binary64 infinity.toModel.toBits.toBitVec = _
  rw [hbits, unpack_packedInfinity]

theorem unpack_neg_infinity : (-infinity).toModel.unpack = .infinity .negative := by
  have hbits : (-infinity).toModel.toBits.toBitVec = packedInfinity .binary64 .negative := by
    decide +kernel
  change UnpackedFloat.unpack .binary64 (-infinity).toModel.toBits.toBitVec = _
  rw [hbits, unpack_packedInfinity]

theorem isFinite_infinity : Scalar.isFinite infinity = false := by
  decide +kernel

/-- A finite float stands for a number. -/
theorem exists_denotes (hx : Scalar.isFinite x = true) : ∃ q, Denotes x.toModel.unpack q := by
  obtain ⟨q, hq⟩ := Scalar.exists_value hx
  exact ⟨q, denotes_of_reading hq⟩

theorem lt_infinity (hx : Scalar.isFinite x = true) : x < infinity := by
  obtain ⟨q, hq⟩ := exists_denotes hx
  change decide (x.toModel.lt infinity.toModel = true) = true
  simp [Float.Model.lt, UnpackedFloat.lt, unpack_infinity, (compare_infinity hq).2.1]

theorem neg_infinity_lt (hx : Scalar.isFinite x = true) : -infinity < x := by
  obtain ⟨q, hq⟩ := exists_denotes hx
  change decide ((-infinity).toModel.lt x.toModel = true) = true
  simp [Float.Model.lt, UnpackedFloat.lt, unpack_neg_infinity, (compare_infinity hq).2.2.1]

/-! ## Widening without end -/

/-- A float that is not negative is finite or infinite above. -/
theorem unpack_of_nonneg (hzero : 0.0 ≤ r) (hr : ¬Scalar.isFinite r = true) :
    r.toModel.unpack = .infinity .positive := by
  have hle : ((0.0 : Float).toModel.unpack.compare r.toModel.unpack).any (·.isLE) = true :=
    of_decide_eq_true hzero
  have hvalue : (Scalar.reading (0.0 : Float)).value? = some 0 := Scalar.Ordered.value_zero
  have hd := denotes_of_reading hvalue
  rw [isFinite_iff] at hr
  generalize (0.0 : Float).toModel.unpack = z at hle hd
  generalize r.toModel.unpack = u at hle hr
  cases u with
  | zero => exact absurd rfl hr
  | finite => exact absurd rfl hr
  | infinity s =>
    cases s with
    | positive => rfl
    | negative =>
      rw [(compare_infinity hd).2.2.2] at hle
      cases hle
  | notANumber => cases z <;> cases hle

theorem sub_le (hx : Scalar.isFinite x = true) (hy : Scalar.isFinite y = true) (hzero : 0.0 ≤ r)
    (h : x ≤ y) : x - r ≤ y := by
  by_cases hr : Scalar.isFinite r = true
  · exact Scalar.Widening.sub_le hx hy hr hzero h
  obtain ⟨p, hp⟩ := exists_denotes hx
  obtain ⟨q, hq⟩ := exists_denotes hy
  have hsub : UnpackedFloat.sub .binary64 x.toModel.unpack r.toModel.unpack =
      .infinity .negative := by
    rw [unpack_of_nonneg hzero hr]
    generalize x.toModel.unpack = a at hp
    cases hp <;> rfl
  refine le_of_isLE ?_
  rw [unpack_sub, hsub,
    show UnpackedFloat.pack .binary64 (.infinity .negative) = packedInfinity .binary64 .negative
      from rfl, unpack_packedInfinity, (compare_infinity hq).2.2.1]
  rfl

theorem le_add (hx : Scalar.isFinite x = true) (hy : Scalar.isFinite y = true) (hzero : 0.0 ≤ r)
    (h : x ≤ y) : x ≤ y + r := by
  by_cases hr : Scalar.isFinite r = true
  · exact Scalar.Widening.le_add hx hy hr hzero h
  obtain ⟨p, hp⟩ := exists_denotes hx
  obtain ⟨q, hq⟩ := exists_denotes hy
  have hadd : UnpackedFloat.add .binary64 y.toModel.unpack r.toModel.unpack =
      .infinity .positive := by
    rw [unpack_of_nonneg hzero hr]
    generalize y.toModel.unpack = b at hq
    cases hq <;> rfl
  have hunpack : (y + r).toModel.unpack = UnpackedFloat.unpack .binary64
      (UnpackedFloat.pack .binary64 (UnpackedFloat.add .binary64 y.toModel.unpack
        r.toModel.unpack)) := rfl
  refine le_of_isLE ?_
  rw [hunpack, hadd,
    show UnpackedFloat.pack .binary64 (.infinity .positive) = packedInfinity .binary64 .positive
      from rfl, unpack_packedInfinity, (compare_infinity hp).2.1]
  rfl

end WallPanel.Binary64
