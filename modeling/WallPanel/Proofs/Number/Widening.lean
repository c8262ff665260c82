import WallPanel.Proofs.Number.Rounding

/-!
# Widening an interval

To take a length off one end of an interval, or to add it to the other, does not move the end past
a point of the interval, however the result is rounded (`Scalar.Widening`). The 64-bit floats have
this from `Binary64.rounds_sub` and `Binary64.rounds_add`, also where the result is too great for
them.

* `Binary64.isLE_compare`: a rounded number beside a float.
* `Binary64.isFinite_iff`, `Binary64.isFinite_of_sub`: what a finite difference was made of.
-/

namespace WallPanel

/-- Numbers whose sums and differences do not cross the numbers of the format. -/
class Scalar.Widening (α : Type) [Scalar α] : Prop where
  isFinite_of_sub {x r : α} (h : Scalar.isFinite (x - r) = true) :
    Scalar.isFinite x = true ∧ Scalar.isFinite r = true
  sub_le {x y r : α} (hx : Scalar.isFinite x = true) (hy : Scalar.isFinite y = true)
    (hr : Scalar.isFinite r = true) (hzero : 0.0 ≤ r) (h : x ≤ y) : x - r ≤ y
  le_add {x y r : α} (hx : Scalar.isFinite x = true) (hy : Scalar.isFinite y = true)
    (hr : Scalar.isFinite r = true) (hzero : 0.0 ≤ r) (h : x ≤ y) : x ≤ y + r
  zero_le_half {x : α} (h : Scalar.isFinite (Scalar.abs x / 2.0) = true) :
    0.0 ≤ Scalar.abs x / 2.0
  isFinite_tolerance : Scalar.isFinite (1e-6 : α) = true
  zero_le_tolerance : 0.0 ≤ (1e-6 : α)

namespace Binary64

open Float.Model Float.Model.UnpackedFloat

variable {a b u : UnpackedFloat} {p q v w : ℚ} {x y : Float}

/-! ## A rounded number beside a float -/

/-- The exponent of a float is not beyond the greatest one. -/
theorem exponent_le {s : Sign} {m : Nat} {e : Int} {hm : 0 < m}
    (h : x.toModel.unpack = .finite s m e hm) (hr : Regular m e) : e ≤ 971 := by
  have hpacked : UnpackedFloat.pack .binary64 x.toModel.unpack = x.toModel.toBits.toBitVec :=
    pack_unpack_of_valid x.toModel.valid
  have hunpacked := congrArg (UnpackedFloat.unpack .binary64) hpacked
  change _ = x.toModel.unpack at hunpacked
  rw [h, unpack_pack s hm hr] at hunpacked
  by_contra hlt
  rw [if_neg hlt] at hunpacked
  cases hunpacked

/-- What is packed is unpacked as it was, or as an infinity beyond all floats. -/
theorem unpack_pack_cases (hu : Denotes u w) (hx : Denotes x.toModel.unpack q) :
    UnpackedFloat.unpack .binary64 (UnpackedFloat.pack .binary64 u) = u ∨
      (UnpackedFloat.unpack .binary64 (UnpackedFloat.pack .binary64 u) = .infinity .positive ∧
        q < w) ∨
      UnpackedFloat.unpack .binary64 (UnpackedFloat.pack .binary64 u) = .infinity .negative ∧
        w < q := by
  have hbeyond {m : Nat} {e : Int} (hm : 0 < m) (h : Regular m e) (he : ¬e ≤ 971) :
      |q| < m * 2 ^ e := by
    have hpos : (0 : ℚ) < m * 2 ^ e := by positivity
    generalize hb : x.toModel.unpack = b at hx
    cases hx with
    | zero => rwa [abs_zero]
    | positive hn h' =>
      rw [abs_of_nonneg (by positivity)]
      exact magnitude_lt_of_exponent_lt h' h (lt_of_le_of_lt (exponent_le hb h') (not_le.mp he))
    | negative hn h' =>
      rw [abs_neg, abs_of_nonneg (by positivity)]
      exact magnitude_lt_of_exponent_lt h' h (lt_of_le_of_lt (exponent_le hb h') (not_le.mp he))
  cases hu with
  | zero s => exact .inl unpack_packedZero
  | positive hm h =>
    rw [unpack_pack _ hm h]
    split
    · exact .inl rfl
    · next he => exact .inr (.inl ⟨rfl, (abs_lt.mp (hbeyond hm h he)).2⟩)
  | negative hm h =>
    rw [unpack_pack _ hm h]
    split
    · exact .inl rfl
    · next he => exact .inr (.inr ⟨rfl, (abs_lt.mp (hbeyond hm h he)).1⟩)

theorem isLE_compare_of_le (h : p ≤ q) : (compare p q).isLE = true :=
  Ordering.ne_gt_iff_isLE.mp (compare_le_iff_le.mpr h)

/-- The infinities lie beyond all finite numbers. -/
theorem compare_infinity (h : Denotes a q) :
    UnpackedFloat.compare (.infinity .positive) a = some .gt ∧
      a.compare (.infinity .positive) = some .lt ∧
      UnpackedFloat.compare (.infinity .negative) a = some .lt ∧
      a.compare (.infinity .negative) = some .gt := by
  cases h <;> exact ⟨rfl, rfl, rfl, rfl⟩

/-- A float lies on the same side of a number and of what it is rounded to. -/
theorem isLE_compare (hu : Rounds v u) (hx : Denotes x.toModel.unpack q) :
    (v ≤ q → ((UnpackedFloat.unpack .binary64 (UnpackedFloat.pack .binary64 u)).compare
      x.toModel.unpack).any (·.isLE) = true) ∧
    (q ≤ v → (x.toModel.unpack.compare (UnpackedFloat.unpack .binary64
      (UnpackedFloat.pack .binary64 u))).any (·.isLE) = true) := by
  obtain ⟨w, hw, hside⟩ := hu
  obtain ⟨hle, hge⟩ := hside _ _ hx
  obtain ⟨hgt, hlt, hlt', hgt'⟩ := compare_infinity hx
  rcases unpack_pack_cases hw hx with h | ⟨h, hqw⟩ | ⟨h, hwq⟩
  · rw [h, compare_of_denotes hw hx, compare_of_denotes hx hw]
    exact ⟨fun hv => isLE_compare_of_le (hge hv), fun hv => isLE_compare_of_le (hle hv)⟩
  · rw [h, hgt, hlt]
    exact ⟨fun hv => absurd (hge hv) hqw.not_ge, fun _ => rfl⟩
  · rw [h, hlt', hgt']
    exact ⟨fun _ => rfl, fun hv => absurd (hle hv) hwq.not_ge⟩

/-! ## Finite floats -/

theorem Denotes.isFinite (h : Denotes a q) : a.isFinite = true := by
  cases h <;> rfl

/-- A float is finite if it is unpacked as a number. -/
theorem isFinite_iff : Scalar.isFinite x = true ↔ x.toModel.unpack.isFinite = true := by
  constructor
  · intro h
    obtain ⟨q, hq⟩ := Scalar.exists_value h
    exact (denotes_of_reading hq).isFinite
  · intro h
    by_contra hinf
    have hmost : @unpackExponent .binary64 x.toModel.toBits.toBitVec = -1#_ := by
      rw [← BitVec.toNat_inj, toNat_unpackExponent]
      change x.toBits.toNat / twoTo 52 % twoTo 11 = 2047
      by_contra hne
      refine hinf ?_
      change (reading x).isFinite = true
      simp only [reading, decode, if_neg hne]
      by_cases hz : x.toBits.toNat / twoTo 52 % twoTo 11 = 0 <;> simp [hz, Reading.isFinite]
    simp only [Float.Model.unpack, UnpackedFloat.unpack, hmost, if_true] at h
    split at h <;> cases h

theorem isFinite_of_pack
    (h : (UnpackedFloat.unpack .binary64 (UnpackedFloat.pack .binary64 u)).isFinite = true) :
    u.isFinite = true := by
  cases u with
  | zero => rfl
  | finite => rfl
  | infinity s =>
    rw [show UnpackedFloat.pack .binary64 (.infinity s) = packedInfinity .binary64 s from rfl,
      unpack_packedInfinity] at h
    exact h
  | notANumber =>
    rw [show UnpackedFloat.pack .binary64 .notANumber = packedNaN .binary64 from rfl,
      unpack_packedNaN] at h
    exact h

/-- A finite difference is one of finite numbers. -/
theorem isFinite_of_sub (h : (UnpackedFloat.sub .binary64 a b).isFinite = true) :
    a.isFinite = true ∧ b.isFinite = true := by
  cases a <;> cases b
  case infinity.infinity =>
    rw [UnpackedFloat.sub] at h
    split at h <;> cases h
  all_goals first | exact ⟨rfl, rfl⟩ | cases h

/-! ## Magnitudes -/

/-- A float without a sign is its own magnitude. -/
theorem abs_unpack {b : BitVec 64} (h : @unpackSign .binary64 b = 0#1) :
    (UnpackedFloat.unpack .binary64 b).abs = UnpackedFloat.unpack .binary64 b := by
  simp only [UnpackedFloat.unpack, h]
  split
  · split <;> rfl
  · split
    · split <;> rfl
    · rfl

/-- What is rounded without a sign has none. -/
theorem abs_roundWithAccuracy (m : Nat) (e : Int) (accuracy : Accuracy) :
    (roundWithAccuracy .binary64 .positive m e accuracy).abs =
      roundWithAccuracy .binary64 .positive m e accuracy := by
  unfold roundWithAccuracy
  dsimp only
  rw [apply_dite UnpackedFloat.abs]
  rfl

/-- A quotient of magnitudes is a magnitude. -/
theorem abs_div (ha : a.abs = a) (hb : b.abs = b) :
    (UnpackedFloat.div .binary64 a b).abs = UnpackedFloat.div .binary64 a b := by
  rw [← ha, ← hb]
  cases a <;> cases b
  case finite.finite => exact abs_roundWithAccuracy _ _ _
  all_goals rfl

/-- A quotient of magnitudes is not negative. -/
theorem nonneg_of_reading_half (h : (reading (x.abs / 2.0)).value? = some q) : 0 ≤ q := by
  have hx : x.abs.toModel.unpack.abs = x.abs.toModel.unpack :=
    abs_unpack (unpackSign_pack_abs x.toModel.unpack)
  have htwo : (2.0 : Float).toModel.unpack.abs = (2.0 : Float).toModel.unpack :=
    abs_unpack (by decide +kernel)
  have hhalf : (x.abs / 2.0).toModel.unpack.abs = (x.abs / 2.0).toModel.unpack := by
    refine abs_unpack ?_
    change unpackSign (UnpackedFloat.pack .binary64 (UnpackedFloat.div .binary64 _ _)) = 0#1
    rw [← abs_div hx htwo]
    exact unpackSign_pack_abs _
  have hd := denotes_of_reading h
  generalize (x.abs / 2.0).toModel.unpack = a at hhalf hd
  cases hd with
  | zero => exact le_rfl
  | positive => positivity
  | negative => cases hhalf

/-! ## The floats -/

theorem le_of_isLE (h : (x.toModel.unpack.compare y.toModel.unpack).any (·.isLE) = true) :
    x ≤ y := by
  change decide (x.toModel.le y.toModel = true) = true
  exact decide_eq_true h

theorem unpack_sub (x y : Float) :
    (x - y).toModel.unpack = UnpackedFloat.unpack .binary64 (UnpackedFloat.pack .binary64
      (UnpackedFloat.sub .binary64 x.toModel.unpack y.toModel.unpack)) :=
  rfl

theorem isFinite_tolerance : (reading 1e-6).isFinite = true := by
  decide +kernel

theorem zero_le_tolerance : (0.0 : Float) ≤ 1e-6 := by
  decide +kernel

instance : Scalar.Widening Float where
  isFinite_of_sub {x r} h := by
    have hsub : (x - r).toModel.unpack.isFinite = true := isFinite_iff.mp h
    rw [unpack_sub] at hsub
    obtain ⟨hx, hr⟩ := isFinite_of_sub (isFinite_of_pack hsub)
    exact ⟨isFinite_iff.mpr hx, isFinite_iff.mpr hr⟩
  sub_le {x y r} hx hy hr hzero h := by
    obtain ⟨p, hp⟩ := Scalar.exists_value hx
    obtain ⟨q, hq⟩ := Scalar.exists_value hy
    obtain ⟨d, hd⟩ := Scalar.exists_value hr
    have hd₀ : 0 ≤ d := (Scalar.Ordered.le_iff Scalar.Ordered.value_zero hd).mp hzero
    have hpq : p ≤ q := (Scalar.Ordered.le_iff hp hq).mp h
    have hrounds := rounds_sub (denotes_of_reading hp) (denotes_of_reading hd)
    exact le_of_isLE ((isLE_compare hrounds (denotes_of_reading hq)).1
      ((sub_le_self p hd₀).trans hpq))
  le_add {x y r} hx hy hr hzero h := by
    obtain ⟨p, hp⟩ := Scalar.exists_value hx
    obtain ⟨q, hq⟩ := Scalar.exists_value hy
    obtain ⟨d, hd⟩ := Scalar.exists_value hr
    have hd₀ : 0 ≤ d := (Scalar.Ordered.le_iff Scalar.Ordered.value_zero hd).mp hzero
    have hpq : p ≤ q := (Scalar.Ordered.le_iff hp hq).mp h
    have hrounds := rounds_add (denotes_of_reading hq) (denotes_of_reading hd)
    exact le_of_isLE ((isLE_compare hrounds (denotes_of_reading hp)).2
      (hpq.trans (le_add_of_nonneg_right hd₀)))
  zero_le_half {x} h := by
    obtain ⟨q, hq⟩ := Scalar.exists_value h
    exact (Scalar.Ordered.le_iff Scalar.Ordered.value_zero hq).mpr (nonneg_of_reading_half hq)
  isFinite_tolerance := isFinite_tolerance
  zero_le_tolerance := zero_le_tolerance

end Binary64

end WallPanel
