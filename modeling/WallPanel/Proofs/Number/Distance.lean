import WallPanel.Proofs.Number.Widening

/-!
# Distances

A number lies as far from another as that one lies from it (`Scalar.Symmetric`). The 64-bit floats
have this because what a difference is rounded to does not depend on its sign
(`Binary64.abs_round`), also where it is too great for them (`Binary64.abs_unpack_pack`).
-/

namespace WallPanel

/-- Numbers whose distances do not depend on which of the two is taken first. -/
class Scalar.Symmetric (α : Type) [Scalar α] : Prop where
  abs_sub_comm {x y : α} (hx : Scalar.isFinite x = true) (hy : Scalar.isFinite y = true) :
    Scalar.abs (x - y) = Scalar.abs (y - x)

namespace Binary64

open Float.Model Float.Model.UnpackedFloat

variable {a b u : UnpackedFloat} {p q w : ℚ} {x y : Float}

/-! ## Unpacked floats -/

/-- A magnitude is rounded to the same whatever its sign. -/
theorem abs_round (s : Sign) (m : Nat) (e : Int) :
    (UnpackedFloat.round .binary64 s m e).abs = UnpackedFloat.round .binary64 .positive m e := by
  unfold UnpackedFloat.round roundWithAccuracy
  dsimp only
  rw [apply_dite UnpackedFloat.abs]
  rfl

theorem abs_normalize_neg (M : Int) (e : Int) :
    (UnpackedFloat.normalize .binary64 (-M) e .positive).abs =
      (UnpackedFloat.normalize .binary64 M e .positive).abs := by
  unfold UnpackedFloat.normalize
  rcases lt_trichotomy M 0 with h | rfl | h
  · rw [compare_lt_iff_lt.mpr h, compare_gt_iff_gt.mpr (show -M > 0 by omega)]
    exact (abs_round _ _ _).trans (abs_round _ _ _).symm
  · rfl
  · rw [compare_gt_iff_gt.mpr h, compare_lt_iff_lt.mpr (show -M < 0 by omega), neg_neg]
    exact (abs_round _ _ _).trans (abs_round _ _ _).symm

theorem sub_finite (s s' : Sign) {m n : Nat} {e f : Int} (hm : 0 < m) (hn : 0 < n) :
    UnpackedFloat.sub .binary64 (.finite s m e hm) (.finite s' n f hn) =
      UnpackedFloat.normalize .binary64 (s.apply (m <<< (e - min e f).toNat : Nat) -
        s'.apply (n <<< (f - min e f).toNat : Nat)) (min e f) .positive :=
  rfl

/-- Two differences that are each other's opposite have one magnitude. -/
theorem abs_sub (ha : Denotes a p) (hb : Denotes b q) :
    (UnpackedFloat.sub .binary64 a b).abs = (UnpackedFloat.sub .binary64 b a).abs := by
  obtain ⟨s, rfl, rfl⟩ | ⟨s, m, e, hm, rfl⟩ := ha.eq_zero_or_finite <;>
    obtain ⟨s', rfl, rfl⟩ | ⟨s', n, f, hn, rfl⟩ := hb.eq_zero_or_finite
  · cases s <;> cases s' <;> rfl
  · rfl
  · rfl
  · have h := abs_normalize_neg (s.apply (m <<< (e - min e f).toNat : Nat) -
      s'.apply (n <<< (f - min e f).toNat : Nat)) (min e f)
    rw [neg_sub] at h
    rw [sub_finite, sub_finite, min_comm f e, h]

/-- What is packed keeps its magnitude, or becomes an infinity of its sign. -/
theorem abs_unpack_pack (h : Denotes u w) :
    (UnpackedFloat.unpack .binary64 (UnpackedFloat.pack .binary64 u)).abs =
      UnpackedFloat.unpack .binary64 (UnpackedFloat.pack .binary64 u.abs) := by
  cases h with
  | zero s => exact (congrArg UnpackedFloat.abs unpack_packedZero).trans unpack_packedZero.symm
  | positive hm h =>
    rw [unpack_pack _ hm h, UnpackedFloat.abs.eq_def (.finite ..), unpack_pack _ hm h]
    split <;> rfl
  | negative hm h =>
    rw [unpack_pack _ hm h, UnpackedFloat.abs.eq_def (.finite ..), unpack_pack _ hm h]
    split <;> rfl

/-! ## The floats -/

theorem abs_eq_of_unpack (h : x.toModel.unpack.abs = y.toModel.unpack.abs) : x.abs = y.abs := by
  change Float.ofModel _ = Float.ofModel _
  congr 1
  change Float.Model.pack _ = Float.Model.pack _
  rw [h]

instance : Scalar.Symmetric Float where
  abs_sub_comm {x y} hx hy := by
    obtain ⟨p, hp⟩ := Scalar.exists_value hx
    obtain ⟨q, hq⟩ := Scalar.exists_value hy
    have ha := denotes_of_reading hp
    have hb := denotes_of_reading hq
    obtain ⟨v, hv, -⟩ := rounds_sub ha hb
    obtain ⟨w, hw, -⟩ := rounds_sub hb ha
    refine abs_eq_of_unpack ?_
    rw [unpack_sub, unpack_sub, abs_unpack_pack hv, abs_unpack_pack hw, abs_sub ha hb]

end Binary64

end WallPanel
