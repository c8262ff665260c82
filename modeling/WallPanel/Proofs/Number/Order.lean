import Mathlib
import WallPanel.Number.Binary64

/-!
# The order of numbers

Finite numbers are compared by what they are worth (`Scalar.Ordered`). The 64-bit floats are
compared by sign, exponent and significand instead. That is the same, because a float has the least
exponent with which its significand is an integer below `2 ^ 53` (`Binary64.Regular`): of two
regular floats, the one with the greater exponent has the greater magnitude
(`Binary64.compare_magnitude`).

* `Binary64.Denotes`: what an unpacked float stands for.
* `Binary64.denotes_of_reading`: the float that is unpacked stands for what it is worth.
-/

namespace WallPanel

/-- Numbers that are compared by what they are worth, if they are finite. A magnitude that equals
zero is the zero without a sign. -/
class Scalar.Ordered (α : Type) [Scalar α] : Prop where
  value_zero : (Scalar.reading (0.0 : α)).value? = some 0
  lt_iff {x y : α} {p q : ℚ} (hx : (Scalar.reading x).value? = some p)
    (hy : (Scalar.reading y).value? = some q) : x < y ↔ p < q
  le_iff {x y : α} {p q : ℚ} (hx : (Scalar.reading x).value? = some p)
    (hy : (Scalar.reading y).value? = some q) : x ≤ y ↔ p ≤ q
  beq_iff {x y : α} {p q : ℚ} (hx : (Scalar.reading x).value? = some p)
    (hy : (Scalar.reading y).value? = some q) : (x == y) = true ↔ p = q
  abs_eq_zero {x : α} (h : (Scalar.abs x == 0.0) = true) : Scalar.abs x = 0.0

theorem Reading.isFinite_iff {r : Reading} : r.isFinite = true ↔ ∃ q, r.value? = some q := by
  cases r <;> simp [isFinite, value?]

/-! ## Comparisons of finite numbers -/

namespace Scalar

variable {α : Type} [Scalar α] [Scalar.Ordered α] {x y z : α}

omit [Scalar.Ordered α] in
theorem exists_value (h : isFinite x = true) : ∃ q, (reading x).value? = some q :=
  Reading.isFinite_iff.mp h

theorem isFinite_zero : isFinite (0.0 : α) = true :=
  Reading.isFinite_iff.mpr ⟨0, Ordered.value_zero⟩

theorem le_self (hx : isFinite x = true) : x ≤ x := by
  obtain ⟨p, hp⟩ := exists_value hx
  exact (Ordered.le_iff hp hp).mpr le_rfl

theorem le_trans (hx : isFinite x = true) (hy : isFinite y = true) (hz : isFinite z = true)
    (hxy : x ≤ y) (hyz : y ≤ z) : x ≤ z := by
  obtain ⟨p, hp⟩ := exists_value hx
  obtain ⟨q, hq⟩ := exists_value hy
  obtain ⟨r, hr⟩ := exists_value hz
  exact (Ordered.le_iff hp hr).mpr
    (((Ordered.le_iff hp hq).mp hxy).trans ((Ordered.le_iff hq hr).mp hyz))

/-- Two finite numbers are equal if neither is above the other. -/
theorem beq_iff_le_and_le (hx : isFinite x = true) (hy : isFinite y = true) :
    (x == y) = true ↔ x ≤ y ∧ y ≤ x := by
  obtain ⟨p, hp⟩ := exists_value hx
  obtain ⟨q, hq⟩ := exists_value hy
  rw [Ordered.beq_iff hp hq, Ordered.le_iff hp hq, Ordered.le_iff hq hp]
  exact le_antisymm_iff

theorem not_lt_iff (hx : isFinite x = true) (hy : isFinite y = true) : ¬x < y ↔ y ≤ x := by
  obtain ⟨p, hp⟩ := exists_value hx
  obtain ⟨q, hq⟩ := exists_value hy
  rw [Ordered.lt_iff hp hq, Ordered.le_iff hq hp, not_lt]

theorem le_of_lt (hx : isFinite x = true) (hy : isFinite y = true) (h : x < y) : x ≤ y := by
  obtain ⟨p, hp⟩ := exists_value hx
  obtain ⟨q, hq⟩ := exists_value hy
  exact (Ordered.le_iff hp hq).mpr ((Ordered.lt_iff hp hq).mp h).le

/-- A magnitude that is given is itself: it has no sign to lose. -/
theorem orZero_abs (x : α) : orZero (some (abs x)) = abs x := by
  simp only [orZero]
  split
  · next h => exact (Ordered.abs_eq_zero h).symm
  · rfl

end Scalar

namespace Binary64

open Float.Model Float.Model.UnpackedFloat

/-! ## Magnitudes -/

/-- A significand and an exponent as a float has them. -/
structure Regular (significand : Nat) (exponent : Int) : Prop where
  upper : significand < 2 ^ 53
  least : -1074 ≤ exponent
  normal : -1074 < exponent → 2 ^ 52 ≤ significand

variable {m n : Nat} {e f : Int}

theorem magnitude_eq (m : Nat) (e : Int) : magnitude m e = m * 2 ^ e := by
  obtain ⟨n, rfl | rfl⟩ := e.eq_nat_or_neg
  · simp [magnitude, twoTo, Rat.mkRat_eq_div]
  · simp [magnitude, twoTo, Rat.mkRat_eq_div, div_eq_mul_inv]

/-- The greater exponent makes the greater magnitude. -/
theorem magnitude_lt_of_exponent_lt (h : Regular m e) (h' : Regular n f) (he : e < f) :
    (m : ℚ) * 2 ^ e < n * 2 ^ f := by
  have hm : (m : ℚ) < 2 ^ 53 := by exact_mod_cast h.upper
  have hn : (2 : ℚ) ^ 52 ≤ n := by exact_mod_cast h'.normal (h.least.trans_lt he)
  calc (m : ℚ) * 2 ^ e < 2 ^ 53 * 2 ^ e := by gcongr
    _ = 2 ^ 52 * 2 ^ (e + 1) := by rw [zpow_add_one₀ (by norm_num)]; ring
    _ ≤ n * 2 ^ f := by
      gcongr
      · norm_num
      · omega

theorem compare_magnitude (h : Regular m e) (h' : Regular n f) :
    (compare e f).then (compare m n) = compare ((m : ℚ) * 2 ^ e) ((n : ℚ) * 2 ^ f) := by
  rcases lt_trichotomy e f with he | rfl | he
  · rw [compare_lt_iff_lt.mpr he, compare_lt_iff_lt.mpr (magnitude_lt_of_exponent_lt h h' he)]
    rfl
  · rw [compare_eq_iff_eq.mpr rfl]
    rcases lt_trichotomy m n with hm | rfl | hm
    · have hlt : (m : ℚ) * 2 ^ e < n * 2 ^ e := by gcongr
      rw [compare_lt_iff_lt.mpr hm, compare_lt_iff_lt.mpr hlt]
      rfl
    · simp
    · have hlt : (n : ℚ) * 2 ^ e < m * 2 ^ e := by gcongr
      rw [compare_gt_iff_gt.mpr hm, compare_gt_iff_gt.mpr hlt]
      rfl
  · rw [compare_gt_iff_gt.mpr he, compare_gt_iff_gt.mpr (magnitude_lt_of_exponent_lt h' h he)]
    rfl

/-! ## Unpacked floats -/

/-- What an unpacked float stands for. -/
inductive Denotes : UnpackedFloat → ℚ → Prop
  | zero (s : Sign) : Denotes (.zero s) 0
  | positive {m : Nat} {e : Int} (hm : 0 < m) (h : Regular m e) :
      Denotes (.finite .positive m e hm) (m * 2 ^ e)
  | negative {m : Nat} {e : Int} (hm : 0 < m) (h : Regular m e) :
      Denotes (.finite .negative m e hm) (-(m * 2 ^ e))

theorem swap_compare (p q : ℚ) : (compare p q).swap = compare (-p) (-q) := by
  rcases lt_trichotomy p q with h | rfl | h
  · rw [compare_lt_iff_lt.mpr h, compare_gt_iff_gt.mpr (neg_lt_neg h)]
    rfl
  · simp
  · rw [compare_gt_iff_gt.mpr h, compare_lt_iff_lt.mpr (neg_lt_neg h)]
    rfl

/-- Unpacked floats are compared by what they stand for. -/
theorem compare_of_denotes {a b : UnpackedFloat} {p q : ℚ} (ha : Denotes a p)
    (hb : Denotes b q) : a.compare b = some (compare p q) := by
  have hpos {m : Nat} (e : Int) (hm : 0 < m) : (0 : ℚ) < m * 2 ^ e := by positivity
  have hneg {m : Nat} (e : Int) (hm : 0 < m) : -((m : ℚ) * 2 ^ e) < 0 :=
    neg_lt_zero.mpr (hpos e hm)
  cases ha with
  | zero =>
    cases hb with
    | zero => rfl
    | @positive n f hn => rw [compare_lt_iff_lt.mpr (hpos f hn), UnpackedFloat.compare]
    | @negative n f hn => rw [compare_gt_iff_gt.mpr (hneg f hn), UnpackedFloat.compare]
  | @positive m e hm h =>
    cases hb with
    | zero => rw [compare_gt_iff_gt.mpr (hpos e hm), UnpackedFloat.compare]
    | positive _ h' => rw [← compare_magnitude h h', UnpackedFloat.compare]
    | @negative n f hn =>
      rw [compare_gt_iff_gt.mpr ((hneg f hn).trans (hpos e hm)), UnpackedFloat.compare]
  | @negative m e hm h =>
    cases hb with
    | zero => rw [compare_lt_iff_lt.mpr (hneg e hm), UnpackedFloat.compare]
    | @positive n f hn =>
      rw [compare_lt_iff_lt.mpr ((hneg e hm).trans (hpos f hn)), UnpackedFloat.compare]
    | negative _ h' => rw [← swap_compare, ← compare_magnitude h h', UnpackedFloat.compare]

/-- The sign of a float that is negative or not. -/
def signOf (negative : Bool) : Sign :=
  if negative then .negative else .positive

theorem Denotes.finite (negative : Bool) (hm : 0 < m) (hn : m = n) (he : e = f)
    (h : Regular n f) : Denotes (.finite (signOf negative) m e hm)
      (if negative then -magnitude n f else magnitude n f) := by
  subst hn he
  rw [magnitude_eq]
  cases negative
  · exact .positive hm h
  · exact .negative hm h

/-! ## The fields of a float -/

section Fields

variable (b : BitVec 64)

theorem toNat_unpackExponent :
    (@unpackExponent .binary64 b).toNat = b.toNat / twoTo 52 % twoTo 11 := by
  simp [unpackExponent, Nat.shiftRight_eq_div_pow, twoTo]

theorem toNat_unpackMantissa :
    (@unpackMantissa .binary64 b).toNat = b.toNat % twoTo 52 := by
  simp [unpackMantissa, twoTo]

theorem toNat_unpackSign :
    (@unpackSign .binary64 b).toNat = b.toNat / twoTo 63 := by
  have h := b.isLt
  simp [unpackSign, Nat.shiftRight_eq_div_pow, twoTo]
  omega

theorem sign_unpackSign :
    Sign.ofBitVec (@unpackSign .binary64 b) = signOf (b.toNat / twoTo 63 == 1) := by
  rcases BitVec.eq_zero_or_eq_one (@unpackSign .binary64 b) with h | h <;>
    rw [← toNat_unpackSign, h] <;> rfl

/-- The bit that a significand does not show. -/
theorem toNat_one_append (mantissa : BitVec 52) :
    (1#1 ++ mantissa).toNat = twoTo 52 + mantissa.toNat := by
  rw [BitVec.toNat_append, ← Nat.shiftLeft_add_eq_or_of_lt mantissa.isLt]
  simp [twoTo]

end Fields

/-- A finite float stands for what it is worth. -/
theorem denotes_of_reading {x : Float} {p : ℚ} (h : (reading x).value? = some p) :
    Denotes x.toModel.unpack p := by
  have hbits : x.toBits.toNat = x.toModel.toBits.toBitVec.toNat := rfl
  have hbias : ((Format.binary64.exponentBias : Nat) : Int) = 1023 := rfl
  simp only [reading, decode, hbits] at h
  simp only [Float.Model.unpack, UnpackedFloat.unpack, hbias, sign_unpackSign]
  generalize x.toModel.toBits.toBitVec = b at h
  have hexponent := toNat_unpackExponent b
  have hmantissa := toNat_unpackMantissa b
  have hfraction : b.toNat % twoTo 52 < 2 ^ 52 := Nat.mod_lt _ (by decide)
  have hbiased : b.toNat / twoTo 52 % twoTo 11 < 2 ^ 11 := Nat.mod_lt _ (by decide)
  generalize (b.toNat / twoTo 63 == 1) = negative at h ⊢
  generalize b.toNat % twoTo 52 = fraction at h hmantissa hfraction
  generalize b.toNat / twoTo 52 % twoTo 11 = biased at h hexponent hbiased
  have hzero : @unpackMantissa .binary64 b = 0#_ ↔ fraction = 0 := by
    rw [← BitVec.toNat_inj, hmantissa]
    rfl
  have hmost : @unpackExponent .binary64 b = -1#_ ↔ biased = 2047 := by
    rw [← BitVec.toNat_inj, hexponent]
    rfl
  have hleast : @unpackExponent .binary64 b = 0#_ ↔ biased = 0 := by
    rw [← BitVec.toNat_inj, hexponent]
    rfl
  split
  · next he =>
    rw [if_pos (hmost.mp he)] at h
    by_cases hf : fraction = 0 <;> simp [hf, Reading.value?] at h
  · next he =>
    rw [if_neg (mt hmost.mpr he)] at h
    split
    · next he =>
      rw [if_pos (hleast.mp he)] at h
      obtain rfl := Option.some.inj h
      split
      · next hm =>
        rw [hzero.mp hm]
        simp [magnitude_eq, Denotes.zero]
      · next hm =>
        have hpos : 0 < fraction := Nat.pos_of_ne_zero (mt hzero.mpr hm)
        have hregular : Regular fraction (-1074) := ⟨by omega, by omega, by omega⟩
        exact .finite negative _ hmantissa (by rw [hexponent, hleast.mp he]; rfl) hregular
    · next he =>
      rw [if_neg (mt hleast.mpr he)] at h
      obtain rfl := Option.some.inj h
      have hne := mt hleast.mpr he
      have hregular : Regular (twoTo 52 + fraction) (Int.ofNat biased - 1075) := by
        have htwo : twoTo 52 = 2 ^ 52 := rfl
        refine ⟨?_, ?_, ?_⟩ <;> simp only [htwo, Int.ofNat_eq_natCast] <;> omega
      refine .finite negative _ ?_ (by rw [hexponent]; rfl) hregular
      rw [toNat_one_append, hmantissa]

/-! ## The magnitude of a float -/

/-- A magnitude is packed without a sign. -/
theorem unpackSign_pack_abs (u : UnpackedFloat) :
    unpackSign (UnpackedFloat.pack .binary64 u.abs) = 0#1 := by
  cases u with
  | finite s m e hm =>
    simp only [UnpackedFloat.abs, UnpackedFloat.pack]
    split
    · exact unpackSign_packComponents .positive _ _
    · split <;> exact unpackSign_packComponents .positive _ _
  | _ => exact unpackSign_packComponents .positive _ _

theorem abs_eq_zero {x : Float} (h : (x.abs == 0.0) = true) : x.abs = 0.0 := by
  have hsign : @unpackSign .binary64 x.abs.toModel.toBits.toBitVec = 0#1 :=
    unpackSign_pack_abs x.toModel.unpack
  rcases (Float.beq_iff_ne_nan_and_eq.mp h).2.2 with heq | ⟨hzero, -⟩ | ⟨hzero, -⟩
  · exact heq
  · exact hzero
  · rw [hzero] at hsign
    exact absurd hsign (by decide)

/-! ## The order of the floats -/

theorem beq_iff_compare {x y : Float} :
    (x == y) = true ↔ x.toModel.unpack.compare y.toModel.unpack = some .eq := by
  change x.toModel.beq y.toModel = true ↔ _
  simp [Float.Model.beq, UnpackedFloat.beq]

theorem compare_of_reading {x y : Float} {p q : ℚ} (hx : (reading x).value? = some p)
    (hy : (reading y).value? = some q) :
    x.toModel.unpack.compare y.toModel.unpack = some (compare p q) :=
  compare_of_denotes (denotes_of_reading hx) (denotes_of_reading hy)

instance : Scalar.Ordered Float where
  value_zero := by
    have hdecode : decode 0.0 = .finite false 0 (-1074) := by decide
    change (reading 0.0).value? = some 0
    simp [reading, hdecode, Reading.value?, magnitude_eq]
  lt_iff {x y p q} hx hy := by
    change decide (x.toModel.lt y.toModel = true) = true ↔ _
    simp [Float.Model.lt, UnpackedFloat.lt, compare_of_reading hx hy, compare_lt_iff_lt]
  le_iff {x y p q} hx hy := by
    change decide (x.toModel.le y.toModel = true) = true ↔ _
    simp [Float.Model.le, UnpackedFloat.le, compare_of_reading hx hy,
      ← Ordering.ne_gt_iff_isLE, compare_le_iff_le]
  beq_iff hx hy := by
    rw [beq_iff_compare, compare_of_reading hx hy, Option.some.injEq, compare_eq_iff_eq]
  abs_eq_zero := abs_eq_zero

end Binary64

end WallPanel
