import WallPanel.Proofs.Number.Decimal
import WallPanel.Proofs.Number.Widening

/-!
# Decimal text read as floats

A numeral is read as the number nearest to it (`Scalar.Nearest`). The 64-bit floats have this
because a quotient of them is rounded to the nearest one: the two bits that are kept beside a
significand tell where the exact quotient lies (`Binary64.Stands`), and the lattice of the floats is
no finer than that at any place where it could be closer.

* `Binary64.nearest_roundWithAccuracy`: a significand that is kept with two bits more is rounded to
  the nearest float.
* `Binary64.nearest_div`: so is a quotient.
* `Binary64.exists_nearest_ofScientific`: so is a decimal numeral.
-/

namespace WallPanel

theorem Reading.value?_eq_rational? {r : Reading} (h : ∀ s q, r = .finite s q → 0 ≤ q) :
    r.value? = r.rational? := by
  cases r with
  | finite s q => simp [value?, rational?, abs_of_nonneg (h s q rfl)]
  | _ => rfl

/-- Numbers that read as magnitudes with a sign, and as which decimal text is read: of all numbers
none is closer to a numeral of up to three places than the one that it is read as, if some number is
within half a thousandth of it. -/
class Scalar.Nearest (α : Type) [Scalar α] : Prop where
  value?_eq_rational? (x : α) : (Scalar.reading x).value? = (Scalar.reading x).rational?
  exists_value {n : Numeral} {x : α} {q : ℚ} (hplaces : n.places.length ≤ 3)
    (hx : (Scalar.reading x).value? = some q) (hclose : |n.exact - q| ≤ 1 / 2000) :
    ∃ p, (Scalar.reading (n.value : α)).value? = some p ∧
      ∀ (y : α) (r : ℚ), (Scalar.reading y).value? = some r → |p - n.exact| ≤ |r - n.exact|

namespace Binary64

open Float.Model Float.Model.UnpackedFloat

variable {m n k : Nat} {e f : Int} {a b u : UnpackedFloat} {p q v w : ℚ}

/-! ## Significands with two bits more -/

/-- What a significand stands for with the two bits that are kept beside it: one for a half, and one
for a rest that is less than that. -/
def Stands (em : ExtendedMantissa) (x : ℚ) : Prop :=
  ∃ rest : ℚ, 0 ≤ rest ∧ rest < 1 / 2 ∧ (em.stickyBit = false ↔ rest = 0) ∧
    x = em.mantissa + (if em.roundBit then 1 / 2 else 0) + rest

theorem Stands.shiftRightOne {em : ExtendedMantissa} {x : ℚ} (h : Stands em x) :
    Stands em.shiftRightOne (x / 2) := by
  obtain ⟨rest, hrest, hlt, hsticky, rfl⟩ := h
  have hmantissa : (em.mantissa : ℚ) = 2 * (em.mantissa / 2 : Nat) + (em.mantissa % 2 : Nat) := by
    exact_mod_cast (Nat.div_add_mod em.mantissa 2).symm
  refine ⟨(if em.roundBit then 1 / 4 else 0) + rest / 2, ?_, ?_, ?_, ?_⟩
  · split <;> linarith
  · split <;> linarith
  · cases hr : em.roundBit with
    | true =>
      have hne : (1 : ℚ) / 4 + rest / 2 ≠ 0 := by linarith
      simpa [ExtendedMantissa.shiftRightOne, hr] using hne
    | false => simpa [ExtendedMantissa.shiftRightOne, hr] using hsticky
  · rw [hmantissa]
    rcases Nat.mod_two_eq_zero_or_one em.mantissa with hbit | hbit <;>
      cases em.roundBit <;> simp [ExtendedMantissa.shiftRightOne, hbit] <;> ring

theorem Stands.shiftRight {em : ExtendedMantissa} {x : ℚ} (h : Stands em x) (k : Nat) :
    Stands (em >>> k) (x / 2 ^ k) := by
  induction k with
  | zero => rwa [pow_zero, div_one]
  | succ k ih =>
    rw [pow_succ, ← div_div]
    exact ih.shiftRightOne

theorem Stands.bounds {em : ExtendedMantissa} {x : ℚ} (h : Stands em x) :
    em.mantissa ≤ x ∧ x < em.mantissa + 1 := by
  obtain ⟨rest, hrest, hlt, -, rfl⟩ := h
  constructor <;> split <;> linarith

/-- What is rounded is off by half a place at most. -/
theorem Stands.abs_sub_le {em : ExtendedMantissa} {x : ℚ} (h : Stands em x) :
    |(em.roundedMantissa : ℚ) - x| ≤ 1 / 2 := by
  obtain ⟨rest, hrest, hlt, hsticky, rfl⟩ := h
  obtain ⟨m, r, s⟩ := em
  have hodd : ((m % 2 : Nat) : ℚ) = 0 ∨ ((m % 2 : Nat) : ℚ) = 1 := by
    rcases Nat.mod_two_eq_zero_or_one m with h | h <;> simp [h]
  rw [abs_le]
  cases r <;> cases s <;>
    simp only [ExtendedMantissa.roundedMantissa, ExtendedMantissa.accuracy,
      Accuracy.roundToNearestEven, Bool.false_eq_true, ↓reduceIte, true_iff, Bool.true_eq_false,
      false_iff] at hsticky ⊢
  · constructor <;> linarith
  · constructor <;> linarith
  · push_cast
    rcases hodd with h | h <;> constructor <;> linarith
  · push_cast
    constructor <;> linarith

theorem stands_exact (m : Nat) : Stands (ExtendedMantissa.ofMantissaAndAccuracy m .exact) m :=
  ⟨0, le_rfl, by norm_num, iff_of_true rfl rfl, by simp [ExtendedMantissa.ofMantissaAndAccuracy]⟩

/-- A quotient stands for the exact one with what its remainder tells of it. -/
theorem stands_div (m : Nat) (hn : 0 < n) :
    Stands (ExtendedMantissa.ofMantissaAndAccuracy (m / n) (accuracyOfFraction (m % n) n))
      ((m : ℚ) / n) := by
  have hn' : (0 : ℚ) < n := by exact_mod_cast hn
  have hvalue : (m : ℚ) / n = (m / n : Nat) + ((m % n : Nat) : ℚ) / n := by
    rw [eq_comm, ← eq_sub_iff_add_eq', div_eq_iff hn'.ne', sub_mul, div_mul_cancel₀ _ hn'.ne',
      eq_sub_iff_add_eq']
    exact_mod_cast Nat.div_add_mod' m n
  have hrem : ((m % n : Nat) : ℚ) < n := by exact_mod_cast Nat.mod_lt m hn
  rw [hvalue, accuracyOfFraction]
  generalize m % n = r at hrem
  split
  · next hr =>
    subst hr
    simpa using stands_exact (m / n)
  · next hr =>
    have hpos : (0 : ℚ) < (r : ℚ) / n := div_pos (by exact_mod_cast Nat.pos_of_ne_zero hr) hn'
    rcases lt_trichotomy (2 * r) n with h | h | h
    · rw [compare_lt_iff_lt.mpr h]
      have hlt : (r : ℚ) / n < 1 / 2 := by
        rw [div_lt_div_iff₀ hn' two_pos, one_mul, mul_comm]
        exact_mod_cast h
      exact ⟨(r : ℚ) / n, hpos.le, hlt, by simp [ExtendedMantissa.ofMantissaAndAccuracy, hpos.ne'],
        by simp [ExtendedMantissa.ofMantissaAndAccuracy]⟩
    · rw [compare_eq_iff_eq.mpr h]
      have heq : (r : ℚ) / n = 1 / 2 := by
        rw [div_eq_div_iff hn'.ne' two_ne_zero, one_mul, mul_comm]
        exact_mod_cast h
      exact ⟨0, le_rfl, by norm_num, by simp [ExtendedMantissa.ofMantissaAndAccuracy],
        by simp [ExtendedMantissa.ofMantissaAndAccuracy, heq]⟩
    · rw [compare_gt_iff_gt.mpr h]
      have hgt : 1 / 2 < (r : ℚ) / n := by
        rw [div_lt_div_iff₀ two_pos hn', one_mul, mul_comm]
        exact_mod_cast h
      have hone : (r : ℚ) / n < 1 := (div_lt_one hn').mpr hrem
      refine ⟨(r : ℚ) / n - 1 / 2, by linarith, by linarith, ?_, ?_⟩
      · simpa [ExtendedMantissa.ofMantissaAndAccuracy] using sub_ne_zero.mpr hgt.ne'
      · simp only [ExtendedMantissa.ofMantissaAndAccuracy, ↓reduceIte]
        ring

/-! ## The nearest float -/

/-- A number is rounded to a float than which none is closer to it. -/
def Nearest (v : ℚ) (u : UnpackedFloat) : Prop :=
  ∃ w, Denotes u w ∧ ∀ b q, Denotes b q → |w - v| ≤ |q - v|

theorem Denotes.nearest (h : Denotes u v) : Nearest v u :=
  ⟨v, h, fun _ _ _ => by simp⟩

/-- No integer is closer to a number than one that is off by half at most. -/
theorem abs_sub_le_of_half {c : Int} {x : ℚ} (h : |(c : ℚ) - x| ≤ 1 / 2) (i : Int) :
    |(c : ℚ) - x| ≤ |(i : ℚ) - x| := by
  by_cases hi : i = c
  · rw [hi]
  · have hone : (1 : ℚ) ≤ |(i : ℚ) - c| := by
      exact_mod_cast Int.one_le_abs (sub_ne_zero.mpr hi)
    have htriangle := abs_sub_le (i : ℚ) x c
    rw [abs_sub_comm x c] at htriangle
    linarith

/-- A significand that is off by half a place at most, at the exponent that the format has for the
number, makes the float nearest to it: a float with a lesser exponent lies below the lattice
there. -/
theorem abs_sub_le_of_regular {c : Nat} {t : Int} (hv : 0 < v) (hleast : -1074 ≤ t)
    (hhalf : |(c : ℚ) - v / 2 ^ t| ≤ 1 / 2) (hlower : -1074 < t → (2 : ℚ) ^ 52 * 2 ^ t ≤ v)
    (hb : Denotes b q) : |(c : ℚ) * 2 ^ t - v| ≤ |q - v| := by
  have ht : (0 : ℚ) < 2 ^ t := by positivity
  have hscale (i : ℚ) : |i * 2 ^ t - v| = |i - v / 2 ^ t| * 2 ^ t := by
    rw [← abs_of_pos ht, ← abs_mul, sub_mul, abs_of_pos ht, div_mul_cancel₀ _ ht.ne']
  have hlattice (i : Int) : |(c : ℚ) * 2 ^ t - v| ≤ |(i : ℚ) * 2 ^ t - v| := by
    rw [hscale, hscale]
    have hcloser := abs_sub_le_of_half (c := c) (by exact_mod_cast hhalf) i
    rw [Int.cast_natCast] at hcloser
    exact mul_le_mul_of_nonneg_right hcloser ht.le
  have hzero : |(c : ℚ) * 2 ^ t - v| ≤ v := by
    simpa [abs_of_pos hv] using hlattice 0
  cases hb with
  | zero => simpa [abs_of_pos hv] using hzero
  | @negative n f hn h =>
    refine hzero.trans ?_
    have hneg : (0 : ℚ) < n * 2 ^ f := by positivity
    rw [abs_sub_comm, sub_neg_eq_add, abs_of_pos (by linarith)]
    linarith
  | @positive n f hn h =>
    rcases le_or_gt t f with htf | hft
    · obtain ⟨j, rfl⟩ := Int.le.dest htf
      rw [mul_zpow_add]
      exact_mod_cast hlattice (n * 2 ^ j : Nat)
    · have hlow := hlower (h.least.trans_lt hft)
      have hn := h.lt_of_exponent_lt hleast hft
      have hedge := hlattice (2 ^ 52)
      rw [Int.cast_pow, Int.cast_ofNat] at hedge
      refine hedge.trans ?_
      rw [abs_sub_comm, abs_sub_comm _ v, abs_of_nonneg (sub_nonneg.mpr hlow),
        abs_of_nonneg (by linarith)]
      linarith

theorem roundWithAccuracy_eq_shift (m : Nat) (e : Int) (accuracy : Accuracy) :
    roundWithAccuracy .binary64 .positive m e accuracy =
      (let k := (target m e - e).toNat
      let c := (ExtendedMantissa.ofMantissaAndAccuracy m accuracy >>> k).roundedMantissa
      let final := shiftToTargetExponent .binary64 c (e + k) .exact
      if hz : final.1.mantissa = 0 then .zero .positive
      else .finite .positive final.1.mantissa final.2 (Nat.pos_of_ne_zero hz)) := rfl

/-- What lies between two neighbouring significands, at the exponent that the format has for it: it
has no more places than a significand, and all of them unless the exponent is the least one. -/
theorem bounds_at_target (he : e ≤ target m e) (hlow : m * 2 ^ e ≤ v) (hhigh : v < (m + 1) * 2 ^ e) :
    v < 2 ^ 53 * 2 ^ target m e ∧ (-1074 < target m e → 2 ^ 52 * 2 ^ target m e ≤ v) := by
  constructor
  · obtain ⟨k, hk⟩ := Int.le.dest he
    have hpow : (2 : ℚ) ^ k * 2 ^ e = 2 ^ target m e := by
      rw [← hk, zpow_add₀ (by norm_num), zpow_natCast, mul_comm]
    have hm := magnitude_lt m e
    rw [← hpow, ← mul_assoc] at hm
    have hm : m < 2 ^ 53 * 2 ^ k := by
      exact_mod_cast lt_of_mul_lt_mul_right hm (by positivity)
    calc v < (m + 1) * 2 ^ e := hhigh
      _ ≤ 2 ^ 53 * 2 ^ k * 2 ^ e := by
        gcongr
        exact_mod_cast hm
      _ = 2 ^ 53 * 2 ^ target m e := by rw [mul_assoc, hpow]
  · intro hnormal
    have hpos : 0 < m := by
      by_contra hzero
      obtain rfl : m = 0 := by omega
      rw [target_eq, Nat.log2_zero] at hnormal he
      omega
    exact (le_magnitude hpos hnormal).trans hlow

/-- A significand that is off by half a place at most keeps these bounds. -/
theorem significand_bounds {c : Nat} {t : Int} (hhalf : |(c : ℚ) - v / 2 ^ t| ≤ 1 / 2)
    (hupper : v < 2 ^ 53 * 2 ^ t) (hlower : -1074 < t → 2 ^ 52 * 2 ^ t ≤ v) :
    c ≤ 2 ^ 53 ∧ (-1074 < t → 2 ^ 52 ≤ c) := by
  have ht : (0 : ℚ) < 2 ^ t := by positivity
  obtain ⟨hlow, hhigh⟩ := abs_le.mp hhalf
  constructor
  · have hcut : v / 2 ^ t < 2 ^ 53 := (div_lt_iff₀ ht).mpr hupper
    have hlt : (c : ℚ) < 2 ^ 53 + 1 := by linarith
    exact Nat.lt_succ_iff.mp (by exact_mod_cast hlt)
  · intro hnormal
    have hcut : (2 : ℚ) ^ 52 ≤ v / 2 ^ t := (le_div_iff₀ ht).mpr (hlower hnormal)
    have hlt : (2 : ℚ) ^ 52 < c + 1 := by linarith
    exact Nat.lt_succ_iff.mp (by exact_mod_cast hlt)

/-- What is kept with two bits more, at an exponent that is not beyond that of the format, is
rounded to the nearest float. -/
theorem nearest_roundWithAccuracy {accuracy : Accuracy} (hv : 0 < v) (he : e ≤ target m e)
    (h : Stands (ExtendedMantissa.ofMantissaAndAccuracy m accuracy) (v / 2 ^ e)) :
    Nearest v (roundWithAccuracy .binary64 .positive m e accuracy) := by
  have hpe : (0 : ℚ) < 2 ^ e := by positivity
  have hmantissa : (ExtendedMantissa.ofMantissaAndAccuracy m accuracy).mantissa = m := by
    unfold ExtendedMantissa.ofMantissaAndAccuracy
    split <;> rfl
  obtain ⟨hlow, hhigh⟩ := h.bounds
  rw [hmantissa] at hlow hhigh
  obtain ⟨hupper, hlower⟩ :=
    bounds_at_target he ((le_div_iff₀ hpe).mp hlow) ((div_lt_iff₀ hpe).mp hhigh)
  have hleast := least_le_target m e
  set t := target m e with ht
  set k := (t - e).toNat with hk
  set c := (ExtendedMantissa.ofMantissaAndAccuracy m accuracy >>> k).roundedMantissa with hc
  have hexponent : e + k = t := by omega
  have hpow : (2 : ℚ) ^ e * 2 ^ k = 2 ^ t := by
    rw [← hexponent, zpow_add₀ (by norm_num), zpow_natCast]
  have hhalf : |(c : ℚ) - v / 2 ^ t| ≤ 1 / 2 := by
    have hshifted := (h.shiftRight k).abs_sub_le
    rwa [div_div, hpow] at hshifted
  obtain ⟨hle, hnormal⟩ := significand_bounds hhalf hupper hlower
  refine ⟨c * 2 ^ t, ?_, fun b q hb => abs_sub_le_of_regular hv hleast hhalf hlower hb⟩
  rw [roundWithAccuracy_eq_shift]
  dsimp only
  rw [← ht, ← hk, ← hc, hexponent]
  exact denotes_shift .positive hle hleast hnormal rfl

/-! ## Quotients -/

theorem div_finite (hm : 0 < m) (hn : 0 < n) :
    UnpackedFloat.div .binary64 (.finite .positive m e hm) (.finite .positive n f hn) =
      (let d := min (e - f) (max (m.log2 + 1 + e - (n.log2 + 1 + f) - 53) (-1074))
      let scaled := m <<< (e - f - d).toNat
      roundWithAccuracy .binary64 .positive (scaled / n) d (accuracyOfFraction (scaled % n) n)) :=
  rfl

/-- A quotient has all the places of a significand if enough places are added to what is divided. -/
theorem le_log2_div (hm : 0 < m) (hn : 0 < n) (h : n.log2 + 53 ≤ m.log2 + k) :
    52 ≤ ((m <<< k) / n).log2 := by
  have hle : 2 ^ 52 ≤ (m <<< k) / n := by
    rw [Nat.le_div_iff_mul_le hn, Nat.shiftLeft_eq]
    calc 2 ^ 52 * n ≤ 2 ^ 52 * 2 ^ (n.log2 + 1) := Nat.mul_le_mul_left _ Nat.lt_log2_self.le
      _ = 2 ^ (n.log2 + 53) := by rw [← Nat.pow_add]; congr 1; omega
      _ ≤ 2 ^ (m.log2 + k) := Nat.pow_le_pow_right two_pos h
      _ = 2 ^ m.log2 * 2 ^ k := Nat.pow_add ..
      _ ≤ m * 2 ^ k := Nat.mul_le_mul_right _ (Nat.log2_self_le hm.ne')
  exact (Nat.le_log2 (by omega)).mpr hle

/-- A quotient is computed with enough places to be rounded to the nearest float. -/
theorem nearest_div (hm : 0 < m) (hn : 0 < n) :
    Nearest ((m * 2 ^ e) / (n * 2 ^ f))
      (UnpackedFloat.div .binary64 (.finite .positive m e hm) (.finite .positive n f hn)) := by
  rw [div_finite]
  dsimp only
  set d := min (e - f) (max (m.log2 + 1 + e - (n.log2 + 1 + f) - 53) (-1074)) with hd
  set k := (e - f - d).toNat with hk
  have hexponent : d + k = e - f := by omega
  have hm' : (0 : ℚ) < m := by exact_mod_cast hm
  have hn' : (0 : ℚ) < n := by exact_mod_cast hn
  refine nearest_roundWithAccuracy (by positivity) ?_ ?_
  · -- unless the exponent is the least one, the quotient has all the places of a significand
    rw [target_eq]
    rcases le_or_gt d (-1074) with hleast | hgt
    · exact hleast.trans (le_max_right _ _)
    · have hlog : 52 ≤ ((m <<< k) / n).log2 := le_log2_div hm hn (by omega)
      omega
  · have hvalue : (m * 2 ^ e) / (n * 2 ^ f) / (2 : ℚ) ^ d = ((m <<< k : Nat) : ℚ) / n := by
      have hpow : (2 : ℚ) ^ e = 2 ^ d * 2 ^ k * 2 ^ f := by
        rw [← zpow_natCast, ← zpow_add₀ (by norm_num), ← zpow_add₀ (by norm_num), hexponent,
          sub_add_cancel]
      rw [hpow, Nat.shiftLeft_eq]
      push_cast
      field_simp
    rw [hvalue]
    exact stands_div _ hn

theorem nearest_div_of_denotes (ha : Denotes a p) (hb : Denotes b q) (hp : 0 ≤ p) (hq : 0 < q) :
    Nearest (p / q) (UnpackedFloat.div .binary64 a b) := by
  cases hb with
  | zero => exact absurd hq (lt_irrefl 0)
  | negative hn h => exact absurd hq (not_lt.mpr (neg_nonpos.mpr (by positivity)))
  | positive hn h =>
    cases ha with
    | zero s =>
      rw [zero_div]
      exact (Denotes.zero _).nearest
    | positive hm h' => exact nearest_div hm hn
    | @negative m e hm h' =>
      have hneg : (0 : ℚ) < m * 2 ^ e := by positivity
      exact absurd hp (not_le.mpr (neg_lt_zero.mpr hneg))

/-! ## Packing -/

theorem Denotes.unique (hp : Denotes a p) (hq : Denotes a q) : p = q := by
  cases hp <;> cases hq <;> rfl

/-- What is less than all that is too great is packed as it is. -/
theorem unpack_pack_of_lt (hu : Denotes u w) (h : |w| < 2 ^ 53 * 2 ^ (971 : Int)) :
    UnpackedFloat.unpack .binary64 (UnpackedFloat.pack .binary64 u) = u := by
  have hfits {m : Nat} {e : Int} (hr : Regular m e)
      (hlt : (m : ℚ) * 2 ^ e < 2 ^ 53 * 2 ^ (971 : Int)) :
      e ≤ 971 := by
    by_contra hgt
    have hm : (2 : ℚ) ^ 52 ≤ m := by exact_mod_cast hr.normal (by omega)
    have hge : (2 : ℚ) ^ 53 * 2 ^ (971 : Int) ≤ m * 2 ^ e :=
      calc (2 : ℚ) ^ 53 * 2 ^ (971 : Int) = (2 : ℚ) ^ 52 * 2 ^ (971 + 1 : Int) := by
            rw [zpow_add_one₀ two_ne_zero]
            ring
        _ ≤ (m : ℚ) * 2 ^ e := by
          gcongr
          · norm_num
          · omega
    exact absurd hlt (not_lt.mpr hge)
  cases hu with
  | zero s => exact unpack_packedZero
  | positive hm hr =>
    rw [unpack_pack _ hm hr, if_pos (hfits hr (by rwa [abs_of_nonneg (by positivity)] at h))]
  | negative hm hr =>
    rw [unpack_pack _ hm hr, if_pos (hfits hr ?_)]
    rwa [abs_neg, abs_of_nonneg (by positivity)] at h

/-- A float is less than all that is too great, by a place of the greatest floats. -/
theorem abs_le_of_denotes {x : Float} (h : Denotes x.toModel.unpack q) :
    |q| ≤ (2 ^ 53 - 1) * 2 ^ (971 : Int) := by
  have hle {m : Nat} {e : Int} (hr : Regular m e) (he : e ≤ 971) :
      (m : ℚ) * 2 ^ e ≤ (2 ^ 53 - 1) * 2 ^ (971 : Int) := by
    have hm : (m : ℚ) ≤ 2 ^ 53 - 1 := by
      have := Nat.succ_le_of_lt hr.upper
      have : (m : ℚ) + 1 ≤ 2 ^ 53 := by exact_mod_cast this
      linarith
    gcongr
    norm_num
  generalize hu : x.toModel.unpack = u at h
  cases h with
  | zero => norm_num
  | positive hm hr =>
    rw [abs_of_nonneg (by positivity)]
    exact hle hr (exponent_le hu hr)
  | negative hm hr =>
    rw [abs_neg, abs_of_nonneg (by positivity)]
    exact hle hr (exponent_le hu hr)

/-- A float that is unpacked as a number reads as it. -/
theorem reading_of_denotes {x : Float} (h : Denotes x.toModel.unpack q) :
    (reading x).value? = some q := by
  obtain ⟨p, hp⟩ := Scalar.exists_value (isFinite_iff.mpr h.isFinite)
  rw [h.unique (denotes_of_reading hp)]
  exact hp

/-! ## Numerals -/

/-- A whole number that a significand can hold is a float. -/
theorem exists_denotes_natCast (h : m < 2 ^ 53) : ∃ b, Denotes b m := by
  rcases Nat.eq_zero_or_pos m with rfl | hm
  · exact ⟨.zero .positive, by simpa using Denotes.zero .positive⟩
  · have hlog : m.log2 < 53 := (Nat.log2_lt hm.ne').mpr h
    have hle : 2 ^ m.log2 ≤ m := Nat.log2_self_le hm.ne'
    have hlt : m < 2 ^ (m.log2 + 1) := Nat.lt_log2_self
    have hregular : Regular (m * 2 ^ (52 - m.log2)) (m.log2 - 52) := by
      refine ⟨?_, by omega, fun _ => ?_⟩
      · calc m * 2 ^ (52 - m.log2) < 2 ^ (m.log2 + 1) * 2 ^ (52 - m.log2) :=
            Nat.mul_lt_mul_of_pos_right hlt (Nat.two_pow_pos _)
          _ = 2 ^ 53 := by rw [← Nat.pow_add]; congr 1; omega
      · calc 2 ^ 52 = 2 ^ m.log2 * 2 ^ (52 - m.log2) := by rw [← Nat.pow_add]; congr 1; omega
          _ ≤ m * 2 ^ (52 - m.log2) := Nat.mul_le_mul_right _ hle
    have hvalue : ((m * 2 ^ (52 - m.log2) : Nat) : ℚ) * 2 ^ ((m.log2 : Int) - 52) = m := by
      rw [Nat.cast_mul, Nat.cast_pow, Nat.cast_ofNat, ← zpow_natCast, mul_assoc,
        ← zpow_add₀ two_ne_zero, show ((52 - m.log2 : Nat) : Int) + (m.log2 - 52) = 0 by omega,
        zpow_zero, mul_one]
    exact ⟨_, hvalue ▸ Denotes.positive (Nat.mul_pos hm (Nat.two_pow_pos _)) hregular⟩

/-- Such a whole number is converted without rounding. -/
theorem denotes_toFloat (h : m < 2 ^ 53) : Denotes m.toUInt64.toFloat.toModel.unpack m := by
  have hcast : m.toUInt64.toNat = m := by
    simp only [Nat.toUInt64_eq, UInt64.toNat_ofNat']
    omega
  have hunpack : m.toUInt64.toFloat.toModel.unpack = UnpackedFloat.unpack .binary64
      (UnpackedFloat.pack .binary64 (UnpackedFloat.normalize .binary64 m.toUInt64.toNat 0
        .positive)) := rfl
  obtain ⟨w, hw, hside⟩ := rounds_normalize (m : Int) 0
  obtain ⟨b, hb⟩ := exists_denotes_natCast h
  rw [zpow_zero, mul_one, Int.cast_natCast] at hside
  obtain ⟨hle, hge⟩ := hside b m hb
  obtain rfl : w = m := le_antisymm (hge le_rfl) (hle le_rfl)
  have hlt : |(m : ℚ)| < 2 ^ 53 * 2 ^ (971 : Int) := by
    rw [abs_of_nonneg (Nat.cast_nonneg m)]
    have hm : (m : ℚ) < 2 ^ 53 := by exact_mod_cast h
    exact hm.trans_le (le_mul_of_one_le_right (by positivity) (one_le_zpow₀ one_le_two (by decide)))
  rw [hunpack, hcast, unpack_pack_of_lt hw hlt]
  exact hw

theorem reading_powerOfTen (h : n ≤ 3) (hn : n < Float.exactlyRepresentablePowersOfTen.size) :
    (reading (Float.exactlyRepresentablePowersOfTen[n])).value? = some (10 ^ n) := by
  have hall : ∀ i : Fin 4, (Float.exactlyRepresentablePowersOfTen[i.val]?).map
      (fun x => (reading x).value?) = some (some ((10 : ℚ) ^ i.val)) := by
    decide +kernel
  have hget := hall ⟨n, by omega⟩
  rw [Array.getElem?_eq_getElem hn, Option.map_some] at hget
  exact Option.some.inj hget

theorem mul_finite (hm : 0 < m) (hn : 0 < n) :
    UnpackedFloat.mul .binary64 (.finite .positive m e hm) (.finite .positive n f hn) =
      roundWithAccuracy .binary64 .positive (m * n) (e + f) .exact :=
  rfl

/-- A large whole number, or the quotient of one by a power of ten, is rounded from the numeral. -/
theorem nearest_ofScientific (hm : 2 ^ 53 ≤ m) (hn : n ≤ 3) :
    Nearest ((m : ℚ) / 10 ^ n) (UnpackedFloat.ofScientific .binary64 m (Int.negOfNat n)) := by
  have hpos : 0 < m := by omega
  have hneg : Int.negOfNat n = -(n : Int) := Int.negOfNat_eq
  have hbits : ((2 : Int) ^ Format.binary64.exponentBits) = 2048 := rfl
  unfold UnpackedFloat.ofScientific
  rw [dif_neg hpos.ne', if_neg (by rw [hneg, hbits]; omega), if_neg (by rw [hneg, hbits]; omega)]
  split
  · next h =>
    obtain rfl : n = 0 := by omega
    have hone : 10 ^ (Int.negOfNat 0).toNat = 1 := rfl
    have hplaces : Format.binary64.mantissaBits = 53 := rfl
    rw [mul_finite, hone, hplaces, Nat.mul_one, Int.add_zero]
    refine nearest_roundWithAccuracy (by positivity) ?_ ?_
    · rw [target_eq, log2_shiftLeft hpos]
      omega
    · have hvalue : (m : ℚ) / (10 : ℚ) ^ 0 / (2 : ℚ) ^ (-((53 : Nat) : Int)) =
          ((m <<< 53 : Nat) : ℚ) := by
        rw [Nat.shiftLeft_eq, zpow_neg, zpow_natCast, div_inv_eq_mul, pow_zero, div_one]
        push_cast
        rfl
      rw [hvalue]
      exact stands_exact _
  · next h =>
    have hpow : (-Int.negOfNat n).toNat = n := by rw [hneg]; omega
    simp only [hpow]
    have hdiv := nearest_div (e := 0) (f := 0) hpos (Nat.pow_pos (n := n) (show 0 < 10 by decide))
    rwa [zpow_zero, mul_one, mul_one, Nat.cast_pow, Nat.cast_ofNat] at hdiv

/-- A decimal numeral is read as the float nearest to it, or as an infinity. -/
theorem exists_nearest_ofScientific (m : Nat) (hn : n ≤ 3) :
    ∃ u, (OfScientific.ofScientific m true n : Float).toModel.unpack =
      UnpackedFloat.unpack .binary64 (UnpackedFloat.pack .binary64 u) ∧
      Nearest ((m : ℚ) / 10 ^ n) u := by
  change ∃ u, (Float.ofScientific m true n).toModel.unpack = _ ∧ _
  unfold Float.ofScientific
  split
  · next h =>
    -- both are floats, which are divided
    refine ⟨UnpackedFloat.div .binary64 m.toUInt64.toFloat.toModel.unpack _, rfl, ?_⟩
    exact nearest_div_of_denotes (denotes_toFloat h.1)
      (denotes_of_reading (reading_powerOfTen hn _)) (Nat.cast_nonneg m) (by positivity)
  · next h =>
    have hm : 2 ^ 53 ≤ m := by omega
    exact ⟨UnpackedFloat.ofScientific .binary64 m (Int.negOfNat n), rfl, nearest_ofScientific hm hn⟩

/-- Close to a float a numeral is read as a number, the one nearest to it. -/
theorem exists_denotes_ofScientific {r : ℚ} (hn : n ≤ 3) (hb : Denotes b r)
    (hr : |r| ≤ (2 ^ 53 - 1) * 2 ^ (971 : Int)) (hclose : |r - (m : ℚ) / 10 ^ n| ≤ 1 / 2000) :
    ∃ w, Denotes (OfScientific.ofScientific m true n : Float).toModel.unpack w ∧
      |w| < 2 ^ 53 * 2 ^ (971 : Int) ∧
      ∀ b q, Denotes b q → |w - (m : ℚ) / 10 ^ n| ≤ |q - (m : ℚ) / 10 ^ n| := by
  obtain ⟨u, hunpack, w, hu, hnear⟩ := exists_nearest_ofScientific m hn
  have hw : |w - r| ≤ 1 / 1000 := by
    have htriangle := abs_sub_le w ((m : ℚ) / 10 ^ n) r
    have hwv := (hnear b r hb).trans hclose
    rw [abs_sub_comm ((m : ℚ) / 10 ^ n) r] at htriangle
    linarith
  have hlt : |w| < 2 ^ 53 * 2 ^ (971 : Int) := by
    have htriangle := abs_sub_abs_le_abs_sub w r
    have hone : (1 : ℚ) ≤ 2 ^ (971 : Int) := one_le_zpow₀ one_le_two (by decide)
    generalize (2 : ℚ) ^ (971 : Int) = place at hr hone ⊢
    linarith
  refine ⟨w, ?_, hlt, hnear⟩
  rw [hunpack, unpack_pack_of_lt hu hlt]
  exact hu

theorem unpack_neg (x : Float) : (-x).toModel.unpack = UnpackedFloat.unpack .binary64
    (UnpackedFloat.pack .binary64 x.toModel.unpack.neg) :=
  rfl

theorem nonneg_of_reading {x : Float} {s : Bool} {q : ℚ} (h : reading x = .finite s q) : 0 ≤ q := by
  unfold reading at h
  split at h
  · obtain ⟨-, rfl⟩ := Reading.finite.inj h
    rw [magnitude_eq]
    positivity
  · cases h
  · cases h

instance : Scalar.Nearest Float where
  value?_eq_rational? x := Reading.value?_eq_rational? fun _ _ => nonneg_of_reading
  exists_value {n x q} hplaces hx hclose := by
    have hdenotes := denotes_of_reading hx
    have hbound := abs_le_of_denotes hdenotes
    cases hneg : n.negative with
    | false =>
      have hexact : n.exact = (Digit.toNat (n.whole ++ n.places) : ℚ) / 10 ^ n.places.length := by
        simp [Numeral.exact, hneg]
      have hvalue : (n.value : Float) =
          OfScientific.ofScientific (Digit.toNat (n.whole ++ n.places)) true n.places.length := by
        simp [Numeral.value, hneg]
      rw [hexact, abs_sub_comm] at hclose
      obtain ⟨w, hw, -, hnear⟩ := exists_denotes_ofScientific hplaces hdenotes hbound hclose
      rw [hvalue, hexact]
      exact ⟨w, reading_of_denotes hw, fun y r hy => hnear _ r (denotes_of_reading hy)⟩
    | true =>
      have hexact :
          n.exact = -((Digit.toNat (n.whole ++ n.places) : ℚ) / 10 ^ n.places.length) := by
        simp [Numeral.exact, hneg]
      have hvalue : (n.value : Float) =
          -OfScientific.ofScientific (Digit.toNat (n.whole ++ n.places)) true n.places.length := by
        simp [Numeral.value, hneg]
      have hflip (r v : ℚ) : |r - -v| = |-r - v| := by
        rw [← abs_neg]
        congr 1
        ring
      rw [hexact, abs_sub_comm, hflip] at hclose
      rw [← abs_neg] at hbound
      obtain ⟨w, hw, hlt, hnear⟩ :=
        exists_denotes_ofScientific hplaces hdenotes.neg hbound hclose
      refine ⟨-w, reading_of_denotes ?_, fun y r hy => ?_⟩
      · rw [hvalue, unpack_neg, unpack_pack_of_lt hw.neg (by rwa [abs_neg])]
        exact hw.neg
      · rw [hexact, hflip, hflip, neg_neg]
        exact hnear _ _ (denotes_of_reading hy).neg

end Binary64

end WallPanel
