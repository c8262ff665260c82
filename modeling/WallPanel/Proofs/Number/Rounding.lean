import WallPanel.Proofs.Number.Order

/-!
# Rounding of the 64-bit floats

A sum or a difference of floats is computed exactly and rounded to a float next to it. No float lies
strictly between the exact number and the rounded one (`Binary64.Rounds`): a significand is cut
off where the numbers of the format end, or raised by one there, and of the floats those with a
lesser exponent lie below all of them.

* `Binary64.rounds_round`: a magnitude is rounded so.
* `Binary64.rounds_add`, `Binary64.rounds_sub`: sums and differences are.
* `Binary64.unpack_pack`: what is rounded is packed as it is, or as an infinity.
-/

namespace WallPanel.Binary64

open Float.Model Float.Model.UnpackedFloat

variable {m n k : Nat} {e f t : Int}

/-! ## Significands that are cut off -/

/-- A significand of which nothing has been cut off. -/
abbrev exactly (m : Nat) : ExtendedMantissa := ⟨m, false, false⟩

theorem mantissa_shiftRight (em : ExtendedMantissa) (k : Nat) :
    (em >>> k).mantissa = em.mantissa / 2 ^ k := by
  induction k with
  | zero => exact (Nat.div_one _).symm
  | succ k ih =>
    change (em >>> k).mantissa / 2 = _
    rw [ih, Nat.div_div_eq_div_mul, Nat.pow_succ]

/-- Where the places that are cut off hold zeros the significand is exact still. -/
theorem shiftRight_of_dvd (h : 2 ^ k ∣ m) : exactly m >>> k = exactly (m / 2 ^ k) := by
  induction k with
  | zero => simp [exactly, HShiftRight.hShiftRight, Nat.repeat]
  | succ k ih =>
    obtain ⟨q, rfl⟩ := h
    change (exactly _ >>> k).shiftRightOne = _
    rw [ih ⟨2 * q, by ring⟩]
    have hk : 0 < 2 ^ k := Nat.two_pow_pos k
    have hq : 2 ^ (k + 1) * q / 2 ^ k = 2 * q := by
      rw [Nat.pow_succ, Nat.mul_assoc, Nat.mul_div_cancel_left _ hk]
    simp [exactly, ExtendedMantissa.shiftRightOne, hq]

theorem roundedMantissa_bounds (em : ExtendedMantissa) :
    em.mantissa ≤ em.roundedMantissa ∧ em.roundedMantissa ≤ em.mantissa + 1 := by
  obtain ⟨m, r, s⟩ := em
  have hmod : m % 2 ≤ 1 := Nat.le_of_lt_succ (Nat.mod_lt m (by decide))
  cases r <;> cases s <;>
    simp [ExtendedMantissa.roundedMantissa, ExtendedMantissa.accuracy,
      Accuracy.roundToNearestEven, hmod]

/-- The significand that is left, rounded. -/
def cut (m k : Nat) : Nat := (exactly m >>> k).roundedMantissa

theorem le_cut (h : n * 2 ^ k ≤ m) : n ≤ cut m k := by
  refine le_trans ?_ (roundedMantissa_bounds _).1
  rw [mantissa_shiftRight]
  exact (Nat.le_div_iff_mul_le (Nat.two_pow_pos k)).mpr h

theorem cut_le (h : m ≤ n * 2 ^ k) : cut m k ≤ n := by
  by_cases hdvd : 2 ^ k ∣ m
  · rw [cut, shiftRight_of_dvd hdvd]
    exact Nat.div_le_of_le_mul (by rwa [Nat.mul_comm])
  · refine (roundedMantissa_bounds _).2.trans ?_
    rw [mantissa_shiftRight, Nat.succ_le_iff, Nat.div_lt_iff_lt_mul (Nat.two_pow_pos k)]
    exact lt_of_le_of_ne h fun he => hdvd ⟨n, by rw [show m = n * 2 ^ k from he, Nat.mul_comm]⟩

/-! ## The exponent of a magnitude -/

/-- The exponent that the format has for a magnitude. -/
def target (m : Nat) (e : Int) : Int := Format.binary64.targetExponent (totalExponent m e)

theorem target_eq (m : Nat) (e : Int) : target m e = max (m.log2 + 1 + e - 53) (-1074) := rfl

theorem least_le_target (m : Nat) (e : Int) : -1074 ≤ target m e := by
  rw [target_eq]
  exact le_max_right ..

theorem magnitude_lt (m : Nat) (e : Int) : (m : ℚ) * 2 ^ e < 2 ^ 53 * 2 ^ target m e := by
  have hm : (m : ℚ) < 2 ^ ((m.log2 + 1 : Nat) : Int) := by
    rw [zpow_natCast]
    exact_mod_cast Nat.lt_log2_self
  calc (m : ℚ) * 2 ^ e < 2 ^ ((m.log2 + 1 : Nat) : Int) * 2 ^ e := by gcongr
    _ = 2 ^ (((m.log2 + 1 : Nat) : Int) + e) := (zpow_add₀ (by norm_num) _ _).symm
    _ ≤ 2 ^ (53 + target m e) := by
      refine zpow_le_zpow_right₀ (by norm_num) ?_
      rw [target_eq]
      omega
    _ = 2 ^ 53 * 2 ^ target m e := zpow_add₀ (by norm_num) _ _

theorem le_magnitude (hm : 0 < m) (h : -1074 < target m e) :
    (2 : ℚ) ^ 52 * 2 ^ target m e ≤ m * 2 ^ e := by
  have hle : (2 : ℚ) ^ (m.log2 : Int) ≤ m := by
    rw [zpow_natCast]
    exact_mod_cast Nat.log2_self_le (Nat.ne_of_gt hm)
  calc (2 : ℚ) ^ 52 * 2 ^ target m e = 2 ^ (52 + target m e) :=
        (zpow_add₀ (by norm_num) _ _).symm
    _ = 2 ^ ((m.log2 : Int) + e) := by
      rw [target_eq] at h ⊢
      congr 1
      omega
    _ = 2 ^ (m.log2 : Int) * 2 ^ e := zpow_add₀ (by norm_num) _ _
    _ ≤ m * 2 ^ e := by gcongr

/-! ## Rounding a magnitude -/

/-- A number with a sign. -/
def signed (s : Sign) (q : ℚ) : ℚ :=
  match s with
  | .negative => -q
  | .positive => q

theorem Denotes.signed (s : Sign) (hm : 0 < m) (h : Regular m e) :
    Denotes (.finite s m e hm) (signed s (m * 2 ^ e)) := by
  cases s
  · exact .negative hm h
  · exact .positive hm h

theorem signed_zero (s : Sign) : signed s 0 = 0 := by
  cases s <;> simp [signed]

/-- A significand within the format stays as it is. -/
theorem shift_of_lt (hn : n < 2 ^ 53) (ht : -1074 ≤ t) :
    shiftToTargetExponent .binary64 n t .exact = (exactly n, t) := by
  have hlog : n.log2 ≤ 52 := by
    by_cases hz : n = 0
    · subst hz
      decide
    · exact Nat.le_of_lt_succ ((Nat.log2_lt hz).mpr hn)
  have hshift : (target n t - t).toNat = 0 := by
    rw [target_eq]
    omega
  change (exactly n >>> (target n t - t).toNat, t + (target n t - t).toNat) = _
  rw [hshift]
  exact congrArg (exactly n, ·) (Int.add_zero t)

/-- A significand that has grown by a place is shifted by one. -/
theorem shift_of_eq (ht : -1074 ≤ t) :
    shiftToTargetExponent .binary64 (2 ^ 53) t .exact = (exactly (2 ^ 52), t + 1) := by
  have hshift : (target (2 ^ 53) t - t).toNat = 1 := by
    rw [target_eq, Nat.log2_two_pow]
    omega
  change (exactly (2 ^ 53) >>> (target (2 ^ 53) t - t).toNat,
    t + (target (2 ^ 53) t - t).toNat) = _
  rw [hshift]
  rfl

/-- The end of rounding: a significand that has grown by a place is shifted once more. -/
theorem denotes_shift (s : Sign) (hn : n ≤ 2 ^ 53) (ht : -1074 ≤ t)
    (hnormal : -1074 < t → 2 ^ 52 ≤ n) {em : ExtendedMantissa}
    (h : shiftToTargetExponent .binary64 n t .exact = (em, e)) :
    Denotes (if hz : em.mantissa = 0 then .zero s
      else .finite s em.mantissa e (Nat.pos_of_ne_zero hz)) (signed s (n * 2 ^ t)) := by
  rcases hn.lt_or_eq with hlt | rfl
  · rw [shift_of_lt hlt ht] at h
    cases h
    split
    · next hz =>
      rw [show n = 0 from hz, Nat.cast_zero, zero_mul, signed_zero]
      exact .zero s
    · exact .signed s _ ⟨hlt, ht, hnormal⟩
  · rw [shift_of_eq ht] at h
    cases h
    have hvalue : ((2 ^ 53 : Nat) : ℚ) * 2 ^ t = (2 ^ 52 : Nat) * 2 ^ (t + 1) := by
      rw [zpow_add_one₀ (by norm_num)]
      push_cast
      ring
    rw [dif_neg (by decide), hvalue]
    exact .signed s _ ⟨by decide, by omega, fun _ => le_rfl⟩

/-- Of all floats none lies strictly between an exact number and the float that it is rounded to. -/
def Rounds (v : ℚ) (u : UnpackedFloat) : Prop :=
  ∃ w, Denotes u w ∧ ∀ b q, Denotes b q → (q ≤ v → q ≤ w) ∧ (v ≤ q → w ≤ q)

theorem Denotes.rounds {u : UnpackedFloat} {v : ℚ} (h : Denotes u v) : Rounds v u :=
  ⟨v, h, fun _ _ _ => ⟨id, id⟩⟩

/-- A number with a greater exponent is a multiple of the place of a lesser one. -/
theorem mul_zpow_add (n j : Nat) (t : Int) :
    (n : ℚ) * 2 ^ (t + j) = ((n * 2 ^ j : Nat) : ℚ) * 2 ^ t := by
  rw [zpow_add₀ (by norm_num), zpow_natCast]
  push_cast
  ring

/-- A regular number with a lesser exponent lies below all that have the exponent. -/
theorem Regular.lt_of_exponent_lt (h : Regular n f) (hleast : -1074 ≤ t) (hft : f < t) :
    (n : ℚ) * 2 ^ f < 2 ^ 52 * 2 ^ t := by
  have hregular : Regular (2 ^ 52) t := ⟨by decide, hleast, fun _ => le_rfl⟩
  exact_mod_cast magnitude_lt_of_exponent_lt h hregular hft

/-- A cut significand lies on the same side of every regular number as the magnitude that it was
cut from. -/
theorem cut_between {M : Nat} (hv : (M : ℚ) * 2 ^ t = m * 2 ^ e * 2 ^ k) (hleast : -1074 ≤ t)
    (hlower : -1074 < t → (2 : ℚ) ^ 52 * 2 ^ t ≤ m * 2 ^ e) (h : Regular n f) :
    ((n : ℚ) * 2 ^ f ≤ m * 2 ^ e → (n : ℚ) * 2 ^ f ≤ cut M k * 2 ^ t) ∧
      ((m : ℚ) * 2 ^ e ≤ n * 2 ^ f → (cut M k : ℚ) * 2 ^ t ≤ n * 2 ^ f) := by
  have hle (i : Nat) (hi : (i : ℚ) * 2 ^ t ≤ m * 2 ^ e) : (i : ℚ) * 2 ^ t ≤ cut M k * 2 ^ t := by
    have hM : ((i * 2 ^ k : Nat) : ℚ) * 2 ^ t ≤ M * 2 ^ t := by
      rw [hv, Nat.cast_mul, Nat.cast_pow, Nat.cast_ofNat, mul_right_comm]
      gcongr
    have hcut : i ≤ cut M k := le_cut (by exact_mod_cast le_of_mul_le_mul_right hM (by positivity))
    gcongr
  have hge (i : Nat) (hi : (m : ℚ) * 2 ^ e ≤ i * 2 ^ t) : (cut M k : ℚ) * 2 ^ t ≤ i * 2 ^ t := by
    have hM : (M : ℚ) * 2 ^ t ≤ ((i * 2 ^ k : Nat) : ℚ) * 2 ^ t := by
      rw [hv, Nat.cast_mul, Nat.cast_pow, Nat.cast_ofNat, mul_right_comm (i : ℚ)]
      gcongr
    have hcut : cut M k ≤ i := cut_le (by exact_mod_cast le_of_mul_le_mul_right hM (by positivity))
    gcongr
  rcases le_or_gt t f with htf | hft
  · -- the number is a multiple of the last place that is kept
    obtain ⟨j, rfl⟩ := Int.le.dest htf
    rw [mul_zpow_add]
    exact ⟨hle _, hge _⟩
  · -- the number lies below all that have the exponent
    have hlow := hlower (h.least.trans_lt hft)
    have hn := h.lt_of_exponent_lt hleast hft
    refine ⟨fun _ => hn.le.trans ?_, fun hge => absurd (hge.trans_lt hn) hlow.not_gt⟩
    exact_mod_cast hle (2 ^ 52) (by exact_mod_cast hlow)

theorem log2_shiftLeft (hm : 0 < m) (k : Nat) : (m <<< k).log2 = m.log2 + k := by
  have hpos := Nat.ne_of_gt hm
  rw [Nat.shiftLeft_eq, Nat.log2_eq_iff (Nat.mul_ne_zero hpos (Nat.two_pow_pos k).ne')]
  constructor
  · rw [Nat.pow_add]
    exact Nat.mul_le_mul_right _ (Nat.log2_self_le hpos)
  · rw [Nat.add_right_comm, Nat.pow_add]
    exact Nat.mul_lt_mul_of_pos_right Nat.lt_log2_self (Nat.two_pow_pos k)

theorem roundWithAccuracy_eq (s : Sign) (m : Nat) (e : Int) :
    roundWithAccuracy .binary64 s m e .exact =
      (let k := (target m e - e).toNat
      let final := shiftToTargetExponent .binary64 (cut m k) (e + k) .exact
      if hz : final.1.mantissa = 0 then .zero s
      else .finite s final.1.mantissa final.2 (Nat.pos_of_ne_zero hz)) := rfl

theorem Denotes.neg {u : UnpackedFloat} {q : ℚ} (h : Denotes u q) : Denotes u.neg (-q) := by
  cases h with
  | zero s =>
    rw [neg_zero]
    exact .zero (-s)
  | positive hm h => exact .negative hm h
  | negative hm h =>
    rw [neg_neg]
    exact .positive hm h

/-- The significand that a magnitude is rounded to at the exponent that the format has for it. -/
def rounded (m : Nat) (e : Int) : Nat :=
  let places := (e - target m e).toNat
  cut (m <<< places) (target m e - (e - places)).toNat

/-- A magnitude is brought to its exponent, and what has grown by a place there is shifted. -/
theorem round_eq (s : Sign) (hm : 0 < m) (e : Int) :
    round .binary64 s m e =
      (let final := shiftToTargetExponent .binary64 (rounded m e) (target m e) .exact
      if hz : final.1.mantissa = 0 then .zero s
      else .finite s final.1.mantissa final.2 (Nat.pos_of_ne_zero hz)) := by
  set places := (e - target m e).toNat with hplaces
  have htarget : target (m <<< places) (e - places) = target m e := by
    rw [target_eq, target_eq, log2_shiftLeft hm]
    congr 1
    push_cast
    ring
  have hexponent : e - places + (target m e - (e - places)).toNat = target m e := by omega
  have hround : round .binary64 s m e =
      roundWithAccuracy .binary64 s (m <<< places) (e - places) .exact := rfl
  rw [hround, roundWithAccuracy_eq, htarget]
  dsimp only
  rw [hexponent]
  rfl

/-- The rounded significand lies on the same side of every regular number as the magnitude. -/
theorem rounded_between (hm : 0 < m) (h : Regular n f) :
    ((n : ℚ) * 2 ^ f ≤ m * 2 ^ e → (n : ℚ) * 2 ^ f ≤ rounded m e * 2 ^ target m e) ∧
      ((m : ℚ) * 2 ^ e ≤ n * 2 ^ f → (rounded m e : ℚ) * 2 ^ target m e ≤ n * 2 ^ f) := by
  set t := target m e with ht
  set places := (e - t).toNat with hplaces
  set k := (t - (e - places)).toNat with hk
  have hv : ((m <<< places : Nat) : ℚ) * 2 ^ t = m * 2 ^ e * 2 ^ k := by
    have he : (2 : ℚ) ^ t * 2 ^ places = 2 ^ e * 2 ^ k := by
      rw [← zpow_natCast, ← zpow_natCast, ← zpow_add₀ (by norm_num), ← zpow_add₀ (by norm_num)]
      congr 1
      omega
    rw [Nat.shiftLeft_eq]
    push_cast
    linear_combination (m : ℚ) * he
  exact cut_between hv (least_le_target m e) (le_magnitude hm) h

theorem rounded_le (hm : 0 < m) : rounded m e ≤ 2 ^ 53 := by
  have hleast := least_le_target m e
  have hregular : Regular (2 ^ 52) (target m e + 1) := ⟨by decide, by omega, fun _ => le_rfl⟩
  have htwo : ((2 ^ 52 : Nat) : ℚ) * 2 ^ (target m e + 1) = 2 ^ 53 * 2 ^ target m e := by
    rw [zpow_add_one₀ (by norm_num)]
    push_cast
    ring
  have hle := (rounded_between hm hregular).2 (htwo ▸ (magnitude_lt m e).le)
  rw [htwo] at hle
  exact_mod_cast le_of_mul_le_mul_right hle (by positivity)

theorem le_rounded (hm : 0 < m) (h : -1074 < target m e) : 2 ^ 52 ≤ rounded m e := by
  have hregular : Regular (2 ^ 52) (target m e) := ⟨by decide, h.le, fun _ => le_rfl⟩
  have hle := (rounded_between hm hregular).1 (by exact_mod_cast le_magnitude hm h)
  exact_mod_cast le_of_mul_le_mul_right hle (by positivity)

/-- A magnitude is rounded to a float next to it. -/
theorem rounds_round (s : Sign) (hm : 0 < m) (e : Int) :
    Rounds (signed s (m * 2 ^ e)) (round .binary64 s m e) := by
  have hpos : ∀ b q, Denotes b q → (q ≤ m * 2 ^ e → q ≤ rounded m e * 2 ^ target m e) ∧
      ((m : ℚ) * 2 ^ e ≤ q → (rounded m e : ℚ) * 2 ^ target m e ≤ q) := by
    intro b q hb
    have hv : (0 : ℚ) < m * 2 ^ e := by positivity
    have hw : (0 : ℚ) ≤ rounded m e * 2 ^ target m e := by positivity
    cases hb with
    | zero => exact ⟨fun _ => hw, fun h => absurd h hv.not_ge⟩
    | positive _ h => exact rounded_between hm h
    | @negative n f hn h =>
      have hq : -((n : ℚ) * 2 ^ f) < 0 := neg_lt_zero.mpr (by positivity)
      exact ⟨fun _ => hq.le.trans hw, fun h => absurd (hv.trans_le h) hq.not_gt⟩
  refine ⟨signed s (rounded m e * 2 ^ target m e), ?_, ?_⟩
  · rw [round_eq s hm e]
    exact denotes_shift s (rounded_le hm) (least_le_target m e) (le_rounded hm) rfl
  · intro b q hb
    cases s with
    | positive => exact hpos b q hb
    | negative =>
      obtain ⟨hle, hge⟩ := hpos b.neg (-q) hb.neg
      exact ⟨fun h => le_neg.mpr (hge (le_neg.mpr h)), fun h => neg_le.mpr (hle (neg_le.mpr h))⟩

/-! ## Sums and differences -/

theorem rounds_normalize (M : Int) (e : Int) :
    Rounds (M * 2 ^ e) (UnpackedFloat.normalize .binary64 M e .positive) := by
  unfold UnpackedFloat.normalize
  rcases lt_trichotomy M 0 with h | rfl | h
  · rw [compare_lt_iff_lt.mpr h]
    have hm : 0 < (-M).toNat := by omega
    have hM : (((-M).toNat : Nat) : ℚ) = -M := by
      exact_mod_cast Int.toNat_of_nonneg (show 0 ≤ -M by omega)
    have := rounds_round .negative hm e
    rwa [signed, hM, neg_mul, neg_neg] at this
  · simpa using (Denotes.zero .positive).rounds
  · rw [compare_gt_iff_gt.mpr h]
    have hm : 0 < M.toNat := by omega
    have hM : ((M.toNat : Nat) : ℚ) = M := by
      exact_mod_cast Int.toNat_of_nonneg h.le
    have := rounds_round .positive hm e
    rwa [signed, hM] at this

/-- A number at a lesser exponent. -/
theorem aligned (s : Sign) (h : f ≤ e) :
    ((s.apply (m <<< (e - f).toNat : Nat) : Int) : ℚ) * 2 ^ f = (s.apply m : Int) * 2 ^ e := by
  obtain ⟨j, rfl⟩ := Int.le.dest h
  have hj : (f + j - f).toNat = j := by omega
  have hpow : (2 : ℚ) ^ (f + j) = 2 ^ f * 2 ^ j := by
    rw [zpow_add₀ (by norm_num), zpow_natCast]
  rw [hj, Nat.shiftLeft_eq, hpow]
  cases s <;> simp only [Sign.apply] <;> push_cast <;> ring

theorem Denotes.eq_apply {s : Sign} {hm : 0 < m} {p : ℚ} (h : Denotes (.finite s m e hm) p) :
    p = (s.apply m : Int) * 2 ^ e := by
  cases h <;> simp [Sign.apply]

variable {a b : UnpackedFloat} {p q : ℚ}

theorem Denotes.eq_zero_or_finite (h : Denotes a p) :
    (∃ s, a = .zero s ∧ p = 0) ∨ ∃ s m e hm, a = .finite s m e hm := by
  cases h with
  | zero s => exact .inl ⟨s, rfl, rfl⟩
  | positive hm => exact .inr ⟨_, _, _, hm, rfl⟩
  | negative hm => exact .inr ⟨_, _, _, hm, rfl⟩

theorem rounds_add (ha : Denotes a p) (hb : Denotes b q) :
    Rounds (p + q) (UnpackedFloat.add .binary64 a b) := by
  obtain ⟨s, rfl, rfl⟩ | ⟨s, m, e, hm, rfl⟩ := ha.eq_zero_or_finite <;>
    obtain ⟨s', rfl, rfl⟩ | ⟨s', n, f, hn, rfl⟩ := hb.eq_zero_or_finite
  · rw [UnpackedFloat.add, add_zero]
    split <;> exact (Denotes.zero _).rounds
  · rw [zero_add]
    exact hb.rounds
  · rw [add_zero]
    exact ha.rounds
  · have h := rounds_normalize (s.apply (m <<< (e - min e f).toNat : Nat) +
      s'.apply (n <<< (f - min e f).toNat : Nat)) (min e f)
    rw [Int.cast_add, add_mul, aligned s (min_le_left e f), aligned s' (min_le_right e f),
      ← ha.eq_apply, ← hb.eq_apply] at h
    exact h

theorem rounds_sub (ha : Denotes a p) (hb : Denotes b q) :
    Rounds (p - q) (UnpackedFloat.sub .binary64 a b) := by
  obtain ⟨s, rfl, rfl⟩ | ⟨s, m, e, hm, rfl⟩ := ha.eq_zero_or_finite <;>
    obtain ⟨s', rfl, rfl⟩ | ⟨s', n, f, hn, rfl⟩ := hb.eq_zero_or_finite
  · rw [UnpackedFloat.sub, sub_zero]
    split <;> exact (Denotes.zero _).rounds
  · rw [zero_sub]
    exact hb.neg.rounds
  · rw [sub_zero]
    exact ha.rounds
  · have h := rounds_normalize (s.apply (m <<< (e - min e f).toNat : Nat) -
      s'.apply (n <<< (f - min e f).toNat : Nat)) (min e f)
    rw [Int.cast_sub, sub_mul, aligned s (min_le_left e f), aligned s' (min_le_right e f),
      ← ha.eq_apply, ← hb.eq_apply] at h
    exact h

/-! ## Packing -/

theorem unpack_packedInfinity (s : Sign) :
    UnpackedFloat.unpack .binary64 (packedInfinity .binary64 s) = .infinity s := by
  simp [UnpackedFloat.unpack, packedInfinity]

/-- A number that shows all of its significand. -/
theorem unpack_subnormal (s : Sign) (hm : 0 < m) (h : m < 2 ^ 52) :
    UnpackedFloat.unpack .binary64 (packComponents .binary64 s 0#_ (BitVec.ofNat _ m)) =
      .finite s m (-1074) hm := by
  have hmod : (BitVec.ofNat 52 m).toNat = m := by
    rw [BitVec.toNat_ofNat, Nat.mod_eq_of_lt h]
  have hne : BitVec.ofNat 52 m ≠ 0#52 := fun he => by
    rw [he] at hmod
    exact absurd hmod.symm (Nat.ne_of_gt hm)
  have hleast : ¬0#11 = -1#11 := by decide
  simp only [UnpackedFloat.unpack, unpackExponent_packComponents, unpackMantissa_packComponents,
    unpackSign_packComponents, Sign.ofBitVec_toBitVec, hleast, hne, hmod, if_false, if_true,
    dif_neg, not_false_eq_true]
  rfl

/-- A number whose significand has the bit that is not shown. -/
theorem unpack_normal (s : Sign) (hm : 0 < m) {biased : Nat} (hpos : 0 < biased)
    (hlt : biased < 2047) (h : 2 ^ 52 ≤ m) (h' : m < 2 ^ 53) :
    UnpackedFloat.unpack .binary64
        (packComponents .binary64 s (BitVec.ofNat _ biased) (BitVec.ofNat _ m)) =
      .finite s m (biased - 1075) hm := by
  have hexponent : (BitVec.ofNat 11 biased).toNat = biased := by
    rw [BitVec.toNat_ofNat, Nat.mod_eq_of_lt (by omega)]
  have hmost : BitVec.ofNat 11 biased ≠ -1#11 := fun he => by
    rw [he] at hexponent
    exact absurd hexponent (Nat.ne_of_gt hlt)
  have hleast : BitVec.ofNat 11 biased ≠ 0#11 := fun he => by
    rw [he] at hexponent
    exact absurd hexponent.symm (Nat.ne_of_gt hpos)
  have hsignificand : (1#1 ++ BitVec.ofNat 52 m).toNat = m := by
    rw [toNat_one_append, BitVec.toNat_ofNat, twoTo, Nat.pow_eq]
    omega
  simp only [UnpackedFloat.unpack, unpackExponent_packComponents, unpackMantissa_packComponents,
    unpackSign_packComponents, Sign.ofBitVec_toBitVec, hmost, hleast, hsignificand, if_false,
    hexponent]
  rfl

/-- A regular float is packed as it is, or, beyond the greatest exponent, as an infinity. -/
theorem unpack_pack (s : Sign) (hm : 0 < m) (h : Regular m e) :
    UnpackedFloat.unpack .binary64 (UnpackedFloat.pack .binary64 (.finite s m e hm)) =
      if e ≤ 971 then .finite s m e hm else .infinity s := by
  have hleast := h.least
  have hupper := h.upper
  have hbiased : (e + Format.binary64.exponentBias +
      (Format.binary64.mantissaBitsWithoutImplicit : Nat)).toNat = (e + 1075).toNat := by
    change (e + 1023 + 52).toNat = _
    rw [Int.add_assoc]
    rfl
  have hbits : 2 ^ Format.binary64.exponentBits = 2048 := rfl
  simp only [UnpackedFloat.pack, hbiased]
  rw [hbits]
  by_cases he : e ≤ 971
  · rw [if_neg (by omega), if_pos he]
    split
    · next hlog =>
      have hnormal : 2 ^ 52 ≤ m := by
        have hlog : m.log2 = 52 := by simpa [Format.mantissaBits, Nat.add_comm] using hlog
        exact hlog ▸ Nat.log2_self_le (Nat.ne_of_gt hm)
      rw [unpack_normal s hm (by omega) (by omega) hnormal hupper]
      congr 1
      omega
    · next hlog =>
      have hsubnormal : m < 2 ^ 52 := by
        by_contra hge
        refine hlog ?_
        have hlog : m.log2 = 52 :=
          (Nat.log2_eq_iff (Nat.ne_of_gt hm)).mpr ⟨Nat.le_of_not_lt hge, hupper⟩
        rw [hlog]
        rfl
      rw [unpack_subnormal s hm hsubnormal]
      congr 1
      by_contra hne
      exact absurd (h.normal (by omega)) hsubnormal.not_ge
  · rw [if_pos (by omega), if_neg he]
    exact unpack_packedInfinity s

end WallPanel.Binary64
