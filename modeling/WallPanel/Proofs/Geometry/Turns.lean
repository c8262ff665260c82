import Mathlib.Algebra.Order.Floor.Ring
import Mathlib.Analysis.Real.Pi.Bounds
import WallPanel.Proofs.Geometry.Sweeps

/-!
# Whole turns

Both sweeps between two directions add turns to the directed difference until it is not too small
any more (`AddsTurns`), but what is too small differs: a sweep that may vanish stops at zero, one
that may not goes on to a full turn. In exact arithmetic the turns come to an end, however far apart
the directions are (`addsTurns_addTurns`), and the end is the only angle of its range that differs
from the difference by whole turns (`AddsTurns.eq_iff_of_neg`, `AddsTurns.eq_iff_of_nonpos`). So the
two sweeps have one magnitude unless the difference is made up of turns back
(`sweeps_of_directions`).
-/

namespace WallPanel

open Scalar.Exact

variable {α : Type} [Scalar α]

/-! ## Adding turns to the end -/

/-- Turns are added to an angle, one after the other and as long as it is too small, up to an angle
that is not. -/
inductive AddsTurns (isShort : α → Bool) : α → α → Prop
  | reached {x : α} (far : isShort x = false) : AddsTurns isShort x x
  | turn {x y : α} (short : isShort x = true) (rest : AddsTurns isShort (x + fullTurn) y) :
      AddsTurns isShort x y

namespace AddsTurns

variable {isShort : α → Bool} {x y y' : α}

/-- Where the turns end is not too small. -/
theorem not_isShort (h : AddsTurns isShort x y) : isShort y = false := by
  induction h with
  | reached far => exact far
  | turn _ _ ih => exact ih

/-- The turns end at one angle only. -/
theorem unique (h : AddsTurns isShort x y) (h' : AddsTurns isShort x y') : y = y' := by
  induction h with
  | reached far =>
    cases h' with
    | reached => rfl
    | turn short => cases far.symm.trans short
  | turn short _ ih =>
    cases h' with
    | reached far => cases far.symm.trans short
    | turn _ rest => exact ih rest

/-- An angle that is large enough gets no turn. -/
theorem eq_of_far (h : AddsTurns isShort x y) (far : isShort x = false) : y = x :=
  h.unique (.reached far)

end AddsTurns

/-! ## Whole turns -/

/-- Two angles differ by whole turns. -/
inductive TurnsApart (a b : ℝ) : Prop
  | turns (n : ℤ) (h : a = b + n * (2 * Real.pi))

theorem TurnsApart.trans {a b c : ℝ} (h : TurnsApart a b) (h' : TurnsApart b c) :
    TurnsApart a c := by
  obtain ⟨m, rfl⟩ := h
  obtain ⟨n, rfl⟩ := h'
  exact ⟨n + m, by push_cast; ring⟩

theorem TurnsApart.symm {a b : ℝ} (h : TurnsApart a b) : TurnsApart b a := by
  obtain ⟨n, rfl⟩ := h
  exact ⟨-n, by push_cast; ring⟩

/-- Angles that differ by whole turns but by less than one are the same. -/
theorem TurnsApart.eq_of_abs_sub_lt {a b : ℝ} (h : TurnsApart a b) (hlt : |a - b| < 2 * Real.pi) :
    a = b := by
  obtain ⟨n, rfl⟩ := h
  have hpos : 0 < 2 * Real.pi := Real.two_pi_pos
  rw [add_sub_cancel_left, abs_mul, abs_of_pos hpos] at hlt
  have hn : |(n : ℝ)| < 1 := by
    by_contra hge
    exact absurd hlt (not_lt.mpr (le_mul_of_one_le_left hpos.le (not_lt.mp hge)))
  have hzero : n = 0 := Int.abs_lt_one_iff.mp (by exact_mod_cast hn)
  simp [hzero]

section Exact

variable [Scalar.Exact α] {isShort : α → Bool} {x y start stop : α} {clockwise : Bool}

/-- Where the turns end after some of them is whole turns from the start, and less than one turn
beyond what is too small. -/
theorem AddsTurns.turnsApart (h : AddsTurns isShort x y) : TurnsApart (real y) (real x) ∧
    (y = x ∨ ∃ z, isShort z = true ∧ real y = real z + 2 * Real.pi) := by
  induction h with
  | reached => exact ⟨⟨0, by simp⟩, .inl rfl⟩
  | @turn x y short _ ih =>
    obtain ⟨hturns, hlast⟩ := ih
    have hone : TurnsApart (real (x + fullTurn)) (real x) :=
      ⟨1, by rw [real_add, real_fullTurn, Int.cast_one, one_mul]⟩
    refine ⟨hturns.trans hone, .inr ?_⟩
    rcases hlast with rfl | hlast
    · exact ⟨x, short, by rw [real_add, real_fullTurn]⟩
    · exact hlast

/-- If all that is too small is at most zero, as many turns as make an angle positive are enough. -/
theorem addsTurns_addTurns (hshort : ∀ y, isShort y = true → real y ≤ 0) {n : Nat} {x : α}
    (hn : 0 < real x + n * (2 * Real.pi)) : AddsTurns isShort x (addTurns isShort n x) := by
  induction n generalizing x with
  | zero =>
    refine .reached (Bool.eq_false_iff.mpr fun hx => ?_)
    rw [Nat.cast_zero, zero_mul, add_zero] at hn
    exact absurd (hshort x hx) (not_le.mpr hn)
  | succ n ih =>
    cases hx : isShort x with
    | false =>
      rw [addTurns_of_reached isShort (n + 1) hx]
      exact .reached hx
    | true =>
      rw [addTurns_succ_of_short isShort n hx]
      refine .turn hx (ih ?_)
      rw [real_add, real_fullTurn]
      push_cast at hn
      linarith

/-- The number of turns that is reckoned with is enough for any angle. -/
theorem zero_lt_turnsNeeded (x : α) : 0 < real x + turnsNeeded x * (2 * Real.pi) := by
  have hpos : 0 < 2 * Real.pi := Real.two_pi_pos
  have hfloor : Scalar.floor (-(x / fullTurn)) = ⌊-(real x / (2 * Real.pi))⌋ := by
    rw [floor_eq, real_neg, real_div, real_fullTurn]
  have hlt : -(real x / (2 * Real.pi)) < turnsNeeded x := by
    have hle : (⌊-(real x / (2 * Real.pi))⌋ : ℝ) ≤ (⌊-(real x / (2 * Real.pi))⌋.toNat : ℝ) := by
      exact_mod_cast Int.self_le_toNat _
    rw [turnsNeeded, hfloor]
    push_cast
    linarith [Int.lt_floor_add_one (-(real x / (2 * Real.pi)))]
  have hmul := mul_lt_mul_of_pos_right hlt hpos
  rw [neg_mul, div_mul_cancel₀ _ hpos.ne'] at hmul
  linarith

/-! ## The end in its range -/

theorem isShort_neg_iff {y : α} : decide (y < 0.0) = true ↔ real y < 0 := by
  rw [decide_eq_true_iff, lt_iff, real_zero]

theorem isShort_nonpos_iff {y : α} : decide (y ≤ 0.0) = true ↔ real y ≤ 0 := by
  rw [decide_eq_true_iff, le_iff, real_zero]

/-- Turns that are added to a negative angle until it is not negative end at the only angle from
zero up to below a full turn that differs from it by whole turns. -/
theorem AddsTurns.eq_iff_of_neg (h : AddsTurns (fun a : α => decide (a < 0.0)) x y)
    (hx : real x < 0) (r : ℝ) :
    r ∈ Set.Ico 0 (2 * Real.pi) ∧ TurnsApart r (real x) ↔ r = real y := by
  obtain ⟨hturns, hlast⟩ := h.turnsApart
  have hlow : 0 ≤ real y :=
    not_lt.mp (mt isShort_neg_iff.mpr (Bool.eq_false_iff.mp h.not_isShort))
  have hhigh : real y < 2 * Real.pi := by
    rcases hlast with rfl | ⟨z, hz, hy⟩
    · exact absurd hx (not_lt.mpr hlow)
    · linarith [isShort_neg_iff.mp hz]
  constructor
  · rintro ⟨⟨hr, hr'⟩, hapart⟩
    exact (hapart.trans hturns.symm).eq_of_abs_sub_lt (abs_sub_lt_of_nonneg_of_lt hr hr' hlow hhigh)
  · rintro rfl
    exact ⟨⟨hlow, hhigh⟩, hturns⟩

/-- Turns that are added to an angle that is not positive until it is end at the only angle above
zero and up to a full turn that differs from it by whole turns. -/
theorem AddsTurns.eq_iff_of_nonpos (h : AddsTurns (fun a : α => decide (a ≤ 0.0)) x y)
    (hx : real x ≤ 0) (r : ℝ) :
    r ∈ Set.Ioc 0 (2 * Real.pi) ∧ TurnsApart r (real x) ↔ r = real y := by
  obtain ⟨hturns, hlast⟩ := h.turnsApart
  have hlow : 0 < real y :=
    not_le.mp (mt isShort_nonpos_iff.mpr (Bool.eq_false_iff.mp h.not_isShort))
  have hhigh : real y ≤ 2 * Real.pi := by
    rcases hlast with rfl | ⟨z, hz, hy⟩
    · exact absurd hx (not_le.mpr hlow)
    · linarith [isShort_nonpos_iff.mp hz]
  constructor
  · rintro ⟨⟨hr, hr'⟩, hapart⟩
    refine (hapart.trans hturns.symm).eq_of_abs_sub_lt ?_
    rw [abs_lt]
    exact ⟨by linarith, by linarith⟩
  · rintro rfl
    exact ⟨⟨hlow, hhigh⟩, hturns⟩

/-- An angle that is not positive and a whole number of turns from zero is made up of turns back. -/
theorem TurnsApart.exists_turns_back {a : ℝ} (h : TurnsApart 0 a) (ha : a ≤ 0) :
    ∃ n : ℕ, a = -(n * (2 * Real.pi)) := by
  obtain ⟨n, hn⟩ := h
  have hpos : 0 < 2 * Real.pi := Real.two_pi_pos
  have hmul : 0 ≤ (n : ℝ) * (2 * Real.pi) := by linarith
  have hnonneg : 0 ≤ n := by exact_mod_cast nonneg_of_mul_nonneg_left hmul hpos
  refine ⟨n.toNat, ?_⟩
  rw [← Int.cast_natCast, Int.toNat_of_nonneg hnonneg]
  linarith

/-! ## The two sweeps -/

theorem addsTurns_unsignedSweep (start stop : α) (clockwise : Bool) :
    AddsTurns (fun a : α => decide (a < 0.0)) (directedDifference start stop clockwise)
      (unsignedSweep start stop clockwise) :=
  addsTurns_addTurns (fun _ h => (isShort_neg_iff.mp h).le) (zero_lt_turnsNeeded _)

/-- The sweep that is not to vanish is what the turns end at, with the sign of its sense. -/
theorem exists_addsTurns_signedSweep (start stop : α) (clockwise : Bool) : ∃ size : α,
    AddsTurns (fun a : α => decide (a ≤ 0.0)) (directedDifference start stop clockwise) size ∧
      0 < real size ∧ signedSweep start stop clockwise = if clockwise then -size else size := by
  have hends := addsTurns_addTurns (fun _ h => isShort_nonpos_iff.mp h)
    (zero_lt_turnsNeeded (directedDifference start stop clockwise))
  have hpos := not_le.mp (mt isShort_nonpos_iff.mpr (Bool.eq_false_iff.mp hends.not_isShort))
  exact ⟨_, hends, hpos, rfl⟩

/-- The sweep that is not to vanish runs in its sense, and the turns end at its magnitude. -/
theorem addsTurns_signedSweep (start stop : α) (clockwise : Bool) :
    AddsTurns (fun a : α => decide (a ≤ 0.0)) (directedDifference start stop clockwise)
        (Scalar.abs (signedSweep start stop clockwise)) ∧
      (signedSweep start stop clockwise < 0.0 ↔ clockwise = true) := by
  obtain ⟨size, hends, hpos, hsigned⟩ := exists_addsTurns_signedSweep start stop clockwise
  have habs : Scalar.abs (signedSweep start stop clockwise) = size := by
    refine real_injective ?_
    rw [real_abs, hsigned]
    split
    · rw [real_neg, abs_neg, abs_of_pos hpos]
    · rw [abs_of_pos hpos]
  refine ⟨habs ▸ hends, ?_⟩
  rw [hsigned, lt_iff, real_zero]
  cases clockwise
  · simpa using hpos.le
  · simpa using hpos

/-- What the two sweeps between directions are, told from their difference in the sense of
rotation. -/
structure SweepsFrom (d unsigned signed : α) (clockwise : Bool) : Prop where
  /-- The turns come to an end. -/
  unsigned_ends : AddsTurns (fun a : α => decide (a < 0.0)) d unsigned
  unsigned_of_nonneg : 0 ≤ real d → unsigned = d
  unsigned_of_neg : real d < 0 → ∀ r : ℝ,
    r ∈ Set.Ico 0 (2 * Real.pi) ∧ TurnsApart r (real d) ↔ r = real unsigned
  /-- The turns come to an end here too. -/
  signed_ends : AddsTurns (fun a : α => decide (a ≤ 0.0)) d (Scalar.abs signed)
  sense : signed < 0.0 ↔ clockwise = true
  signed_of_pos : 0 < real d → Scalar.abs signed = d
  signed_of_nonpos : real d ≤ 0 → ∀ r : ℝ,
    r ∈ Set.Ioc 0 (2 * Real.pi) ∧ TurnsApart r (real d) ↔ r = real (Scalar.abs signed)
  /-- The two are one size, unless the difference is made up of turns back. -/
  agree : (¬∃ n : ℕ, real d = -(n * (2 * Real.pi))) → unsigned = Scalar.abs signed
  /-- Then the one vanishes, and the other is a full turn. -/
  part : (∃ n : ℕ, real d = -(n * (2 * Real.pi))) →
    real unsigned = 0 ∧ real (Scalar.abs signed) = 2 * Real.pi

section Agree

variable {d u s : α} (hu : AddsTurns (fun a : α => decide (a < 0.0)) d u)
  (hs : AddsTurns (fun a : α => decide (a ≤ 0.0)) d s)
include hu hs

/-- Turns that do not end at zero in the one range end at the same angle in the other. -/
theorem AddsTurns.eq_of_not_turns_back (h : ¬∃ n : ℕ, real d = -(n * (2 * Real.pi))) : u = s := by
  rcases lt_trichotomy (real d) 0 with hd | hd | hd
  · obtain ⟨⟨hlow, hhigh⟩, hturns⟩ := (hu.eq_iff_of_neg hd (real u)).mpr rfl
    have hne : real u ≠ 0 := fun hzero => h ((hzero ▸ hturns).exists_turns_back hd.le)
    have hpos : 0 < real u := lt_of_le_of_ne hlow hne.symm
    exact real_injective ((hs.eq_iff_of_nonpos hd.le (real u)).mp ⟨⟨hpos, hhigh.le⟩, hturns⟩)
  · exact absurd ⟨0, by rw [hd, Nat.cast_zero, zero_mul, neg_zero]⟩ h
  · have hfar : ¬real d < 0 := hd.not_gt
    have hfar' : ¬real d ≤ 0 := hd.not_ge
    rw [hu.eq_of_far (Bool.eq_false_iff.mpr (mt isShort_neg_iff.mp hfar)),
      hs.eq_of_far (Bool.eq_false_iff.mpr (mt isShort_nonpos_iff.mp hfar'))]

theorem AddsTurns.of_turns_back {n : ℕ} (h : real d = -(n * (2 * Real.pi))) :
    real u = 0 ∧ real s = 2 * Real.pi := by
  have hpos : 0 < 2 * Real.pi := Real.two_pi_pos
  have hd : real d ≤ 0 := by
    rw [h, neg_nonpos]
    positivity
  constructor
  · rcases hd.lt_or_eq with hneg | hzero
    · exact ((hu.eq_iff_of_neg hneg 0).mp
        ⟨⟨le_rfl, hpos⟩, ⟨n, by rw [h, Int.cast_natCast, neg_add_cancel]⟩⟩).symm
    · have hfar : ¬real d < 0 := hzero.not_lt
      rw [hu.eq_of_far (Bool.eq_false_iff.mpr (mt isShort_neg_iff.mp hfar)), hzero]
  · refine ((hs.eq_iff_of_nonpos hd _).mp ⟨⟨hpos, le_rfl⟩, ⟨n + 1, ?_⟩⟩).symm
    rw [h]
    push_cast
    ring

end Agree

/-- In exact arithmetic the turns that the two sweeps add come to an end for any two directions and
either sense of rotation. A difference that is large enough stays as it is, and else the sweep is
the only angle of its range that differs from it by whole turns. So the two are one size, unless the
difference is made up of turns back. Neither size changes if the directions and the sense are both
exchanged. -/
theorem sweeps_of_directions (start stop : α) (clockwise : Bool) :
    SweepsFrom (directedDifference start stop clockwise) (unsignedSweep start stop clockwise)
        (signedSweep start stop clockwise) clockwise ∧
      unsignedSweep stop start (!clockwise) = unsignedSweep start stop clockwise ∧
      Scalar.abs (signedSweep stop start (!clockwise)) =
        Scalar.abs (signedSweep start stop clockwise) := by
  have hu := addsTurns_unsignedSweep start stop clockwise
  obtain ⟨hs, hsense⟩ := addsTurns_signedSweep start stop clockwise
  have hswap : directedDifference stop start (!clockwise) =
      directedDifference start stop clockwise := by
    cases clockwise <;> rfl
  refine ⟨?_, ?_, ?_⟩
  · exact {
      unsigned_ends := hu
      unsigned_of_nonneg := unsignedSweep_of_nonneg
      unsigned_of_neg := fun hd => hu.eq_iff_of_neg hd
      signed_ends := hs
      sense := hsense
      signed_of_pos := fun hd =>
        hs.eq_of_far (Bool.eq_false_iff.mpr (mt isShort_nonpos_iff.mp hd.not_ge))
      signed_of_nonpos := fun hd => hs.eq_iff_of_nonpos hd
      agree := hu.eq_of_not_turns_back hs
      part := fun ⟨_, hn⟩ => hu.of_turns_back hs hn }
  · have hu' := addsTurns_unsignedSweep stop start (!clockwise)
    rw [hswap] at hu'
    exact hu'.unique hu
  · have hs' := (addsTurns_signedSweep stop start (!clockwise)).1
    rw [hswap] at hs'
    exact hs'.unique hs

end Exact

/-- Two turns against the sense of rotation: the sweep that may vanish does, the other one is a full
turn. -/
theorem RealNumber.sweeps_of_two_turns_back :
    real (unsignedSweep (⟨4 * Real.pi⟩ : RealNumber) ⟨0⟩ false) = 0 ∧
      real (Scalar.abs (signedSweep (⟨4 * Real.pi⟩ : RealNumber) ⟨0⟩ false)) = 2 * Real.pi := by
  refine (sweeps_of_directions (⟨4 * Real.pi⟩ : RealNumber) ⟨0⟩ false).1.part ⟨2, ?_⟩
  change 0 - 4 * Real.pi = -((2 : ℕ) * (2 * Real.pi))
  push_cast
  ring

end WallPanel
