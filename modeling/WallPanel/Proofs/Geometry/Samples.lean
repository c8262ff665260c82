import WallPanel.Proofs.Geometry.Arcs

/-!
# Samples of an arc

A solved arc is cut into equal steps of at most a twenty-fourth of a half turn, and of no fewer than
four. Its sweep is at most a full turn, so that there are at most forty-eight of them and the bound
on their number never counts (`Arc.fineSteps_le`). The ends are sampled exactly, and every point
between them lies on the circle, at an angle of its own (`Arc.sampled_of_solve?`).
-/

namespace WallPanel

open Scalar.Exact

variable {α : Type} [Scalar α]

/-! ## Samples by index -/

namespace Arc

variable {a : Arc α} {i : Nat} {angle : α}

/-- The angle at which the sample of an index is taken. -/
def angleAt (a : Arc α) (i : Nat) : α :=
  a.startAngle + a.signedSweep / Scalar.ofInt a.steps * Scalar.ofInt i

theorem interior_eq (a : Arc α) :
    a.interior = (List.range (a.steps - 1)).map fun i => a.pointAt (a.angleAt (i + 1)) :=
  rfl

theorem length_sampledAngles (a : Arc α) : a.sampledAngles.length = a.steps + 1 := by
  rw [sampledAngles, List.length_map, List.length_range]

theorem getElem?_sampledAngles_eq_some_iff :
    a.sampledAngles[i]? = some angle ↔ i ≤ a.steps ∧ a.angleAt i = angle := by
  change ((List.range (a.steps + 1)).map a.angleAt)[i]? = _ ↔ _
  simp [List.getElem?_eq_some_iff]

theorem steps_pos (a : Arc α) : 0 < a.steps :=
  lt_min (lt_max_of_lt_right (by norm_num)) (by norm_num)

section Full

variable (hfull : a.isBare = false)
include hfull

theorem sample_eq : a.sample = a.start :: (a.interior ++ [a.stop]) := by
  rw [sample, hfull]
  rfl

theorem length_sample : a.sample.length = a.steps + 1 := by
  have hpos := a.steps_pos
  rw [sample_eq hfull, interior_eq]
  simp only [List.length_cons, List.length_append, List.length_map, List.length_range,
    List.length_nil]
  omega

theorem getElem?_sample (hi : 0 < i) (hlt : i < a.steps) :
    a.sample[i]? = some (a.pointAt (a.angleAt i)) := by
  obtain ⟨j, rfl⟩ := Nat.exists_eq_add_one.mpr hi
  have hj : j < a.interior.length := by
    simp only [interior_eq, List.length_map, List.length_range]
    omega
  rw [sample_eq hfull, List.getElem?_cons_succ, List.getElem?_append_left hj,
    List.getElem?_eq_getElem hj]
  simp [interior_eq]

end Full

end Arc

variable [Scalar.Exact α]

/-! ## Whole numbers -/

theorem real_ofInt_natCast (n : Nat) : real (Scalar.ofInt (n : Int) : α) = n := by
  rw [Scalar.ofInt, if_neg (by omega), real_ofScientific, NNRatCast.ofScientific_eq_ite]
  simp

theorem real_ceil (x : α) : Scalar.ceil x = ⌈real x⌉ := by
  rw [Scalar.ceil, floor_eq, real_neg, Int.floor_neg, neg_neg]

theorem isInfinite_eq_false (x : α) : Scalar.isInfinite x = false := by
  have hfinite := isFinite x
  unfold Scalar.isFinite at hfinite
  unfold Scalar.isInfinite
  cases hreading : Scalar.reading x <;> simp_all [Reading.isFinite]

namespace Arc

variable {start stop : Point α} {r : ArcRequest α} {a : Arc α}

theorem real_stepAngle : real (stepAngle : α) = Real.pi / 24 := by
  rw [stepAngle, real_div, real_pi, real_ofScientific]
  norm_num

/-! ## Steps -/

/-- The least number of equal steps, and no fewer than four, that are each no longer than the
greatest angle between two samples. -/
noncomputable def fineSteps (a : Arc α) : ℕ := max 4 ⌈real a.sweep / (Real.pi / 24)⌉₊

theorem steps_eq (a : Arc α) : a.steps = min a.fineSteps 160 := by
  have hratio : real (Scalar.abs a.signedSweep / stepAngle) = real a.sweep / (Real.pi / 24) := by
    rw [real_div, real_stepAngle, sweep]
  rw [steps, fineSteps, max_comm, real_ceil, hratio, Int.ceil_toNat]

/-- Within a full turn there are at most forty-eight steps. -/
theorem fineSteps_le (h : a.sweep ≤ 2.0 * Scalar.pi) : a.fineSteps ≤ 48 := by
  rw [le_iff, real_mul, real_two, real_pi] at h
  refine max_le (by norm_num) (Nat.ceil_le.mpr ?_)
  rw [div_le_iff₀ (by positivity)]
  push_cast
  linarith

theorem fineSteps_pos (a : Arc α) : 0 < a.fineSteps :=
  lt_max_of_lt_left (by norm_num)

/-- The steps are fine enough. -/
theorem sweep_div_fineSteps_le (a : Arc α) : real a.sweep / a.fineSteps ≤ Real.pi / 24 := by
  have hceil : real a.sweep / (Real.pi / 24) ≤ (a.fineSteps : ℝ) :=
    (Nat.le_ceil _).trans (Nat.cast_le.mpr (le_max_right _ _))
  rw [div_le_iff₀ (by positivity)] at hceil
  rwa [div_le_iff₀ (Nat.cast_pos.mpr a.fineSteps_pos), mul_comm]

/-! ## On the circle -/

theorem real_angleAt (a : Arc α) (i : Nat) :
    real (a.angleAt i) = real a.startAngle + real a.signedSweep / a.steps * i := by
  rw [angleAt, real_add, real_mul, real_div, real_ofInt_natCast, real_ofInt_natCast]

/-- A point at an angle lies on the circle. -/
theorem distance_pointAt
    (hcircle : ∀ t : α, real (Scalar.cos t) ^ 2 + real (Scalar.sin t) ^ 2 = 1)
    (hradius : 0 ≤ real a.radius) (angle : α) :
    a.center.distance (a.pointAt angle) = real a.radius := by
  refine (sq_eq_sq₀ (Point.distance_nonneg _ _) hradius).mp ?_
  rw [Point.sq_distance, pointAt]
  simp only [real_add, real_mul, add_sub_cancel_left]
  rw [mul_pow, mul_pow, ← mul_add, hcircle, mul_one]

/-! ## A sampled arc -/

theorem isBare_eq_false (hleast : sweepTolerance ≤ a.sweep) (hradius : 0 < real a.radius) :
    a.isBare = false := by
  have hsweep : ¬Scalar.abs a.signedSweep < arcTolerance := by
    rw [le_iff, real_sweepTolerance, sweep] at hleast
    rw [lt_iff, real_arcTolerance]
    linarith
  have hpos : ¬a.radius ≤ 0.0 := by
    rwa [le_iff, real_zero, not_le]
  simp [isBare, hsweep, hpos]

theorem trySample_eq_ok (a : Arc α) : a.trySample = .ok a.sample := by
  simp [trySample, isInfinite_eq_false]

/-- An arc is sampled without fault, in equal steps that are fine enough, and on its circle. -/
structure Sampled (a : Arc α) : Prop where
  ok : a.trySample = .ok a.sample
  /-- There is one sample more than there are steps, and the bound on these does not count. -/
  count : a.sample.length = a.fineSteps + 1
  uncapped : a.fineSteps < 160
  first : a.sample.head? = some a.start
  last : a.sample.getLast? = some a.stop
  /-- Between the ends each sample lies on the circle, at the angle of its index. -/
  between : ∀ i, 0 < i → i < a.fineSteps →
    ∃ angle, a.sampledAngles[i]? = some angle ∧ a.sample[i]? = some (a.pointAt angle) ∧
      a.center.distance (a.pointAt angle) = real a.radius
  /-- The angles start at that of the arc and are as many as the samples. -/
  firstAngle : a.sampledAngles.head? = some a.startAngle
  countAngles : a.sampledAngles.length = a.fineSteps + 1
  /-- From each angle to the next it is one step, and all steps make up the sweep. -/
  even : ∃ step, |step| ≤ Real.pi / 24 ∧ a.fineSteps * step = real a.signedSweep ∧
    ∀ i angle next, a.sampledAngles[i]? = some angle → a.sampledAngles[i + 1]? = some next →
      real next - real angle = step

theorem sampled (hcircle : ∀ t : α, real (Scalar.cos t) ^ 2 + real (Scalar.sin t) ^ 2 = 1)
    (hleast : sweepTolerance ≤ a.sweep) (hmost : a.sweep ≤ 2.0 * Scalar.pi)
    (hradius : 0 < real a.radius) : a.Sampled :=
  have hfull := isBare_eq_false hleast hradius
  have hfew := fineSteps_le hmost
  -- the bound on the steps is out of reach
  have hsteps : a.steps = a.fineSteps := a.steps_eq.trans (min_eq_left (by omega))
  { ok := a.trySample_eq_ok
    count := hsteps ▸ length_sample hfull
    uncapped := by omega
    first := by rw [sample_eq hfull, List.head?_cons]
    last := by rw [sample_eq hfull, ← List.cons_append, List.getLast?_concat]
    between i hi hlt :=
      ⟨a.angleAt i, getElem?_sampledAngles_eq_some_iff.mpr ⟨by omega, rfl⟩,
        getElem?_sample hfull hi (hsteps ▸ hlt), distance_pointAt hcircle hradius.le _⟩
    firstAngle := by
      rw [List.head?_eq_getElem?, getElem?_sampledAngles_eq_some_iff]
      exact ⟨by omega, real_injective (by simp [real_angleAt])⟩
    countAngles := hsteps ▸ a.length_sampledAngles
    even := by
      refine ⟨real a.signedSweep / a.fineSteps, ?_, ?_, fun i angle next hangle hnext => ?_⟩
      · rw [abs_div, ← real_abs, Nat.abs_cast]
        exact a.sweep_div_fineSteps_le
      · exact mul_div_cancel₀ _ (Nat.cast_ne_zero.mpr a.fineSteps_pos.ne')
      · obtain ⟨-, rfl⟩ := getElem?_sampledAngles_eq_some_iff.mp hangle
        obtain ⟨-, rfl⟩ := getElem?_sampledAngles_eq_some_iff.mp hnext
        rw [real_angleAt, real_angleAt, hsteps]
        push_cast
        ring }

end Arc

section Circle

variable (hatan2 : ∀ y x : α, -Scalar.pi ≤ Scalar.atan2 y x ∧ Scalar.atan2 y x ≤ Scalar.pi)
  (hcircle : ∀ t : α, real (Scalar.cos t) ^ 2 + real (Scalar.sin t) ^ 2 = 1)
include hatan2 hcircle

/-- A solved arc runs between the points that it was asked for and is sampled in equal steps. -/
theorem Arc.sampled_of_solve? {start stop : Point α} {r : ArcRequest α} {a : Arc α}
    (h : Arc.solve? start stop r = some a) : a.start = start ∧ a.stop = stop ∧ a.Sampled := by
  obtain ⟨centers, c, -, hc, rfl⟩ := solve?_eq_some_iff.mp h
  obtain ⟨hmem, hleast⟩ := ArcCandidate.of_choose? hc
  have hsweeps := ArcRequest.sweeps_draw hatan2 hmem hleast
  have hradius : 0 < real (r.draw start stop c).radius := by
    change 0 < real (Scalar.greatest _ _)
    rw [real_greatest, real_arcTolerance]
    exact lt_max_of_lt_right (by norm_num)
  exact ⟨rfl, rfl, sampled hcircle hsweeps.least hsweeps.most hradius⟩

end Circle

/-- The larger arc over a quarter of the unit circle is sampled in thirty-six steps, and its ends
are those of the quarter. -/
theorem RealNumber.sampled_largerArc :
    let a := (unitRequest true).draw quarterStart quarterStop largerArc
    Arc.solve? quarterStart quarterStop (unitRequest true) = some a ∧ a.Sampled ∧
      a.sample.length = 37 := by
  intro a
  have hsolved : Arc.solve? quarterStart quarterStop (unitRequest true) = some a :=
    (ArcRequest.selects atan2_mem (candidateCenters_unitRequest true)).suited largerArc
      comesFirst_largerArc
  obtain ⟨-, -, hsampled⟩ := Arc.sampled_of_solve? atan2_mem
    (fun t : RealNumber => Real.cos_sq_add_sin_sq t.value) hsolved
  have hratio : 3 * Real.pi / 2 / (Real.pi / 24) = (36 : ℕ) := by
    field_simp
    norm_num
  refine ⟨hsolved, hsampled, ?_⟩
  rw [hsampled.count, Arc.fineSteps, sweep_draw_largerArc, real_eq_value, hratio, Nat.ceil_natCast]
  rfl

end WallPanel
