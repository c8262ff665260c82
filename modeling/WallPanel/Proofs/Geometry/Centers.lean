import WallPanel.Proofs.Geometry.Sweeps

/-!
# Where the centres of an arc lie

The two circles of a radius through the ends of a chord have their centres at one height over its
middle, the one to the left of it first. They are found by an angle and a root, and a radius that
falls short of half the chord by no more than the tolerance counts as half the chord. With the
roots and right angles of the plane (`Scalar.Euclidean`) they are the two points of which this
holds (`candidateCenters_eq_some_iff`), so that each is as far from both ends as the radius is long
and the other end of the chord sees them the other way round (`candidateCenters_flank`).

* `Point.LiesOver`: a point at a height over the middle of a chord.
* `AreCenters`, `Flank`: where the centres are, and what that makes of them.
* `RealNumber.candidateCenters_eq`: the centres in coordinates, without a root.
-/

namespace WallPanel

open Scalar Scalar.Exact

section Exact

variable {α : Type} [Scalar α] [Scalar.Exact α] {start stop left right c c' : Point α} {radius : α}
  {height : ℝ}

theorem real_two : real (2.0 : α) = 2 := by
  rw [real_ofScientific]
  norm_num

theorem real_arcTolerance : real (arcTolerance : α) = 1e-6 :=
  real_ofScientific _ _ _

/-! ## Chords -/

namespace Point

/-- The distance between two points. -/
noncomputable def distance (p q : Point α) : ℝ :=
  √((real q.x - real p.x) ^ 2 + (real q.y - real p.y) ^ 2)

theorem distance_nonneg (p q : Point α) : 0 ≤ p.distance q :=
  Real.sqrt_nonneg _

theorem sq_distance (p q : Point α) :
    p.distance q ^ 2 = (real q.x - real p.x) ^ 2 + (real q.y - real p.y) ^ 2 :=
  Real.sq_sqrt (by positivity)

theorem distance_comm (p q : Point α) : p.distance q = q.distance p := by
  rw [distance, distance, sub_sq_comm (real q.x), sub_sq_comm (real q.y)]

/-- How far a point lies along a chord, times the length of the chord. -/
noncomputable def along (start stop p : Point α) : ℝ :=
  (real stop.x - real start.x) * (real p.x - real start.x) +
    (real stop.y - real start.y) * (real p.y - real start.y)

/-- How far a point lies to the left of a chord, times the length of the chord. -/
noncomputable def leftward (start stop p : Point α) : ℝ :=
  (real stop.x - real start.x) * (real p.y - real start.y) -
    (real stop.y - real start.y) * (real p.x - real start.x)

/-- A point lies at a height over the middle of a chord, to the left of it if the height is
positive. -/
structure LiesOver (start stop : Point α) (height : ℝ) (c : Point α) : Prop where
  x : real c.x = (real start.x + real stop.x) / 2 -
    height * (real stop.y - real start.y) / start.distance stop
  y : real c.y = (real start.y + real stop.y) / 2 +
    height * (real stop.x - real start.x) / start.distance stop

namespace LiesOver

theorem unique (h : LiesOver start stop height c) (h' : LiesOver start stop height c') :
    c = c' := by
  cases c
  cases c'
  exact congrArg₂ Point.mk (real_injective (h.x.trans h'.x.symm))
    (real_injective (h.y.trans h'.y.symm))

/-- Seen from the other end of the chord it is the other side. -/
theorem symm (h : LiesOver start stop height c) : LiesOver stop start (-height) c := by
  refine ⟨?_, ?_⟩
  · rw [h.x, distance_comm]
    ring
  · rw [h.y, distance_comm]
    ring

/-- It is as far from the one end of the chord as from the other. -/
theorem along_eq (h : LiesOver start stop height c) :
    along start stop c = start.distance stop ^ 2 / 2 := by
  rw [along, h.x, h.y, start.sq_distance]
  ring

section Long

variable (hlong : 0 < start.distance stop)
include hlong

theorem sq_distance_start (h : LiesOver start stop height c) :
    c.distance start ^ 2 = height ^ 2 + (start.distance stop / 2) ^ 2 := by
  have hsq := start.sq_distance stop
  rw [c.sq_distance, h.x, h.y]
  generalize start.distance stop = l at *
  calc _ = ((real stop.x - real start.x) ^ 2 + (real stop.y - real start.y) ^ 2) *
        (height ^ 2 / l ^ 2 + 1 / 4) := by ring
    _ = _ := by
      rw [← hsq]
      field_simp
      ring

theorem sq_distance_stop (h : LiesOver start stop height c) :
    c.distance stop ^ 2 = height ^ 2 + (start.distance stop / 2) ^ 2 := by
  rw [start.distance_comm] at hlong ⊢
  rw [h.symm.sq_distance_start hlong, neg_sq]

theorem leftward_eq (h : LiesOver start stop height c) :
    leftward start stop c = height * start.distance stop := by
  have hsq := start.sq_distance stop
  rw [leftward, h.x, h.y]
  generalize start.distance stop = l at *
  calc _ = height * ((real stop.x - real start.x) ^ 2 + (real stop.y - real start.y) ^ 2) / l := by
        ring
    _ = height * l := by
      rw [← hsq]
      field_simp

end Long

end LiesOver

end Point

/-! ## The centres -/

/-- The height over the middle of a chord at which the centres of the circles of a radius lie, by
half the chord. If the radius is too short for it, they lie in the middle. -/
noncomputable def rise (half radius : ℝ) : ℝ := √(max (radius ^ 2 - half ^ 2) 0)

theorem sq_rise (half radius : ℝ) :
    rise half radius ^ 2 + half ^ 2 = max (radius ^ 2) (half ^ 2) := by
  rw [rise, Real.sq_sqrt (le_max_right _ _), ← max_add_add_right, sub_add_cancel, zero_add]

theorem rise_nonneg (half radius : ℝ) : 0 ≤ rise half radius :=
  Real.sqrt_nonneg _

theorem rise_pos_iff {half radius : ℝ} (hhalf : 0 ≤ half) (hradius : 0 ≤ radius) :
    0 < rise half radius ↔ half < radius := by
  rw [rise, Real.sqrt_pos, lt_max_iff, or_iff_left (lt_irrefl 0), sub_pos, sq_lt_sq₀ hhalf hradius]

/-- Two points are the centres of an arc: the chord has some length and the radius reaches across
half of it, and they lie over the middle of the chord, the first to the left. -/
structure AreCenters (start stop : Point α) (radius : α) (left right : Point α) : Prop where
  long : 1e-6 ≤ start.distance stop
  reaches : start.distance stop / 2 - 1e-6 ≤ real radius
  left : Point.LiesOver start stop (rise (start.distance stop / 2) (real radius)) left
  right : Point.LiesOver start stop (-rise (start.distance stop / 2) (real radius)) right

theorem AreCenters.symm (h : AreCenters start stop radius left right) :
    AreCenters stop start radius right left := by
  obtain ⟨hlong, hreaches, hleft, hright⟩ := h
  rw [Point.distance_comm] at hlong hreaches hleft hright
  exact ⟨hlong, hreaches, neg_neg (rise _ _) ▸ hright.symm, hleft.symm⟩

/-- Two points lie about a chord as the centres of the circles of a radius over it do. -/
structure Flank (start stop : Point α) (radius : α) (left right : Point α) : Prop where
  /-- Each is as far from the one end as from the other. -/
  sq_distance : ∀ c ∈ [left, right], ∀ p ∈ [start, stop],
    c.distance p ^ 2 = max (real radius ^ 2) ((start.distance stop / 2) ^ 2)
  /-- It is as far from them as the radius is long, or at most the tolerance more. -/
  excess : ∀ c ∈ [left, right], ∀ p ∈ [start, stop],
    real radius ≤ c.distance p ∧ c.distance p ≤ real radius + 1e-6
  exact : start.distance stop / 2 ≤ real radius →
    ∀ c ∈ [left, right], ∀ p ∈ [start, stop], c.distance p = real radius
  /-- They are mirror images in the chord. -/
  along : Point.along start stop right = Point.along start stop left
  opposite : Point.leftward start stop right = -Point.leftward start stop left
  /-- The first lies to the left, or both lie on the chord. -/
  leftward : 0 ≤ Point.leftward start stop left
  apart : 0 < Point.leftward start stop left ↔ start.distance stop / 2 < real radius

theorem AreCenters.flank (h : AreCenters start stop radius left right)
    (hradius : 0 ≤ real radius) : Flank start stop radius left right := by
  have hlong : 0 < start.distance stop := by linarith [h.long]
  have hsq : ∀ c ∈ [left, right], ∀ p ∈ [start, stop],
      c.distance p ^ 2 = max (real radius ^ 2) ((start.distance stop / 2) ^ 2) := by
    simp only [List.mem_cons, List.not_mem_nil, or_false, forall_eq_or_imp, forall_eq, ← sq_rise]
    rw [h.left.sq_distance_start hlong, h.left.sq_distance_stop hlong,
      h.right.sq_distance_start hlong, h.right.sq_distance_stop hlong, neg_sq]
    exact ⟨⟨rfl, rfl⟩, rfl, rfl⟩
  have hdistance : ∀ c ∈ [left, right], ∀ p ∈ [start, stop],
      c.distance p = max (real radius) (start.distance stop / 2) := by
    intro c hc p hp
    have hhalf : 0 ≤ start.distance stop / 2 := by positivity
    refine (sq_eq_sq₀ (c.distance_nonneg p) (le_max_of_le_left hradius)).mp ?_
    rw [hsq c hc p hp]
    -- neither is negative, so the greater one has the greater square
    rcases le_total (real radius) (start.distance stop / 2) with hle | hle
    · rw [max_eq_right hle, max_eq_right (pow_le_pow_left₀ hradius hle 2)]
    · rw [max_eq_left hle, max_eq_left (pow_le_pow_left₀ hhalf hle 2)]
  refine ⟨hsq, fun c hc p hp => ?_, fun hle c hc p hp => ?_, ?_, ?_, ?_, ?_⟩
  · rw [hdistance c hc p hp]
    exact ⟨le_max_left _ _, max_le (by linarith) (by linarith [h.reaches])⟩
  · rw [hdistance c hc p hp, max_eq_left hle]
  · rw [h.left.along_eq, h.right.along_eq]
  · rw [h.left.leftward_eq hlong, h.right.leftward_eq hlong, neg_mul]
  · rw [h.left.leftward_eq hlong]
    exact mul_nonneg (rise_nonneg _ _) hlong.le
  · rw [h.left.leftward_eq hlong, mul_pos_iff_of_pos_right hlong,
      rise_pos_iff (half_pos hlong).le hradius]

/-! ## Finding them -/

/-- Numbers with the lengths, roots and right angles of the plane. -/
class Scalar.Euclidean (α : Type) [Scalar α] [Scalar.Exact α] : Prop where
  hypot_nonneg (x y : α) : 0 ≤ real (hypot x y)
  hypot_sq (x y : α) : real (hypot x y) ^ 2 = real x ^ 2 + real y ^ 2
  sqrt_nonneg (t : α) : 0 ≤ real (sqrt t)
  sqrt_sq {t : α} (ht : 0 ≤ real t) : real (sqrt t) ^ 2 = real t
  /-- The direction to the left of a vector, by its cosine and its sine. -/
  cos_left {x y : α} (h : 0 < real (hypot x y)) :
    real (cos (atan2 y x + pi / 2.0)) = -real y / real (hypot x y)
  sin_left {x y : α} (h : 0 < real (hypot x y)) :
    real (sin (atan2 y x + pi / 2.0)) = real x / real (hypot x y)

open Scalar.Euclidean

variable [Scalar.Euclidean α]

theorem hypot_eq_distance (p q : Point α) :
    real (hypot (q.x - p.x) (q.y - p.y)) = p.distance q := by
  refine (sq_eq_sq₀ (hypot_nonneg ..) (p.distance_nonneg q)).mp ?_
  rw [hypot_sq, p.sq_distance, real_sub, real_sub]

theorem real_height (chord radius : α) :
    real (sqrt (greatest (radius * radius - chord / 2.0 * (chord / 2.0)) 0.0)) =
      rise (real chord / 2) (real radius) := by
  have hmax : real (greatest (radius * radius - chord / 2.0 * (chord / 2.0)) 0.0) =
      max (real radius ^ 2 - (real chord / 2) ^ 2) 0 := by
    simp only [real_greatest, real_sub, real_mul, real_div, real_two, real_zero, sq]
  refine (sq_eq_sq₀ (sqrt_nonneg _) (rise_nonneg _ _)).mp ?_
  rw [sqrt_sq (hmax ▸ le_max_right _ _), hmax, rise, Real.sq_sqrt (le_max_right _ _)]

theorem exists_areCenters (hlong : 1e-6 ≤ start.distance stop)
    (hreaches : start.distance stop / 2 - 1e-6 ≤ real radius) :
    ∃ left right, candidateCenters start stop radius = some (left, right) ∧
      AreCenters start stop radius left right := by
  have hchord := hypot_eq_distance start stop
  have hpos : 0 < real (hypot (stop.x - start.x) (stop.y - start.y)) := by linarith
  unfold candidateCenters
  dsimp only
  rw [if_neg, if_neg]
  · refine ⟨_, _, rfl, hlong, hreaches, ⟨?_, ?_⟩, ⟨?_, ?_⟩⟩ <;>
      simp only [real_add, real_sub, real_mul, real_div, real_two, real_height, cos_left hpos,
        sin_left hpos, hchord] <;> ring
  · rw [lt_iff, real_sub, real_div, real_two, real_arcTolerance, hchord, not_lt]
    exact hreaches
  · rw [lt_iff, real_arcTolerance, hchord, not_lt]
    exact hlong

theorem candidateCenters_eq_some_iff : candidateCenters start stop radius = some (left, right) ↔
    AreCenters start stop radius left right := by
  constructor
  · intro h
    have hguards := h
    unfold candidateCenters at hguards
    dsimp only at hguards
    split at hguards
    · cases hguards
    next hlong =>
    split at hguards
    · cases hguards
    next hreaches =>
    rw [lt_iff, hypot_eq_distance, real_arcTolerance, not_lt] at hlong
    rw [lt_iff, real_sub, real_div, real_two, hypot_eq_distance, real_arcTolerance, not_lt]
      at hreaches
    -- what passes both checks has centres, and these are the ones found
    obtain ⟨left', right', h', hcenters⟩ := exists_areCenters hlong hreaches
    obtain ⟨rfl, rfl⟩ := Prod.mk.inj (Option.some.inj (h'.symm.trans h))
    exact hcenters
  · intro h
    obtain ⟨left', right', h', hcenters⟩ := exists_areCenters h.long h.reaches
    rw [h', hcenters.left.unique h.left, hcenters.right.unique h.right]

end Exact

/-! ## Among the real numbers -/

namespace RealNumber

variable {start stop center : Point RealNumber} {radius a b sweep : ℝ}

theorem real_eq_value (x : RealNumber) : real x = x.value := rfl

theorem norm_eq_hypot (x y : RealNumber) : ‖(⟨x.value, y.value⟩ : ℂ)‖ = real (hypot x y) := by
  rw [Complex.norm_def, Complex.normSq_mk, ← sq, ← sq]
  rfl

instance : Scalar.Euclidean RealNumber where
  hypot_nonneg _ _ := Real.sqrt_nonneg _
  hypot_sq _ _ := Real.sq_sqrt (by positivity)
  sqrt_nonneg _ := Real.sqrt_nonneg _
  sqrt_sq h := Real.sq_sqrt h
  cos_left {x y} _ := by
    change Real.cos (Complex.arg ⟨x.value, y.value⟩ + Real.pi / real (2.0 : RealNumber)) = _
    rw [real_two, Real.cos_add_pi_div_two, Complex.sin_arg, norm_eq_hypot, ← neg_div]
    rfl
  sin_left {x y} h := by
    have hne : (⟨x.value, y.value⟩ : ℂ) ≠ 0 := norm_pos_iff.mp (norm_eq_hypot x y ▸ h)
    change Real.sin (Complex.arg ⟨x.value, y.value⟩ + Real.pi / real (2.0 : RealNumber)) = _
    rw [real_two, Real.sin_add_pi_div_two, Complex.cos_arg hne, norm_eq_hypot]
    rfl

/-- The centres lie at the same distance from the middle of the chord, the one to the left of it
first. With half the chord this distance makes a right angle, which the radius spans. -/
theorem candidateCenters_eq (chord height : ℝ)
    (hchord : chord ^ 2 = (stop.x.value - start.x.value) ^ 2 + (stop.y.value - start.y.value) ^ 2)
    (hleast : 1e-6 ≤ chord) (hradius : 0 ≤ radius) (hheight : 0 ≤ height)
    (hright : radius ^ 2 = height ^ 2 + (chord / 2) ^ 2) :
    candidateCenters start stop ⟨radius⟩ =
      let x := (start.x.value + stop.x.value) / 2
      let y := (start.y.value + stop.y.value) / 2
      let dx := height * (stop.y.value - start.y.value) / chord
      let dy := height * (stop.x.value - start.x.value) / chord
      some (⟨⟨x - dx⟩, ⟨y + dy⟩⟩, ⟨⟨x + dx⟩, ⟨y - dy⟩⟩) := by
  have hdistance : start.distance stop = chord :=
    (sq_eq_sq₀ (start.distance_nonneg stop) (by linarith)).mp
      ((start.sq_distance stop).trans hchord.symm)
  have hrise : rise (chord / 2) radius = height := by
    rw [rise, hright, add_sub_cancel_right, max_eq_left (sq_nonneg height), Real.sqrt_sq hheight]
  have hreach : chord / 2 ≤ radius := (abs_le_of_sq_le_sq' (by nlinarith) hradius).2
  refine candidateCenters_eq_some_iff.mpr ⟨?_, ?_, ⟨?_, ?_⟩, ⟨?_, ?_⟩⟩ <;>
    simp only [hdistance, hrise, real_eq_value]
  · exact hleast
  · linarith
  all_goals ring

/-- An arc against the clock runs from the angle of its start to that of its end, as seen from its
centre. -/
theorem ofCenter_of_args
    (ha : Complex.arg ⟨start.x.value - center.x.value, start.y.value - center.y.value⟩ = a)
    (hb : Complex.arg ⟨stop.x.value - center.x.value, stop.y.value - center.y.value⟩ = b)
    (hsweep : b - a = sweep) (hnonneg : 0 ≤ sweep) :
    ArcCandidate.ofCenter start stop center false = ⟨center, ⟨a⟩, ⟨b⟩, ⟨sweep⟩⟩ := by
  have hstart : Scalar.atan2 (start.y - center.y) (start.x - center.x) = ⟨a⟩ := RealNumber.ext ha
  have hstop : Scalar.atan2 (stop.y - center.y) (stop.x - center.x) = ⟨b⟩ := RealNumber.ext hb
  have hturn : unsignedSweep (⟨a⟩ : RealNumber) ⟨b⟩ false = ⟨b - a⟩ :=
    unsignedSweep_of_nonneg (hnonneg.trans_eq hsweep.symm)
  rw [ArcCandidate.ofCenter, hstart, hstop, hturn, hsweep]

/-! ## A quarter of a circle -/

/-- Where the quarter of the unit circle in the first quadrant starts. -/
def quarterStart : Point RealNumber := ⟨⟨1⟩, ⟨0⟩⟩

/-- Where the quarter of the unit circle in the first quadrant stops. -/
def quarterStop : Point RealNumber := ⟨⟨0⟩, ⟨1⟩⟩

theorem candidateCenters_quarter :
    candidateCenters quarterStart quarterStop ⟨1⟩ = some (⟨⟨0⟩, ⟨0⟩⟩, ⟨⟨1⟩, ⟨1⟩⟩) := by
  have hroot : √2 ^ 2 = (2 : ℝ) := Real.sq_sqrt zero_le_two
  have hone : 1 ≤ √2 := Real.one_le_sqrt.mpr one_le_two
  have hcenters : candidateCenters quarterStart quarterStop ⟨1⟩ = _ :=
    candidateCenters_eq √2 (√2 / 2) (by norm_num [quarterStart, quarterStop]) (by linarith)
      zero_le_one (by positivity) (by linarith)
  have hhalf : √2 / 2 / √2 = (1 / 2 : ℝ) := by field_simp
  rw [hcenters]
  norm_num [quarterStart, quarterStop, hhalf, neg_div]

/-- About the origin it is a quarter of a turn. -/
theorem ofCenter_quarter_origin :
    ArcCandidate.ofCenter quarterStart quarterStop ⟨⟨0⟩, ⟨0⟩⟩ false =
      ⟨⟨⟨0⟩, ⟨0⟩⟩, ⟨0⟩, ⟨Real.pi / 2⟩, ⟨Real.pi / 2⟩⟩ := by
  refine ofCenter_of_args ?_ ?_ (sub_zero _) (by positivity)
  · rw [← Complex.arg_one]
    exact congrArg Complex.arg (by apply Complex.ext <;> norm_num [quarterStart])
  · rw [← Complex.arg_I]
    exact congrArg Complex.arg (by apply Complex.ext <;> norm_num [quarterStop])

/-- About the other centre that its ends allow, the arc is the rest of a turn. -/
theorem ofCenter_quarter_corner :
    ArcCandidate.ofCenter quarterStart quarterStop ⟨⟨1⟩, ⟨1⟩⟩ false =
      ⟨⟨⟨1⟩, ⟨1⟩⟩, ⟨-(Real.pi / 2)⟩, ⟨Real.pi⟩, ⟨3 * Real.pi / 2⟩⟩ := by
  refine ofCenter_of_args ?_ ?_ (by ring) (by positivity)
  · rw [← Complex.arg_neg_I]
    exact congrArg Complex.arg (by apply Complex.ext <;> norm_num [quarterStart])
  · rw [← Complex.arg_neg_one]
    exact congrArg Complex.arg (by apply Complex.ext <;> norm_num [quarterStop])

/-- A radius that falls short of half the chord by the tolerance has both centres in the middle. -/
theorem candidateCenters_short :
    candidateCenters (⟨⟨0⟩, ⟨0⟩⟩ : Point RealNumber) ⟨⟨2⟩, ⟨0⟩⟩ ⟨1 - 1e-6⟩ =
      some (⟨⟨1⟩, ⟨0⟩⟩, ⟨⟨1⟩, ⟨0⟩⟩) := by
  have hdistance : Point.distance (⟨⟨0⟩, ⟨0⟩⟩ : Point RealNumber) ⟨⟨2⟩, ⟨0⟩⟩ = 2 := by
    refine (sq_eq_sq₀ (Point.distance_nonneg _ _) zero_le_two).mp ?_
    norm_num [Point.sq_distance, real_eq_value]
  have hrise : rise (2 / 2) (1 - 1e-6) = 0 := by
    norm_num [rise]
  refine candidateCenters_eq_some_iff.mpr ⟨?_, ?_, ⟨?_, ?_⟩, ⟨?_, ?_⟩⟩ <;>
    simp only [hdistance, hrise, real_eq_value]
  all_goals norm_num

end RealNumber

/-! ## The two centres -/

section Exact

variable {α : Type} [Scalar α] [Scalar.Exact α] [Scalar.Euclidean α] {radius : α}

/-- A radius has centres over a chord if the chord has some length and the radius reaches across
half of it, up to the tolerance. They flank the chord, and from the other end of it they are seen
the other way round. -/
theorem candidateCenters_flank (hradius : 0 ≤ real radius) (start stop : Point α) :
    ((candidateCenters start stop radius).isSome = true ↔
      1e-6 ≤ start.distance stop ∧ start.distance stop / 2 - 1e-6 ≤ real radius) ∧
    ∀ left right, candidateCenters start stop radius = some (left, right) →
      Flank start stop radius left right ∧
        candidateCenters stop start radius = some (right, left) := by
  refine ⟨⟨fun h => ?_, fun ⟨hlong, hreaches⟩ => ?_⟩, fun left right h => ?_⟩
  · obtain ⟨⟨left, right⟩, h⟩ := Option.isSome_iff_exists.mp h
    have hcenters := candidateCenters_eq_some_iff.mp h
    exact ⟨hcenters.long, hcenters.reaches⟩
  · obtain ⟨left, right, h, -⟩ := exists_areCenters hlong hreaches
    exact Option.isSome_of_eq_some h
  · have hcenters := candidateCenters_eq_some_iff.mp h
    exact ⟨hcenters.flank hradius, candidateCenters_eq_some_iff.mpr hcenters.symm⟩

end Exact

open RealNumber in
/-- The centres over a quarter of the unit circle lie on either side of its chord, and those of a
radius that falls short of half the chord in the middle of it. -/
theorem RealNumber.flank_quarter_and_short :
    Flank quarterStart quarterStop ⟨1⟩ ⟨⟨0⟩, ⟨0⟩⟩ ⟨⟨1⟩, ⟨1⟩⟩ ∧
      candidateCenters quarterStop quarterStart ⟨1⟩ = some (⟨⟨1⟩, ⟨1⟩⟩, ⟨⟨0⟩, ⟨0⟩⟩) ∧
      Flank (⟨⟨0⟩, ⟨0⟩⟩ : Point RealNumber) ⟨⟨2⟩, ⟨0⟩⟩ ⟨1 - 1e-6⟩ ⟨⟨1⟩, ⟨0⟩⟩ ⟨⟨1⟩, ⟨0⟩⟩ := by
  have hone : 0 ≤ real (⟨1⟩ : RealNumber) := zero_le_one
  have hshort : 0 ≤ real (⟨1 - 1e-6⟩ : RealNumber) := by
    norm_num [real_eq_value]
  obtain ⟨hflank, hexchange⟩ :=
    (candidateCenters_flank hone quarterStart quarterStop).2 _ _ candidateCenters_quarter
  exact ⟨hflank, hexchange, ((candidateCenters_flank hshort _ _).2 _ _ candidateCenters_short).1⟩

end WallPanel
