import WallPanel.Proofs.Geometry.Bounds
import WallPanel.Proofs.Number.Infinite

/-!
# Bounds of what is fed

Bounds that are fed points and rectangles are the box around the usable ones of these points, and
there is a box just if there is such a point (`Bounds.tight_of_fed`). Each corner of a rectangle is
a point of its own, so one of them can count where the other is not finite. The box is told from the
set of the points, so neither the order of what is fed matters nor how often it is
(`Bounds.Around.same`).

The sides are kept as running extremes that begin at the infinities (`Bounds.sides_feedAll`), and
that there is a box is what the sides say (`Bounds.isFinite_iff_sides`).
-/

namespace WallPanel

variable {α : Type} [Scalar α]

/-! ## Feeding -/

namespace Bounds

variable {b b' : Bounds α} {ps : Set (Point α)}

theorem extendAll_append (b : Bounds α) (ps qs : List (Point α)) :
    b.extendAll (ps ++ qs) = (b.extendAll ps).extendAll qs :=
  List.foldl_append

/-- To be fed is to take in points. -/
theorem feed_eq (b : Bounds α) (f : Feed α) : b.feed f = b.extendAll f.points := by
  cases f with
  | point x? y? => cases x? <;> cases y? <;> rfl
  | rect => rfl

theorem feedAll_eq (b : Bounds α) (fs : List (Feed α)) :
    b.feedAll fs = b.extendAll (fs.flatMap Feed.points) := by
  induction fs generalizing b with
  | nil => rfl
  | cons f fs ih =>
    rw [List.flatMap_cons, extendAll_append, ← feed_eq]
    exact ih (b.feed f)

/-- Points that are not usable have no effect. -/
theorem extendAll_filter (b : Bounds α) (ps : List (Point α)) :
    b.extendAll (ps.filter (·.isFinite)) = b.extendAll ps := by
  induction ps generalizing b with
  | nil => rfl
  | cons p ps ih =>
    cases hp : p.isFinite with
    | true =>
      rw [List.filter_cons_of_pos hp]
      exact ih (b.extend p)
    | false =>
      have hskip : b.extend p = b := by simp [extend, hp]
      rw [List.filter_cons_of_neg (by simp [hp]), ih]
      exact congrArg (extendAll · ps) hskip.symm

/-- There is a box just if there are points. -/
theorem Around.isFinite_iff (h : b.Around ps) : b.isFinite = true ↔ ps.Nonempty := by
  cases b with
  | empty =>
    obtain rfl : ps = ∅ := h
    simp [isFinite]
  | box b =>
    obtain ⟨p, hp, -⟩ := (show b.Around ps from h).left.1
    exact iff_of_true rfl ⟨p, hp⟩

section Ordered

variable [Scalar.Ordered α]

/-- Fed bounds are around the usable points. -/
theorem around_feedAll (fs : List (Feed α)) :
    (empty.feedAll fs).Around (usable (fs.flatMap Feed.points)) := by
  have hnone : (empty : Bounds α).Around (usable []) :=
    Set.eq_empty_of_forall_notMem fun _ h => nomatch h.1
  rw [feedAll_eq]
  exact hnone.extendAll _

/-- Bounds around the same points are equal. -/
theorem Around.same (h : b.Around ps) (h' : b'.Around ps) (hps : ∀ p ∈ ps, p.isFinite = true) :
    b.Same b' := by
  cases b with
  | empty =>
    cases b' with
    | empty => trivial
    | box b' =>
      obtain rfl : ps = ∅ := h
      obtain ⟨p, hp, -⟩ := (show b'.Around ∅ from h').left.1
      exact hp
  | box b =>
    cases b' with
    | empty =>
      obtain rfl : ps = ∅ := h'
      obtain ⟨p, hp, -⟩ := (show b.Around ∅ from h).left.1
      exact hp
    | box b' =>
      exact (Box.Around.same_iff h hps (Box.Around.isFinite h' hps)
        fun _ => Box.Around.within h h' subset_rfl).mpr fun p hp => Box.Around.holds h' hp

end Ordered

end Bounds

/-! ## The sides -/

/-- Whether the sides of a box are finite and in their order. -/
structure Box.IsExtent (b : Box α) : Prop extends Box.IsFinite b where
  width : b.minX ≤ b.maxX
  height : b.minY ≤ b.maxY

namespace Bounds

open Binary64 (infinity)

variable {b : Bounds Float} {ps : Set (Point Float)} {p : Point Float}

/-- A point moves the sides as running extremes, also from the infinities that they begin at. -/
theorem sides_extend (hp : p.isFinite = true) :
    (b.extend p).sides infinity = (b.sides infinity).extend p := by
  cases b with
  | box b => simp [extend, hp, sides]
  | empty =>
    have hp' := hp
    simp only [Point.isFinite, Bool.and_eq_true] at hp'
    simp [extend, hp, sides, Box.extend, Box.ofPoint, Scalar.least, Scalar.greatest,
      Binary64.lt_infinity hp'.1, Binary64.lt_infinity hp'.2, Binary64.neg_infinity_lt hp'.1,
      Binary64.neg_infinity_lt hp'.2]

theorem sides_extendAll {qs : List (Point Float)} (hqs : ∀ q ∈ qs, q.isFinite = true) :
    (b.extendAll qs).sides infinity = qs.foldl Box.extend (b.sides infinity) := by
  induction qs generalizing b with
  | nil => rfl
  | cons q qs ih =>
    obtain ⟨hq, hqs⟩ := List.forall_mem_cons.mp hqs
    rw [List.foldl_cons, ← sides_extend hq]
    exact ih hqs

/-- The sides of fed bounds are the running extremes of the usable points. -/
theorem sides_feedAll (fs : List (Feed Float)) :
    (empty.feedAll fs).sides infinity = ((fs.flatMap Feed.points).filter (·.isFinite)).foldl
      Box.extend ⟨infinity, -infinity, infinity, -infinity⟩ := by
  rw [feedAll_eq, ← extendAll_filter, sides_extendAll fun q hq => (List.mem_filter.mp hq).2]
  rfl

/-- The sides say whether there is a box. -/
theorem isFinite_iff_sides (h : b.Around ps) (hps : ∀ p ∈ ps, p.isFinite = true) :
    b.isFinite = true ↔ (b.sides infinity).IsExtent := by
  cases b with
  | empty =>
    refine iff_of_false Bool.false_ne_true fun he => ?_
    have hinf : Scalar.isFinite infinity = true := he.left
    rw [Binary64.isFinite_infinity] at hinf
    cases hinf
  | box b =>
    have hb : b.Around ps := h
    obtain ⟨p, hp, -⟩ := hb.left.1
    have hfinite := hb.isFinite hps
    have hheld := hb.holds hp
    have hp' := hps p hp
    simp only [Point.isFinite, Bool.and_eq_true] at hp'
    exact iff_of_true rfl
      ⟨hfinite, Scalar.le_trans hfinite.left hp'.1 hfinite.right hheld.left hheld.right,
        Scalar.le_trans hfinite.bottom hp'.2 hfinite.top hheld.bottom hheld.top⟩

/-- Bounds contain the points that they are around, with any tolerance. -/
theorem Around.contains (h : b.Around ps) (hps : ∀ p ∈ ps, p.isFinite = true) (hp : p ∈ ps)
    {tolerance : Float} (hzero : 0.0 ≤ tolerance) : b.contains tolerance p = true := by
  cases b with
  | empty =>
    obtain rfl : ps = ∅ := h
    cases hp
  | box b =>
    have hb : b.Around ps := h
    obtain ⟨hleft, hright, hbottom, htop⟩ := hb.isFinite hps
    have hheld := hb.holds hp
    have hp' := hps p hp
    simp only [Point.isFinite, Bool.and_eq_true] at hp'
    simp only [Bounds.contains, Bool.and_eq_true]
    exact ⟨⟨⟨decide_eq_true (Binary64.sub_le hleft hp'.1 hzero hheld.left),
      decide_eq_true (Binary64.le_add hp'.1 hright hzero hheld.right)⟩,
      decide_eq_true (Binary64.sub_le hbottom hp'.2 hzero hheld.bottom)⟩,
      decide_eq_true (Binary64.le_add hp'.2 htop hzero hheld.top)⟩

/-- Whether bounds are the tight box of some points: there is a box just if there is a point, each
point is contained with any tolerance, and each side is attained by one. -/
structure Tight (b : Bounds Float) (ps : Set (Point Float)) : Prop where
  isFinite_iff : b.isFinite = true ↔ ps.Nonempty
  isExtent_iff : (b.sides infinity).IsExtent ↔ ps.Nonempty
  contains : ∀ p ∈ ps, ∀ tolerance : Float, 0.0 ≤ tolerance → b.contains tolerance p = true
  left : b.isFinite = true → ∃ p ∈ ps, p.x = (b.sides infinity).minX
  right : b.isFinite = true → ∃ p ∈ ps, p.x = (b.sides infinity).maxX
  bottom : b.isFinite = true → ∃ p ∈ ps, p.y = (b.sides infinity).minY
  top : b.isFinite = true → ∃ p ∈ ps, p.y = (b.sides infinity).maxY

theorem Around.tight (h : b.Around ps) (hps : ∀ p ∈ ps, p.isFinite = true) : b.Tight ps := by
  have hattained (hb : b.isFinite = true) : (b.sides infinity).Around ps := by
    cases b with
    | empty => cases hb
    | box b => exact h
  exact {
    isFinite_iff := h.isFinite_iff
    isExtent_iff := (isFinite_iff_sides h hps).symm.trans h.isFinite_iff
    contains := fun _ hp _ hzero => h.contains hps hp hzero
    left := fun hb => (hattained hb).left.1
    right := fun hb => (hattained hb).right.1
    bottom := fun hb => (hattained hb).bottom.1
    top := fun hb => (hattained hb).top.1 }

/-- Bounds that are fed any points and rectangles, whether their numbers are missing, infinite or no
numbers at all, are the tight box of those points that are usable. The others have no effect, and
the sides are the running extremes of what is left. Neither the order of what is fed matters nor how
often it is. -/
theorem tight_of_fed (fs : List (Feed Float)) :
    (empty.feedAll fs).Tight (usable (fs.flatMap Feed.points)) ∧
      (∀ (b : Bounds Float) f, b.feed f = b.extendAll (f.points.filter (·.isFinite))) ∧
      (empty.feedAll fs).sides infinity = ((fs.flatMap Feed.points).filter (·.isFinite)).foldl
        Box.extend ⟨infinity, -infinity, infinity, -infinity⟩ ∧
      ∀ fs', (∀ f, f ∈ fs' ↔ f ∈ fs) → (empty.feedAll fs').Same (empty.feedAll fs) := by
  have hps : ∀ p ∈ usable (fs.flatMap Feed.points), p.isFinite = true := fun _ hp => hp.2
  refine ⟨(around_feedAll fs).tight hps, fun b f => ?_, sides_feedAll fs, fun fs' hfs => ?_⟩
  · rw [extendAll_filter, feed_eq]
  · have hsame : usable (fs'.flatMap Feed.points) = usable (fs.flatMap Feed.points) := by
      ext p
      simp [usable, hfs]
    have haround := around_feedAll fs'
    rw [hsame] at haround
    exact haround.same (around_feedAll fs) hps

/-- A coordinate alone, a rectangle of which one corner is not finite, and a whole point: the
bounds are the box of two points, in any order and also without end. -/
theorem tight_of_mixed_feeds :
    let fs : List (Feed Float) :=
      [.point none (some 2.0), .rect 3.0 4.0 (-5.0) (0.0 / 0.0), .point (some 1.0) (some 7.0)]
    (empty.feedAll fs).contains infinity ⟨3.0, 4.0⟩ = true ∧
      (empty.feedAll (fs.reverse ++ fs)).Same (empty.feedAll fs) ∧
      ((empty.feedAll fs).sides infinity).Same ⟨1.0, 3.0, 4.0, 7.0⟩ := by
  intro fs
  obtain ⟨htight, -, -, hsame⟩ := tight_of_fed fs
  have hzero : (0.0 : Float) ≤ infinity := by decide +kernel
  refine ⟨htight.contains _ ⟨?_, by decide +kernel⟩ _ hzero, hsame _ ?_, by decide +kernel⟩
  · simp [fs, Feed.points, corners]
  · simp

end Bounds

end WallPanel
