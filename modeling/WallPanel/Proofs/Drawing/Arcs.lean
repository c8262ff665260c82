import WallPanel.Drawing.Layered
import WallPanel.Drawing.PathData
import WallPanel.Proofs.Geometry.Arcs

/-!
# How arcs are drawn

A drawing gives an arc by its centre and by two angles in degrees, and runs from the one to the
other against the clock (`Shape.sweep?`). A picture gives it by the flags of a step of the pen, which
are words of their own (`PenStep.flags?`), and who reads these has to choose again between the two
arcs that meet them (`PenStep.arc?`). The flags are made from the arc that was
solved and not from the request, and the size is told by a bare comparison, while the solver allows
for a tolerance. That the same arc is chosen again rests on the two arcs making up a turn
(`Arc.MakesTurn`): then one of them is beyond the tolerance as soon as the other is
(`ArcCandidate.choose?_again`).
-/

namespace WallPanel

open Scalar.Exact

variable {α : Type} [Scalar α]

/-! ## What is told of an arc -/

/-- An angle that is given in degrees. -/
def radians (angle : α) : α :=
  angle * (Scalar.pi / 180.0)

/-- The angle that an arc of a drawing runs through: from its first angle to its second, against the
clock. -/
def Shape.sweep? : Shape α → Option α
  | arc _ _ startDegrees stopDegrees =>
    some (unsignedSweep (radians startDegrees) (radians stopDegrees) false)
  | _ => none

namespace PenStep

/-- The arc that is drawn for a step of the pen. -/
def arc? (pen : Point α) : PenStep α → Option (Arc α)
  | arcTo radius large counterclockwise p =>
    Arc.solve? pen p ⟨radius, !counterclockwise, large, none⟩
  | _ => none

/-- The flags among the words of a step, if they are those of an arc: whether it is the larger one,
and whether it runs counter-clockwise. -/
def flags? : List (List Char) → Option (Bool × Bool)
  | [letter, _, _, _, large, counterclockwise, _, _] =>
    if letter = ['A'] then some (large == ['1'], counterclockwise == ['1']) else none
  | _ => none

/-- The words of an arc tell its flags. -/
theorem flags?_words (radius : α) (large counterclockwise : Bool) (p : Point α) :
    flags? (arcTo radius large counterclockwise p).words = some (large, counterclockwise) := by
  cases large <;> cases counterclockwise <;> rfl

end PenStep

namespace Arc

/-- The two arcs between the ends of an arc that have its radius and its sense of rotation make up
a turn. -/
def MakesTurn (a : Arc α) : Prop :=
  ∀ left right, candidateCenters a.start a.stop a.radius = some (left, right) →
    (ArcCandidate.ofCenter a.start a.stop left a.clockwise).sweep +
      (ArcCandidate.ofCenter a.start a.stop right a.clockwise).sweep = fullTurn

/-- Two arcs have the same ends, and run between them about the same centre by the same angles. -/
structure Coincides (a b : Arc α) : Prop where
  start : a.start = b.start
  stop : a.stop = b.stop
  center : a.center = b.center
  radius : a.radius = b.radius
  startAngle : a.startAngle = b.startAngle
  stopAngle : a.stopAngle = b.stopAngle
  signedSweep : a.signedSweep = b.signedSweep
  clockwise : a.clockwise = b.clockwise

/-- The angle between the directions in which an arc is drawn against the clock. -/
theorem unsignedSweep_turn (a : Arc α) :
    unsignedSweep a.turn.1 a.turn.2 false = unsignedSweep a.startAngle a.stopAngle a.clockwise := by
  unfold turn
  cases a.clockwise <;> rfl

end Arc

variable [Scalar.Exact α]

/-- An angle is the same after it was given in degrees. -/
theorem radians_degrees (angle : α) : radians (degrees angle) = angle := by
  have hpi : Real.pi ≠ 0 := Real.pi_ne_zero
  refine real_injective ?_
  simp only [radians, degrees, real_mul, real_div, real_pi, real_ofScientific]
  field_simp

/-- In a drawing an arc runs from the one of its directions to the other, against the clock. -/
theorem Shape.sweep?_ofSegment (a : Arc α) :
    (ofSegment (.arc a)).sweep? = some (unsignedSweep a.turn.1 a.turn.2 false) := by
  simp only [ofSegment, sweep?, radians_degrees]

/-! ## Choosing again -/

namespace ArcCandidate

variable {c left right : ArcCandidate α} {large : Bool}

/-- In terms of real numbers: what has the size asked for. -/
theorem suits_iff (c : ArcCandidate α) : c.Suits large ↔
    1e-5 ≤ real c.sweep ∧ (|real c.sweep - Real.pi| ≤ 1e-5 ∨
      if large then Real.pi + 1e-5 < real c.sweep else real c.sweep ≤ Real.pi + 1e-5) := by
  cases large <;> simp only [Suits, le_iff, lt_iff, real_abs, real_sub, real_add, real_pi,
    real_sweepTolerance]

/-- A candidate has its own size, as a bare comparison tells it. -/
theorem suits_own (h : sweepTolerance ≤ c.sweep) : c.Suits (decide (Scalar.pi < c.sweep)) := by
  rw [le_iff, real_sweepTolerance] at h
  refine (suits_iff c).mpr ⟨h, ?_⟩
  by_cases hlarge : Scalar.pi < c.sweep
  · rw [if_pos (decide_eq_true hlarge)]
    rw [lt_iff, real_pi] at hlarge
    rcases le_or_gt (real c.sweep) (Real.pi + 1e-5) with hnear | hfar
    · exact .inl (abs_le.mpr ⟨by linarith, by linarith⟩)
    · exact .inr hfar
  · rw [if_neg (by simpa using hlarge)]
    rw [lt_iff, real_pi] at hlarge
    exact .inr (by linarith)

/-- The second of two candidates is chosen only for its size, where the first has another, or where
the first does not turn. -/
theorem of_choose?_pair (h : choose? large [left, right] = some c) :
    c = left ∨ c = right ∧ ¬left.Suits large ∧ (right.Suits large ∨ ¬left.Turns) := by
  by_cases hleft : left.Suits large
  · have hfirst : choose? large [left, right] = some left :=
      choose?_of_suits ⟨[], [right], rfl, hleft, by simp⟩
    exact .inl (Option.some.inj (h.symm.trans hfirst))
  by_cases hturns : left.Turns
  · by_cases hright : right.Suits large
    · have hsecond : choose? large [left, right] = some right :=
        choose?_of_suits ⟨[left], [], rfl, hright, by simpa using hleft⟩
      exact .inr ⟨Option.some.inj (h.symm.trans hsecond), hleft, .inl hright⟩
    · have hfirst : choose? large [left, right] = some left :=
        choose?_of_turns (by simpa using ⟨hleft, hright⟩) ⟨[], [right], rfl, hturns, by simp⟩
      exact .inl (Option.some.inj (h.symm.trans hfirst))
  · rcases List.mem_pair.mp (of_choose? h).1 with rfl | rfl
    · exact .inl rfl
    · exact .inr ⟨rfl, hleft, .inr hturns⟩

/-- A candidate that has a size asked for is a half turn up to the tolerance, or has that size by a
bare comparison too. -/
theorem near_or_large_eq_of_suits (h : c.Suits large) :
    |real c.sweep - Real.pi| ≤ 1e-5 ∨ large = decide (Scalar.pi < c.sweep) := by
  obtain ⟨-, hnear | hsize⟩ := (suits_iff c).mp h
  · exact .inl hnear
  have hpi : Scalar.pi < c.sweep ↔ Real.pi < real c.sweep := by rw [lt_iff, real_pi]
  cases large
  · rw [if_neg Bool.false_ne_true] at hsize
    rcases le_or_gt (real c.sweep) Real.pi with hle | hgt
    · exact .inr (decide_eq_false (hpi.not.mpr (not_lt.mpr hle))).symm
    · exact .inl (abs_le.mpr ⟨by linarith, by linarith⟩)
  · rw [if_pos rfl] at hsize
    exact .inr (decide_eq_true (hpi.mpr (by linarith))).symm

/-- What was chosen of two arcs that make up a turn is chosen again by its own size, whatever size
it was chosen for. -/
theorem choose?_again (hsum : left.sweep + right.sweep = fullTurn)
    (h : choose? large [left, right] = some c) :
    choose? (decide (Scalar.pi < c.sweep)) [left, right] = some c := by
  have hown := suits_own (of_choose? h).2
  rcases of_choose?_pair h with rfl | ⟨rfl, hleft, hright⟩
  · exact choose?_of_suits ⟨[], [right], rfl, hown, by simp⟩
  refine choose?_of_suits ⟨[left], [], rfl, hown, ?_⟩
  simp only [List.mem_singleton, forall_eq]
  intro hagain
  have hturn : real left.sweep + real c.sweep = 2 * Real.pi := by
    rw [← real_add, hsum, real_fullTurn]
  obtain ⟨hleast, hsize⟩ := (suits_iff left).mp hagain
  rcases hright with hright | hstill
  · -- the first would have been chosen before if both are half turns up to the tolerance
    rcases near_or_large_eq_of_suits hright with hnear | hlarge
    · have hmirror : real left.sweep - Real.pi = -(real c.sweep - Real.pi) := by linarith
      refine hleft ((suits_iff left).mpr ⟨hleast, .inl ?_⟩)
      rwa [hmirror, abs_neg]
    · exact hleft (hlarge ▸ hagain)
  · -- if the first does not turn then the second is nearly a full turn, and the first is not large
    have hpi : 3 < Real.pi := Real.pi_gt_three
    rw [Turns, lt_iff, real_sweepTolerance, not_lt] at hstill
    have hlarge : Scalar.pi < c.sweep := by
      rw [lt_iff, real_pi]
      linarith
    rw [if_pos (decide_eq_true hlarge)] at hsize
    rcases hsize with hnear | hfar
    · linarith [(abs_le.mp hnear).1]
    · linarith

end ArcCandidate

/-! ## Drawing -/

/-- To ask for a radius again is to ask for no more. -/
theorem ArcRequest.reach_reach (r : ArcRequest α) (clockwise large : Bool) (flag : Option String) :
    reach ⟨r.reach, clockwise, large, flag⟩ = r.reach := by
  have hleast : (1e-6 : ℝ) ≤ real r.reach := by
    rw [reach, real_greatest, arcTolerance, real_ofScientific]
    exact le_max_right _ _
  refine real_injective ?_
  rw [reach, real_greatest, real_abs, arcTolerance, real_ofScientific, abs_of_nonneg (by linarith),
    max_eq_left hleast]

section Angles

variable (hatan2 : ∀ y x : α, -Scalar.pi ≤ Scalar.atan2 y x ∧ Scalar.atan2 y x ≤ Scalar.pi)
include hatan2

/-- A solved arc is drawn as it was solved. In a drawing the angle from its first direction to its
second, against the clock, is its sweep, and so is the angle between the degrees that are given for
them. In a picture the words of the step of the pen tell whether the arc is more than half a turn and
whether it runs counter-clockwise, and the step tells the same arc again, provided that the two arcs
that it can mean make up a turn. -/
theorem Arc.drawn_of_solve? {start stop : Point α} {r : ArcRequest α} {a : Arc α}
    (h : Arc.solve? start stop r = some a) :
    (Shape.ofSegment (.arc a) =
        .arc a.center a.radius (degrees a.turn.1) (degrees a.turn.2) ∧
      unsignedSweep a.turn.1 a.turn.2 false = a.sweep ∧
      (Shape.ofSegment (.arc a)).sweep? = some a.sweep) ∧
    PenStep.flags? (PenStep.ofSegment (.arc a)).words =
      some (decide (Scalar.pi < a.sweep), !a.clockwise) ∧
    (a.MakesTurn →
      ∃ b, (PenStep.ofSegment (.arc a)).arc? a.start = some b ∧ b.Coincides a) := by
  obtain ⟨centers, c, hcenters, hc, rfl⟩ := solve?_eq_some_iff.mp h
  obtain ⟨hmem, hleast⟩ := ArcCandidate.of_choose? hc
  have hsweeps := ArcRequest.sweeps_draw hatan2 hmem hleast
  have hsize : unsignedSweep (r.draw start stop c).turn.1 (r.draw start stop c).turn.2 false =
      (r.draw start stop c).sweep := by
    rw [unsignedSweep_turn, hsweeps.size, ArcRequest.sweep_of_mem hmem]
    rfl
  refine ⟨⟨rfl, hsize, by rw [Shape.sweep?_ofSegment, hsize]⟩, PenStep.flags?_words .., ?_⟩
  intro hturn
  let again : ArcRequest α := ⟨r.reach, r.clockwise, decide (Scalar.pi < c.sweep), none⟩
  have hstep : (PenStep.ofSegment (.arc (r.draw start stop c))).arc? start =
      Arc.solve? start stop again := by
    change Arc.solve? start stop ⟨_, !!r.clockwise, _, none⟩ = _
    rw [Bool.not_not, hsweeps.size]
    rfl
  have hreach : candidateCenters start stop again.reach = some centers := by
    rw [ArcRequest.reach_reach, hcenters]
  have hagain := ArcCandidate.choose?_again (hturn centers.1 centers.2 hcenters) hc
  refine ⟨again.draw start stop c, ?_, rfl, rfl, rfl, ArcRequest.reach_reach .., rfl, rfl, rfl, rfl⟩
  exact hstep.trans (solve?_eq_some_iff.mpr ⟨centers, c, hreach, hagain, rfl⟩)

end Angles

/-- The larger arc over a quarter of the unit circle is drawn as it was solved. -/
theorem RealNumber.quarter_drawn_of_solve? :
    let a := (unitRequest true).draw quarterStart quarterStop largerArc
    Arc.solve? quarterStart quarterStop (unitRequest true) = some a ∧ a.MakesTurn ∧
      (Shape.ofSegment (.arc a)).sweep? = some a.sweep ∧
      PenStep.flags? (PenStep.ofSegment (.arc a)).words = some (true, true) ∧
      ∃ b, (PenStep.ofSegment (.arc a)).arc? quarterStart = some b ∧ b.Coincides a := by
  have hcenters := candidateCenters_unitRequest true
  have hsolved := (ArcRequest.selects atan2_mem hcenters).suited largerArc comesFirst_largerArc
  have hturn : ((unitRequest true).draw quarterStart quarterStop largerArc).MakesTurn := by
    intro left right h
    obtain ⟨rfl, rfl⟩ := Prod.mk.inj (Option.some.inj (hcenters.symm.trans h))
    change (ArcCandidate.ofCenter quarterStart quarterStop _ false).sweep +
      (ArcCandidate.ofCenter quarterStart quarterStop _ false).sweep = _
    rw [ofCenter_quarter_origin, ofCenter_quarter_corner]
    refine real_injective ?_
    rw [real_fullTurn]
    change Real.pi / 2 + 3 * Real.pi / 2 = 2 * Real.pi
    ring
  have hlarge : (Scalar.pi : RealNumber) <
      ((unitRequest true).draw quarterStart quarterStop largerArc).sweep := by
    rw [sweep_draw_largerArc]
    change Real.pi < 3 * Real.pi / 2
    linarith [Real.pi_pos]
  obtain ⟨⟨-, -, hdrawing⟩, hflags, hpicture⟩ := Arc.drawn_of_solve? atan2_mem hsolved
  rw [decide_eq_true hlarge] at hflags
  exact ⟨hsolved, hturn, hdrawing, hflags, hpicture hturn⟩

end WallPanel
