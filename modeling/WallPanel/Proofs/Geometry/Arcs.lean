import Mathlib.Analysis.Real.Pi.Bounds
import WallPanel.Proofs.Geometry.Centers

/-!
# Which arc is drawn

Two circles of a radius pass through the ends of an arc, and of the two arcs that turn in the sense
asked for the first of the size asked for is drawn, or failing that the first that turns at all
(`ArcRequest.selects`). The sweep by which an arc is chosen and the sweep that it is drawn with are
found by different loops. In exact arithmetic, with the angles of vectors not beyond a half turn,
they are the same up to the sign, which tells the sense of rotation (`ArcRequest.sweeps_draw`).

* `ArcCandidate.Suits`, `ArcCandidate.Turns`: the size asked for, and no size at all.
* `Arc.solve?_eq`: an arc is solved by choosing between its two centres.
-/

namespace WallPanel

open Scalar.Exact

variable {α : Type} [Scalar α]

/-! ## The first of a list -/

section First

variable {β : Type} {p : β → Prop} {q : β → Bool} {l : List β} {b : β}

/-- The first of a list with a property. -/
def ComesFirst (p : β → Prop) (l : List β) (b : β) : Prop :=
  ∃ before after, l = before ++ b :: after ∧ p b ∧ ∀ x ∈ before, ¬p x

theorem find?_eq_some_iff_comesFirst (h : ∀ b, q b = true ↔ p b) :
    l.find? q = some b ↔ ComesFirst p l b := by
  simp only [List.find?_eq_some_iff_append, ComesFirst, ← h, Bool.not_eq_true,
    Bool.not_eq_eq_eq_not, Bool.not_true]
  exact ⟨fun ⟨hb, before, after, hl, hn⟩ => ⟨before, after, hl, hb, hn⟩,
    fun ⟨before, after, hl, hb, hn⟩ => ⟨hb, before, after, hl, hn⟩⟩

end First

/-! ## Candidates -/

namespace ArcCandidate

variable {c : ArcCandidate α} {cs : List (ArcCandidate α)} {large : Bool}

/-- A candidate has the size asked for: its sweep is not too small, and it is a half turn up to the
tolerance or lies on the side of it that was asked for. -/
def Suits (large : Bool) (c : ArcCandidate α) : Prop :=
  sweepTolerance ≤ c.sweep ∧
    (Scalar.abs (c.sweep - Scalar.pi) ≤ sweepTolerance ∨
      if large then Scalar.pi + sweepTolerance < c.sweep
      else c.sweep ≤ Scalar.pi + sweepTolerance)

/-- A candidate is an arc of some size. -/
def Turns (c : ArcCandidate α) : Prop := sweepTolerance < c.sweep

variable [Scalar.Exact α]

theorem fits_iff (c : ArcCandidate α) : c.fits large = true ↔ c.Suits large := by
  have hlt {x y : α} : ¬x < y ↔ y ≤ x := by rw [lt_iff, le_iff, not_lt]
  cases large <;> simp [fits, Suits, hlt, or_comm]

theorem isArc_iff (c : ArcCandidate α) : c.isArc = true ↔ c.Turns := by
  simp [isArc, Turns]

theorem choose?_of_suits (h : ComesFirst (Suits large) cs c) : choose? large cs = some c := by
  rw [choose?, (find?_eq_some_iff_comesFirst fits_iff).mpr h]
  rfl

theorem find?_fits_eq_none (h : ∀ c ∈ cs, ¬c.Suits large) : cs.find? (·.fits large) = none :=
  List.find?_eq_none.mpr fun c hc hf => h c hc ((fits_iff c).mp hf)

theorem choose?_of_turns (hnone : ∀ c ∈ cs, ¬c.Suits large) (h : ComesFirst Turns cs c) :
    choose? large cs = some c := by
  rw [choose?, find?_fits_eq_none hnone, (find?_eq_some_iff_comesFirst isArc_iff).mpr h]
  rfl

theorem choose?_eq_none (hnone : ∀ c ∈ cs, ¬c.Suits large) (hstill : ∀ c ∈ cs, ¬c.Turns) :
    choose? large cs = none := by
  have hfind : cs.find? (·.isArc) = none :=
    List.find?_eq_none.mpr fun c hc ha => hstill c hc ((isArc_iff c).mp ha)
  rw [choose?, find?_fits_eq_none hnone, hfind]
  rfl

/-- What is chosen is one of the candidates, and its sweep is not too small. -/
theorem of_choose? (h : choose? large cs = some c) : c ∈ cs ∧ sweepTolerance ≤ c.sweep := by
  rw [choose?, Option.orElse_eq_some] at h
  rcases h with h | ⟨-, h⟩
  · exact ⟨List.mem_of_find?_eq_some h, ((fits_iff c).mp (List.find?_some h)).1⟩
  · have hturns : sweepTolerance < c.sweep := (isArc_iff c).mp (List.find?_some h)
    exact ⟨List.mem_of_find?_eq_some h, le_iff.mpr (lt_iff.mp hturns).le⟩

end ArcCandidate

/-! ## Requests -/

namespace ArcRequest

/-- The radius with which a request is met: its magnitude, and not less than the tolerance. -/
def reach (r : ArcRequest α) : α := Scalar.greatest (Scalar.abs r.radius) arcTolerance

/-- No circle can meet a request: the chord vanishes, or the radius does not reach across half of
it. -/
def FallsShort (r : ArcRequest α) (start stop : Point α) : Prop :=
  let chord := Scalar.hypot (stop.x - start.x) (stop.y - start.y)
  chord < arcTolerance ∨ r.reach < chord / 2.0 - arcTolerance

/-- The two arcs that a request leaves to choose from, as their centres are given. -/
def candidates (r : ArcRequest α) (start stop : Point α) (centers : Point α × Point α) :
    List (ArcCandidate α) :=
  [.ofCenter start stop centers.1 r.clockwise, .ofCenter start stop centers.2 r.clockwise]

/-- The arc of a candidate. -/
def draw (r : ArcRequest α) (start stop : Point α) (c : ArcCandidate α) : Arc α where
  start := start
  stop := stop
  center := c.center
  radius := r.reach
  startAngle := c.startAngle
  stopAngle := c.stopAngle
  signedSweep := signedSweep c.startAngle c.stopAngle r.clockwise
  clockwise := r.clockwise
  large := r.large
  flag := r.flag

end ArcRequest

variable {start stop : Point α} {r : ArcRequest α} {c : ArcCandidate α} {a : Arc α}

/-- The sweep of a candidate is the one between its angles. -/
theorem ArcRequest.sweep_of_mem {centers : Point α × Point α}
    (hc : c ∈ r.candidates start stop centers) :
    c.sweep = unsignedSweep c.startAngle c.stopAngle r.clockwise := by
  rcases List.mem_pair.mp hc with rfl | rfl
  · rfl
  · rfl

theorem candidateCenters_eq_none_iff :
    candidateCenters start stop r.reach = none ↔ r.FallsShort start stop := by
  unfold candidateCenters ArcRequest.FallsShort
  dsimp only
  split
  · next h => simp [h]
  · next h => split <;> simp_all

variable [Scalar.Exact α]

/-- An arc is solved by choosing between its two centres. -/
theorem Arc.solve?_eq (start stop : Point α) (r : ArcRequest α) :
    solve? start stop r = (candidateCenters start stop r.reach).bind fun centers =>
      (ArcCandidate.choose? r.large (r.candidates start stop centers)).map (r.draw start stop) := by
  unfold solve?
  rw [if_pos (isFinite _)]
  change (candidateCenters start stop r.reach).bind _ = _
  congr 1
  funext centers
  rw [Option.map_eq_bind]
  rfl

/-! ## What is drawn -/

/-- The sweep of an arc, told from the sweep by which it was chosen: the arc turns in the sense
asked for by that sweep, which is not too small and at most a full turn. -/
structure Arc.Sweeps (a : Arc α) (sweep : α) : Prop where
  sense : a.signedSweep < 0.0 ↔ a.clockwise = true
  size : a.sweep = sweep
  least : sweepTolerance ≤ a.sweep
  most : a.sweep ≤ 2.0 * Scalar.pi

/-- What a request draws of the two arcs that it can choose from. -/
structure ArcRequest.Selects (r : ArcRequest α) (start stop : Point α)
    (cs : List (ArcCandidate α)) : Prop where
  /-- The first of the size asked for is drawn. -/
  suited : ∀ c, ComesFirst (ArcCandidate.Suits r.large) cs c →
    Arc.solve? start stop r = some (r.draw start stop c)
  /-- If there is none, the first that turns at all is. -/
  lenient : (∀ c ∈ cs, ¬c.Suits r.large) → ∀ c, ComesFirst ArcCandidate.Turns cs c →
    Arc.solve? start stop r = some (r.draw start stop c)
  /-- If there is none either, nothing is. -/
  still : (∀ c ∈ cs, ¬c.Suits r.large) → (∀ c ∈ cs, ¬c.Turns) → Arc.solve? start stop r = none
  /-- What is drawn has the sweep by which it was chosen. -/
  drawn : ∀ a, Arc.solve? start stop r = some a →
    ∃ c ∈ cs, a = r.draw start stop c ∧ a.Sweeps c.sweep

theorem real_sweepTolerance : real (sweepTolerance : α) = 1e-5 :=
  real_ofScientific _ _ _

theorem solve?_eq_some_iff : Arc.solve? start stop r = some a ↔
    ∃ centers c, candidateCenters start stop r.reach = some centers ∧
      ArcCandidate.choose? r.large (r.candidates start stop centers) = some c ∧
      r.draw start stop c = a := by
  rw [Arc.solve?_eq]
  simp only [Option.bind_eq_some_iff, Option.map_eq_some_iff]
  constructor
  · rintro ⟨centers, hcenters, c, hc, ha⟩
    exact ⟨centers, c, hcenters, hc, ha⟩
  · rintro ⟨centers, c, hcenters, hc, ha⟩
    exact ⟨centers, hcenters, c, hc, ha⟩

section Angles

variable (hatan2 : ∀ y x : α, -Scalar.pi ≤ Scalar.atan2 y x ∧ Scalar.atan2 y x ≤ Scalar.pi)
include hatan2

/-- A candidate that turns enough is drawn with the sweep that it was chosen by. -/
theorem ArcRequest.sweeps_draw {centers : Point α × Point α}
    (hc : c ∈ r.candidates start stop centers) (hleast : sweepTolerance ≤ c.sweep) :
    (r.draw start stop c).Sweeps c.sweep := by
  have hsweep := sweep_of_mem hc
  have hmost : real c.sweep ≤ 2 * Real.pi := by
    rcases List.mem_pair.mp hc with rfl | rfl
    · exact (unsignedSweep_mem (hatan2 _ _) (hatan2 _ _)).2
    · exact (unsignedSweep_mem (hatan2 _ _) (hatan2 _ _)).2
  have hpos : 0 < real c.sweep := by
    rw [le_iff, real_sweepTolerance] at hleast
    linarith
  have hsigned : (r.draw start stop c).signedSweep =
      if r.clockwise then -c.sweep else c.sweep := by
    rw [hsweep] at hpos ⊢
    exact signedSweep_of_pos (zero_lt_iff.mpr hpos)
  have hsize : (r.draw start stop c).sweep = c.sweep := by
    refine real_injective ?_
    rw [Arc.sweep, hsigned, real_abs]
    split
    · rw [real_neg, abs_neg, abs_of_pos hpos]
    · rw [abs_of_pos hpos]
  refine ⟨?_, hsize, hsize ▸ hleast, ?_⟩
  · have hclockwise : (r.draw start stop c).clockwise = r.clockwise := rfl
    rw [hsigned, lt_iff, real_zero, hclockwise]
    cases r.clockwise
    · simpa using hpos.le
    · simpa using hpos
  · rwa [hsize, le_iff, real_mul, real_pi, real_two]

/-- An arc is drawn as its request says, where either centre allows it. -/
theorem ArcRequest.selects {centers : Point α × Point α}
    (hcenters : candidateCenters start stop r.reach = some centers) :
    r.Selects start stop (r.candidates start stop centers) where
  suited c hc := solve?_eq_some_iff.mpr
    ⟨centers, c, hcenters, ArcCandidate.choose?_of_suits hc, rfl⟩
  lenient hnone c hc := solve?_eq_some_iff.mpr
    ⟨centers, c, hcenters, ArcCandidate.choose?_of_turns hnone hc, rfl⟩
  still hnone hstill := by
    rw [Arc.solve?_eq, hcenters, Option.bind_some, ArcCandidate.choose?_eq_none hnone hstill]
    rfl
  drawn a ha := by
    obtain ⟨centers', c, hcenters', hc, rfl⟩ := solve?_eq_some_iff.mp ha
    obtain rfl : centers' = centers := Option.some.inj (hcenters'.symm.trans hcenters)
    obtain ⟨hmem, hleast⟩ := ArcCandidate.of_choose? hc
    exact ⟨c, hmem, rfl, sweeps_draw hatan2 hmem hleast⟩

end Angles

/-! ### A quarter of a circle -/

namespace RealNumber

/-- An arc of radius one against the clock. -/
def unitRequest (large : Bool) : ArcRequest RealNumber := ⟨⟨1⟩, false, large, none⟩

theorem reach_unitRequest (large : Bool) : (unitRequest large).reach = ⟨1⟩ := by
  refine real_injective ?_
  rw [ArcRequest.reach, real_greatest, real_abs, arcTolerance, real_ofScientific]
  change max |(1 : ℝ)| 1e-6 = 1
  norm_num

theorem candidateCenters_unitRequest (large : Bool) :
    candidateCenters quarterStart quarterStop (unitRequest large).reach =
      some (⟨⟨0⟩, ⟨0⟩⟩, ⟨⟨1⟩, ⟨1⟩⟩) := by
  rw [reach_unitRequest, candidateCenters_quarter]

/-- The larger of the two arcs over a quarter of the unit circle. -/
noncomputable def largerArc : ArcCandidate RealNumber :=
  ⟨⟨⟨1⟩, ⟨1⟩⟩, ⟨-(Real.pi / 2)⟩, ⟨Real.pi⟩, ⟨3 * Real.pi / 2⟩⟩

theorem candidates_quarter (large : Bool) :
    (unitRequest large).candidates quarterStart quarterStop (⟨⟨0⟩, ⟨0⟩⟩, ⟨⟨1⟩, ⟨1⟩⟩) =
      [⟨⟨⟨0⟩, ⟨0⟩⟩, ⟨0⟩, ⟨Real.pi / 2⟩, ⟨Real.pi / 2⟩⟩, largerArc] := by
  rw [largerArc, ← ofCenter_quarter_origin, ← ofCenter_quarter_corner]
  rfl

/-- The larger arc is the first large one, though it comes second. -/
theorem comesFirst_largerArc :
    ComesFirst (ArcCandidate.Suits true)
      ((unitRequest true).candidates quarterStart quarterStop (⟨⟨0⟩, ⟨0⟩⟩, ⟨⟨1⟩, ⟨1⟩⟩))
      largerArc := by
  have hpi : 3 < Real.pi := Real.pi_gt_three
  have hcorner : largerArc.Suits true := by
    refine ⟨?_, .inr ?_⟩
    · change (1e-5 : ℝ) ≤ 3 * Real.pi / 2
      linarith
    · change Real.pi + 1e-5 < 3 * Real.pi / 2
      linarith
  have horigin : ¬(⟨⟨⟨0⟩, ⟨0⟩⟩, ⟨0⟩, ⟨Real.pi / 2⟩, ⟨Real.pi / 2⟩⟩ : ArcCandidate RealNumber).Suits
      true := by
    rintro ⟨-, hhalf | hlarge⟩
    · change |Real.pi / 2 - Real.pi| ≤ 1e-5 at hhalf
      linarith [neg_abs_le (Real.pi / 2 - Real.pi)]
    · change Real.pi + 1e-5 < Real.pi / 2 at hlarge
      linarith
  rw [candidates_quarter]
  exact ⟨[_], [], rfl, hcorner, fun c hc => List.mem_singleton.mp hc ▸ horigin⟩

theorem sweep_draw_largerArc :
    ((unitRequest true).draw quarterStart quarterStop largerArc).sweep = ⟨3 * Real.pi / 2⟩ := by
  obtain ⟨_, _, hsplit, hsuits, -⟩ := comesFirst_largerArc
  have hmem : largerArc ∈ (unitRequest true).candidates quarterStart quarterStop
      (⟨⟨0⟩, ⟨0⟩⟩, ⟨⟨1⟩, ⟨1⟩⟩) := by
    simp [hsplit]
  exact (ArcRequest.sweeps_draw atan2_mem hmem hsuits.1).size

end RealNumber

section Angles

variable (hatan2 : ∀ y x : α, -Scalar.pi ≤ Scalar.atan2 y x ∧ Scalar.atan2 y x ≤ Scalar.pi)
include hatan2

/-- Of the two arcs that meet a request, the first of the size asked for is drawn, or failing that
the first that turns at all. Nothing is drawn if the chord vanishes or if the radius does not reach
across half of it, or if neither arc turns. The arc that is drawn runs in the sense asked for, and
its sweep is the one by which it was chosen, which is at most a full turn. -/
theorem ArcRequest.solve?_selects (start stop : Point α) (r : ArcRequest α) :
    (r.FallsShort start stop → Arc.solve? start stop r = none) ∧
      (¬r.FallsShort start stop → ∃ centers, candidateCenters start stop r.reach = some centers ∧
        r.Selects start stop (r.candidates start stop centers)) := by
  constructor
  · intro hshort
    rw [Arc.solve?_eq, candidateCenters_eq_none_iff.mpr hshort]
    rfl
  · intro hreach
    obtain ⟨centers, hcenters⟩ :=
      Option.ne_none_iff_exists'.mp (mt candidateCenters_eq_none_iff.mp hreach)
    exact ⟨centers, hcenters, selects hatan2 hcenters⟩

end Angles

/-- Asked for the larger arc over a quarter of the unit circle, the second centre is taken. -/
theorem RealNumber.solve?_quarter_selects :
    ¬(unitRequest true).FallsShort quarterStart quarterStop ∧
      Arc.solve? quarterStart quarterStop (unitRequest true) =
        some ((unitRequest true).draw quarterStart quarterStop largerArc) := by
  have hquarter := candidateCenters_unitRequest true
  have hreach : ¬(unitRequest true).FallsShort quarterStart quarterStop := by
    rw [← candidateCenters_eq_none_iff, hquarter]
    exact Option.some_ne_none _
  obtain ⟨centers, hcenters, hselects⟩ :=
    (ArcRequest.solve?_selects atan2_mem quarterStart quarterStop (unitRequest true)).2 hreach
  obtain rfl := Option.some.inj (hquarter.symm.trans hcenters)
  exact ⟨hreach, hselects.suited largerArc comesFirst_largerArc⟩

end WallPanel
