import WallPanel.Geometry.Path
import WallPanel.Proofs.Number.Rigid

/-!
# Paths that are moved

A path that is drawn from moved commands is the path moved (`trace_map_moved`). Every decision on the
way to it, from the choice among the centres of an arc to the count of its samples, is made on
differences of coordinates, and these do not change: so an arc that is solved again between moved
ends is the same arc elsewhere (`Arc.solve?_moved`), whatever lengths, roots and angles are taken to
be. The same holds of the vertices of a run (`dedupe_map_moved`, `closePath_map_moved`).
-/

namespace WallPanel

variable {α : Type} [Scalar α]

/-! ## Moving -/

/-- A point moved by a vector. -/
def Point.moved (p v : Point α) : Point α :=
  ⟨p.x + v.x, p.y + v.y⟩

/-- An arc moved. Its radius, its angles and what it was asked for stay. -/
def Arc.moved (a : Arc α) (v : Point α) : Arc α :=
  { a with start := a.start.moved v, stop := a.stop.moved v, center := a.center.moved v }

/-- A piece of a path moved. -/
def Segment.moved (segment : Segment α) (v : Point α) : Segment α :=
  match segment with
  | line start stop fallback => line (start.moved v) (stop.moved v) fallback
  | arc a => arc (a.moved v)

/-- A drawn path moved. -/
def Trace.moved (t : Trace α) (v : Point α) : Trace α :=
  ⟨t.samples.map (·.moved v), t.segments.map (·.moved v)⟩

/-- A command to the moved point, which asks for the same arc. -/
def PathCommand.moved (c : PathCommand α) (v : Point α) : PathCommand α :=
  { c with point := c.point.moved v }

/-- The centre of an arc moved, with the same angles seen from there. -/
def ArcCandidate.moved (c : ArcCandidate α) (v : Point α) : ArcCandidate α :=
  { c with center := c.center.moved v }

variable [Scalar.Rigid α] (v : Point α)

/-! ## Points -/

namespace Point

@[simp] theorem isFinite_moved (p : Point α) : (p.moved v).isFinite = p.isFinite := by
  simp [isFinite, moved]

@[simp] theorem near_moved (p q : Point α) : (p.moved v).near (q.moved v) = p.near q := by
  simp [near, moved]

end Point

theorem dedupeAfter_map_moved (last : Option (Point α)) (ps : List (Point α)) :
    dedupeAfter (last.map (·.moved v)) (ps.map (·.moved v)) =
      (dedupeAfter last ps).map (·.moved v) := by
  induction ps generalizing last with
  | nil => rfl
  | cons p ps ih =>
    have hnear : (last.map (·.moved v)).any (·.near (p.moved v)) = last.any (·.near p) := by
      cases last <;> simp
    rw [List.map_cons, dedupeAfter, dedupeAfter, Point.isFinite_moved, hnear]
    split
    · rw [List.map_cons, ← ih (some p), Option.map_some]
    · exact ih last

theorem dedupe_map_moved (ps : List (Point α)) :
    dedupe (ps.map (·.moved v)) = (dedupe ps).map (·.moved v) :=
  dedupeAfter_map_moved v none ps

theorem isClosedLoop_map_moved (ps : List (Point α)) :
    isClosedLoop (ps.map (·.moved v)) = isClosedLoop ps := by
  match ps with
  | [] => rfl
  | [p] => rfl
  | p :: q :: rest =>
    have hlast : ((p :: q :: rest).map (·.moved v)).getLast? =
        (p :: q :: rest).getLast?.map (·.moved v) := List.getLast?_map
    simp only [isClosedLoop, List.map_cons] at hlast ⊢
    rw [hlast]
    cases (p :: q :: rest).getLast? <;> simp

theorem closePath_map_moved (ps : List (Point α)) : closePath (ps.map (·.moved v)) =
    ((closePath ps).1.map (·.moved v), (closePath ps).2) := by
  rw [closePath, closePath, isClosedLoop_map_moved]
  split
  · rw [List.map_dropLast]
  · rw [List.length_map]

/-! ## Arcs -/

/-- The circles through moved points are the circles moved. -/
theorem candidateCenters_moved (start stop : Point α) (radius : α) :
    candidateCenters (start.moved v) (stop.moved v) radius =
      (candidateCenters start stop radius).map fun (l, r) => (l.moved v, r.moved v) := by
  simp only [candidateCenters, Point.moved, Scalar.Rigid.add_sub_add, Scalar.Rigid.middle_add]
  split
  · rfl
  · split
    · rfl
    · simp only [Option.map_some, Scalar.Rigid.add_right_comm _ v.x,
        Scalar.Rigid.add_right_comm _ v.y, Scalar.Rigid.add_sub_comm _ v.x,
        Scalar.Rigid.add_sub_comm _ v.y]

namespace ArcCandidate

/-- From a moved centre moved ends are seen at the same angles. -/
theorem ofCenter_moved (start stop center : Point α) (clockwise : Bool) :
    ofCenter (start.moved v) (stop.moved v) (center.moved v) clockwise =
      (ofCenter start stop center clockwise).moved v := by
  simp [ofCenter, moved, Point.moved]

omit [Scalar.Rigid α] in
theorem find?_map_moved {p : ArcCandidate α → Bool} (hp : ∀ c, p (c.moved v) = p c)
    (cs : List (ArcCandidate α)) :
    (cs.map (·.moved v)).find? p = (cs.find? p).map (·.moved v) := by
  have hcomp : (p ∘ fun c => c.moved v) = p := funext hp
  rw [List.find?_map, hcomp]

omit [Scalar.Rigid α] in
/-- What is chosen does not depend on where the centres are. -/
theorem choose?_map_moved (large : Bool) (cs : List (ArcCandidate α)) :
    choose? large (cs.map (·.moved v)) = (choose? large cs).map (·.moved v) := by
  simp only [choose?, find?_map_moved v (p := (·.fits large)) fun _ => rfl,
    find?_map_moved v (p := (·.isArc)) fun _ => rfl]
  cases cs.find? (·.fits large) <;> rfl

end ArcCandidate

namespace Arc

/-- Between moved ends a request is answered with the arc moved. -/
theorem solve?_moved (start stop : Point α) (request : ArcRequest α) :
    solve? (start.moved v) (stop.moved v) request =
      (solve? start stop request).map (·.moved v) := by
  unfold solve?
  split
  · simp only [candidateCenters_moved]
    generalize Scalar.greatest (Scalar.abs request.radius) arcTolerance = radius
    cases candidateCenters start stop radius with
    | none => rfl
    | some centers =>
      have hchosen := ArcCandidate.choose?_map_moved v request.large
        [.ofCenter start stop centers.1 request.clockwise,
          .ofCenter start stop centers.2 request.clockwise]
      simp only [List.map_cons, List.map_nil, ← ArcCandidate.ofCenter_moved] at hchosen
      simp only [Option.map_some, Option.bind_eq_bind, Option.bind_some, hchosen]
      cases ArcCandidate.choose? request.large
        [.ofCenter start stop centers.1 request.clockwise,
          .ofCenter start stop centers.2 request.clockwise] <;> rfl
  · rfl

theorem pointAt_moved (a : Arc α) (angle : α) :
    (a.moved v).pointAt angle = (a.pointAt angle).moved v := by
  simp only [pointAt, moved, Point.moved, Scalar.Rigid.add_right_comm _ v.x,
    Scalar.Rigid.add_right_comm _ v.y]

/-- The samples of a moved arc are those of the arc, moved. -/
theorem sample_moved (a : Arc α) : (a.moved v).sample = a.sample.map (·.moved v) := by
  have hinterior : (a.moved v).interior = a.interior.map (·.moved v) := by
    simp only [interior, List.map_map, Function.comp_def, ← pointAt_moved]
    rfl
  have hbare : (a.moved v).isBare = a.isBare := rfl
  unfold sample
  rw [hbare, hinterior]
  split
  · rfl
  · simp [moved]

end Arc

/-! ## Paths -/

namespace Trace

theorem arcFrom_moved (pen : Point α) (c : PathCommand α) :
    arcFrom (pen.moved v) (c.moved v) =
      ((arcFrom pen c).1.map (·.moved v), (arcFrom pen c).2.moved v) := by
  have hsolve : (c.moved v).request.bind (Arc.solve? (pen.moved v) (c.moved v).point) =
      (c.request.bind (Arc.solve? pen c.point)).map (·.moved v) := by
    simp only [PathCommand.moved]
    cases c.request with
    | none => rfl
    | some request => exact Arc.solve?_moved v pen c.point request
  rw [arcFrom, arcFrom, hsolve]
  cases c.request.bind (Arc.solve? pen c.point) with
  | none => rfl
  | some a => simp [Arc.sample_moved, Segment.moved]

/-- With the pen moved as well, moved commands draw the path moved. -/
theorem drawFrom_map_moved (pen : Option (Point α)) (cs : List (PathCommand α)) :
    drawFrom (pen.map (·.moved v)) (cs.map (·.moved v)) = (drawFrom pen cs).moved v := by
  induction cs generalizing pen with
  | nil => cases pen <;> rfl
  | cons c cs ih =>
    have hnext : drawFrom (some (c.moved v).point) (cs.map (·.moved v)) =
        (drawFrom (some c.point) cs).moved v := ih (some c.point)
    cases pen with
    | none =>
      simp only [Option.map_none, List.map_cons, drawFrom, hnext]
      rfl
    | some pen =>
      simp only [Option.map_some, List.map_cons, drawFrom, hnext]
      cases hmotion : c.motion with
      | move => simp [PathCommand.moved, hmotion, moved]
      | line => simp [PathCommand.moved, hmotion, moved, Segment.moved]
      | arc =>
        have harc := arcFrom_moved v pen c
        simp only [PathCommand.moved, hmotion, moved] at harc ⊢
        simp [harc]
      | other =>
        have hrest := ih (some pen)
        simpa [PathCommand.moved, hmotion] using hrest

end Trace

/-- Moved commands draw the path moved: its samples, the ends and the centres of its pieces, and
nothing else of these. -/
theorem trace_map_moved (cs : List (PathCommand α)) :
    trace (cs.map (·.moved v)) = (trace cs).moved v := by
  have hfilter : (cs.map (·.moved v)).filter (·.point.isFinite) =
      (cs.filter (·.point.isFinite)).map (·.moved v) := by
    rw [List.filter_map]
    congr 2
    funext c
    exact Point.isFinite_moved v c.point
  rw [trace, trace, hfilter]
  exact Trace.drawFrom_map_moved v none _

end WallPanel
