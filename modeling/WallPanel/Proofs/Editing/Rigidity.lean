import WallPanel.Proofs.Editing.Drift
import WallPanel.Proofs.Editing.Redrawing
import WallPanel.Proofs.Geometry.Motion

/-!
# Routings that are moved as they stand

A routing is moved by changing the numbers of its lines, and its paths are drawn again from these.
Where the arithmetic is exact that moves the routing as it stands (`Routing.Drawn.exists_translate?`):
each polygon and each circle is where it was, moved along the axis, and nothing else of it changes.
What has to hold of the routing is that its paths are those that their lines draw
(`PathCut.Drawn`), and so it is in every model that an editor holds (`WallModel.drawn_of_session`).
-/

namespace WallPanel

variable {α : Type} [Scalar α]

/-! ## Lines -/

/-- The vector of a distance along an axis. -/
def Axis.vector (axis : Axis) (d : α) : Point α :=
  match axis with
  | along => ⟨d, 0.0⟩
  | up => ⟨0.0, d⟩

section Lines

variable [Scalar.Rigid α] (axis : Axis) (d : α)

theorem Point.shift_eq_moved (p : Point α) : p.shift axis d = p.moved (axis.vector d) := by
  cases axis <;> simp [shift, moved, Axis.vector]

namespace SourceEntry

/-- A line whose coordinate is moved draws to the moved point. -/
theorem command?_shift (e : SourceEntry α) :
    (e.shift [axis.position] d).command? = e.command?.map (·.moved (axis.vector d)) := by
  have hshift : e.shift [axis.position] d =
      { e with numbers := shiftNumber e.numbers axis.position d } := rfl
  rw [hshift]
  rcases hn : e.numbers with _ | ⟨x, _ | ⟨y, rest⟩⟩
  · cases axis <;> simp [command?, hn, shiftNumber, Axis.position]
  · cases axis <;> simp [command?, hn, shiftNumber, Axis.position]
  · have hnumbers : shiftNumber (x :: y :: rest) axis.position d =
        ((⟨x, y⟩ : Point α).moved (axis.vector d)).x ::
          ((⟨x, y⟩ : Point α).moved (axis.vector d)).y :: rest := by
      cases axis <;> simp [shiftNumber, Axis.position, Point.moved, Axis.vector]
    simp only [command?, hn, hnumbers]
    split
    · cases rest.head? <;> rfl
    · split <;> rfl

theorem commands_map_shift (entries : List (SourceEntry α)) :
    commands (entries.map (·.shift [axis.position] d)) =
      (commands entries).map (·.moved (axis.vector d)) := by
  have hcommands : (entries.map (·.shift [axis.position] d)).filterMap command? =
      (entries.filterMap command?).map (·.moved (axis.vector d)) := by
    rw [List.filterMap_map, List.map_filterMap]
    exact List.filterMap_congr fun e _ => command?_shift axis d e
  rw [commands, commands, hcommands]
  cases entries.filterMap command? <;> rfl

end SourceEntry

end Lines

/-! ## Drawn routings -/

/-- Whether a path is the one that its lines draw. -/
structure PathCut.Drawn (p : PathCut α) : Prop where
  trace : WallPanel.trace (SourceEntry.commands p.source) = ⟨p.samples, p.segments⟩
  kept : dedupe p.samples ≠ []
  points : p.kind = .polygon → p.points = (closePath (dedupe p.samples)).1

/-- Whether a routing has cuts, and its paths are those that their lines draw. -/
structure Routing.Drawn (r : Routing α) : Prop where
  cut : r.segments ≠ []
  paths : ∀ p, .path p ∈ r.segments → p.Drawn

/-- What becomes of a cut that is moved along an axis: its place is moved, with the numbers of its
lines, and the rest stays. A path that is no loop has the points that are kept of its samples. -/
inductive RoutingSegment.ShiftsTo (axis : Axis) (d : α) : RoutingSegment α → RoutingSegment α → Prop
  | circle (c : CircleCut α) : ShiftsTo axis d (.circle c) (.circle { c with
      position := c.position.shift axis d
      source := shiftNumber c.source axis.position d })
  | polygon {p : PathCut α} (kind : p.kind = .polygon) : ShiftsTo axis d (.path p) (.path { p with
      points := p.points.map (·.shift axis d)
      samples := p.samples.map (·.shift axis d)
      segments := p.segments.map (·.moved (axis.vector d))
      source := p.source.map (·.shift [axis.position] d) })
  | polyline {p : PathCut α} (kind : p.kind = .polyline) : ShiftsTo axis d (.path p) (.path { p with
      points := (dedupe p.samples).map (·.shift axis d)
      samples := p.samples.map (·.shift axis d)
      segments := p.segments.map (·.moved (axis.vector d))
      source := p.source.map (·.shift [axis.position] d) })

/-- A path that is moved is drawn again from its moved lines. -/
theorem RoutingSegment.translate_path (axis : Axis) (d : α) (p : PathCut α) :
    translate axis d (.path p) =
      .path ({ p with source := p.source.map (·.shift [axis.position] d) } : PathCut α).redrawn.1 :=
  rfl

/-- What is drawn again is what the lines draw. -/
theorem PathCut.drawn_redrawn {p : PathCut α}
    (h : dedupe (WallPanel.trace (SourceEntry.commands p.source)).samples ≠ []) :
    p.redrawn.1.Drawn := by
  rw [redrawn_of_trace rfl h]
  refine ⟨rfl, h, fun hk => ?_⟩
  replace hk : p.kind = .polygon := hk
  simp only [hk]

section Paths

variable [Scalar.Rigid α] {p : PathCut α} (h : p.Drawn) (axis : Axis) (d : α)
include h

namespace PathCut.Drawn

/-- The moved lines of a path draw its samples and its pieces, moved. -/
theorem trace_shifted :
    WallPanel.trace (SourceEntry.commands (p.source.map (·.shift [axis.position] d))) =
      ⟨p.samples.map (·.shift axis d), p.segments.map (·.moved (axis.vector d))⟩ := by
  rw [SourceEntry.commands_map_shift, trace_map_moved, h.trace]
  simp only [Trace.moved, Point.shift_eq_moved]

omit h in
theorem dedupe_shifted : dedupe (p.samples.map (·.shift axis d)) =
    (dedupe p.samples).map (·.shift axis d) := by
  simp only [Point.shift_eq_moved, dedupe_map_moved]

theorem kept_shifted : dedupe (p.samples.map (·.shift axis d)) ≠ [] := by
  rw [dedupe_shifted]
  simpa using h.kept

/-- Drawn again from moved lines, a path is the path moved. -/
theorem shiftsTo :
    RoutingSegment.ShiftsTo axis d (.path p) (RoutingSegment.translate axis d (.path p)) := by
  have hclose : (closePath ((dedupe p.samples).map (·.shift axis d))).1 =
      (closePath (dedupe p.samples)).1.map (·.shift axis d) := by
    simp only [Point.shift_eq_moved, closePath_map_moved]
  rw [RoutingSegment.translate_path,
    redrawn_of_trace (h.trace_shifted axis d) (h.kept_shifted axis d), dedupe_shifted]
  cases hk : p.kind with
  | polygon =>
    have hshifts : RoutingSegment.ShiftsTo axis d (.path p) _ := .polygon hk
    simp only [hclose, ← h.points hk]
    rwa [hk] at hshifts
  | polyline =>
    have hshifts : RoutingSegment.ShiftsTo axis d (.path p) _ := .polyline hk
    rwa [hk] at hshifts

theorem drawn_of_translate {p' : PathCut α}
    (hp : RoutingSegment.translate axis d (.path p) = .path p') : p'.Drawn := by
  rw [RoutingSegment.translate_path] at hp
  obtain rfl := RoutingSegment.path.inj hp
  refine drawn_redrawn ?_
  rw [h.trace_shifted axis d]
  exact h.kept_shifted axis d

end PathCut.Drawn

end Paths

section Routings

variable [Scalar.Rigid α]

/-- A drawn routing is moved as it stands, and only its cuts change. -/
theorem Routing.Drawn.exists_translate? {r : Routing α} (h : r.Drawn) (axis : Axis) (d : α) :
    ∃ r', r.translate? axis d = some r' ∧ r' = { r with segments := r'.segments } ∧
      List.Forall₂ (RoutingSegment.ShiftsTo axis d) r.segments r'.segments := by
  have hne : r.segments.isEmpty = false := List.isEmpty_eq_false_iff.mpr h.cut
  refine ⟨{ r with segments := r.segments.map (RoutingSegment.translate axis d) },
    by simp [translate?, hne], rfl, ?_⟩
  rw [List.forall₂_map_right_iff, List.forall₂_same]
  intro segment hsegment
  cases segment with
  | circle c => exact .circle c
  | path p => exact (h.paths p hsegment).shiftsTo axis d

/-- A drawn routing that is moved is a drawn one. -/
theorem Routing.Drawn.translate? {r r' : Routing α} {axis : Axis} {d : α} (h : r.Drawn)
    (hr : r.translate? axis d = some r') : r'.Drawn := by
  have hne : r.segments.isEmpty = false := List.isEmpty_eq_false_iff.mpr h.cut
  simp only [Routing.translate?, hne, Bool.false_eq_true, ↓reduceIte, Option.some.injEq] at hr
  subst hr
  refine ⟨by simpa using h.cut, fun p' hp' => ?_⟩
  obtain ⟨segment, hsegment, he⟩ := List.mem_map.mp hp'
  cases segment with
  | circle c => cases he
  | path p => exact (h.paths p hsegment).drawn_of_translate axis d he

end Routings

/-! ## The routings of an editor -/

/-- The arc that a piece is, if it is one. -/
def Segment.arc? : Segment α → Option (Arc α)
  | arc a => some a
  | line .. => none

omit [Scalar α] in
theorem Segment.arc?_eq_some {segment : Segment α} {a : Arc α} :
    segment.arc? = some a ↔ segment = .arc a := by
  cases segment <;> simp [arc?]

namespace WallModel

variable {m : WallModel α} {text : String} {k : Int}

/-- The routings of a model that was read are drawn. -/
theorem drawn_of_parseModel (hm : parseModel text k = .ok m) {r : Routing α}
    (hr : r ∈ m.routings) : r.Drawn := by
  refine ⟨fun hnil => ?_, fun p hp => ?_⟩
  · refine lines_ne_nil hm (E := .routing r)
      (List.mem_append_right _ (List.mem_map_of_mem hr)) ?_
    simp [Entity.lines, hnil]
  · obtain ⟨run, hrecorded, hcut⟩ := exists_recorded_of_parseModel hm hr hp
    have hd := VertexRun.drawnBy_of_cut? hcut
    refine ⟨PathCut.trace_source hrecorded hcut, fun hnil => ?_, fun _ => ?_⟩
    · have hkeeps := hd.keeps
      rw [← hd.samples, hnil] at hkeeps
      cases hkeeps
    · rw [hd.samples, hd.points]

variable [Scalar.Rigid α]

/-- So are those of every model that an editor holds. -/
theorem drawn_of_session (hm : parseModel text k = .ok m) (qs : List (EditRequest α))
    {r : Routing α} (hr : r ∈ (m.withIds.session qs).routings) : r.Drawn := by
  obtain ⟨-, hids, -⟩ := says_of_parseModel hm
  rw [withIds_eq hids] at hr
  have hread : ∀ {text k} {m : WallModel α}, parseModel text k = .ok m →
      ∀ E ∈ m.entities, ∀ r, E = .routing r → r.Drawn := by
    rintro text k m hm E hE r rfl
    refine drawn_of_parseModel hm ?_
    simpa [entities] using hE
  have hmove : ∀ {E E' : Entity α} {axis d}, (∀ r, E = .routing r → r.Drawn) →
      E.translate? axis d = some E' → ∀ r, E' = .routing r → r.Drawn := by
    rintro E _ axis d hE ht r rfl
    cases E with
    | routing r' =>
      obtain ⟨r'', hr', he⟩ := Option.map_eq_some_iff.mp ht
      obtain rfl := Entity.routing.inj he
      exact (hE r' rfl).translate? hr'
    | nailRow r' => simp [Entity.translate?] at ht
    | drilling b => simp [Entity.translate?] at ht
  have hdrawn : ∀ E ∈ (m.session qs).entities, ∀ r, E = .routing r → r.Drawn :=
    session_induction (P := fun m => ∀ E ∈ m.entities, ∀ r, E = .routing r → r.Drawn)
      (fun _ _ hm hs => hs.forall_entities hread hmove hm) (hread hm) qs
  exact hdrawn (.routing r) (List.mem_append_right _ (List.mem_map_of_mem hr)) r rfl

/-- What is drawn can be moved as it stands. A path that is drawn from moved commands is the path
moved; vertices are kept, and loops closed, as they would be elsewhere. So a routing that is moved
along an axis has its circles and its polygons moved by the distance, and nothing else of their shape
changes, as long as its paths are those that its lines draw; and these are they in every model that
an editor holds. -/
theorem rigid_of_session :
    (∀ (cs : List (PathCommand α)) (v : Point α),
      trace (cs.map (·.moved v)) = (trace cs).moved v) ∧
    (∀ (ps : List (Point α)) (v : Point α),
      dedupe (ps.map (·.moved v)) = (dedupe ps).map (·.moved v) ∧
      isClosedLoop (ps.map (·.moved v)) = isClosedLoop ps ∧
      closePath (ps.map (·.moved v)) = ((closePath ps).1.map (·.moved v), (closePath ps).2)) ∧
    (∀ r : Routing α, r.Drawn → ∀ axis d, ∃ r', r.translate? axis d = some r' ∧
      r' = { r with segments := r'.segments } ∧
      List.Forall₂ (RoutingSegment.ShiftsTo axis d) r.segments r'.segments) ∧
    ∀ {text k} {m : WallModel α}, parseModel text k = .ok m → ∀ qs,
      ∀ r ∈ (m.withIds.session qs).routings, r.Drawn :=
  ⟨fun cs v => trace_map_moved v cs,
    fun ps v => ⟨dedupe_map_moved v ps, isClosedLoop_map_moved v ps, closePath_map_moved v ps⟩,
    fun _ hr axis d => hr.exists_translate? axis d, fun hm qs _ hr => drawn_of_session hm qs hr⟩

set_option maxRecDepth 100000 in
/-- A loop with an arc in it, and a circle, moved along the wall and then up. -/
theorem rigid_of_session_of_arc :
    ∃ (text : String) (m : WallModel Fraction) (qs : List (EditRequest Fraction))
      (r : Routing Fraction) (p : PathCut Fraction) (a : Arc Fraction),
      text = "PAF;PP 0,0;KB 10,0,5,ccw;PP 10,10;PP 0,10;MP 7,7,2" ∧ parseModel text 1 = .ok m ∧
      qs = [.translate [⟨"paf", 1⟩] "x" (some 0.25)] ∧
      r ∈ (m.withIds.session qs).routings ∧ .path p ∈ r.segments ∧ p.kind = .polygon ∧
      .arc a ∈ p.segments ∧ a.start.x = 0.25 ∧ r.Drawn ∧
      ∃ r', r.translate? .up 0.3 = some r' ∧ r' = { r with segments := r'.segments } ∧
        List.Forall₂ (RoutingSegment.ShiftsTo .up 0.3) r.segments r'.segments := by
  have heval : (do
      let m ← (parseModel (α := Fraction) "PAF;PP 0,0;KB 10,0,5,ccw;PP 10,10;PP 0,10;MP 7,7,2"
        1).toOption
      let r ← (m.withIds.session [.translate [⟨"paf", 1⟩] "x" (some 0.25)]).routings.head?
      let segment ← r.segments.head?
      let p ← segment.path?
      let a ← p.segments.head?.bind Segment.arc?
      if p.kind = PathKind.polygon ∧ a.start.x = 0.25 then some () else none).isSome = true := by
    decide +kernel
  obtain ⟨_, h⟩ := Option.isSome_iff_exists.mp heval
  simp only [Option.bind_eq_bind, Option.bind_eq_some_iff, Option.ite_none_right_eq_some] at h
  obtain ⟨m, hm, r, hr, segment, hsegment, p, hp, a, ⟨piece, hpiece, ha⟩, ⟨hk, hx⟩, -⟩ := h
  obtain rfl := RoutingSegment.path?_eq_some.mp hp
  obtain rfl := Segment.arc?_eq_some.mp ha
  have hm := eq_ok_of_toOption hm
  have hr := List.mem_of_head? hr
  obtain ⟨-, -, hmoves, hdrawn⟩ := rigid_of_session (α := Fraction)
  have hd := hdrawn hm _ r hr
  exact ⟨_, m, _, r, p, a, rfl, hm, rfl, hr, List.mem_of_head? hsegment, hk,
    List.mem_of_head? hpiece, hx, hd, hmoves r hd .up 0.3⟩

end WallModel

end WallPanel
