import WallPanel.Model.Check
import WallPanel.Proofs.Editing.Redrawing
import WallPanel.Proofs.Geometry.Loops

/-!
# The vertices of polygons

A path that ends near its start is a polygon without its last point. That point is the only one
that the reading drops, so a path whose last sample but one (of those that are apart) is near its
start as well keeps it: `PathCut.returnsTwice`. In a model that was read, the polygons that repeat a
vertex are these, each of them repeats its first at the end, and the check of the model reports
them (`WallModel.keepsApart_of_parseModel`).
-/

namespace WallPanel

variable {α : Type} [Scalar α]

/-! ## Paths that come back -/

namespace PathCut

variable {p : PathCut α}

/-- Whether a path comes back to where it begins with its last two samples, of those that are
apart. -/
def returnsTwice (p : PathCut α) : Bool :=
  isClosedLoop (dedupe p.samples) && isClosedLoop (dedupe p.samples).dropLast

/-- How far a path repeats its vertices: no vertex is near the one before it, and the last is near
the first only if the path comes back twice. -/
structure KeepsApart (p : PathCut α) : Prop where
  neighbours : p.points.IsChain Point.Apart
  around : closureViolations p.points = if p.returnsTwice then 1 else 0

theorem keepsApart_of_cut? [Scalar.Symmetric α] {r : VertexRun α} (h : r.cut? = some (.ok p)) :
    p.KeepsApart := by
  have hd := VertexRun.drawnBy_of_cut? h
  have hpoints : p.points = (closePath (dedupe p.samples)).1 := by rw [hd.points, hd.samples]
  have hchain := isChain_dedupe p.samples
  constructor
  · rw [hpoints]
    exact isChain_closePath hchain
  · rw [hpoints]
    exact closureViolations_closePath hchain fun _ => isFinite_of_mem_dedupe

end PathCut

/-! ## The check -/

omit [Scalar α] in
theorem Defect.kind_eq_closure {d : Defect α} : d.kind = "closure" ↔ d = .closure := by
  cases d <;> simp [kind]

/-- A cut repeats a vertex if it is a polygon with neighbours that count as one. -/
theorem RoutingSegment.closure_mem_defects {segment : RoutingSegment α} :
    .closure ∈ segment.defects ↔
      ∃ p, segment = .path p ∧ p.kind = .polygon ∧ closureViolations p.points ≠ 0 := by
  cases segment with
  | circle => simp [defects]
  | path p => cases hk : p.kind <;> simp [defects, hk]

namespace WallModel

variable {m : WallModel α} {i : Issue α} {r : Routing α} {p : PathCut α} {text : String}
  {k : Int}

/-- What is wrong with an entity outside the bounds is not the shape of a cut. -/
theorem kind_of_mem_boundsIssues (h : i ∈ m.boundsIssues) : i.defect.kind = "bounds" := by
  obtain ⟨o, -, ho⟩ := List.mem_filterMap.mp h
  obtain ⟨p, -, rfl⟩ := Option.map_eq_some_iff.mp ho
  rfl

/-- The check reports a repeated vertex for the polygons with neighbours that count as one. -/
theorem mem_issues_closure : i ∈ m.issues ∧ i.defect.kind = "closure" ↔
    ∃ r ∈ m.routings, ∃ p, .path p ∈ r.segments ∧ p.kind = .polygon ∧
      closureViolations p.points ≠ 0 ∧ i = ⟨.closure, r.editorId, r.statementIndex⟩ := by
  rw [Defect.kind_eq_closure, issues, List.mem_append]
  constructor
  · rintro ⟨hi | hi, hclosure⟩
    · simp only [shapeIssues, List.mem_flatMap, List.mem_map] at hi
      obtain ⟨r, hr, segment, hsegment, d, hd, rfl⟩ := hi
      obtain rfl : d = .closure := hclosure
      obtain ⟨p, rfl, hkind, hviolations⟩ := RoutingSegment.closure_mem_defects.mp hd
      exact ⟨r, hr, p, hsegment, hkind, hviolations, rfl⟩
    · have hkind := kind_of_mem_boundsIssues hi
      rw [hclosure] at hkind
      simp [Defect.kind] at hkind
  · rintro ⟨r, hr, p, hp, hkind, hviolations, rfl⟩
    have hd := RoutingSegment.closure_mem_defects.mpr ⟨p, rfl, hkind, hviolations⟩
    exact ⟨.inl (List.mem_flatMap.mpr ⟨r, hr, List.mem_flatMap.mpr
      ⟨_, hp, List.mem_map.mpr ⟨_, hd, rfl⟩⟩⟩), rfl⟩

/-! ## Models that were read -/

/-- A path of a model that was read is one that its vertices made. -/
theorem exists_run_of_parseModel (hm : parseModel text k = .ok m) (hr : r ∈ m.routings)
    (hp : .path p ∈ r.segments) : ∃ run : VertexRun α, run.cut? = some (.ok p) := by
  obtain ⟨run, -, hrun⟩ := exists_recorded_of_parseModel hm hr hp
  exact ⟨run, hrun⟩

/-- In a model that was read no vertex of a path is near the one before it, and the last vertex is
near the first only where a path comes back to its start twice. The polygons that do so are those
that the check reports for a repeated vertex. -/
theorem keepsApart_of_parseModel [Scalar.Symmetric α] (hm : parseModel text k = .ok m) :
    (∀ r ∈ m.routings, ∀ p, .path p ∈ r.segments → p.KeepsApart) ∧
      ∀ i, i ∈ m.issues ∧ i.defect.kind = "closure" ↔
        ∃ r ∈ m.routings, ∃ p, .path p ∈ r.segments ∧ p.kind = .polygon ∧
          p.returnsTwice = true ∧ i = ⟨.closure, r.editorId, r.statementIndex⟩ := by
  have hapart : ∀ r ∈ m.routings, ∀ p, .path p ∈ r.segments → p.KeepsApart := by
    intro r hr p hp
    obtain ⟨run, hrun⟩ := exists_run_of_parseModel hm hr hp
    exact PathCut.keepsApart_of_cut? hrun
  refine ⟨hapart, fun i => mem_issues_closure.trans ?_⟩
  refine exists_congr fun r => and_congr_right fun hr => exists_congr fun p =>
    and_congr_right fun hp => and_congr_right fun _ => and_congr_left fun _ => ?_
  rw [(hapart r hr p hp).around]
  cases p.returnsTwice <;> simp

set_option maxRecDepth 100000 in
/-- A triangle that ends where it began is without the point at its end, and nothing is reported. -/
theorem keepsApart_of_parseModel_of_triangle :
    ∃ (text : String) (m : WallModel Float) (r : Routing Float) (p : PathCut Float),
      text = "PAF;PP 0,0;PP 10,0;PP 10,10;PP 0,0" ∧ parseModel text 1 = .ok m ∧
      r ∈ m.routings ∧ .path p ∈ r.segments ∧ p.kind = .polygon ∧ p.points.length = 3 ∧
      p.KeepsApart ∧ p.returnsTwice = false ∧
      ∀ i, i ∈ m.issues ∧ i.defect.kind = "closure" ↔
        ∃ r ∈ m.routings, ∃ p, .path p ∈ r.segments ∧ p.kind = .polygon ∧
          p.returnsTwice = true ∧ i = ⟨.closure, r.editorId, r.statementIndex⟩ := by
  have heval : (((parseModel (α := Float) "PAF;PP 0,0;PP 10,0;PP 10,10;PP 0,0"
      1).toOption.bind firstPath?).any fun p =>
        p.kind = .polygon ∧ p.points.length = 3 ∧ p.returnsTwice = false) = true := by
    decide +kernel
  obtain ⟨m, r, p, hm, hr, hp, hkind, hlength, htwice⟩ := exists_firstPath heval
  obtain ⟨hapart, hissues⟩ := keepsApart_of_parseModel hm
  exact ⟨_, m, r, p, rfl, hm, hr, hp, hkind, hlength, hapart r hr p hp, htwice, hissues⟩

set_option maxRecDepth 100000 in
/-- A path whose last two points are apart and both near the first is a polygon that repeats a
vertex, and the check reports it. -/
theorem issues_of_path_that_returns_twice :
    ∃ (m : WallModel Float) (r : Routing Float) (p : PathCut Float) (i : Issue Float),
      parseModel "PAF;PP 0,0;PP 10,0;PP 10,10;PP -0.0000009,0.0000009;PP -0.0000009,-0.0000009"
        1 = .ok m ∧
      r ∈ m.routings ∧ .path p ∈ r.segments ∧ p.kind = .polygon ∧
      closureViolations p.points = 1 ∧ i ∈ m.issues ∧ i.defect.kind = "closure" := by
  have heval : (((parseModel (α := Float)
      "PAF;PP 0,0;PP 10,0;PP 10,10;PP -0.0000009,0.0000009;PP -0.0000009,-0.0000009"
      1).toOption.bind firstPath?).any fun p =>
        p.kind = .polygon ∧ closureViolations p.points = 1) = true := by
    decide +kernel
  obtain ⟨m, r, p, hm, hr, hp, hkind, hviolations⟩ := exists_firstPath heval
  have hne : closureViolations p.points ≠ 0 := hviolations ▸ Nat.one_ne_zero
  have hissue := mem_issues_closure.mpr ⟨r, hr, p, hp, hkind, hne, rfl⟩
  exact ⟨m, r, p, _, hm, hr, hp, hkind, hviolations, hissue⟩

end WallModel

end WallPanel
