import WallPanel.Proofs.Building.Progress
import WallPanel.Proofs.Geometry.Bounds

/-!
# The bounds of the model in the making

A model in the making takes points into its bounds as it goes (`Builder.taken`): those of an entity
when it is added, each vertex as it is read, and the samples of a path when it is cut. The bounds
are around all of them at each step (`Builder.Spans`), and in the end these are the points of the
entities and of all vertices that were read (`around_of_parseModel`).

* `Role.points`: what one statement takes in.
* `Builder.mem_taken_place`: nothing else is taken in with it.
-/

namespace WallPanel

variable {α : Type} [Scalar α]

/-! ## The points of a role -/

namespace Role

/-- The points that are taken into the bounds with a statement. -/
def points : Role α → List (Point α)
  | .member m => m.corners
  | .panel p => p.corners
  | .boundary _ p => [p.position]
  | .circle _ (.ok c) => CircleCut.corners c.position c.radius
  | .vertex _ _ v => [v.command.point]
  | .nailRow r => [r.start, r.stop]
  | .drilling d => Drilling.sides d.x d.z (d.diameter / 2.0)
  | .wall _ | .moduleBegin _ | .moduleEnd | .header _ | .circle _ (.error _) | .unhandled _
  | .foreign _ => []

/-- The point of a vertex. -/
def vertexPoint? : Role α → Option (Point α)
  | .vertex _ _ v => some v.command.point
  | .wall _ | .moduleBegin _ | .moduleEnd | .member _ | .panel _ | .boundary _ _ | .header _
  | .circle _ _ | .nailRow _ | .drilling _ | .unhandled _ | .foreign _ => none

end Role

/-- The points of all vertices of a reading. -/
def Reading.vertexPoints (es : List (Placed α)) : List (Point α) :=
  es.filterMap (·.role.vertexPoint?)

namespace WallModel

variable {m : WallModel α} {p : Point α}

theorem mem_extent : p ∈ m.extent ↔
    ((∃ x ∈ m.studs, p ∈ x.corners) ∨ (∃ x ∈ m.blocking, p ∈ x.corners) ∨
      ∃ x ∈ m.plates, p ∈ x.corners) ∨
    (∃ q ∈ m.sheathing, p ∈ q.extent) ∨ (∃ r ∈ m.nailRows, p ∈ [r.start, r.stop]) ∨
    (∃ r ∈ m.routings, p ∈ r.extent) ∨
    ∃ d ∈ m.drillings, p ∈ Drilling.sides d.x d.z (Scalar.orZero d.diameter / 2.0) := by
  simp only [extent, members, List.flatMap_append, List.mem_append, List.mem_flatMap, or_assoc]

end WallModel

omit [Scalar α] in
theorem exists_mem_concat {β : Type} {l : List β} {x : β} {P : β → Prop} :
    (∃ y ∈ l ++ [x], P y) ↔ (∃ y ∈ l, P y) ∨ P x := by
  simp only [List.mem_append, List.mem_singleton, or_and_right, exists_or, exists_eq_left]

/-- A path that is cut has its samples for an outline. -/
theorem VertexRun.outline_of_cut? {r : VertexRun α} {cut : PathCut α}
    (h : r.cut? = some (.ok cut)) : cut.outline = r.trace.samples := by
  have hd := VertexRun.drawnBy_of_cut? h
  have hne : r.trace.samples ≠ [] := fun hnil => by
    have hlen := hd.keeps
    rw [hnil] at hlen
    cases hlen
  simp [PathCut.outline, hd.samples, hne]

/-- The diameter of a drilling is a magnitude, so it has no sign to lose where it is zero. -/
theorem Drilling.orZero_diameter [Scalar.Ordered α] {s : Statement α} {d : Drilling α}
    {module? : Option (ModuleFrame α)} {member? : Option (FrameMember α)}
    (h : Drilling.ofStatement? s module? member? = some d) :
    Scalar.orZero (some d.diameter) = d.diameter := by
  unfold Drilling.ofStatement? at h
  split at h
  · cases h
    exact Scalar.orZero_abs _
  · cases h

theorem CircleCut.orZero_radius [Scalar.Ordered α] {s : Statement α} {d : CircleCut α}
    (h : CircleCut.ofStatement? s = some (.ok d)) : Scalar.orZero (some d.radius) = d.radius := by
  obtain ⟨_, _, size, _, -, rfl⟩ := exists_of_ofStatement? h
  exact Scalar.orZero_abs size

namespace Builder

variable {b b' : Builder α} {es : List (Placed α)} {s : Statement α} {r : Role α} {p : Point α}

/-- The points that a model in the making has taken in: those of its entities, of the open routing
and of all vertices. -/
def taken (b : Builder α) (es : List (Placed α)) : List (Point α) :=
  b.model.extent ++ b.activeRouting.toList.flatMap Routing.extent ++ Reading.vertexPoints es

theorem mem_taken : p ∈ b.taken es ↔ p ∈ b.model.extent ∨
    (∃ r, b.activeRouting = some r ∧ p ∈ r.extent) ∨ p ∈ Reading.vertexPoints es := by
  simp only [taken, List.mem_append, List.mem_flatMap, Option.mem_toList, or_assoc]

theorem taken_concat : b.taken (es ++ [⟨s, r⟩]) = b.taken es ++ r.vertexPoint?.toList := by
  simp only [taken, Reading.vertexPoints, Reading.filterMap_concat, List.append_assoc]

omit [Scalar α] in
theorem closeRouting_bounds (b : Builder α) : b.closeRouting.model.bounds = b.model.bounds := by
  obtain ⟨-, h⟩ | ⟨_, -, ⟨-, h⟩ | ⟨-, h⟩⟩ := closeRouting_cases b <;> simp [h, record]

/-- The routing that ends becomes one of the model, or it has cut nothing. -/
theorem mem_taken_closeRouting : p ∈ b.closeRouting.taken es ↔ p ∈ b.taken es := by
  obtain ⟨-, h⟩ | ⟨routing, ha, ⟨hs, h⟩ | ⟨-, h⟩⟩ := closeRouting_cases b
  · rw [h]
  · have hnone : routing.extent = [] := by simp [Routing.extent, hs]
    simp [mem_taken, WallModel.mem_extent, h, ha, hnone, record]
  · simp only [mem_taken, WallModel.mem_extent, h, ha, exists_mem_concat]
    grind [Routing.extent]

/-- A statement that is no vertex and leaves the open routing as it is takes in what it adds to the
model. -/
theorem mem_taken_of_extent {ps : List (Point α)} (hr : r.vertexPoint? = none)
    (ha : b'.activeRouting = b.activeRouting)
    (hm : p ∈ b'.model.extent ↔ p ∈ b.model.extent ∨ p ∈ ps) :
    p ∈ b'.taken (es ++ [⟨s, r⟩]) ↔ p ∈ b.taken es ∨ p ∈ ps := by
  simp only [taken_concat, hr, Option.toList_none, List.append_nil, mem_taken, hm, ha]
  grind

/-- A statement without points of its own takes none in. -/
theorem mem_taken_of_nil (hr : r.vertexPoint? = none) (hps : r.points = [])
    (ha : b'.activeRouting = b.activeRouting) (hm : b'.model.extent = b.model.extent) :
    p ∈ b'.taken (es ++ [⟨s, r⟩]) ↔ p ∈ b.taken es ∨ p ∈ r.points :=
  mem_taken_of_extent hr ha (by simp [hm, hps])

theorem place_bounds (hp : b.place r = .ok b') :
    b'.model.bounds = b.model.bounds.extendAll r.points := by
  cases r with
  | header w =>
    cases hp
    exact closeRouting_bounds b
  | foreign u =>
    cases hp
    exact closeRouting_bounds b
  | circle j d =>
    obtain ⟨d, rfl, rfl⟩ := exists_of_place_circle hp
    rfl
  | member m =>
    cases hp
    cases hk : m.kind <;> simp [pushMember, extend, hk, Role.points]
  | _ =>
    cases hp
    rfl

/-- A cut of the open routing takes its points in. -/
theorem mem_taken_of_segment {routing : Routing α} {segment : RoutingSegment α}
    {indices : List Nat} (ha : b.activeRouting = some routing)
    (ha' : b'.activeRouting = some (pushSegment routing segment indices))
    (hm : b'.model.extent = b.model.extent) :
    p ∈ b'.taken es ↔ p ∈ b.taken es ∨ p ∈ segment.extent := by
  have hpush : p ∈ (pushSegment routing segment indices).extent ↔
      p ∈ routing.extent ∨ p ∈ segment.extent := by
    simp [pushSegment, Routing.extent]
  simp only [mem_taken, hm, ha, ha', Option.some.injEq, exists_eq_left', hpush]
  grind

omit [Scalar α] in
theorem exists_last_of_panel {q : SheathingPanel α} (h : b.context.panel = some q) :
    ∃ init last, b.model.sheathing = init ++ [last] := by
  simp only [context, openPanel?] at h
  split at h
  · obtain ⟨last, hlast, -⟩ := Option.map_eq_some_iff.mp h
    obtain ⟨init, hinit⟩ := List.getLast?_eq_some_iff.mp hlast
    exact ⟨init, last, hinit⟩
  · cases h

theorem mem_taken_pushVertex {j k : Nat} {v : Vertex α} :
    p ∈ (b.pushVertex v).taken (es ++ [⟨s, .vertex j k v⟩]) ↔
      p ∈ b.taken es ∨ p ∈ (Role.vertex j k v).points := by
  have hsame (routing : Routing α) (i : Nat) : (pushIndex routing i).extent = routing.extent := rfl
  have hmodel : (b.pushVertex v).model.extent = b.model.extent := rfl
  have hopen : (b.pushVertex v).activeRouting =
      b.activeRouting.map (pushIndex · v.entry.statementIndex) := rfl
  simp [mem_taken, taken_concat, hmodel, hopen, Role.points, Role.vertexPoint?, hsame, or_assoc]

/-- Whatever a statement is, the points of it are taken in. -/
theorem mem_taken_place [Scalar.Ordered α] (hr : b.context.Plays s r) (hp : b.place r = .ok b') :
    p ∈ b'.taken (es ++ [⟨s, r⟩]) ↔ p ∈ b.taken es ∨ p ∈ r.points := by
  cases hr with
  | @member m =>
    cases hp
    refine mem_taken_of_extent rfl (by cases hk : m.kind <;> simp [pushMember, extend, hk]) ?_
    cases hk : m.kind <;>
    · simp only [WallModel.mem_extent, pushMember, extend, hk, exists_mem_concat, Role.points]
      grind
  | panel _ _ entry =>
    cases hp
    have hnone := (SheathingPanel.of_ofStatement? entry).2
    refine mem_taken_of_extent rfl rfl ?_
    simp only [WallModel.mem_extent, openPanel, extend, exists_mem_concat, Role.points]
    grind [SheathingPanel.extent]
  | boundary _ _ opened _ =>
    cases hp
    obtain ⟨init, last, hlast⟩ := exists_last_of_panel opened
    refine mem_taken_of_extent rfl rfl ?_
    simp only [WallModel.mem_extent, pushPanelPoint, extend, hlast, List.dropLast_concat,
      List.getLast?_concat, Option.map_some, Option.toList_some, exists_mem_concat, Role.points]
    grind [SheathingPanel.extent, SheathingPanel.corners]
  | nailRow =>
    cases hp
    refine mem_taken_of_extent rfl rfl ?_
    simp only [WallModel.mem_extent, pushNailRow, extend, exists_mem_concat, Role.points]
    grind
  | drilling _ entry =>
    cases hp
    have hd := Drilling.orZero_diameter entry
    refine mem_taken_of_extent rfl rfl ?_
    simp only [WallModel.mem_extent, pushDrilling, extend, exists_mem_concat, hd, Role.points]
    grind
  | @circle j _ _ _ opened entry =>
    obtain ⟨d, rfl, rfl⟩ := exists_of_place_circle hp
    have hd := CircleCut.orZero_radius entry
    obtain ⟨routing, ha, -⟩ := Option.map_eq_some_iff.mp opened
    have hopen : (b.pushCircle d).activeRouting =
        some (pushSegment routing (.circle d) [d.statementIndex]) := by
      simp [pushCircle, extend, ha]
    have hnone : (Role.circle j (.ok d)).vertexPoint? = none := rfl
    rw [taken_concat, hnone, Option.toList_none, List.append_nil,
      mem_taken_of_segment ha hopen rfl, RoutingSegment.extent, hd, Role.points]
  | header =>
    cases hp
    rw [← mem_taken_closeRouting (b := b)]
    have hnone := activeRouting_closeRouting b
    simp [mem_taken, taken_concat, openRouting, Role.points, Role.vertexPoint?, hnone,
      Routing.ofHeader, Routing.extent]
  | foreign =>
    cases hp
    rw [← mem_taken_closeRouting (b := b)]
    exact mem_taken_of_nil rfl rfl rfl rfl
  | point =>
    cases hp
    exact mem_taken_pushVertex
  | curve =>
    cases hp
    exact mem_taken_pushVertex
  | _ =>
    cases hp
    exact mem_taken_of_nil rfl rfl rfl rfl

/-- A path that ends takes its samples in if it is cut. -/
theorem endPath_taken (he : b.endPath = .ok b') : ∃ ps : List (Point α),
    b'.model.bounds = b.model.bounds.extendAll ps ∧
    ∀ p, p ∈ b'.taken es ↔ p ∈ b.taken es ∨ p ∈ ps := by
  obtain ⟨-, rfl⟩ | ⟨run, hr, ⟨routing, cut, ha, hcut, rfl⟩ | ⟨-, rfl⟩⟩ := endPath_cases he
  · exact ⟨[], rfl, by simp⟩
  · refine ⟨run.trace.samples, rfl, fun p => ?_⟩
    have houtline := VertexRun.outline_of_cut? hcut
    have hopen : (({ b with
        run := none, activeRouting := some (pushSegment routing (.path cut) []) } :
        Builder α).extend run.trace.samples).activeRouting =
          some (pushSegment routing (.path cut) []) := rfl
    refine (mem_taken_of_segment ha hopen rfl).trans ?_
    rw [RoutingSegment.extent, houtline]
  · exact ⟨[], rfl, fun p => by simp only [List.not_mem_nil, or_false]; rfl⟩

/-! ## The pass -/

/-- The bounds of a model in the making are those of the points that it has taken in. -/
def Spans (b : Builder α) (es : List (Placed α)) : Prop :=
  b.model.bounds.Around (usable (b.taken es))

variable [Scalar.Ordered α] {es' : List (Placed α)} {ps : List (Point α)}

theorem Spans.of_extend (h : b.Spans es) (hb : b'.model.bounds = b.model.bounds.extendAll ps)
    (ht : ∀ p, p ∈ b'.taken es' ↔ p ∈ b.taken es ∨ p ∈ ps) : b'.Spans es' := by
  have hsame : usable (b'.taken es') = usable (b.taken es ++ ps) := by
    ext p
    simp [usable, ht p]
  rw [Spans, hb, hsame]
  exact Bounds.Around.extendAll h ps

theorem Spans.endPath (h : b.Spans es) (he : b.endPath = .ok b') : b'.Spans es := by
  obtain ⟨ps, hb, ht⟩ := endPath_taken he
  exact h.of_extend hb ht

theorem Spans.settle {k : CommandKind} (h : b.Spans es) (hs : b.settle k = .ok b') :
    b'.Spans es := by
  have hclosed : ({ b with panelOpen := false } : Builder α).Spans es := h
  cases k with
  | point =>
    cases hs
    exact h
  | curve =>
    cases hs
    exact hclosed
  | _ => exact hclosed.endPath hs

/-- A step of the pass takes the points of one statement more in. -/
theorem Spans.feed (h : b.Spans es) (hf : b.feed s = .ok b') :
    b'.context = b.context.next s ∧
      b'.Spans (es ++ [⟨s, (b.context.settle s.command.kind).role s⟩]) := by
  obtain ⟨b₁, hs, hp⟩ := feed_eq hf
  have hplays := Context.plays_role b₁.context s
  rw [← context_settle hs]
  refine ⟨?_, (h.settle hs).of_extend (place_bounds hp) fun p => mem_taken_place hplays hp⟩
  rw [context_place hplays hp, context_settle hs]
  rfl

theorem Spans.feedAll {i : Nat} {texts : List String} (h : b.Spans es)
    (hf : b.feedAll i texts = .ok b') :
    ∃ ss, Statement.readAll i texts = .ok ss ∧ b'.Spans (es ++ b.context.read ss) := by
  induction texts generalizing b es i with
  | nil =>
    cases hf
    exact ⟨[], rfl, by simpa [Context.read] using h⟩
  | cons text texts ih =>
    obtain ⟨s, b₁, hs, hf', hf⟩ := feedAll_cons hf
    obtain ⟨hctx, h₁⟩ := h.feed hf'
    obtain ⟨ss, hss, h'⟩ := ih h₁ hf
    obtain rfl : s.index = i := Statement.index_read hs
    refine ⟨s :: ss, Statement.readAll_cons.mpr ⟨s, ss, hs, hss, rfl⟩, ?_⟩
    simpa [Context.read, hctx] using h'

/-- At the end of the pass the points are those of the model and of all vertices. -/
theorem Spans.finish (h : b.Spans es) (hf : b.finish = .ok b') :
    b'.model.bounds.Around (usable (b'.model.extent ++ Reading.vertexPoints es)) := by
  obtain ⟨b₁, he, rfl⟩ := finish_eq hf
  have hbounds : b₁.closeRouting.model.bounds = b₁.model.bounds.extendAll [] :=
    closeRouting_bounds b₁
  have hspans : b₁.closeRouting.Spans es := (h.endPath he).of_extend hbounds fun p => by
    simp [mem_taken_closeRouting]
  simpa [Spans, taken, activeRouting_closeRouting] using hspans

omit [Scalar.Ordered α] in
theorem spans_start (statements : List String) (source : String) (firstId : Int) :
    (start statements source firstId : Builder α).Spans [] := by
  simp [Spans, Bounds.Around, start, taken, usable, WallModel.extent, WallModel.members,
    Reading.vertexPoints]

end Builder

/-! ## A document -/

/-- A model that is read has some extent. -/
theorem isFinite_of_parseModel {text : String} {k : Int} {m : WallModel α}
    (hm : parseModel text k = .ok m) : m.bounds.isFinite = true := by
  simp only [parseModel, parseDocument] at hm
  split at hm
  · cases hm
  · split at hm
    · cases hm
    · split at hm
      · next hfinite =>
        cases hm
        exact hfinite
      · cases hm

/-- The bounds of a model that is read are those of its entities and of all vertices, and there are
such points. -/
theorem around_of_parseModel [Scalar.Ordered α] {text : String} {k : Int} {m : WallModel α}
    (hm : parseModel text k = .ok m) :
    ∃ ss, Statement.readAll 0 (splitStatements text) = .ok ss ∧ m.bounds.isFinite = true ∧
      m.bounds.Around (usable (m.extent ++ Reading.vertexPoints (Context.start.read ss))) := by
  obtain ⟨b, hb, rfl⟩ := buildAll_of_parseModel hm
  obtain ⟨b₁, hf, hb⟩ := buildAll_eq_ok.mp hb
  obtain ⟨ss, hss, hspans⟩ := (Builder.spans_start _ _ _).feedAll hf
  exact ⟨ss, hss, isFinite_of_parseModel hm, hspans.finish hb⟩

end WallPanel
