import WallPanel.Number.Binary64
import WallPanel.Proofs.Attribution.Accounting
import WallPanel.Proofs.Building.Extent
import WallPanel.Proofs.Geometry.Paths

/-!
# The extent of a document

The bounds of a model that is read are around the points of its entities and of the vertices that
are left out with their path, because it keeps too few points for a cut (`Attribution.LeftOut`). All
other vertices are on a path that is cut, and its samples run through them
(`Attribution.Describes.mem_extent`). So the bounds change when they are recomputed from the
entities exactly where they do not hold all vertices that are left out any more
(`WallModel.same_withBounds_of_parseModel`).
-/

namespace WallPanel

open Attribution

variable {α : Type} [Scalar α]

/-! ## The samples of a path -/

namespace Trace

variable {c : PathCommand α} {cs : List (PathCommand α)}

/-- An arc ends at the point of its command, solved or not. -/
theorem mem_arcFrom (pen : Point α) (c : PathCommand α) : c.point ∈ (arcFrom pen c).1 := by
  unfold arcFrom
  split
  · next a ha =>
    obtain ⟨request, -, hsolve⟩ := Option.bind_eq_some_iff.mp ha
    rw [← (Arc.ends_of_solve? hsolve).2]
    exact List.mem_of_getLast? a.getLast?_tail_sample
  · exact List.mem_singleton_self _

/-- A pen comes to the point of each command that moves it. -/
theorem mem_drawFrom (hc : c ∈ cs) (hm : c.motion ≠ .other) (pen? : Option (Point α)) :
    c.point ∈ (drawFrom pen? cs).samples := by
  induction cs generalizing pen? with
  | nil => cases hc
  | cons d cs ih =>
    cases pen? with
    | none =>
      rcases List.mem_cons.mp hc with rfl | hc
      · exact List.mem_cons_self
      · exact List.mem_cons_of_mem _ (ih hc _)
    | some pen =>
      rcases List.mem_cons.mp hc with rfl | hc
      · cases hk : c.motion with
        | other => exact absurd hk hm
        | _ => simp [drawFrom, hk, mem_arcFrom]
      · cases hk : d.motion <;> simp [drawFrom, hk, ih hc]

end Trace

theorem VertexRun.mem_samples {r : VertexRun α} {v : Vertex α} (hv : v ∈ r.toList)
    (hm : v.command.motion ≠ .other) (hp : v.command.point.isFinite = true) :
    v.command.point ∈ r.trace.samples :=
  Trace.mem_drawFrom (List.mem_filter.mpr ⟨List.mem_map_of_mem hv, hp⟩) hm none

namespace Attribution

variable {ss : List (Statement α)} {m : WallModel α} {p : Point α} {s : Statement α} {v : Vertex α}
  {j : Nat}

/-! ## The vertices of a document -/

theorem motion_of_vertex? (h : vertex? ss j s = some v) : v.command.motion ≠ .other := by
  unfold vertex? at h
  split at h
  · simp only [Vertex.ofPoint?, Option.bind_eq_bind, Option.bind_eq_some_iff] at h
    obtain ⟨x, -, y, -, ⟨⟩⟩ := h
    dsimp only
    split <;> simp
  · simp only [Vertex.ofCurve?, Option.bind_eq_bind, Option.bind_eq_some_iff] at h
    obtain ⟨flag, -, x, -, y, -, radius, -, ⟨⟩⟩ := h
    simp [PathCommand.arcTo]

theorem mem_vertexPoints_read (hn : Numbered ss) :
    p ∈ Reading.vertexPoints (Context.start.read ss) ↔
      ∃ j, ∃ s ∈ ss, VertexOf ss j s ∧ ∃ v, vertex? ss j s = some v ∧ v.command.point = p := by
  constructor
  · intro hp
    obtain ⟨q, hq, hpoint⟩ := List.mem_filterMap.mp hp
    obtain ⟨c, hc, hrole⟩ := exists_stands hn hq
    cases hr : q.role with
    | vertex j k v =>
      have hv := hc.vertexOf_of_role (hrole.symm.trans hr)
      obtain ⟨v', hv', hr'⟩ := hc.vertex_of_vertexOf hv
      obtain ⟨⟩ := hr'.symm.trans (hrole.symm.trans hr)
      refine ⟨j, q.statement, hc.mem, hv, v, hv', ?_⟩
      simpa [hr, Role.vertexPoint?] using hpoint
    | _ => simp [hr, Role.vertexPoint?] at hpoint
  · rintro ⟨j, s, hs, hv, v, hv', rfl⟩
    rw [← Context.statement_read Context.start ss] at hs
    obtain ⟨q, hq, rfl⟩ := List.mem_map.mp hs
    obtain ⟨c, hc, hrole⟩ := exists_stands hn hq
    obtain ⟨w, hw, hr⟩ := hc.vertex_of_vertexOf hv
    obtain rfl : w = v := Option.some.inj (hw.symm.trans hv')
    exact List.mem_filterMap.mpr ⟨q, hq, by rw [hrole, hr]; rfl⟩

/-- A point is that of a vertex on a path that keeps fewer than two points. -/
def LeftOut (ss : List (Statement α)) (p : Point α) : Prop :=
  ∃ j, ∃ f ∈ ss, BeginsRun ss j f ∧ KeepsFewPoints ss j f ∧
    ∃ s ∈ run ss j f, ∃ v, vertex? ss j s = some v ∧ v.command.point = p

/-! ## The points of the model -/

theorem Describes.exists_segment {w : Statement α} {segment : RoutingSegment α}
    (h : Describes ss m) (hw : w ∈ ss) (hk : w.command.kind = .routing)
    (hc : .ok segment ∈ cuts ss w.index) : ∃ r ∈ m.routings, segment ∈ r.segments := by
  have hne : cuts ss w.index ≠ [] := List.ne_nil_of_mem hc
  have hrouting : ∃ r, routing? ss w = some r ∧ segment ∈ r.segments := by
    simp only [routing?, hk, List.isEmpty_eq_false_iff.mpr hne]
    exact ⟨_, rfl, List.mem_filterMap.mpr ⟨_, hc, rfl⟩⟩
  obtain ⟨r, hr, hsegment⟩ := hrouting
  have hmem : r ∈ m.routings.map Routing.anonymous := by
    rw [h.routings]
    exact List.mem_filterMap.mpr ⟨w, hw, hr⟩
  obtain ⟨r', hr', rfl⟩ := List.mem_map.mp hmem
  exact ⟨r', hr', hsegment⟩

/-- A path that keeps two points is cut, with all its vertices among the samples. -/
theorem Describes.mem_extent (h : Describes ss m) (hn : Numbered ss) {f : Statement α} (hf : f ∈ ss)
    (hb : BeginsRun ss j f) (hkeeps : ¬KeepsFewPoints ss j f) (hs : s ∈ run ss j f)
    (hv : vertex? ss j s = some v) (hp : v.command.point.isFinite = true) :
    v.command.point ∈ m.extent := by
  obtain ⟨r, d, hr, hd, hcut⟩ := exists_cut? hn hf hb hkeeps
  have hmem : d.map .path ∈ cuts ss j := List.mem_filterMap.mpr ⟨f, hf, hcut⟩
  obtain ⟨segment, hok⟩ := h.cut j _ hmem
  cases d with
  | error => cases hok
  | ok cut =>
    obtain ⟨w, hw, hj, hk⟩ := hb.1.2.1.2.1
    rw [← hj] at hmem
    obtain ⟨routing, hrouting, hsegment⟩ := h.exists_segment hw hk hmem
    have hlist : v ∈ r.toList := by
      rw [toList_of_path? hr]
      exact List.mem_filterMap.mpr ⟨s, hs, hv⟩
    have hsample := VertexRun.mem_samples hlist (motion_of_vertex? hv) hp
    rw [← VertexRun.outline_of_cut? hd] at hsample
    exact WallModel.mem_extent.mpr (.inr (.inr (.inr (.inl ⟨routing, hrouting,
      List.mem_flatMap.mpr ⟨_, hsegment, hsample⟩⟩))))

/-- The points that are taken in while a model is read are those of its entities and those left
out. -/
theorem Describes.usable_eq (h : Describes ss m) (hn : Numbered ss) :
    usable (m.extent ++ Reading.vertexPoints (Context.start.read ss)) =
      {p | p.isFinite = true ∧ (p ∈ m.extent ∨ LeftOut ss p)} := by
  ext p
  simp only [usable, Set.mem_ofPred_eq, List.mem_append, mem_vertexPoints_read hn]
  constructor
  · rintro ⟨hp | ⟨j, s, hs, hv, v, hv', rfl⟩, hfinite⟩
    · exact ⟨hfinite, .inl hp⟩
    · obtain ⟨f, hf, hb, hle, hbetween⟩ := exists_beginsRun hn hs hv
      have hrun : s ∈ run ss j f := List.mem_filter.mpr
        ⟨hs, decide_eq_true ⟨hv, hbetween, between_of_le hle⟩⟩
      by_cases hkeeps : KeepsFewPoints ss j f
      · exact ⟨hfinite, .inr ⟨j, f, hf, hb, hkeeps, s, hrun, v, hv', rfl⟩⟩
      · exact ⟨hfinite, .inl (h.mem_extent hn hf hb hkeeps hrun hv' hfinite)⟩
  · rintro ⟨hfinite, hp | ⟨j, f, hf, hb, -, s, hs, v, hv', rfl⟩⟩
    · exact ⟨.inl hp, hfinite⟩
    · obtain ⟨hs, hv⟩ := List.mem_filter.mp hs
      exact ⟨.inr ⟨j, s, hs, (of_decide_eq_true hv).1, v, hv', rfl⟩, hfinite⟩

end Attribution

/-! ## The bounds of a model -/

namespace WallModel

variable {m : WallModel α} {text : String} {k : Int}

theorem around_extent [Scalar.Ordered α] (m : WallModel α) :
    (Bounds.empty.extendAll m.extent).Around (usable m.extent) := by
  have hempty : (Bounds.empty : Bounds α).Around (usable []) := by simp [Bounds.Around, usable]
  exact hempty.extendAll m.extent

theorem withBounds_holds [Scalar.Ordered α] {p : Point α} (hp : p ∈ m.extent)
    (hfinite : p.isFinite = true) : m.withBounds.bounds.Holds p := by
  have haround := m.around_extent
  unfold withBounds
  cases hb : Bounds.empty.extendAll m.extent with
  | empty =>
    rw [hb] at haround
    have hmem : p ∈ usable m.extent := ⟨hp, hfinite⟩
    rw [show usable m.extent = ∅ from haround] at hmem
    cases hmem
  | box b =>
    rw [hb] at haround
    exact Box.Around.holds haround ⟨hp, hfinite⟩

/-- The bounds of a model that was read are around the points of its entities and of the vertices
that are left out. They stay as they are when they are recomputed if and only if the new ones hold
these vertices too. -/
theorem same_withBounds_of_parseModel [Scalar.Ordered α] (hm : parseModel text k = .ok m) :
    ∃ ss, Statement.readAll 0 (splitStatements text) = .ok ss ∧
      m.bounds.Around {p | p.isFinite = true ∧ (p ∈ m.extent ∨ LeftOut ss p)} ∧
      (m.bounds.Same m.withBounds.bounds ↔
        ∀ p, LeftOut ss p → p.isFinite = true → m.withBounds.bounds.Holds p) := by
  obtain ⟨ss, hss, hdescribes⟩ := describes_of_parseModel hm
  obtain ⟨ss', hss', hbox, haround⟩ := around_of_parseModel hm
  obtain rfl : ss' = ss := Except.ok.inj (hss'.symm.trans hss)
  rw [hdescribes.usable_eq (numbered_of_readAll hss)] at haround
  refine ⟨ss', hss, haround, ?_⟩
  have hsub : usable m.extent ⊆ {p | p.isFinite = true ∧ (p ∈ m.extent ∨ LeftOut ss' p)} :=
    fun p hp => ⟨hp.2, .inl hp.1⟩
  refine (haround.same_boxOrOrigin_iff (fun p hp => hp.1) hbox m.around_extent hsub).trans ?_
  constructor
  · exact fun h p hp hfinite => h p ⟨hfinite, .inr hp⟩
  · rintro h p ⟨hfinite, hp | hp⟩
    · exact withBounds_holds hp hfinite
    · exact h p hp hfinite

set_option maxRecDepth 100000 in
/-- A vertex that is left out, on a panel. -/
theorem same_withBounds_of_parseModel_of_vertex :
    ∃ (text : String) (m : WallModel Float),
      text = "PLI1 1000,600,15,0,0,0;PAF 1;PP 5,500;NR 0,0,0,100" ∧ parseModel text 1 = .ok m ∧
      ∃ ss, Statement.readAll 0 (splitStatements text) = .ok ss ∧
        m.bounds.Around {p | p.isFinite = true ∧ (p ∈ m.extent ∨ LeftOut ss p)} ∧
        (m.bounds.Same m.withBounds.bounds ↔
          ∀ p, LeftOut ss p → p.isFinite = true → m.withBounds.bounds.Holds p) := by
  have heval : (parseModel (α := Float) "PLI1 1000,600,15,0,0,0;PAF 1;PP 5,500;NR 0,0,0,100"
      1).toOption.isSome = true := by
    decide +kernel
  obtain ⟨m, hm⟩ := Option.isSome_iff_exists.mp heval
  have hm := eq_ok_of_toOption hm
  exact ⟨_, m, rfl, hm, same_withBounds_of_parseModel hm⟩

set_option maxRecDepth 100000 in
/-- A vertex that is left out, away from the panel: the bounds hold it, and shrink when they are
recomputed. -/
theorem not_same_withBounds_of_vertex :
    ∃ m : WallModel Float,
      parseModel "PLI1 1000,600,15,0,0,0;PAF 1;PP 5000,5000;NR 0,0,0,100" 1 = .ok m ∧
      ¬m.bounds.Same m.withBounds.bounds := by
  have heval : ((parseModel (α := Float) "PLI1 1000,600,15,0,0,0;PAF 1;PP 5000,5000;NR 0,0,0,100"
      1).toOption.any fun m => ¬m.bounds.Same m.withBounds.bounds) = true := by
    decide +kernel
  obtain ⟨m, hm, hsame⟩ := (Option.any_eq_true ..).mp heval
  exact ⟨m, eq_ok_of_toOption hm, of_decide_eq_true hsame⟩

end WallModel

end WallPanel
