import WallPanel.Number.Binary64
import WallPanel.Proofs.Attribution.Roles
import WallPanel.Proofs.Building.Pass
import WallPanel.Proofs.Reading.Starts

/-!
# A model says what its document says

What the reading of a document gathers from the roles of its statements is what the statements say by
what stands between them (`Attribution.sheathing_read`, `Attribution.routings_read`,
`Attribution.unhandled_read`). So a model that was read from a text is described by the statements
of the text alone (`describes_of_parseModel`).
-/

namespace WallPanel

open Attribution

variable {α : Type} [Scalar α]

namespace Attribution

variable {ss : List (Statement α)} {c : Context α} {s : Statement α} {i j k : Nat}

/-! ## Cuts -/

/-- A path has a cut if two of its samples are apart. -/
theorem pathCut?_eq (r : VertexRun α) : pathCut? r = r.cut?.map (·.map .path) := by
  unfold pathCut? VertexRun.cut?
  by_cases h : 2 ≤ (dedupe r.trace.samples).length
  · have hlen := length_closePath_dedupe h
    simp only [h, ↓reduceIte, PathKind.of?, hlen, Bool.and_eq_true, decide_eq_true_eq]
    split <;> rfl
  · simp [h]

theorem toList_of_path? {f : Statement α} {r : VertexRun α} (h : path? ss j f = some r) :
    r.toList = (run ss j f).filterMap (Attribution.vertex? ss j) := by
  unfold path? at h
  split at h
  · cases h
  · next hrun =>
    cases h
    exact hrun.symm

/-- A cut along a path is drawn by the vertices of all statements on the path. -/
theorem drawnBy_of_cut? {p : PathCut α} (h : Attribution.cut? ss j s = some (.ok (.path p))) :
    ∃ r : VertexRun α, r.toList = (run ss j s).filterMap (Attribution.vertex? ss j) ∧
      p.DrawnBy r := by
  unfold Attribution.cut? at h
  split at h
  · obtain ⟨circle, -, hcircle⟩ := Option.map_eq_some_iff.mp h
    cases circle <;> cases hcircle
  · split at h
    · obtain ⟨r, hr, hcut⟩ := Option.bind_eq_some_iff.mp h
      rw [pathCut?_eq] at hcut
      obtain ⟨cut, hcut, hpath⟩ := Option.map_eq_some_iff.mp hcut
      cases cut with
      | error => cases hpath
      | ok cut =>
        cases hpath
        exact ⟨r, toList_of_path? hr, VertexRun.drawnBy_of_cut? hcut⟩
    · cases h

namespace Stands

variable (h : Stands ss s c)
include h

/-- A vertex that begins a path stands first on it. -/
theorem role_of_beginsRun (hb : BeginsRun ss j s) :
    ∃ v, v.entry.statementIndex = s.index ∧ v.unhandled = Unhandled.ofStatement s ∧
      (c.settle s.command.kind).role s = .vertex j s.index v := by
  obtain ⟨v, hentry, hr⟩ := h.role_of_vertexOf hb.1
  rw [(h.beginsRun_iff.mp hb).2, Option.getD_none] at hr
  have hu : v.entry.statementIndex = s.index ∧ v.unhandled = Unhandled.ofStatement s := by
    split at hentry
    · obtain ⟨he, hbody⟩ := Vertex.of_ofPoint? hentry
      simp [Vertex.unhandled, he, hbody, Vertex.entryOf, Unhandled.ofStatement]
    · obtain ⟨⟨_, _, he⟩, hbody⟩ := Vertex.of_ofCurve? hentry
      simp [Vertex.unhandled, he, hbody, Vertex.entryOf, Unhandled.ofStatement]
  exact ⟨v, hu.1, hu.2, hr⟩

theorem beginsRun_of_role {v : Vertex α}
    (hr : (c.settle s.command.kind).role s = .vertex j k v) (hk : v.entry.statementIndex = k) :
    BeginsRun ss j s := by
  have hv := h.vertexOf_of_role hr
  refine h.beginsRun_iff.mpr ⟨hv, ?_⟩
  have hplays := (c.settle s.command.kind).plays_role s
  rw [hr] at hplays
  obtain ⟨v', -, hr'⟩ := h.role_of_vertexOf hv
  obtain rfl : k = c.run.getD s.index := by rw [hr] at hr'; cases hr'; rfl
  cases hrun : c.run with
  | none => rfl
  | some k =>
    rw [hplays.vertex_index, hrun, Option.getD_some] at hk
    exact absurd ((h.opened.run k).mp hrun).1 (Nat.not_lt_of_le (Nat.le_of_eq hk))

/-- What a statement begins to cut. -/
theorem item?_role (j : Nat) : ((c.settle s.command.kind).role s).item? j =
    if CircleOf ss j s then (CircleCut.ofStatement? s).map .circle
    else if BeginsRun ss j s then some (.run s.index)
    else none := by
  by_cases hc : CircleOf ss j s
  · obtain ⟨d, hd, hr⟩ := h.role_of_circleOf hc
    simp [hc, hd, hr, Role.item?]
  · rw [if_neg hc]
    by_cases hb : BeginsRun ss j s
    · obtain ⟨v, hi, -, hr⟩ := h.role_of_beginsRun hb
      simp [hb, hr, Role.item?, hi]
    · rw [if_neg hb]
      cases hr : (c.settle s.command.kind).role s with
      | circle j' d =>
        refine if_neg fun hj => hc ?_
        exact hj ▸ h.circleOf_of_role hr
      | vertex j' k v =>
        refine if_neg fun hj => hb ?_
        exact hj.1 ▸ h.beginsRun_of_role hr hj.2
      | _ => rfl

theorem first?_role : (∃ v, ((c.settle s.command.kind).role s).first? = some v) ↔
    ∃ j, BeginsRun ss j s := by
  constructor
  · rintro ⟨v, hv⟩
    cases hr : (c.settle s.command.kind).role s with
    | vertex j k v' =>
      rw [hr, Role.first?] at hv
      split at hv
      · next hk => exact ⟨j, h.beginsRun_of_role hr hk⟩
      · cases hv
    | _ => rw [hr] at hv; cases hv
  · rintro ⟨j, hb⟩
    obtain ⟨v, hi, -, hr⟩ := h.role_of_beginsRun hb
    exact ⟨v, by simp [hr, Role.first?, hi]⟩

end Stands

/-! ## What the reading of a document gathers -/

section Read

variable (hn : Numbered ss)
include hn

/-- What is gathered from the roles is what is gathered from the statements. -/
theorem filterMap_read {β : Type} {g : Role α → Option β} {g' : Statement α → Option β}
    (hg : ∀ s c, Stands ss s c → g ((c.settle s.command.kind).role s) = g' s) :
    (Context.start.read ss).filterMap (g ·.role) = ss.filterMap g' := by
  have hpoint : ∀ p ∈ Context.start.read ss, g p.role = g' p.statement := by
    intro p hp
    obtain ⟨c, hc, hr⟩ := exists_stands hn hp
    rw [hr, hg _ _ hc]
  rw [List.filterMap_congr hpoint]
  conv => rhs; rw [← Context.statement_read Context.start ss]
  rw [List.filterMap_map]
  rfl

theorem sheathing_read : Reading.sheathing (Context.start.read ss) = ss.filterMap (panel? ss) := by
  have hpanels : Reading.panels (Context.start.read ss) = ss.filterMap (header? ss) :=
    filterMap_read hn fun _ _ h => h.panel?_role
  rw [Reading.sheathing, hpanels, List.map_filterMap]
  refine List.filterMap_congr fun s hs => ?_
  cases hp : header? ss s with
  | none => simp [panel?, hp]
  | some p =>
    have hpoints : Reading.points (Context.start.read ss) s.index =
        (boundary ss s.index).filterMap fun t =>
          PanelPoint.ofNumbers? t.numbers p (moduleAt ss t.index) := by
      rw [boundary, List.filterMap_filter]
      exact filterMap_read hn fun _ _ h => h.point?_role hs hp
    simp only [panel?, hp, Option.map_some, (header?_index hp).1, hpoints]

theorem vertices_read {f : Statement α} (hf : f ∈ ss) (hb : BeginsRun ss j f) :
    Reading.vertices (Context.start.read ss) f.index =
      (run ss j f).filterMap (Attribution.vertex? ss j) := by
  rw [run, List.filterMap_filter]
  refine (filterMap_read hn fun _ _ h => h.vertex?_role hf hb).trans ?_
  simp only [decide_eq_true_eq]

theorem cutOf?_read {f : Statement α} (hf : f ∈ ss) (hb : BeginsRun ss j f) :
    (Reading.cutOf? (Context.start.read ss) f.index).map (·.map RoutingSegment.path) =
      (path? ss j f).bind pathCut? := by
  rw [Reading.cutOf?, vertices_read hn hf hb, path?]
  cases (run ss j f).filterMap (Attribution.vertex? ss j) with
  | nil => rfl
  | cons v vs => exact (pathCut?_eq _).symm

theorem cuts_read (j : Nat) : Reading.cuts (Context.start.read ss) none j = cuts ss j := by
  rw [Reading.cuts, Reading.items, List.filterMap_filterMap, cuts]
  refine filterMap_read hn (g := fun r =>
    (r.item? j).bind (Reading.itemCut? (Context.start.read ss) none)) fun s c h => ?_
  rw [h.item?_role, cut?]
  by_cases hc : CircleOf ss j s
  · cases hd : CircleCut.ofStatement? s <;> simp [hc, Reading.itemCut?]
  · by_cases hb : BeginsRun ss j s
    · simp [hc, hb, Reading.itemCut?, cutOf?_read hn h.mem hb]
    · simp [hc, hb]

theorem filter_read {f : Role α → Bool} {f' : Statement α → Bool}
    (hf : ∀ s c, Stands ss s c → f ((c.settle s.command.kind).role s) = f' s) :
    ((Context.start.read ss).filter (f ·.role)).map (·.statement) = ss.filter f' := by
  have hpoint : ∀ p ∈ Context.start.read ss, f p.role = f' p.statement := by
    intro p hp
    obtain ⟨c, hc, hr⟩ := exists_stands hn hp
    rw [hr, hf _ _ hc]
  rw [List.filter_congr hpoint]
  conv => rhs; rw [← Context.statement_read Context.start ss]
  rw [List.filter_map]
  rfl

theorem indices_read {t : Statement α} (ht : t ∈ ss) (hk : t.command.kind = .routing) :
    Reading.indices (Context.start.read ss) t.index = members ss t.index := by
  rw [members, ← filter_read hn fun _ _ h => h.isOf_role ht hk, List.map_map]
  rfl

theorem headers_read : Reading.headers (Context.start.read ss) = ss.filterMap fun s =>
    if s.command.kind = .routing then some (Routing.ofHeader s (layerAt ss s.index)) else none :=
  filterMap_read hn fun _ _ h => h.header?_role

theorem routings_read :
    Reading.routings (Context.start.read ss) none = ss.filterMap (routing? ss) := by
  rw [Reading.routings, headers_read hn, List.filterMap_filterMap]
  refine List.filterMap_congr fun s hs => ?_
  by_cases hk : s.command.kind = .routing
  · have hi : (Routing.ofHeader s (layerAt ss s.index)).statementIndex = s.index := rfl
    by_cases hc : cuts ss s.index = []
    · simp [hk, routing?, Reading.emitted?, hi, cuts_read hn, hc]
    · simp [hk, routing?, Reading.emitted?, Reading.filled, hi, cuts_read hn, hc,
        indices_read hn hs hk]
  · simp [hk, routing?]

omit hn in
omit [Scalar α] in
theorem map_filter_eq {β : Type} (p : Statement α → Prop) [DecidablePred p]
    (f : Statement α → β) (l : List (Statement α)) :
    (l.filter p).map f = l.filterMap fun s => if p s then some (f s) else none := by
  rw [← List.filterMap_eq_map, List.filterMap_filter]
  simp

/-- A path without a cut is recorded by its first vertex. -/
theorem shortRuns_read : (Reading.firsts (Context.start.read ss)).filterMap
      (Reading.shortRun? (Context.start.read ss) none) =
    (ss.filter fun s => BeginsShortRun ss s).map .ofStatement := by
  rw [Reading.firsts, List.filterMap_filterMap, map_filter_eq]
  refine filterMap_read hn (g := fun r =>
    r.first?.bind (Reading.shortRun? (Context.start.read ss) none)) fun s c h => ?_
  by_cases hb : ∃ j, BeginsRun ss j s
  · obtain ⟨j, hb⟩ := hb
    obtain ⟨v, hi, hu, hr⟩ := h.role_of_beginsRun hb
    have hshort : BeginsShortRun ss s ↔ (cut? ss j s).isNone = true := by
      constructor
      · rintro ⟨j', -, hb', hc⟩
        rwa [hb.1.2.1.unique hb'.1.2.1]
      · exact fun hc => ⟨j, hb.1.2.1.1, hb, hc⟩
    have hcut : (Reading.cutOf? (Context.start.read ss) s.index).isSome = (cut? ss j s).isSome := by
      rw [cut?, if_neg (not_circleOf_of_beginsRun hb), if_pos hb, ← cutOf?_read hn h.mem hb,
        Option.isSome_map]
    simp only [hr, Role.first?, hi, ↓reduceIte, Option.bind_some, Reading.shortRun?, hshort, hu,
      hcut, reduceCtorEq, false_or]
    cases cut? ss j s <;> rfl
  · have hn' : ((c.settle s.command.kind).role s).first? = none := by
      cases hf : ((c.settle s.command.kind).role s).first? with
      | none => rfl
      | some v => exact absurd (h.first?_role.mp ⟨v, hf⟩) hb
    have hshort : ¬BeginsShortRun ss s := by
      rintro ⟨j, -, hb', -⟩
      exact hb ⟨j, hb'⟩
    simp [hn', hshort]

theorem unhandled_read :
    Reading.unhandled (Context.start.read ss) none none = Attribution.unhandled ss := by
  have hown : (Context.start.read ss).filterMap (·.role.unhandled?) =
      (ss.filter fun s => ¬IsPlaced ss s).map .ofStatement := by
    rw [map_filter_eq]
    refine filterMap_read hn fun s c h => ?_
    rw [h.unhandled?_role, ite_not]
  have hempty : (Reading.headers (Context.start.read ss)).filterMap
        (Reading.emptyHeader? (Context.start.read ss) none) =
      (ss.filter fun s => s.command.kind = .routing ∧ (cuts ss s.index).isEmpty).map fun s =>
        (Routing.ofHeader s (layerAt ss s.index)).unhandled := by
    rw [headers_read hn, List.filterMap_filterMap, map_filter_eq]
    refine List.filterMap_congr fun s _ => ?_
    have hi : (Routing.ofHeader s (layerAt ss s.index)).statementIndex = s.index := rfl
    by_cases hk : s.command.kind = .routing
    · by_cases hc : cuts ss s.index = [] <;>
        simp [hk, Reading.emptyHeader?, hi, cuts_read hn, hc]
    · simp [hk]
  rw [Reading.unhandled, hown, shortRuns_read hn, hempty, unhandled]

end Read

/-! ## The model -/

/-- A model is what the statements of its document say by what stands between them. -/
structure Describes (ss : List (Statement α)) (m : WallModel α) : Prop where
  sheathing : m.sheathing = ss.filterMap (panel? ss)
  /-- The routings, whatever their ids. -/
  routings : m.routings.map Routing.anonymous = ss.filterMap (routing? ss)
  unhandled : m.unhandled.Perm (Attribution.unhandled ss)
  /-- A point is on the boundary of one panel. -/
  panel_unique : ∀ i j j', PanelReaches ss j i → PanelReaches ss j' i → j = j'
  /-- A statement belongs to one routing. -/
  routing_unique : ∀ i j j', RoutingReaches ss j i → RoutingReaches ss j' i → j = j'
  /-- Every header of a panel with enough numbers opens it. -/
  panel : ∀ s ∈ ss, s.opensPanel = true ↔ (panel? ss s).isSome = true
  /-- No statement of a boundary is left out. -/
  point : ∀ j, ∀ s ∈ boundary ss j, ∀ (p : SheathingPanel α) (module? : Option (ModuleFrame α)),
    (PanelPoint.ofNumbers? s.numbers p module?).isSome = true
  /-- No statement of a path is left out. -/
  vertex : ∀ j, ∀ s ∈ ss, VertexOf ss j s → (Attribution.vertex? ss j s).isSome = true
  circle : ∀ j, ∀ s ∈ ss, CircleOf ss j s → (CircleCut.ofStatement? s).isSome = true
  /-- Every cut could be read. -/
  cut : ∀ j, ∀ c ∈ cuts ss j, ∃ segment, c = .ok segment
  /-- A cut along a path has the lines of all vertices on it, in their order, and the points that are
  left of its samples. -/
  path : ∀ j s p, Attribution.cut? ss j s = some (.ok (.path p)) →
    ∃ r : VertexRun α, r.toList = (run ss j s).filterMap (Attribution.vertex? ss j) ∧ p.DrawnBy r

theorem numbered_of_readAll {texts : List String} (h : Statement.readAll 0 texts = .ok ss) :
    Numbered ss :=
  Statement.index_readAll h

theorem stands_of_mem (hn : Numbered ss) (hs : s ∈ ss) : ∃ c : Context α, Stands ss s c := by
  rw [← Context.statement_read Context.start ss] at hs
  obtain ⟨p, hp, rfl⟩ := List.mem_map.mp hs
  obtain ⟨c, hc, -⟩ := exists_stands hn hp
  exact ⟨c, hc⟩

theorem isSome_vertex? (hn : Numbered ss) (hs : s ∈ ss) (hv : VertexOf ss j s) :
    (Attribution.vertex? ss j s).isSome = true := by
  obtain ⟨c, hc⟩ := stands_of_mem hn hs
  obtain ⟨v, hv, -⟩ := hc.vertex_of_vertexOf hv
  exact Option.isSome_of_eq_some hv

theorem describes_of_reading {m : WallModel α} (hn : Numbered ss)
    (h : m.Says (Context.start.read ss)) : Describes ss m where
  sheathing := by rw [h.frame.sheathing, sheathing_read hn]
  routings := by rw [h.routings, routings_read hn]
  unhandled := by rw [← unhandled_read hn]; exact h.unhandled
  panel_unique _ _ _ := PanelReaches.unique
  routing_unique _ _ _ := RoutingReaches.unique
  panel s _ := by rw [panel?, Option.isSome_map, isSome_header?_iff]
  point j s hs p module? := by
    obtain ⟨-, hp⟩ := List.mem_filter.mp hs
    simp only [Statement.isPoint, Statement.isUsable_eq, Bool.and_eq_true, decide_eq_true_eq] at hp
    obtain ⟨⟨hk, hlen⟩, -⟩ := hp
    rw [hk] at hlen
    exact PanelPoint.isSome_ofNumbers? hlen p module?
  vertex _ _ hs := isSome_vertex? hn hs
  circle _ _ _ hc := isSome_of_circleOf hc
  cut j c hc := h.readable j c (by rwa [cuts_read hn])
  path _ _ _ := drawnBy_of_cut?

end Attribution

/-- A model that was read from a text is what the statements of the text say by what stands between
them: which panel or routing a statement belongs to hangs on no state. -/
theorem describes_of_parseModel {text : String} {k : Int} {m : WallModel α}
    (hm : parseModel text k = .ok m) :
    ∃ ss, Statement.readAll 0 (splitStatements text) = .ok ss ∧ Describes ss m := by
  obtain ⟨⟨ss, hss, hsaid⟩, -⟩ := says_of_parseModel hm
  exact ⟨ss, hss, describes_of_reading (numbered_of_readAll hss) hsaid⟩

set_option maxRecDepth 100000 in
/-- A document with points of a panel and of a routing, and with some that have no place. -/
theorem describes_panel_then_routing :
    ∃ (text : String) (m : WallModel Float),
      text = "PP 0,0;PAF 1;PP 1,1;NR 0,0,9,9;PP 2,2;PP 3,2;KB 3,3,1;PLI1 9,9,1,0,0,1,A;PP 7;PP 5,5;XX" ∧
      parseModel text 1 = .ok m ∧
      ∃ ss, Statement.readAll 0 (splitStatements text) = .ok ss ∧ Describes ss m := by
  have heval : (parseModel (α := Float)
      "PP 0,0;PAF 1;PP 1,1;NR 0,0,9,9;PP 2,2;PP 3,2;KB 3,3,1;PLI1 9,9,1,0,0,1,A;PP 7;PP 5,5;XX"
      1).toOption.isSome = true := by
    decide +kernel
  obtain ⟨m, hm⟩ := Option.isSome_iff_exists.mp heval
  have hm := eq_ok_of_toOption hm
  exact ⟨_, m, rfl, hm, describes_of_parseModel hm⟩

end WallPanel
