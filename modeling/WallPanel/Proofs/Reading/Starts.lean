import WallPanel.Proofs.Reading.Positions

/-!
# Where paths begin

Every path of a reading shows where it begins: its cut has the line of its first vertex in front, or
it is unhandled by this vertex (`Context.mem_starts`). A vertex that goes on with a path shows
nowhere in this way (`Context.first_of_mem_starts`).
-/

namespace WallPanel

open Reading

variable {α : Type}

/-- The first lines of the paths of a routing, by their positions. -/
def Routing.starts (r : Routing α) : List Nat :=
  r.segments.filterMap fun
    | .path cut => cut.source.head?.map (·.statementIndex)
    | .circle _ => none

/-- What is unhandled and where paths begin, by their positions. -/
def startsOf (unhandled : List (Unhandled α)) (routings : List (Routing α)) : List Nat :=
  unhandled.map (·.statementIndex) ++ routings.flatMap Routing.starts

theorem Reading.exists_of_mem_firsts {es : List (Placed α)} {v : Vertex α} (hv : v ∈ firsts es) :
    ∃ p ∈ es, ∃ j, p.role = .vertex j v.entry.statementIndex v := by
  obtain ⟨p, hp, hr⟩ := List.mem_filterMap.mp hv
  cases hrole : p.role with
  | vertex j k w =>
    simp only [hrole, Role.first?, Option.ite_none_right_eq_some, Option.some.injEq] at hr
    obtain ⟨rfl, rfl⟩ := hr
    exact ⟨p, hp, j, hrole⟩
  | _ => simp [hrole, Role.first?] at hr

theorem Reading.mem_vertices_of_mem_firsts {es : List (Placed α)} {v : Vertex α}
    (hv : v ∈ firsts es) : v ∈ vertices es v.entry.statementIndex := by
  obtain ⟨p, hp, j, hr⟩ := exists_of_mem_firsts hv
  exact List.mem_filterMap.mpr ⟨p, hp, by simp [hr, Role.vertex?]⟩

theorem startsOf_renumber (f : Nat → Nat) (us : List (Unhandled α)) (rs : List (Routing α)) :
    startsOf (us.map (·.renumber f)) (rs.map (·.renumber f)) = (startsOf us rs).map f := by
  have hstarts (r : Routing α) : (r.renumber f).starts = r.starts.map f := by
    rw [Routing.starts, Routing.renumber, Routing.starts, List.filterMap_map, List.map_filterMap]
    refine List.filterMap_congr fun segment _ => ?_
    cases segment with
    | circle c => rfl
    | path cut => cases hs : cut.source <;> simp [RoutingSegment.renumber, PathCut.renumber, hs,
        SourceEntry.renumber]
  simp [startsOf, List.flatMap_map, List.map_flatMap, hstarts, Unhandled.renumber,
    Function.comp_def]

theorem startsOf_perm {us us' : List (Unhandled α)} (h : us.Perm us') (rs : List (Routing α)) :
    (startsOf us rs).Perm (startsOf us' rs) :=
  (h.map _).append_right _

variable [Scalar α]

namespace VertexRun

variable {r : VertexRun α} {p : PathCut α}

/-- A path that is cut has the code that its mean offset rounds to. -/
theorem exists_of_cut {kind : PathKind} {points : List (Point α)} {t : Trace α}
    (h : r.cut kind points t = .ok p) : ∃ code,
      (Scalar.mean? (r.toList.filterMap (·.offset))).mapM Scalar.roundHalfUp =
        Except.ok (ε := NoInteger) code ∧
      p = { kind, points, segments := t.segments, controlCode := code, samples := t.samples
            depth := Scalar.mean? ((r.toList.filterMap (·.depth)).map Scalar.abs)
            depthRaw := Scalar.mean? (r.toList.filterMap (·.depth))
            offset := Scalar.mean? (r.toList.filterMap (·.offset))
            orientation := Scalar.mean? (r.toList.filterMap (·.orientation))
            z := Scalar.mean? (r.toList.filterMap (·.z))
            source := r.toList.map (·.entry) } := by
  obtain ⟨code, hcode, hp⟩ := bind_eq_ok_iff.mp h
  exact ⟨code, hcode, (Except.ok.inj hp).symm⟩

/-- A path that is cut keeps two points and has a kind. -/
theorem exists_of_cut? (h : r.cut? = some (.ok p)) : 2 ≤ (dedupe r.trace.samples).length ∧
    ∃ kind, PathKind.of? (closePath (dedupe r.trace.samples)).1.length
        (closePath (dedupe r.trace.samples)).2 = some kind ∧
      r.cut kind (closePath (dedupe r.trace.samples)).1 r.trace = .ok p := by
  unfold cut? at h
  dsimp only at h
  split at h
  · next hlen => exact ⟨hlen, Option.map_eq_some_iff.mp h⟩
  · cases h

end VertexRun

/-- What a path has of the vertices that it was read from. -/
structure PathCut.DrawnBy (p : PathCut α) (r : VertexRun α) : Prop where
  keeps : 2 ≤ (dedupe r.trace.samples).length
  kind : PathKind.of? p.points.length (closePath (dedupe r.trace.samples)).2 = some p.kind
  points : p.points = (closePath (dedupe r.trace.samples)).1
  segments : p.segments = r.trace.segments
  samples : p.samples = r.trace.samples
  source : p.source = r.toList.map (·.entry)

theorem VertexRun.drawnBy_of_cut? {r : VertexRun α} {p : PathCut α}
    (h : r.cut? = some (.ok p)) : p.DrawnBy r := by
  obtain ⟨hlen, kind, hkind, hc⟩ := exists_of_cut? h
  obtain ⟨code, -, rfl⟩ := exists_of_cut hc
  exact ⟨hlen, hkind, rfl, rfl, rfl, rfl⟩

/-- The cut of a path has the lines of its vertices, of which there is one at least. -/
theorem Reading.source_of_cutOf? {es : List (Placed α)} {k : Nat} {cut : PathCut α}
    (h : cutOf? es k = some (.ok cut)) :
    ∃ v vs, vertices es k = v :: vs ∧ cut.source = (v :: vs).map (·.entry) := by
  unfold cutOf? at h
  split at h
  · cases h
  · next v vs hvs => exact ⟨v, vs, hvs, (VertexRun.drawnBy_of_cut? h).source⟩

/-! ## Readable cuts -/

/-- All cuts of a reading can be read. -/
def Reading.Readable (es : List (Placed α)) : Prop :=
  ∀ j, ∀ c ∈ cuts es none j, ∃ segment, c = .ok segment

namespace Reading.Readable

variable {es : List (Placed α)} (h : Readable es) {p : Placed α} {j k : Nat}
include h

theorem circle {d : Except NoInteger (CircleCut α)} (hp : p ∈ es) (hr : p.role = .circle j d) :
    ∃ cut, d = .ok cut := by
  have hmem : d.map .circle ∈ cuts es none j :=
    List.mem_filterMap.mpr ⟨.circle d,
      List.mem_filterMap.mpr ⟨p, hp, by simp [hr, Role.item?]⟩, rfl⟩
  obtain ⟨segment, hseg⟩ := h j _ hmem
  cases d with
  | error => cases hseg
  | ok cut => exact ⟨cut, rfl⟩

theorem run {d : Except NoInteger (PathCut α)} (hk : .run k ∈ items es j)
    (hd : cutOf? es k = some d) : ∃ cut, d = .ok cut := by
  have hmem : d.map .path ∈ cuts es none j :=
    List.mem_filterMap.mpr ⟨_, hk, by simp [itemCut?, hd]⟩
  obtain ⟨segment, hseg⟩ := h j _ hmem
  cases d with
  | error => cases hseg
  | ok cut => exact ⟨cut, rfl⟩

end Reading.Readable

/-! ## Beginnings -/

namespace Context

variable {ss : List (Statement α)} {p : Placed α} {j k i : Nat} {v : Vertex α}
  (h : (ss.map (·.index)).Pairwise (· < ·))
include h

/-- The first of the vertices of a path begins it. -/
theorem index_of_vertices {vs : List (Vertex α)} (hv : vertices (start.read ss) k = v :: vs) :
    v.entry.statementIndex = k := by
  induction ss using List.reverseRecOn generalizing vs with
  | nil => cases hv
  | append_singleton ss s ih =>
    rw [List.map_append, List.pairwise_append] at h
    rw [read_concat, vertices_concat] at hv
    cases hold : vertices (start.read ss) k with
    | cons w ws =>
      rw [hold, List.cons_append, List.cons.injEq] at hv
      exact ih h.1 (hv.1 ▸ hold)
    | nil =>
      have hplays := plays_role ((start.afterAll ss).settle s.command.kind) s
      have hc := (rooted_read h.1).1.settle s.command.kind
      rw [hold, List.nil_append] at hv
      cases hr : ((start.afterAll ss).settle s.command.kind).role s with
      | vertex j k' w =>
        rw [hr] at hplays
        simp only [hr, Role.vertex?] at hv
        split at hv
        · next hk =>
          obtain ⟨rfl, -⟩ : w = v ∧ vs = [] := by simpa [eq_comm] using hv
          rw [← hk, hplays.vertex_index, hplays.vertex_opened.2]
          cases hrun : ((start.afterAll ss).settle s.command.kind).run with
          | none => rfl
          | some n =>
            -- the open path has a vertex already
            obtain ⟨_, u, _, hl, hu, _⟩ := hc.run n hrun
            have hkn : k' = n := by rw [hplays.vertex_opened.2, hrun]; rfl
            have hmem := mem_vertices_of_mem_firsts hl.mem
            rw [hu, ← hkn, hk, hold] at hmem
            cases hmem
        · cases hv
      | _ => simp [hr, Role.vertex?] at hv

/-- The routing of a vertex has a header. -/
theorem exists_header (hp : p ∈ start.read ss) (hr : p.role = .vertex j k v) :
    ∃ w ∈ headers (start.read ss), w.statementIndex = j := by
  obtain ⟨es, c, hes, hc, hplays⟩ := exists_rooted h hp
  rw [hr] at hplays
  obtain ⟨w, hw, hj⟩ := hc.routing j hplays.vertex_opened.1
  exact ⟨w, (hes.sublist.filterMap _).subset hw.mem, hj⟩

/-- Where a path begins shows in the routings or in what is unhandled. -/
theorem mem_starts (hread : Readable (start.read ss)) (hp : p ∈ start.read ss)
    (hr : p.role = .vertex j k v) (hk : v.entry.statementIndex = k) :
    k ∈ startsOf (unhandled (start.read ss) none none) (routings (start.read ss) none) := by
  have hfirst : v ∈ firsts (start.read ss) :=
    List.mem_filterMap.mpr ⟨p, hp, by simp [hr, Role.first?, hk]⟩
  rw [startsOf, List.mem_append]
  cases hc : cutOf? (start.read ss) k with
  | none =>
    have hmem : v.unhandled ∈ unhandled (start.read ss) none none := by
      refine List.mem_append_left _ (List.mem_append_right _ (List.mem_filterMap.mpr ⟨v, hfirst, ?_⟩))
      simp [shortRun?, hk, hc]
    exact .inl (List.mem_map.mpr ⟨_, hmem, hk⟩)
  | some d =>
    have hitem := run_mem_items h hp hr
    have hcut : d.map .path ∈ cuts (start.read ss) none j :=
      List.mem_filterMap.mpr ⟨_, hitem, by simp [itemCut?, hc]⟩
    obtain ⟨cut, rfl⟩ := hread.run hitem hc
    obtain ⟨w, hw, rfl⟩ := exists_header h hp hr
    refine .inr (List.mem_flatMap.mpr ⟨filled (start.read ss) none w,
      mem_routings.mpr ⟨w, hw, List.ne_nil_of_mem hcut, rfl⟩, ?_⟩)
    refine List.mem_filterMap.mpr ⟨.path cut, List.mem_filterMap.mpr ⟨_, hcut, rfl⟩, ?_⟩
    obtain ⟨u, us, hus, hsource⟩ := source_of_cutOf? hc
    simp [hsource, index_of_vertices h hus]

/-- What shows as a beginning is not a vertex that goes on with a path. -/
theorem first_of_mem_starts
    (hi : i ∈ startsOf (unhandled (start.read ss) none none) (routings (start.read ss) none)) :
    ∃ p ∈ start.read ss, p.statement.index = i ∧
      ∀ j k v, p.role = .vertex j k v → v.entry.statementIndex = k := by
  have hs := sound_read h
  rw [startsOf, List.mem_append] at hi
  rcases hi with hi | hi
  · obtain ⟨u, hu, rfl⟩ := List.mem_map.mp hi
    rw [unhandled, List.mem_append, List.mem_append] at hu
    rcases hu with (hu | hu) | hu
    · obtain ⟨p, hp, hr⟩ := List.mem_filterMap.mp hu
      refine ⟨p, hp, (hs.unhandled_index hp hr).symm, fun j k v hrole => ?_⟩
      rw [hrole] at hr
      cases hr
    · obtain ⟨v, hv, hr⟩ := List.mem_filterMap.mp hu
      obtain ⟨p, hp, j, hrole⟩ := exists_of_mem_firsts hv
      obtain ⟨-, rfl⟩ : _ ∧ v.unhandled = u := by simpa [shortRun?] using hr
      refine ⟨p, hp, (hs.first_index hp (by simp [hrole, Role.first?])).symm, fun _ _ _ he => ?_⟩
      rw [hrole] at he
      cases he
      rfl
    · obtain ⟨w, hw, hr⟩ := List.mem_filterMap.mp hu
      obtain ⟨p, hp, hrole⟩ := List.mem_filterMap.mp hw
      obtain ⟨-, rfl⟩ : _ ∧ w.unhandled = u := by simpa [emptyHeader?] using hr
      refine ⟨p, hp, (hs.header_index hp hrole).symm, fun _ _ _ he => ?_⟩
      rw [he] at hrole
      cases hrole
  · obtain ⟨r, hr, hi⟩ := List.mem_flatMap.mp hi
    obtain ⟨w, -, -, rfl⟩ := mem_routings.mp hr
    obtain ⟨segment, hseg, hi⟩ := List.mem_filterMap.mp hi
    cases segment with
    | circle c => cases hi
    | path cut =>
      obtain ⟨k, -, hd⟩ := exists_cutOf?_of_mem hseg
      obtain ⟨v, vs, hvs, hsource⟩ := source_of_cutOf? hd
      obtain rfl : v.entry.statementIndex = i := by simpa [hsource] using hi
      have hv : v ∈ vertices (start.read ss) k := by simp [hvs]
      obtain ⟨p, hp, hr⟩ := List.mem_filterMap.mp hv
      obtain ⟨j, hrole⟩ := Role.vertex?_eq_some.mp hr
      obtain ⟨c', hplays⟩ := hs.plays p hp
      rw [hrole] at hplays
      refine ⟨p, hp, hplays.vertex_index.symm, fun _ _ _ he => ?_⟩
      rw [hrole] at he
      cases he
      exact index_of_vertices h hvs

end Context

end WallPanel
