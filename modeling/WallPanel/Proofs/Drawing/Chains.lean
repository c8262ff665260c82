import WallPanel.Drawing.Layered
import WallPanel.Proofs.Editing.Redrawing
import WallPanel.Proofs.Geometry.Paths

/-!
# Closed chains

A polygon of a model that was read is drawn as one closed chain: each of its pieces starts where the
one before stops, and if the last does not stop where the first starts, then a line is drawn from
the one point to the other (`PathCut.DrawnClosed`). The shapes of the chain stand together in the
drawing, on the layer of the routings.
-/

namespace WallPanel

variable {α : Type} [Scalar α]

/-! ## The commands of a path -/

theorem SourceEntry.motion_of_command? {e : SourceEntry α} {c : PathCommand α}
    (h : e.command? = some c) : c.motion = .line ∨ c.motion = .arc := by
  unfold command? at h
  split at h
  · split at h
    · obtain ⟨radius, -, rfl⟩ := Option.map_eq_some_iff.mp h
      exact .inr rfl
    · split at h
      · cases h
        exact .inl rfl
      · cases h
  · cases h

/-- Only the first command of lines lifts the pen. -/
theorem SourceEntry.motion_ne_move {entries : List (SourceEntry α)} {c : PathCommand α}
    (h : c ∈ (commands entries).tail) : c.motion ≠ .move := by
  unfold commands at h
  split at h
  · cases h
  · next hcommands =>
    have hc : c ∈ entries.filterMap command? := by
      rw [hcommands]
      exact List.mem_cons_of_mem _ h
    obtain ⟨e, -, he⟩ := List.mem_filterMap.mp hc
    rcases motion_of_command? he with hm | hm <;> simp [hm]

/-- The commands that a path passes through after the first come after the first of all. -/
theorem PathCommand.mem_tail_of_mem_tail_usable {c : PathCommand α} {cs : List (PathCommand α)}
    (h : c ∈ (usable cs).tail) : c ∈ cs.tail := by
  cases cs with
  | nil => cases h
  | cons d cs =>
    unfold usable at h
    split at h
    · cases h
    · next e es hes =>
      have hc : c ∈ es := List.mem_of_mem_filter h
      rw [List.filter_cons] at hes
      split at hes
      · cases hes
        exact List.mem_of_mem_filter hc
      · exact List.mem_of_mem_filter (hes ▸ List.mem_cons_of_mem e hc)

/-! ## Chains -/

/-- Pieces make a closed chain: each starts where the one before stops, and the first where the last
does. -/
structure Segment.ClosedChain (pieces : List (Segment α)) : Prop where
  connected : pieces.IsChain fun s t => s.stop = t.start
  closed : ∃ first last, pieces.head? = some first ∧ pieces.getLast? = some last ∧
    (last.stop = first.start ∨ last.stop.same first.start = true)

/-- The line that closes a chain, if its last piece does not stop where its first starts. -/
def Segment.closing (first last : Segment α) : List (Segment α) :=
  if last.stop.same first.start then [] else [.line last.stop first.start false]

/-- A closing line makes a closed chain. -/
theorem Segment.closedChain_closing {pieces : List (Segment α)} {first last : Segment α}
    (hchain : pieces.IsChain fun s t => s.stop = t.start) (hfirst : pieces.head? = some first)
    (hlast : pieces.getLast? = some last) : ClosedChain (pieces ++ closing first last) := by
  unfold closing
  split
  · next hsame =>
    rw [List.append_nil]
    exact ⟨hchain, first, last, hfirst, hlast, .inr hsame⟩
  · refine ⟨List.isChain_append.mpr ⟨hchain, List.isChain_singleton _, ?_⟩, first,
      .line last.stop first.start false, ?_, List.getLast?_concat .., .inl rfl⟩
    · rintro s hs t ht
      obtain rfl := Option.some.inj (hlast.symm.trans hs)
      obtain rfl := Option.some.inj ht
      rfl
    · rw [List.head?_append, hfirst]
      rfl

namespace PathCut

variable {p : PathCut α} {first last : Segment α}

/-- A polygon is drawn as the closed chain of its pieces, with the line that closes it. -/
structure DrawnClosed (p : PathCut α) (first last : Segment α) : Prop where
  head : p.segments.head? = some first
  getLast : p.segments.getLast? = some last
  shapes : p.shapes = (p.segments ++ Segment.closing first last).map Shape.ofSegment
  chain : Segment.ClosedChain (p.segments ++ Segment.closing first last)

theorem exists_drawnClosed (hkind : p.kind = .polygon) (hne : p.segments ≠ [])
    (hchain : p.segments.IsChain fun s t => s.stop = t.start) :
    ∃ first last, p.DrawnClosed first last := by
  have hfirst := List.head?_eq_some_head hne
  have hlast := List.getLast?_eq_some_getLast hne
  refine ⟨_, _, hfirst, hlast, ?_, Segment.closedChain_closing hchain hfirst hlast⟩
  rw [shapes, closingLine, hkind, hfirst, hlast, List.map_append, Segment.closing]
  dsimp only
  split
  · rfl
  · rfl

end PathCut

/-! ## Paths that were read -/

theorem dedupe_singleton_length_le (p : Point α) : (dedupe [p]).length ≤ 1 := by
  unfold dedupe dedupeAfter
  split <;> simp [dedupeAfter]

namespace VertexRun

variable {r : VertexRun α} {p : PathCut α}

/-- Only the first vertex of a path may put the pen down. -/
theorem Recorded.motion_ne_move (h : r.Recorded) {c : PathCommand α}
    (hc : c ∈ (r.toList.map (·.command)).tail) : c.motion ≠ .move := by
  obtain ⟨v, hv, rfl⟩ := List.mem_map.mp hc
  rcases SourceEntry.motion_of_command? (h.rest v hv) with hm | hm <;> simp [hm]

end VertexRun

namespace PathCut

variable {r : VertexRun α} {p : PathCut α} {cs : List (PathCommand α)}

/-- A path is drawn by commands of which none but the first lifts the pen. -/
structure DrawnAlong (p : PathCut α) (cs : List (PathCommand α)) : Prop where
  usable : PathCommand.usable cs ≠ []
  moves : ∀ c ∈ (PathCommand.usable cs).tail, c.motion ≠ .move
  drawn : trace cs = ⟨p.samples, p.segments⟩

theorem DrawnAlong.isChain (h : p.DrawnAlong cs) :
    p.segments.IsChain fun s t => s.stop = t.start := by
  obtain ⟨c, us, t, -, hruns, htrace⟩ := exists_runs_of_usable h.usable h.moves
  obtain ⟨-, hsegments⟩ := Trace.mk.inj (h.drawn.symm.trans htrace)
  rw [hsegments]
  exact hruns.isChain.1

/-- A path of two points that are apart has a piece. -/
theorem DrawnAlong.segments_ne_nil (h : p.DrawnAlong cs) (htwo : 2 ≤ (dedupe p.samples).length) :
    p.segments ≠ [] := by
  obtain ⟨c, us, t, -, hruns, htrace⟩ := exists_runs_of_usable h.usable h.moves
  obtain ⟨hsamples, hsegments⟩ := Trace.mk.inj (h.drawn.symm.trans htrace)
  intro hnil
  rw [hsamples, hruns.samples_eq_nil (hsegments ▸ hnil)] at htwo
  exact absurd htwo (Nat.not_le.mpr (Nat.lt_succ_of_le (dedupe_singleton_length_le _)))

/-- A path that is cut along vertices is drawn along their commands. -/
theorem drawnAlong_of_cut? (hr : r.Recorded) (h : r.cut? = some (.ok p)) :
    p.DrawnAlong (r.toList.map (·.command)) := by
  have hd := VertexRun.drawnBy_of_cut? h
  have hdrawn : trace (r.toList.map (·.command)) = ⟨p.samples, p.segments⟩ := by
    rw [hd.samples, hd.segments]
    rfl
  refine ⟨fun hnil => ?_, fun c hc => ?_, hdrawn⟩
  · have hkeeps := hd.keeps
    rw [VertexRun.trace, trace_of_usable_eq_nil hnil] at hkeeps
    cases hkeeps
  · exact hr.motion_ne_move (PathCommand.mem_tail_of_mem_tail_usable hc)

end PathCut

/-! ## The drawing -/

/-- What stands together in a list stands together in what is made of its members one by one. -/
theorem exists_infix_of_mapM {ε β γ : Type} {f : β → Except ε γ} {l k : List β} {l' : List γ}
    (h : l.mapM f = .ok l') (hk : k <:+: l) : ∃ k', k.mapM f = .ok k' ∧ k' <:+: l' := by
  obtain ⟨before, after, rfl⟩ := hk
  rw [List.mapM_append, List.mapM_append] at h
  obtain ⟨both, hboth, h⟩ := bind_eq_ok_iff.mp h
  obtain ⟨before', -, hboth⟩ := bind_eq_ok_iff.mp hboth
  obtain ⟨k', hk, hboth⟩ := bind_eq_ok_iff.mp hboth
  obtain ⟨after', -, h⟩ := bind_eq_ok_iff.mp h
  obtain rfl := Except.ok.inj hboth
  exact ⟨k', hk, before', after', Except.ok.inj h⟩

namespace WallModel

variable {m : WallModel α} {r : Routing α} {p : PathCut α} {names : LayerNames}

omit [Scalar α] in
theorem placed_eq_ok {s : LayerRole × Shape α} {q : LayerName × Shape α}
    (h : placed names s = .ok q) : ∃ name, LayerName.ofRole names s.1 = .ok name ∧
      q = (name, s.2) := by
  obtain ⟨name, hname, h⟩ := bind_eq_ok_iff.mp h
  split at h
  · exact ⟨name, hname, (Except.ok.inj h).symm⟩
  · cases h

omit [Scalar α] in
/-- Shapes of one role, if there are any, go on the layer of that role. -/
theorem exists_layer_of_mapM_placed {role : LayerRole} {shapes : List (Shape α)}
    (hne : shapes ≠ []) {drawn : List (LayerName × Shape α)}
    (h : (shapes.map (role, ·)).mapM (placed names) = .ok drawn) :
    ∃ name, LayerName.ofRole names role = .ok name ∧ drawn = shapes.map (name, ·) := by
  induction shapes generalizing drawn with
  | nil => exact absurd rfl hne
  | cons s shapes ih =>
    rw [List.map_cons, List.mapM_cons] at h
    obtain ⟨q, hs, h⟩ := bind_eq_ok_iff.mp h
    obtain ⟨rest, hrest, h⟩ := bind_eq_ok_iff.mp h
    obtain ⟨name, hname, rfl⟩ := placed_eq_ok hs
    refine ⟨name, hname, ?_⟩
    rw [← Except.ok.inj h, List.map_cons]
    by_cases hnil : shapes = []
    · subst hnil
      cases hrest
      rfl
    · obtain ⟨name', hname', rfl⟩ := ih hnil hrest
      obtain rfl := Except.ok.inj (hname.symm.trans hname')
      rfl

/-- The shapes of a path stand together among those of the wall. -/
theorem shapes_within_shapes (hr : r ∈ m.routings) (hp : .path p ∈ r.segments) :
    p.shapes.map (LayerRole.routing, ·) <:+: m.shapes := by
  have hpath : p.shapes <:+: r.segments.flatMap RoutingSegment.shapes :=
    List.infix_of_mem_flatten (List.mem_map_of_mem hp)
  have hrouting : r.segments.flatMap RoutingSegment.shapes <:+:
      m.routings.flatMap fun r => r.segments.flatMap RoutingSegment.shapes :=
    List.infix_of_mem_flatten (List.mem_map_of_mem hr)
  have hall := (hpath.trans hrouting).map (LayerRole.routing, ·)
  unfold shapes
  exact hall.trans ⟨_, _, rfl⟩

/-- The shapes of a path stand together in the drawing, on the layer of the routings. -/
theorem exists_shapes_in_drawing {units : String} {d : Drawing α} (hr : r ∈ m.routings)
    (hp : .path p ∈ r.segments) (hne : p.shapes ≠ []) (hd : m.drawing units names = .ok d) :
    ∃ name, LayerName.ofRole names .routing = .ok name ∧
      p.shapes.map (name, ·) <:+: d.shapes := by
  unfold drawing at hd
  split at hd
  · cases hd
  · next kind hkind =>
    obtain ⟨layers, -, hd⟩ := bind_eq_ok_iff.mp hd
    obtain ⟨drawn, hdrawn, hd⟩ := bind_eq_ok_iff.mp hd
    obtain ⟨k, hk, hin⟩ := exists_infix_of_mapM hdrawn (shapes_within_shapes hr hp)
    obtain ⟨name, hname, rfl⟩ := exists_layer_of_mapM_placed hne hk
    exact ⟨name, hname, by rwa [← Except.ok.inj hd]⟩

end WallModel

/-! ## Connected paths -/

/-- Paths are connected and end where they should. A path follows the commands that it passes
through, unless one after the first lifts the pen, and neither the lines of a path nor the vertices
of a document say such commands. So a polygon of a model that was read is drawn as a closed chain,
the shapes of which stand together in the drawing. -/
theorem connected_of_commands :
    (∀ cs : List (PathCommand α), PathCommand.usable cs ≠ [] →
      (∀ c ∈ (PathCommand.usable cs).tail, c.motion ≠ .move) →
      (trace cs).Follows (PathCommand.usable cs)) ∧
    (∀ entries : List (SourceEntry α), ∀ c ∈ (SourceEntry.commands entries).tail,
      c.motion ≠ .move) ∧
    ∀ (text : String) (k : Int) (m : WallModel α), parseModel text k = .ok m →
      ∀ r ∈ m.routings, ∀ p, .path p ∈ r.segments →
        (∃ run : VertexRun α, run.cut? = some (.ok p) ∧
          p.DrawnAlong (run.toList.map (·.command))) ∧
        (p.kind = .polygon → (∃ first last, p.DrawnClosed first last) ∧
          ∀ units names d, m.drawing units names = .ok d →
            ∃ name, LayerName.ofRole names .routing = .ok name ∧
              p.shapes.map (name, ·) <:+: d.shapes) := by
  refine ⟨fun cs => trace_follows, fun entries c => SourceEntry.motion_ne_move,
    fun text k m hm r hr p hp => ?_⟩
  obtain ⟨run, hrun, hcut⟩ := WallModel.exists_recorded_of_parseModel hm hr hp
  have halong := PathCut.drawnAlong_of_cut? hrun hcut
  have hkeeps := (VertexRun.drawnBy_of_cut? hcut).keeps
  rw [← (VertexRun.drawnBy_of_cut? hcut).samples] at hkeeps
  have hne := halong.segments_ne_nil hkeeps
  refine ⟨⟨run, hcut, halong⟩, fun hkind => ?_⟩
  refine ⟨PathCut.exists_drawnClosed hkind hne halong.isChain, fun units names d hd => ?_⟩
  have hshapes : p.shapes ≠ [] := by simp [PathCut.shapes, hne]
  exact WallModel.exists_shapes_in_drawing hr hp hshapes hd

set_option maxRecDepth 100000 in
/-- Of three commands with an unknown motion between them two are passed through, and a triangle is
closed by a line. -/
theorem connected_of_commands_of_triangle :
    ∃ (cs : List (PathCommand Float)) (m : WallModel Float) (r : Routing Float)
        (p : PathCut Float) (d : Drawing Float),
      cs = [⟨.line, ⟨0, 0⟩, none⟩, ⟨.other, ⟨1, 1⟩, none⟩, ⟨.line, ⟨1, 0⟩, none⟩] ∧
      (PathCommand.usable cs).length = 2 ∧ (trace cs).Follows (PathCommand.usable cs) ∧
      parseModel "PAF;PP 0,0;PP 10,0;PP 10,10" 1 = .ok m ∧ r ∈ m.routings ∧
      .path p ∈ r.segments ∧ p.kind = .polygon ∧ p.shapes.length = 3 ∧
      (∃ first last, p.DrawnClosed first last) ∧ m.drawing "mm" [] = .ok d ∧
      ∃ name, LayerName.ofRole [] .routing = .ok name ∧ p.shapes.map (name, ·) <:+: d.shapes := by
  let cs : List (PathCommand Float) :=
    [⟨.line, ⟨0, 0⟩, none⟩, ⟨.other, ⟨1, 1⟩, none⟩, ⟨.line, ⟨1, 0⟩, none⟩]
  have hlength : (PathCommand.usable cs).length = 2 := by decide +kernel
  have hmoves : ∀ c ∈ (PathCommand.usable cs).tail, c.motion ≠ .move := by decide +kernel
  have hne : PathCommand.usable cs ≠ [] := fun hnil => by simp [hnil] at hlength
  have heval : ((parseModel (α := Float) "PAF;PP 0,0;PP 10,0;PP 10,10" 1).toOption.any fun m =>
      (m.drawing "mm" []).toOption.isSome && m.firstPath?.any fun p =>
        p.kind = .polygon ∧ p.shapes.length = 3) = true := by
    decide +kernel
  obtain ⟨m, hm, h⟩ := (Option.any_eq_true ..).mp heval
  obtain ⟨hdrawn, hpath⟩ := Bool.and_eq_true_iff.mp h
  obtain ⟨d, hd⟩ := Option.isSome_iff_exists.mp hdrawn
  obtain ⟨p, hfirst, hp⟩ := (Option.any_eq_true ..).mp hpath
  obtain ⟨hkind, hshapes⟩ := of_decide_eq_true hp
  obtain ⟨r, hr, hp⟩ := WallModel.mem_of_firstPath? hfirst
  have hm := eq_ok_of_toOption hm
  have hd := eq_ok_of_toOption hd
  obtain ⟨hfollows, -, hread⟩ := connected_of_commands (α := Float)
  obtain ⟨hclosed, hdrawing⟩ := (hread _ 1 m hm r hr p hp).2 hkind
  exact ⟨cs, m, r, p, d, rfl, hlength, hfollows cs hne hmoves, hm, hr, hp, hkind, hshapes, hclosed,
    hd, hdrawing _ _ d hd⟩

/-- A command with an unknown motion that comes first puts the pen down, so that a line after it
draws a piece. Without it there is one command, and no piece to draw. -/
theorem segments_after_unknown_motion :
    ∃ cs : List (PathCommand Float),
      cs = [⟨.other, ⟨0, 0⟩, none⟩, ⟨.line, ⟨1, 1⟩, none⟩] ∧
      (∀ c ∈ cs, c.motion ≠ .move) ∧
      (cs.filter fun c => c.point.isFinite ∧ c.motion ≠ .other).length = 1 ∧
      (trace cs).segments.length = 1 := by
  refine ⟨_, rfl, ?_, ?_, ?_⟩
  · decide +kernel
  · decide +kernel
  · decide +kernel

end WallPanel
