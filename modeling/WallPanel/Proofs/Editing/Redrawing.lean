import WallPanel.Number.Binary64
import WallPanel.Proofs.Editing.Sources

/-!
# Drawing a path again

The lines of a path say the commands that its vertices gave when the document was read
(`VertexRun.commands_entries`), so the path that they draw again has the samples and the pieces that
it had. Its points are those that it had too, but for a path that goes out and comes back to where
it began: read, such a path has two points, and drawn again it has the last one as well
(`WallModel.redraws_of_parseModel`).
-/

namespace WallPanel

variable {α : Type} [Scalar α]

/-! ## Drawing -/

/-- However a path comes to its first point, it begins there. -/
theorem trace_first (c : PathCommand α) (motion : Motion) (cs : List (PathCommand α)) :
    trace ({ c with motion } :: cs) = trace (c :: cs) := by
  simp only [trace, List.filter_cons]
  split <;> rfl

/-- The lines of vertices say their commands. The line of the first does not say how the pen gets
there. -/
structure VertexRun.Recorded (r : VertexRun α) : Prop where
  first : ∃ motion, r.first.entry.command? = some { r.first.command with motion }
  rest : ∀ v ∈ r.rest, v.entry.command? = some v.command

namespace VertexRun

variable {r : VertexRun α} {p : PathCut α}

theorem commands_entries (h : r.Recorded) : SourceEntry.commands (r.toList.map (·.entry)) =
    { r.first.command with motion := .move } :: r.rest.map (·.command) := by
  obtain ⟨motion, hfirst⟩ := h.first
  have hrest : (r.rest.map (·.entry)).filterMap SourceEntry.command? =
      r.rest.map (·.command) := by
    rw [List.filterMap_map, ← List.filterMap_eq_map]
    exact List.filterMap_congr h.rest
  rw [toList, List.map_cons, SourceEntry.commands, List.filterMap_cons_some hfirst, hrest]

theorem trace_commands (h : r.Recorded) :
    WallPanel.trace (SourceEntry.commands (r.toList.map (·.entry))) = r.trace := by
  rw [commands_entries h, trace_first]
  rfl

end VertexRun

/-! ## The lines of vertices -/

namespace Vertex

variable {s : Statement α} {v : Vertex α}

theorem command?_of_ofPoint? {isFirst : Bool} (hword : s.command.word = "PP")
    (h : ofPoint? s isFirst = some v) :
    v.entry.command? = some { v.command with motion := .line } := by
  simp only [ofPoint?, Option.bind_eq_bind, Option.bind_eq_some_iff] at h
  obtain ⟨x, hx, y, hy, ⟨⟩⟩ := h
  unfold Statement.number? at hx hy
  rcases hn : s.numbers with _ | ⟨x', _ | ⟨y', rest⟩⟩
  · simp [hn] at hx
  · simp [hn] at hy
  · simp only [hn, List.getElem?_cons_zero, List.getElem?_cons_succ, Option.some.injEq] at hx hy
    simp [entryOf, SourceEntry.command?, hn, hword, hx, hy]

theorem command?_of_ofCurve? (hword : s.command.word = "KB") (h : ofCurve? s = some v) :
    v.entry.command? = some v.command := by
  simp only [ofCurve?, Option.bind_eq_bind, Option.bind_eq_some_iff] at h
  obtain ⟨flag, -, x, hx, y, hy, radius, hr, ⟨⟩⟩ := h
  unfold Statement.number? at hx hy hr
  rcases hn : s.numbers with _ | ⟨x', _ | ⟨y', _ | ⟨r', rest⟩⟩⟩
  · simp [hn] at hx
  · simp [hn] at hy
  · simp [hn] at hr
  · simp only [hn, List.getElem?_cons_zero, List.getElem?_cons_succ, Option.some.injEq] at hx hy hr
    simp [entryOf, SourceEntry.command?, hn, hword, hx, hy, hr]

end Vertex

/-- The line of a vertex says its command, but at the first vertex of a path, which puts the pen
down. -/
theorem Context.Plays.command?_entry {c : Context α} {s : Statement α} {j k : Nat} {v : Vertex α}
    (h : c.Plays s (.vertex j k v)) (hc : Command.ofWord s.command.word = .ok s.command) :
    (∃ motion, v.entry.command? = some { v.command with motion }) ∧
      (v.entry.statementIndex ≠ k → v.entry.command? = some v.command) := by
  cases h with
  | point kind usable closed opened entry =>
    have hword : s.command.word = "PP" := (Command.kind_ofWord_iff (by decide) hc).mp kind
    have hline := Vertex.command?_of_ofPoint? hword entry
    refine ⟨⟨_, hline⟩, fun hne => ?_⟩
    cases hrun : c.run with
    | none =>
      refine absurd ?_ hne
      rw [(Vertex.of_ofPoint? entry).1, hrun]
      rfl
    | some n =>
      have hmotion : v.command.motion = .line := by
        simp only [hrun, Option.isNone_some, Vertex.ofPoint?, Option.bind_eq_bind,
          Option.bind_eq_some_iff] at entry
        obtain ⟨x, -, y, -, ⟨⟩⟩ := entry
        rfl
      rw [hline, ← hmotion]
  | curve kind usable opened entry =>
    have hword : s.command.word = "KB" := (Command.kind_ofWord_iff (by decide) hc).mp kind
    have hline := Vertex.command?_of_ofCurve? hword entry
    exact ⟨⟨v.command.motion, hline⟩, fun _ => hline⟩

section Read

variable {texts : List String} {ss : List (Statement α)} {k : Nat} {v : Vertex α}
  {vs : List (Vertex α)}

/-- The lines of the vertices of a path say their commands. -/
theorem recorded_of_vertices (hss : Statement.readAll 0 texts = .ok ss)
    (hv : Reading.vertices (Context.start.read ss) k = v :: vs) :
    (⟨v, vs⟩ : VertexRun α).Recorded := by
  have hsorted := Statement.sorted_readAll hss
  have hsound := Context.sound_read hsorted
  have hrole : ∀ u ∈ v :: vs, ∃ p ∈ Context.start.read ss, ∃ j, p.role = .vertex j k u := by
    intro u hu
    rw [← hv] at hu
    obtain ⟨p, hp, hr⟩ := List.mem_filterMap.mp hu
    exact ⟨p, hp, Role.vertex?_eq_some.mp hr⟩
  have hline : ∀ u ∈ v :: vs, (∃ motion, u.entry.command? = some { u.command with motion }) ∧
      (u.entry.statementIndex ≠ k → u.entry.command? = some u.command) := by
    intro u hu
    obtain ⟨p, hp, j, hr⟩ := hrole u hu
    obtain ⟨c, hplays⟩ := hsound.plays p hp
    obtain ⟨n, t, -, -, hread⟩ := Statement.exists_text hss (Context.statement_mem hp)
    exact (hr ▸ hplays).command?_entry (Statement.ofWord_read hread)
  have hgrow : ((v :: vs).map (·.entry.statementIndex)).Pairwise (· < ·) := by
    rw [← hv]
    refine hsound.sorted_filterMap fun p hp u hu => ?_
    obtain ⟨j, hr⟩ := Role.vertex?_eq_some.mp hu
    obtain ⟨c, hplays⟩ := hsound.plays p hp
    exact (hr ▸ hplays).vertex_index
  refine ⟨(hline v List.mem_cons_self).1, fun u hu => ?_⟩
  refine (hline u (List.mem_cons_of_mem _ hu)).2 fun he => ?_
  have hlt : v.entry.statementIndex < u.entry.statementIndex :=
    (List.pairwise_cons.mp hgrow).1 _ (List.mem_map_of_mem hu)
  rw [Context.index_of_vertices hsorted hv, he] at hlt
  exact Nat.lt_irrefl k hlt

end Read

/-! ## Paths -/

namespace PathCut

variable {p : PathCut α}

/-- Whether a path goes out and comes back: it ends near where it begins, with one point between. -/
def returns (p : PathCut α) : Bool :=
  p.kind = .polyline && isClosedLoop (dedupe p.samples)

/-- What drawing a path again leaves of it: all but the points of a path that comes back, which has
the point where it ends as well then. -/
structure Redraws (p : PathCut α) : Prop where
  drawn : p.redrawn.2 = true
  rest : p.redrawn.1 = { p with points := p.redrawn.1.points }
  same : p.returns = false → p.redrawn.1.points = p.points
  returning : p.returns = true → ∃ a b c, p.points = [a, b] ∧ p.redrawn.1.points = [a, b, c] ∧
    a.near c = true

/-- A path is drawn again as its lines say, as long as they draw anything. -/
theorem redrawn_of_trace {t : Trace α} (ht : WallPanel.trace (SourceEntry.commands p.source) = t)
    (hkept : dedupe t.samples ≠ []) : p.redrawn = ({ p with
      points := match p.kind with
        | .polygon => (closePath (dedupe t.samples)).1
        | .polyline => dedupe t.samples
      segments := t.segments
      samples := t.samples }, true) := by
  obtain ⟨q, qs, hq⟩ := List.exists_cons_of_ne_nil hkept
  cases hk : p.kind <;> simp [redrawn, ht, hq, hk]

/-- The lines of a path draw the samples and the pieces that it has. -/
theorem trace_source {r : VertexRun α} (hr : r.Recorded) (h : r.cut? = some (.ok p)) :
    WallPanel.trace (SourceEntry.commands p.source) = ⟨p.samples, p.segments⟩ := by
  have hd := VertexRun.drawnBy_of_cut? h
  rw [hd.source, VertexRun.trace_commands hr, hd.segments, hd.samples]

/-- A path whose lines say its commands is drawn again from the samples that it has. -/
theorem redrawn_eq {r : VertexRun α} (hr : r.Recorded) (h : r.cut? = some (.ok p)) :
    p.redrawn = ({ p with points := match p.kind with
      | .polygon => (closePath (dedupe p.samples)).1
      | .polyline => dedupe p.samples }, true) := by
  have hd := VertexRun.drawnBy_of_cut? h
  refine redrawn_of_trace (trace_source hr h) fun hnil => ?_
  have hlen := hd.keeps
  rw [← hd.samples, hnil] at hlen
  cases hlen

theorem redraws_of_cut? {r : VertexRun α} (hr : r.Recorded) (h : r.cut? = some (.ok p)) :
    p.Redraws := by
  obtain ⟨hlen, hkind, hpoints, -, hsamples, -⟩ := VertexRun.drawnBy_of_cut? h
  rw [← hsamples] at hlen hkind hpoints
  refine ⟨by rw [redrawn_eq hr h], by rw [redrawn_eq hr h], fun hreturns => ?_, fun hreturns => ?_⟩
  · rw [redrawn_eq hr h]
    cases hk : p.kind with
    | polygon => exact hpoints.symm
    | polyline =>
      have hopen : isClosedLoop (dedupe p.samples) = false := by simpa [returns, hk] using hreturns
      simp [hpoints, closePath, hopen]
  · obtain ⟨hk, hclosed⟩ : p.kind = .polyline ∧ isClosedLoop (dedupe p.samples) = true := by
      simpa [returns] using hreturns
    have hdrop : closePath (dedupe p.samples) = ((dedupe p.samples).dropLast, true) :=
      if_pos hclosed
    have hshort : ¬3 ≤ p.points.length := fun hlong => by
      simp [PathKind.of?, hdrop, hlong, hk] at hkind
    have htwo := length_closePath_dedupe hlen
    rw [redrawn_eq hr h, hk]
    rw [hpoints, hdrop] at hshort
    rw [hpoints, hdrop]
    rw [hdrop] at htwo
    have hlength : (dedupe p.samples).length = 3 := by
      simp only [List.length_dropLast] at hshort htwo
      omega
    obtain ⟨a, b, c, hd⟩ := List.length_eq_three.mp hlength
    rw [hd] at hclosed ⊢
    exact ⟨a, b, c, rfl, rfl, hclosed⟩

end PathCut

/-- The path that a cut is, if it is one. -/
def RoutingSegment.path? : RoutingSegment α → Option (PathCut α)
  | .path p => some p
  | .circle _ => none

omit [Scalar α] in
theorem RoutingSegment.path?_eq_some {segment : RoutingSegment α} {p : PathCut α} :
    segment.path? = some p ↔ segment = .path p := by
  cases segment <;> simp [path?]

namespace WallModel

variable {m : WallModel α} {r : Routing α} {p : PathCut α}

/-- A path of a model that was read is cut along vertices whose lines say their commands. -/
theorem exists_recorded_of_parseModel {text : String} {k : Int} (hm : parseModel text k = .ok m)
    (hr : r ∈ m.routings) (hp : .path p ∈ r.segments) :
    ∃ run : VertexRun α, run.Recorded ∧ run.cut? = some (.ok p) := by
  obtain ⟨⟨ss, hss, hsaid⟩, -, -⟩ := says_of_parseModel hm
  obtain ⟨w, -, he, -⟩ := hsaid.exists_header hr
  change .path p ∈ r.anonymous.segments at hp
  rw [he] at hp
  obtain ⟨n, -, hcut⟩ := Reading.exists_cutOf?_of_mem hp
  unfold Reading.cutOf? at hcut
  split at hcut
  · cases hcut
  · next v vs hv => exact ⟨_, recorded_of_vertices hss hv, hcut⟩

/-- A path of a model that was read can be drawn again, and keeps its kind, its samples and its
pieces then. It keeps its points, unless it goes out and comes back: then the point where it ends,
which the model leaves out, is added to them. -/
theorem redraws_of_parseModel {text : String} {k : Int} (hm : parseModel text k = .ok m)
    (hr : r ∈ m.routings) (hp : .path p ∈ r.segments) : p.Redraws := by
  obtain ⟨⟨ss, hss, hsaid⟩, -, -⟩ := says_of_parseModel hm
  obtain ⟨w, -, he, -⟩ := hsaid.exists_header hr
  change .path p ∈ r.anonymous.segments at hp
  rw [he] at hp
  obtain ⟨n, -, hcut⟩ := Reading.exists_cutOf?_of_mem hp
  unfold Reading.cutOf? at hcut
  split at hcut
  · cases hcut
  · next v vs hv => exact PathCut.redraws_of_cut? (recorded_of_vertices hss hv) hcut

/-- The path that begins the first routing of a model. -/
def firstPath? (m : WallModel α) : Option (PathCut α) :=
  m.routings.head?.bind fun r => r.segments.head?.bind RoutingSegment.path?

omit [Scalar α] in
theorem mem_of_firstPath? (h : m.firstPath? = some p) :
    ∃ r ∈ m.routings, .path p ∈ r.segments := by
  obtain ⟨r, hr, h⟩ := Option.bind_eq_some_iff.mp h
  obtain ⟨segment, hsegment, h⟩ := Option.bind_eq_some_iff.mp h
  rw [RoutingSegment.path?_eq_some.mp h] at hsegment
  exact ⟨r, List.mem_of_head? hr, List.mem_of_head? hsegment⟩

theorem exists_firstPath {text : String} {k : Int} {P : PathCut α → Prop} [DecidablePred P]
    (h : ((parseModel text k).toOption.bind firstPath?).any (fun p => P p) = true) :
    ∃ (m : WallModel α) (r : Routing α) (p : PathCut α),
      parseModel text k = .ok m ∧ r ∈ m.routings ∧ .path p ∈ r.segments ∧ P p := by
  obtain ⟨p, hpath, hP⟩ := (Option.any_eq_true ..).mp h
  obtain ⟨m, hm, hfirst⟩ := Option.bind_eq_some_iff.mp hpath
  obtain ⟨r, hr, hp⟩ := mem_of_firstPath? hfirst
  exact ⟨m, r, p, eq_ok_of_toOption hm, hr, hp, of_decide_eq_true hP⟩

set_option maxRecDepth 100000 in
/-- A path that begins with a curve and ends where it began. -/
theorem redraws_of_parseModel_of_curve :
    ∃ (text : String) (m : WallModel Float) (r : Routing Float) (p : PathCut Float),
      text = "PAF;KB 0,0,5,ccw;PP 10,0;PP 10,8;PP 0,0" ∧ parseModel text 1 = .ok m ∧
      r ∈ m.routings ∧ .path p ∈ r.segments ∧ p.kind = .polygon ∧ p.Redraws := by
  have heval : (((parseModel (α := Float) "PAF;KB 0,0,5,ccw;PP 10,0;PP 10,8;PP 0,0"
      1).toOption.bind firstPath?).any fun p => p.kind = PathKind.polygon) = true := by
    decide +kernel
  obtain ⟨m, r, p, hm, hr, hp, hkind⟩ := exists_firstPath heval
  exact ⟨_, m, r, p, rfl, hm, hr, hp, hkind, redraws_of_parseModel hm hr hp⟩

set_option maxRecDepth 100000 in
/-- A path that goes out and comes back has two points, and three when it is drawn again. -/
theorem redrawn_points_of_returning_path :
    ∃ (m : WallModel Float) (r : Routing Float) (p : PathCut Float),
      parseModel "PAF;PP 0,0;PP 10,0;PP 0,0" 1 = .ok m ∧ r ∈ m.routings ∧
      .path p ∈ r.segments ∧ p.points.length = 2 ∧ p.redrawn.1.points.length = 3 := by
  have heval : (((parseModel (α := Float) "PAF;PP 0,0;PP 10,0;PP 0,0" 1).toOption.bind
      firstPath?).any fun p => p.points.length = 2 ∧ p.redrawn.1.points.length = 3) = true := by
    decide +kernel
  exact exists_firstPath heval

end WallModel

end WallPanel
