import WallPanel.Proofs.Attribution.Document
import WallPanel.Proofs.Editing.Redrawing
import WallPanel.Proofs.Geometry.Flags

/-!
# Curves and their flags

A curve has its flag in the fourth token of its statement, whatever stands there: a statement with
no flag, in which another parameter is the fourth token, is read with that as its flag. So a curve
is unhandled for the count of its numbers and tokens, or for want of a routing, but never for what
its flag is, and every arc of a path is cut as the flag of one of its lines asks
(`flagged_of_parseModel`).

* `PathCut.Flagged`: a path whose curves have flags and whose arcs are asked for by them.
* `SourceEntry.of_command?_request`: only the line of a curve asks for an arc.
-/

namespace WallPanel

variable {α : Type} [Scalar α]

/-! ## Lines -/

namespace SourceEntry

variable {e : SourceEntry α} {es : List (SourceEntry α)} {c : PathCommand α}
  {request : ArcRequest α}

theorem exists_of_mem_commands (h : c ∈ commands es) :
    ∃ e ∈ es, ∃ motion, e.command? = some { c with motion } := by
  unfold commands at h
  split at h
  · cases h
  · next first rest hcommands =>
    -- the first command is made a move, whatever its line says
    have hmem {c' : PathCommand α} (hc' : c' ∈ first :: rest) : ∃ e ∈ es, e.command? = some c' := by
      rw [← hcommands] at hc'
      exact List.mem_filterMap.mp hc'
    rcases List.mem_cons.mp h with rfl | hc
    · obtain ⟨e, he, hcommand⟩ := hmem List.mem_cons_self
      exact ⟨e, he, first.motion, hcommand⟩
    · obtain ⟨e, he, hcommand⟩ := hmem (List.mem_cons_of_mem _ hc)
      exact ⟨e, he, c.motion, hcommand⟩

/-- Only a curve asks for an arc, by its radius and its flag. -/
theorem of_command?_request (h : e.command? = some c) (hr : c.request = some request) :
    e.command = "KB" ∧ ∃ radius, e.numbers[2]? = some radius ∧ e.numbers[0]? = some c.point.x ∧
      e.numbers[1]? = some c.point.y ∧ request = .ofFlag radius e.flag := by
  unfold command? at h
  split at h
  · next x y rest hn =>
    split at h
    · next hword =>
      obtain ⟨radius, hradius, rfl⟩ := Option.map_eq_some_iff.mp h
      cases hr
      refine ⟨hword, radius, ?_, ?_, ?_, rfl⟩
      · simpa [hn, List.head?_eq_getElem?] using hradius
      · simp [hn, PathCommand.arcTo]
      · simp [hn, PathCommand.arcTo]
    · split at h
      · cases h
        cases hr
      · cases h
  · cases h

end SourceEntry

/-! ## Paths -/

/-- The curves of a path have flags, and its arcs are as these ask. -/
structure PathCut.Flagged (p : PathCut α) (ss : List (Statement α)) : Prop where
  /-- The flag of a curve is the fourth token of its statement. -/
  line : ∀ e ∈ p.source, ∃ s ∈ ss, e = s.line ∧
    (e.command = "KB" → 3 ≤ e.numbers.length ∧ ∃ f, (tokens s.body)[3]? = some f ∧ e.flag = some f)
  /-- An arc runs to the point of a curve, and is as the flag of the curve asks. -/
  arc : ∀ a, .arc a ∈ p.segments → ∃ e ∈ p.source, e.command = "KB" ∧
    e.numbers[0]? = some a.stop.x ∧ e.numbers[1]? = some a.stop.y ∧
    ∃ f, e.flag = some f ∧ a.AskedBy f

section Document

variable {texts : List String} {ss : List (Statement α)} {m : WallModel α} {r : Routing α}
  {p : PathCut α}

/-- A line of a path is the line of a statement. -/
theorem WallModel.Says.exists_line_of_source (hss : Statement.readAll 0 texts = .ok ss)
    (h : m.Says (Context.start.read ss)) (hr : r ∈ m.routings) (hp : .path p ∈ r.segments)
    {e : SourceEntry α} (he : e ∈ p.source) : ∃ s ∈ ss, e = s.line ∧ s.HasLine ∧
      Command.ofWord s.command.word = .ok s.command := by
  have hsound := Context.sound_read (Statement.sorted_readAll hss)
  have hE : .routing r ∈ m.entities := List.mem_append_right _ (List.mem_map_of_mem hr)
  have hlines : e ∈ (Entity.routing r).lines := List.mem_flatMap.mpr ⟨_, hp, he⟩
  obtain ⟨q, hq, -, he⟩ := h.exists_role hsound hE hlines
  obtain ⟨c, hplays⟩ := hsound.plays q hq
  obtain ⟨_, _, -, -, hread⟩ := Statement.exists_text hss (Context.statement_mem hq)
  obtain ⟨heq, hline⟩ := hplays.eq_line (Statement.ofWord_read hread) he
  exact ⟨q.statement, Context.statement_mem hq, heq, hline, Statement.ofWord_read hread⟩

omit [Scalar α] in
theorem Statement.HasLine.exists_flag {s : Statement α} (h : s.HasLine)
    (hc : Command.ofWord s.command.word = .ok s.command) (hk : s.line.command = "KB") :
    3 ≤ s.line.numbers.length ∧ ∃ f, (tokens s.body)[3]? = some f ∧ s.line.flag = some f := by
  obtain ⟨hlength, hsome⟩ := h.curve hc hk
  have hcurve : s.command.kind = .curve := (Command.kind_ofWord_iff (by decide) hc).mpr hk
  have hflag : s.line.flag = (tokens s.body)[3]? := if_pos hcurve
  obtain ⟨f, hf⟩ := Option.isSome_iff_exists.mp hsome
  exact ⟨hlength, f, hflag.symm.trans hf, hf⟩

/-- An arc of a path is asked for by the line of a curve, which it runs to. -/
theorem PathCut.exists_line_of_arc {run : VertexRun α} (hrecorded : run.Recorded)
    (hcut : run.cut? = some (.ok p)) {a : Arc α} (ha : .arc a ∈ p.segments) :
    ∃ e ∈ p.source, e.command = "KB" ∧ e.numbers[0]? = some a.stop.x ∧
      e.numbers[1]? = some a.stop.y ∧
      ∃ pen radius, Arc.solve? pen a.stop (.ofFlag radius e.flag) = some a := by
  have htrace := PathCut.trace_source hrecorded hcut
  have hsegments : p.segments = (trace (SourceEntry.commands p.source)).segments := by
    rw [htrace]
  rw [hsegments] at ha
  obtain ⟨c, hc, pen, request, hrequest, hsolve⟩ := Trace.exists_of_arc_mem ha
  obtain ⟨e, he, motion, hcommand⟩ := SourceEntry.exists_of_mem_commands (List.mem_of_mem_filter hc)
  obtain ⟨hword, radius, -, hx, hy, rfl⟩ := SourceEntry.of_command?_request hcommand hrequest
  obtain ⟨-, hstop⟩ := Arc.ends_of_solve? hsolve
  rw [hstop]
  exact ⟨e, he, hword, hx, hy, pen, radius, hsolve⟩

theorem flagged_of_says {text : String} {k : Int} (hm : parseModel text k = .ok m)
    (hss : Statement.readAll 0 (splitStatements text) = .ok ss)
    (h : m.Says (Context.start.read ss)) (hr : r ∈ m.routings) (hp : .path p ∈ r.segments) :
    p.Flagged ss := by
  obtain ⟨run, hrecorded, hcut⟩ := WallModel.exists_recorded_of_parseModel hm hr hp
  constructor
  · intro e he
    obtain ⟨s, hs, rfl, hline, hc⟩ := h.exists_line_of_source hss hr hp he
    exact ⟨s, hs, rfl, fun hk => hline.exists_flag hc hk⟩
  · intro a ha
    obtain ⟨e, he, hword, hx, hy, pen, radius, hsolve⟩ :=
      PathCut.exists_line_of_arc hrecorded hcut ha
    obtain ⟨s, -, rfl, hline, hc⟩ := h.exists_line_of_source hss hr hp he
    obtain ⟨-, f, hf, hflag⟩ := hline.exists_flag hc hword
    rw [hflag] at hsolve
    exact ⟨s.line, he, hword, hx, hy, f, hflag,
      Arc.askedBy_of_solve? (List.mem_of_getElem? hf) hsolve⟩

end Document

/-! ## What is unhandled -/

namespace Attribution

variable {ss : List (Statement α)} {m : WallModel α} {s : Statement α}

omit [Scalar α] in
theorem not_isPlaced_curve_iff (hk : s.command.kind = .curve) : ¬IsPlaced ss s ↔
    s.numbers.length < 3 ∨ (tokens s.body).length ≤ 3 ∨ ¬OnRouting ss s.index := by
  have husable : s.isUsable = true ↔ 3 ≤ s.numbers.length := by
    rw [Statement.isUsable_eq, hk, decide_eq_true_eq]
    rfl
  have hlike : s.isVertexLike = true ↔ 3 ≤ s.numbers.length ∧ 3 < (tokens s.body).length := by
    simp [Statement.isVertexLike, hk, husable]
  simp only [IsPlaced, hk, hlike, husable]
  by_cases hon : OnRouting ss s.index
  · simp only [hon, and_true, not_true, or_false]
    omega
  · simp only [hon, and_false, not_false_eq_true, or_true]

/-- A statement that opens no routing is recorded if it has no place or begins a path without a
cut. -/
theorem Describes.mem_unhandled_iff (h : Describes ss m) (hn : Numbered ss) (hs : s ∈ ss)
    (hk : s.command.kind ≠ .routing) :
    Unhandled.ofStatement s ∈ m.unhandled ↔ ¬IsPlaced ss s ∨ BeginsShortRun ss s := by
  have hsame {t : Statement α} (ht : t ∈ ss) (hi : t.index = s.index) : t = s :=
    hn.eq_of_index hs ht hi
  have hrecord (P : Statement α → Prop) [DecidablePred P] :
      Unhandled.ofStatement s ∈ (ss.filter fun t => P t).map .ofStatement ↔ P s := by
    rw [List.mem_map]
    constructor
    · rintro ⟨t, ht, he⟩
      obtain ⟨ht, hP⟩ := List.mem_filter.mp ht
      rw [← hsame ht (congrArg Unhandled.statementIndex he)]
      exact of_decide_eq_true hP
    · exact fun hP => ⟨s, List.mem_filter.mpr ⟨hs, decide_eq_true hP⟩, rfl⟩
  rw [h.unhandled.mem_iff, Attribution.unhandled, List.mem_append, List.mem_append, hrecord,
    hrecord, or_iff_left]
  intro hmem
  -- the last of the three lists has only headers of routings
  obtain ⟨t, ht, he⟩ := List.mem_map.mp hmem
  obtain ⟨ht, hrouting⟩ := List.mem_filter.mp ht
  obtain rfl := hsame ht (congrArg Unhandled.statementIndex he)
  exact hk (of_decide_eq_true hrouting).1

end Attribution

/-- What a document says of its curves. -/
structure Attribution.Flags (ss : List (Statement α)) (m : WallModel α) : Prop where
  path : ∀ r ∈ m.routings, ∀ p, .path p ∈ r.segments → p.Flagged ss
  /-- A curve is recorded as unhandled for its numbers, for the count of its tokens, for want of a
  routing, or because it begins a path without a cut, and for nothing else. -/
  unhandled : ∀ s ∈ ss, s.command.kind = .curve → (Unhandled.ofStatement s ∈ m.unhandled ↔
    (s.numbers.length < 3 ∨ (tokens s.body).length ≤ 3 ∨ ¬OnRouting ss s.index) ∨
      BeginsShortRun ss s)

/-- The curves of a model that was read have the fourth tokens of their statements as their flags,
and no curve is unhandled for what its flag is. -/
theorem flagged_of_parseModel {text : String} {k : Int} {m : WallModel α}
    (hm : parseModel text k = .ok m) :
    ∃ ss, Statement.readAll 0 (splitStatements text) = .ok ss ∧ Attribution.Flags ss m := by
  obtain ⟨⟨ss, hss, hsaid⟩, -⟩ := says_of_parseModel hm
  have hn := Attribution.numbered_of_readAll hss
  have hdescribes := Attribution.describes_of_reading hn hsaid
  refine ⟨ss, hss, fun r hr p hp => flagged_of_says hm hss hsaid hr hp, fun s hs hk => ?_⟩
  rw [hdescribes.mem_unhandled_iff hn hs (by simp [hk]), Attribution.not_isPlaced_curve_iff hk]

set_option maxRecDepth 100000 in
/-- A path that begins with a curve, and a curve without a flag. -/
theorem flagged_of_two_curves :
    ∃ (text : String) (m : WallModel Float) (r : Routing Float) (p : PathCut Float),
      text = "PAF;KB 0,0,10,CW;PP 5,0;KB 9,9,1" ∧ parseModel text 1 = .ok m ∧ r ∈ m.routings ∧
      .path p ∈ r.segments ∧ p.source.map SourceEntry.flag = [some "CW", none] ∧
      m.unhandled.map Unhandled.body = ["9,9,1"] ∧
      ∃ ss : List (Statement Float), Statement.readAll 0 (splitStatements text) = .ok ss ∧
        Attribution.Flags ss m ∧ p.Flagged ss := by
  have heval : (do
      let m ← (parseModel (α := Float) "PAF;KB 0,0,10,CW;PP 5,0;KB 9,9,1" 1).toOption
      let r ← m.routings.head?
      let p ← r.segments.head?.bind RoutingSegment.path?
      if p.source.map SourceEntry.flag = [some "CW", none] ∧
        m.unhandled.map Unhandled.body = ["9,9,1"]
      then some (m, r, p) else none).isSome = true := by
    decide +kernel
  obtain ⟨⟨m, r, p⟩, h⟩ := Option.isSome_iff_exists.mp heval
  simp only [Option.bind_eq_bind, Option.bind_eq_some_iff, Option.ite_none_right_eq_some,
    RoutingSegment.path?_eq_some] at h
  obtain ⟨_, hm, _, hr, _, ⟨_, hs, rfl⟩, ⟨hflags, hbodies⟩, ⟨⟩⟩ := h
  have hm := eq_ok_of_toOption hm
  have hr := List.mem_of_head? hr
  have hp := List.mem_of_head? hs
  obtain ⟨ss, hss, hdocument⟩ := flagged_of_parseModel hm
  exact ⟨_, m, r, p, rfl, hm, hr, hp, hflags, hbodies, ss, hss, hdocument,
    hdocument.path r hr p hp⟩

set_option maxRecDepth 100000 in
/-- A curve without a flag whose depth is the fourth token has the depth as its flag. It has no
letters and asks for the larger arc. -/
theorem flag_of_curve_without_flag :
    ∃ (text : String) (m : WallModel Float) (r : Routing Float) (p : PathCut Float),
      text = "PAF;KB 0,0,10,-15;PP 5,0;PP 9,0" ∧ parseModel text 1 = .ok m ∧ r ∈ m.routings ∧
      .path p ∈ r.segments ∧ m.unhandled = [] ∧
      (∃ e ∈ p.source, e.command = "KB" ∧ e.flag = some "-15") ∧ isNumeral "-15" = true ∧
      ArcFlag.isLarge (some "-15") = true ∧ ∀ c ∈ "-15".toList, c.isAlpha = false := by
  have heval : (do
      let m ← (parseModel (α := Float) "PAF;KB 0,0,10,-15;PP 5,0;PP 9,0" 1).toOption
      let r ← m.routings.head?
      let p ← r.segments.head?.bind RoutingSegment.path?
      let e ← p.source.head?
      if m.unhandled.isEmpty = true ∧ e.command = "KB" ∧ e.flag = some "-15"
      then some (m, r, p, e) else none).isSome = true := by
    decide +kernel
  obtain ⟨⟨m, r, p, e⟩, h⟩ := Option.isSome_iff_exists.mp heval
  simp only [Option.bind_eq_bind, Option.bind_eq_some_iff, Option.ite_none_right_eq_some,
    RoutingSegment.path?_eq_some] at h
  obtain ⟨_, hm, _, hr, _, ⟨_, hs, rfl⟩, _, he, ⟨hempty, hword, hflag⟩, ⟨⟩⟩ := h
  exact ⟨_, m, r, p, rfl, eq_ok_of_toOption hm, List.mem_of_head? hr, List.mem_of_head? hs,
    List.isEmpty_iff.mp hempty, ⟨e, List.mem_of_head? he, hword, hflag⟩, by decide,
    by decide, by simp⟩

end WallPanel
