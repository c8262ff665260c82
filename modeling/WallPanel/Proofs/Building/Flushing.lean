import WallPanel.Proofs.Building.Progress

/-!
# The end of a path

In every state of a pass a path that is open belongs to an open routing (`Reached.exists_routing`).
So where it ends (`ends_of_reached`), it is recorded as unhandled if its samples keep fewer than two
points, and else it becomes one cut of that routing. What the cut is cut along does not depend on
the commands but on the points that are kept: two vertices make a polyline, and two are left of two
points, and of three that come back to the first (`FoldsFlat`); all else is a polygon.
-/

namespace WallPanel

variable {α : Type} [Scalar α]

/-! ## Polylines and polygons -/

/-- Whether points make no more than a line: they are two, or three of which the last is near the
first. -/
def FoldsFlat (ps : List (Point α)) : Prop :=
  ps.length = 2 ∨ ∃ p q r, ps = [p, q, r] ∧ p.near r = true

/-- Three points or more lose the last one if it is near the first. -/
theorem foldsFlat_iff {ps : List (Point α)} (h : 2 ≤ (dedupe ps).length) :
    FoldsFlat (dedupe ps) ↔ (closePath (dedupe ps)).1.length = 2 := by
  unfold FoldsFlat closePath
  cases hc : isClosedLoop (dedupe ps) with
  | true =>
    match hd : dedupe ps, h with
    | [p, q], _ =>
      have htwo : (dedupe ps).length = 2 := by simp [hd]
      rw [isClosedLoop_of_length_eq_two htwo] at hc
      cases hc
    | [p, q, r], _ =>
      rw [hd] at hc
      exact iff_of_true (.inr ⟨p, q, r, rfl, hc⟩) rfl
    | _ :: _ :: _ :: _ :: _, _ => exact iff_of_false (by simp) (by simp)
  | false =>
    rw [if_neg Bool.false_ne_true]
    refine ⟨?_, .inl⟩
    rintro (h | ⟨p, q, r, hd, hn⟩)
    · exact h
    · rw [hd] at hc
      exact absurd hn (Bool.eq_false_iff.mp hc)

/-- The shape of a path that is cut. -/
theorem kind_of_closePath {ps : List (Point α)} {kind : PathKind} (h : 2 ≤ (dedupe ps).length)
    (hk : PathKind.of? (closePath (dedupe ps)).1.length (closePath (dedupe ps)).2 = some kind) :
    (FoldsFlat (dedupe ps) → kind = .polyline ∧ (closePath (dedupe ps)).1.length = 2) ∧
      (¬FoldsFlat (dedupe ps) → kind = .polygon ∧ 3 ≤ (closePath (dedupe ps)).1.length) := by
  rw [foldsFlat_iff h]
  have hlen := length_closePath_dedupe h
  constructor
  · intro htwo
    rw [htwo] at hk
    refine ⟨?_, htwo⟩
    simpa [PathKind.of?] using hk.symm
  · intro htwo
    have hthree : 3 ≤ (closePath (dedupe ps)).1.length := by omega
    have hclosed : (closePath (dedupe ps)).2 = true := by
      unfold closePath at hthree ⊢
      split
      · rfl
      · next hc =>
        rw [if_neg hc] at hthree
        simpa using hthree
    refine ⟨?_, hthree⟩
    simpa [PathKind.of?, hclosed, hthree] using hk.symm

namespace VertexRun

/-- The offsets of the vertices, of which the mean is the control code of the path. -/
def offsets (r : VertexRun α) : List α :=
  r.toList.filterMap (·.offset)

/-- A path has a control code unless the mean offset has no nearest integer. -/
theorem cut_eq_error_iff {r : VertexRun α} {kind : PathKind} {points : List (Point α)}
    {t : Trace α} {e : NoInteger} : r.cut kind points t = .error e ↔
      ∃ x, Scalar.mean? r.offsets = some x ∧ Scalar.roundHalfUp x = .error e := by
  rw [cut, offsets]
  cases hm : Scalar.mean? (r.toList.filterMap (·.offset)) with
  | none => simp [bind, Except.bind, pure, Except.pure]
  | some x =>
    cases hx : Scalar.roundHalfUp x <;> simp [bind, Except.bind, pure, Except.pure, hx]

end VertexRun

/-! ## States of a pass -/

namespace Builder

/-- A state of the pass over a text, after some of its statements. Before the next one is taken in,
and so before a path ends, the panel may be closed already. -/
def Reached (text : String) (firstId : Int) (b : Builder α) : Prop :=
  ∃ n b₀, (start (splitStatements text) text firstId).feedAll 0
      ((splitStatements text).take n) = .ok b₀ ∧ (b = b₀ ∨ b = { b₀ with panelOpen := false })

variable {b b' : Builder α} {text : String} {firstId : Int} {run : VertexRun α}

/-- A path that is open belongs to an open routing. -/
theorem Reached.exists_routing (h : b.Reached text firstId) (hr : b.run = some run) :
    ∃ routing, b.activeRouting = some routing := by
  obtain ⟨n, b₀, hf, hb⟩ := h
  obtain ⟨ss, -, hfollows⟩ := (follows_start _ _ firstId).feedAll (fun _ h => nomatch h) hf
  have hrun : b.context.run = some run.first.entry.statementIndex := by
    simp [context, hr]
  have hrooted : b.context.Rooted ([] ++ (start (splitStatements text) text firstId).context.read
      ss) := by
    rcases hb with rfl | rfl
    · exact hfollows.rooted
    · exact hfollows.closePanel.rooted
  obtain ⟨j, -, hj, -⟩ := hrooted.run _ hrun
  obtain ⟨routing, hrouting, -⟩ := Option.map_eq_some_iff.mp hj
  exact ⟨routing, hrouting⟩

/-! ## Ends -/

/-- The path is recorded as unhandled by its first vertex, and there is no cut of it. -/
structure Discards (b b' : Builder α) (run : VertexRun α) : Prop where
  unhandled : b'.model.unhandled = b.model.unhandled ++ [run.first.unhandled]
  routing : b'.activeRouting = b.activeRouting
  routings : b'.model.routings = b.model.routings
  ended : b'.run = none

/-- The path becomes one more cut of its routing, and nothing is recorded as unhandled. -/
structure Cuts (b b' : Builder α) (run : VertexRun α) (routing : Routing α) (cut : PathCut α) :
    Prop where
  routing : b'.activeRouting = some { routing with segments := routing.segments ++ [.path cut] }
  unhandled : b'.model.unhandled = b.model.unhandled
  routings : b'.model.routings = b.model.routings
  ended : b'.run = none
  source : cut.source = run.toList.map (·.entry)
  points : cut.points = if isClosedLoop (dedupe run.trace.samples)
    then (dedupe run.trace.samples).dropLast else dedupe run.trace.samples
  line : FoldsFlat (dedupe run.trace.samples) → cut.kind = .polyline ∧ cut.points.length = 2
  loop : ¬FoldsFlat (dedupe run.trace.samples) → cut.kind = .polygon ∧ 3 ≤ cut.points.length

/-- How a path ends that belongs to a routing. -/
structure Ends (b : Builder α) (run : VertexRun α) (routing : Routing α) : Prop where
  short : (dedupe run.trace.samples).length < 2 → ∃ b', b.endPath = .ok b' ∧ b.Discards b' run
  long : 2 ≤ (dedupe run.trace.samples).length →
    ∀ b', b.endPath = .ok b' → ∃ cut, b.Cuts b' run routing cut
  /-- Only a path of two points or more can stop the pass, by its control code. -/
  fault : ∀ f, b.endPath = .error f ↔ 2 ≤ (dedupe run.trace.samples).length ∧
    ∃ x e, Scalar.mean? run.offsets = some x ∧ Scalar.roundHalfUp x = .error e ∧ f = e.toFault

variable {routing : Routing α}

theorem endPath_of_short (hr : b.run = some run) (ha : b.activeRouting = some routing)
    (h : (dedupe run.trace.samples).length < 2) :
    b.endPath = .ok (({ b with run := none } : Builder α).rejectRun run) := by
  simp [endPath, hr, ha, Nat.not_le.mpr h]

theorem discards_of_short (hr : b.run = some run) (ha : b.activeRouting = some routing)
    (h : (dedupe run.trace.samples).length < 2) :
    ∃ b', b.endPath = .ok b' ∧ b.Discards b' run :=
  ⟨_, endPath_of_short hr ha h, rfl, rfl, rfl, rfl⟩

theorem exists_cuts_of_long (hr : b.run = some run) (ha : b.activeRouting = some routing)
    (h : 2 ≤ (dedupe run.trace.samples).length) (he : b.endPath = .ok b') :
    ∃ cut, b.Cuts b' run routing cut := by
  have hsome : run.cut? ≠ none := by
    rw [← Option.isSome_iff_ne_none, VertexRun.isSome_cut?]
    exact decide_eq_true h
  obtain ⟨hn, -⟩ | ⟨run', hr', ⟨routing', cut, ha', hcut, rfl⟩ | ⟨hnone, -⟩⟩ := endPath_cases he
  · rw [hr] at hn
    cases hn
  · obtain rfl := Option.some.inj (hr.symm.trans hr')
    obtain rfl := Option.some.inj (ha.symm.trans ha')
    have hdrawn := VertexRun.drawnBy_of_cut? hcut
    have hkind := hdrawn.kind
    rw [hdrawn.points] at hkind
    obtain ⟨hline, hloop⟩ := kind_of_closePath h hkind
    refine ⟨cut, by simp [extend, pushSegment], rfl, rfl, rfl, hdrawn.source, ?_, ?_, ?_⟩
    · rw [hdrawn.points, closePath]
      split <;> rfl
    · rwa [hdrawn.points]
    · rwa [hdrawn.points]
  · obtain rfl := Option.some.inj (hr.symm.trans hr')
    rcases hnone with hnone | hnone
    · rw [ha] at hnone
      cases hnone
    · exact absurd hnone hsome

theorem endPath_eq_error_iff (hr : b.run = some run) (ha : b.activeRouting = some routing)
    {f : Fault} : b.endPath = .error f ↔ 2 ≤ (dedupe run.trace.samples).length ∧
      ∃ x e, Scalar.mean? run.offsets = some x ∧ Scalar.roundHalfUp x = .error e ∧
        f = e.toFault := by
  by_cases h : 2 ≤ (dedupe run.trace.samples).length
  · obtain ⟨kind, hk⟩ := PathKind.of?_closePath h
    simp only [endPath, hr, ha, h, ↓reduceIte, hk, true_and]
    cases hc : run.cut kind (closePath (dedupe run.trace.samples)).1 run.trace with
    | ok cut =>
      refine iff_of_false (by simp) ?_
      rintro ⟨x, e, hm, hx, -⟩
      rw [VertexRun.cut_eq_error_iff.mpr ⟨x, hm, hx⟩] at hc
      cases hc
    | error e =>
      obtain ⟨x, hm, hx⟩ := VertexRun.cut_eq_error_iff.mp hc
      constructor
      · intro hf
        exact ⟨x, e, hm, hx, (Except.error.inj hf).symm⟩
      · rintro ⟨x', e', hm', hx', rfl⟩
        obtain rfl := Option.some.inj (hm.symm.trans hm')
        obtain rfl := Except.error.inj (hx.symm.trans hx')
        rfl
  · rw [endPath_of_short hr ha (Nat.not_le.mp h)]
    exact iff_of_false (by simp) fun hf => h hf.1

/-- A path that ends is never dropped. In every state of a pass over a text in which a path is open,
a routing is open too, and the path becomes a cut of it or is recorded as unhandled, by the number of
points that its samples keep. -/
theorem ends_of_reached (h : b.Reached text firstId) (hr : b.run = some run) :
    ∃ routing, b.activeRouting = some routing ∧ b.Ends run routing := by
  obtain ⟨routing, ha⟩ := h.exists_routing hr
  exact ⟨routing, ha, discards_of_short hr ha, fun hlong b' he => exists_cuts_of_long hr ha hlong he,
    fun f => endPath_eq_error_iff hr ha⟩

set_option maxRecDepth 100000 in
/-- A path that comes back to its start: of its three points two are left. -/
theorem ends_of_reached_of_return :
    ∃ (text : String) (b : Builder Float) (run : VertexRun Float),
      text = "PAF;PP 0,0;PP 10,0;PP 0,0" ∧ b.Reached text 1 ∧ b.run = some run ∧
      (dedupe run.trace.samples).length = 3 ∧
      ∃ routing, b.activeRouting = some routing ∧ b.Ends run routing := by
  have heval : (do
      let b ← ((start (splitStatements "PAF;PP 0,0;PP 10,0;PP 0,0") "PAF;PP 0,0;PP 10,0;PP 0,0"
        1 : Builder Float).feedAll 0
          ((splitStatements "PAF;PP 0,0;PP 10,0;PP 0,0").take 4)).toOption
      let run ← b.run
      if (dedupe run.trace.samples).length = 3 then some run else none).isSome = true := by
    decide +kernel
  obtain ⟨run, h⟩ := Option.isSome_iff_exists.mp heval
  simp only [Option.bind_eq_bind, Option.bind_eq_some_iff, Option.ite_none_right_eq_some] at h
  obtain ⟨b, hb, run, hr, hlen, ⟨⟩⟩ := h
  have hreached : b.Reached "PAF;PP 0,0;PP 10,0;PP 0,0" 1 :=
    ⟨4, b, eq_ok_of_toOption hb, .inl rfl⟩
  exact ⟨_, b, run, rfl, hreached, hr, hlen, ends_of_reached hreached hr⟩

end Builder

end WallPanel
