import WallPanel.Model.Builder
import WallPanel.Proofs.Geometry.Loops
import WallPanel.Proofs.Reading.Rooted

/-!
# What is open in the model

What the model in the making has open is what is open in the reading: `Builder.context` follows the
steps of a context, for the end of a path (`Builder.context_endPath`), for what ends before a
statement (`Builder.context_settle`) and for every role (`Builder.context_place`).

A path ends in a cut when its samples keep two points, and as unhandled when they do not
(`Builder.endPath_cases`). A routing ends as one of the model, or in a record when it has cut
nothing (`Builder.closeRouting_cases`).
-/

namespace WallPanel

variable {α : Type} [Scalar α]

/-! ## The end of a path -/

/-- A run that keeps two points has a kind of path. -/
theorem PathKind.of?_closePath {ps : List (Point α)} (h : 2 ≤ (dedupe ps).length) :
    ∃ kind, PathKind.of? (closePath (dedupe ps)).1.length (closePath (dedupe ps)).2 =
      some kind := by
  unfold PathKind.of?
  split
  · exact ⟨.polygon, rfl⟩
  · exact ⟨.polyline, if_pos (length_closePath_dedupe h)⟩

/-- A path has a cut if its samples keep two points. -/
theorem VertexRun.isSome_cut? (r : VertexRun α) :
    r.cut?.isSome = decide (2 ≤ (dedupe r.trace.samples).length) := by
  unfold cut?
  by_cases h : 2 ≤ (dedupe r.trace.samples).length
  · obtain ⟨kind, hk⟩ := PathKind.of?_closePath h
    simp [h, hk]
  · simp [h]

namespace Builder

variable {b b' : Builder α}

/-- How the open path ends: as a cut of the open routing, or as unhandled. -/
theorem endPath_cases (h : b.endPath = .ok b') :
    (b.run = none ∧ b' = b) ∨
    ∃ run, b.run = some run ∧
      ((∃ routing cut, b.activeRouting = some routing ∧ run.cut? = some (.ok cut) ∧
          b' = ({ b with
            run := none
            activeRouting := some (pushSegment routing (.path cut) []) }).extend
              run.trace.samples) ∨
        ((b.activeRouting = none ∨ run.cut? = none) ∧
          b' = ({ b with run := none }).rejectRun run)) := by
  cases hr : b.run with
  | none => exact .inl ⟨rfl, by simpa [endPath, hr] using h.symm⟩
  | some run =>
    refine .inr ⟨run, rfl, ?_⟩
    cases ha : b.activeRouting with
    | none => exact .inr ⟨.inl rfl, by simpa [endPath, hr, ha] using h.symm⟩
    | some routing =>
      by_cases hd : 2 ≤ (dedupe run.trace.samples).length
      · obtain ⟨kind, hk⟩ := PathKind.of?_closePath hd
        simp only [endPath, hr, ha, hd, ↓reduceIte, hk] at h
        split at h
        · next cut hc =>
          cases h
          exact .inl ⟨routing, cut, rfl, by simp [VertexRun.cut?, hd, hk, hc], rfl⟩
        · cases h
      · exact .inr ⟨.inr (by simp [VertexRun.cut?, hd]),
          by simpa [endPath, hr, ha, hd] using h.symm⟩

theorem endPath_model (h : b.endPath = .ok b') : b'.model = { b.model with
    routings := b'.model.routings, bounds := b'.model.bounds
    unhandled := b'.model.unhandled } := by
  obtain ⟨-, rfl⟩ | ⟨run, -, ⟨_, _, -, -, rfl⟩ | ⟨-, rfl⟩⟩ := endPath_cases h <;> rfl

theorem context_endPath (h : b.endPath = .ok b') :
    b'.context = { b.context with run := none } := by
  obtain ⟨hr, rfl⟩ | ⟨run, -, ⟨routing, _, ha, -, rfl⟩ | ⟨-, rfl⟩⟩ := endPath_cases h
  · simp [context, hr]
  · simp [context, extend, pushSegment, ha, openPanel?]
  · rfl

/-! ## The end of a routing -/

omit [Scalar α] in
/-- How the open routing ends: in a record if it has cut nothing, or else as one of the model. -/
theorem closeRouting_cases (b : Builder α) :
    (b.activeRouting = none ∧ b.closeRouting = b) ∨
    ∃ routing, b.activeRouting = some routing ∧
      ((routing.segments = [] ∧
          b.closeRouting = ({ b with activeRouting := none }).record routing.unhandled) ∨
        (routing.segments ≠ [] ∧ b.closeRouting = { b with
          activeRouting := none
          nextId := b.nextId + 1
          model := { b.model with
            routings := b.model.routings ++ [{ routing with editorId := some b.nextId }] } })) := by
  cases ha : b.activeRouting with
  | none => exact .inl ⟨rfl, by simp [closeRouting, ha]⟩
  | some routing =>
    refine .inr ⟨routing, rfl, ?_⟩
    by_cases hs : routing.segments = []
    · exact .inl ⟨hs, by simp [closeRouting, ha, hs]⟩
    · exact .inr ⟨hs, by simp [closeRouting, ha, hs]⟩

omit [Scalar α] in
theorem closeRouting_model (b : Builder α) : b.closeRouting.model = { b.model with
    routings := b.closeRouting.model.routings, bounds := b.closeRouting.model.bounds
    unhandled := b.closeRouting.model.unhandled } := by
  obtain ⟨-, h⟩ | ⟨_, -, ⟨-, h⟩ | ⟨-, h⟩⟩ := closeRouting_cases b <;> simp [h, record]

omit [Scalar α] in
theorem context_closeRouting (b : Builder α) :
    b.closeRouting.context = { b.context with routing := none } := by
  obtain ⟨ha, h⟩ | ⟨_, -, ⟨-, h⟩ | ⟨-, h⟩⟩ := closeRouting_cases b <;> rw [h]
  · simp [context, ha]
  · rfl
  · rfl

omit [Scalar α] in
theorem activeRouting_closeRouting (b : Builder α) : b.closeRouting.activeRouting = none :=
  Option.map_eq_none_iff.mp (congrArg Context.routing (context_closeRouting b))

omit [Scalar α] in
theorem closeRouting_run (b : Builder α) : b.closeRouting.run = b.run := by
  obtain ⟨-, h⟩ | ⟨_, -, ⟨-, h⟩ | ⟨-, h⟩⟩ := closeRouting_cases b <;> simp [h, record]

/-! ## Steps -/

variable {s : Statement α} {r : Role α}

/-- A circle that is taken in has a cut. -/
theorem exists_of_place_circle {j : Nat} {c : Except NoInteger (CircleCut α)}
    (h : b.place (.circle j c) = .ok b') : ∃ d, c = .ok d ∧ b' = b.pushCircle d := by
  cases c with
  | error => cases h
  | ok d => exact ⟨d, rfl, (Except.ok.inj h).symm⟩

theorem context_pushVertex {v : Vertex α} {k : Nat} (hk : k = b.context.run.getD s.index)
    (hv : v.entry.statementIndex = s.index) :
    (b.pushVertex v).context = { b.context with run := some k } := by
  have hrouting : (b.pushVertex v).context.routing = b.context.routing := by
    simp only [context, pushVertex, extend, Option.map_map]
    rfl
  have hrun : (b.pushVertex v).context.run = some k := by
    rw [hk]
    cases hr : b.run <;>
      simp [context, pushVertex, extend, hr, VertexRun.extend, VertexRun.push, hv]
  have hrest : (b.pushVertex v).context = { b.context with
      routing := (b.pushVertex v).context.routing, run := (b.pushVertex v).context.run } := rfl
  rw [hrest, hrouting, hrun]

omit [Scalar α] in
theorem context_openRouting (w : Routing α) : (b.openRouting w).context =
    { b.closeRouting.context with routing := some w.statementIndex } :=
  rfl

/-- A role leaves open in the model what it leaves open in the reading. -/
theorem context_place (hr : b.context.Plays s r) (hp : b.place r = .ok b') :
    b'.context = b.context.after r := by
  cases hr with
  | panel _ _ entry =>
    cases hp
    have hpoints := (SheathingPanel.of_ofStatement? entry).2
    simp [context, openPanel, extend, openPanel?, Context.after, Setting.after, ← hpoints]
  | boundary =>
    cases hp
    simp only [context, pushPanelPoint, extend, openPanel?, Context.after, Setting.after]
    cases h : b.model.sheathing.getLast? <;> simp_all
  | @member m =>
    cases hp
    cases hk : m.kind <;> simp [context, pushMember, extend, hk, Context.after, Setting.after, openPanel?]
  | header =>
    cases hp
    rw [context_openRouting, context_closeRouting]
    rfl
  | foreign =>
    cases hp
    exact context_closeRouting b
  | circle =>
    obtain ⟨d, rfl, rfl⟩ := exists_of_place_circle hp
    simp only [context, pushCircle, extend, Option.map_map]
    rfl
  | point kind usable closed opened entry =>
    cases hp
    have hv := (Context.Plays.point kind usable closed opened entry).vertex_index
    exact context_pushVertex rfl hv
  | curve kind usable opened entry =>
    cases hp
    have hv := (Context.Plays.curve kind usable opened entry).vertex_index
    exact context_pushVertex rfl hv
  | _ =>
    cases hp
    rfl

/-- What ends before a statement in the model ends in the reading. -/
theorem context_settle {k : CommandKind} (h : b.settle k = .ok b') :
    b'.context = b.context.settle k := by
  have hclose : ({ b with panelOpen := false } : Builder α).context =
      { b.context with panel := none } := rfl
  cases k with
  | point => cases h; rfl
  | curve => cases h; rfl
  | _ => exact (context_endPath h).trans (by rw [hclose]; rfl)

end Builder

end WallPanel
