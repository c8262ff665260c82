import WallPanel.Proofs.Building.Extent
import WallPanel.Proofs.Building.Origins

/-!
# What a pass has open

Between two statements of a pass no more than one thing takes points: a panel, which then is the
last one of the model, or a path, which then is one of an open routing. A routing that is open has
no id and is not in the model yet, and those that are have cuts and an id (`Builder.Coherent`). Each
statement keeps that, whether it is taken in or has no place (`Builder.Coherent.feed`), and so does
a pass over any statements (`Builder.Coherent.foldlM`). Hence a pass finds a routing wherever it
ends a path or takes in a vertex (`Builder.coherent_of_foldlM`).

What is open is told from the statements: a panel from its header, with nothing but points behind it
(`OpensPanel`), and a path from the lines that gave its vertices (`GivesVertex`).
-/

namespace WallPanel

variable {α : Type} [Scalar α] {ss : List (Statement α)} {s : Statement α}

/-! ## Panels and vertices -/

/-- Statements end in the header of a panel and points alone behind it. -/
def OpensPanel (ss : List (Statement α)) (module? : Option (ModuleFrame α))
    (p : SheathingPanel α) : Prop :=
  ∃ before header points side, ss = before ++ header :: points ∧
    (∀ t ∈ points, t.command.kind = .point) ∧ header.command.kind = .panel side ∧
    header.isUsable = true ∧ SheathingPanel.ofStatement? header side module? = some p

section OpensPanel

variable {module? : Option (ModuleFrame α)} {p : SheathingPanel α}

theorem not_opensPanel_nil : ¬OpensPanel [] module? p := by
  rintro ⟨before, header, points, side, hss, -⟩
  simp at hss

theorem opensPanel_of_header {side : Side} (hk : s.command.kind = .panel side)
    (hu : s.isUsable = true) (hp : SheathingPanel.ofStatement? s side module? = some p) :
    OpensPanel (ss ++ [s]) module? p :=
  ⟨ss, s, [], side, rfl, by simp, hk, hu, hp⟩

/-- A panel is open behind a statement if that is its header, or a point behind it. -/
theorem opensPanel_concat (h : OpensPanel (ss ++ [s]) module? p) :
    s.command.kind = .point ∧ OpensPanel ss module? p ∨
      ∃ side, s.command.kind = .panel side ∧ s.isUsable = true ∧
        SheathingPanel.ofStatement? s side module? = some p := by
  obtain ⟨before, header, points, side, hss, hpoints, hk, hu, hp⟩ := h
  rcases List.eq_nil_or_concat points with rfl | ⟨points, last, rfl⟩
  · obtain rfl := List.singleton_inj.mp (List.append_inj' hss rfl).2
    exact .inr ⟨side, hk, hu, hp⟩
  · rw [List.concat_eq_append] at hss hpoints
    rw [← List.cons_append, ← List.append_assoc] at hss
    obtain ⟨rfl, hlast⟩ := List.append_inj' hss rfl
    obtain rfl := List.singleton_inj.mp hlast
    exact .inl ⟨hpoints s (by simp), before, header, points, side, rfl,
      fun t ht => hpoints t (List.mem_append_left _ ht), hk, hu, hp⟩

theorem opensPanel_point (hk : s.command.kind = .point) :
    OpensPanel (ss ++ [s]) module? p ↔ OpensPanel ss module? p := by
  constructor
  · intro h
    obtain ⟨-, h⟩ | ⟨side, hside, -⟩ := opensPanel_concat h
    · exact h
    · rw [hk] at hside
      cases hside
  · rintro ⟨before, header, points, side, rfl, hpoints, hheader⟩
    refine ⟨before, header, points ++ [s], side, by simp, fun t ht => ?_, hheader⟩
    rcases List.mem_append.mp ht with ht | ht
    · exact hpoints t ht
    · exact List.mem_singleton.mp ht ▸ hk

end OpensPanel

/-- A statement opens a panel in any context if its command does and it has enough numbers. -/
theorem Context.Plays.exists_panel {c : Context α} {r : Role α} {side : Side} (h : c.Plays s r)
    (hk : s.command.kind = .panel side) (hu : s.isUsable = true) :
    ∃ p, r = .panel p ∧ SheathingPanel.ofStatement? s side c.setting.module = some p := by
  cases h with
  | panel kind usable entry =>
    obtain rfl := CommandKind.panel.inj (kind.symm.trans hk)
    exact ⟨_, rfl, entry⟩
  | unhandled known none =>
    have hlen : 6 ≤ s.numbers.length := by
      simpa [Statement.isUsable, hk, CommandKind.minNumbers] using hu
    obtain ⟨p, hp⟩ := Option.isSome_iff_exists.mp
      (SheathingPanel.isSome_ofStatement? hlen side c.setting.module)
    have hnone := none hu
    simp [Context.role?, hk, Setting.role?, hp] at hnone
  | member kind =>
    rw [hk] at kind
    cases kind
  | _ => simp_all

/-- The vertex that a line gives. Whether a point is the first of its path is left open. -/
def GivesVertex (s : Statement α) (v : Vertex α) : Prop :=
  (s.command.kind = .point ∧ ∃ isFirst, Vertex.ofPoint? s isFirst = some v) ∨
    s.command.kind = .curve ∧ Vertex.ofCurve? s = some v

omit [Scalar α] in
/-- A path has as many commands as entries. -/
theorem VertexRun.length_commands (run : VertexRun α) :
    (run.toList.map (·.command)).length = (run.toList.map (·.entry)).length := by
  simp

omit [Scalar α] in
/-- A path has one entry at least. -/
theorem VertexRun.one_le_length_entries (run : VertexRun α) :
    1 ≤ (run.toList.map (·.entry)).length := by
  simp [toList]

namespace Builder

variable {b b' : Builder α} {r : Role α} {run : VertexRun α}

/-! ## Routings that are open and others -/

/-- A routing that is open has no id, and the routings of the model have cuts and an id. -/
structure Apart (b : Builder α) : Prop where
  fresh : ∀ routing, b.activeRouting = some routing → routing.editorId = none
  finished : ∀ routing ∈ b.model.routings, routing.segments ≠ [] ∧ routing.editorId ≠ none

namespace Apart

omit [Scalar α] in
theorem notMem (h : b.Apart) {routing : Routing α} (hr : b.activeRouting = some routing) :
    routing ∉ b.model.routings :=
  fun hmem => (h.finished routing hmem).2 (h.fresh routing hr)

theorem endPath (h : b.Apart) (he : b.endPath = .ok b') : b'.Apart := by
  obtain ⟨-, rfl⟩ | ⟨run, -, ⟨routing, cut, ha, -, rfl⟩ | ⟨-, rfl⟩⟩ := endPath_cases he
  · exact h
  · refine ⟨fun w hw => ?_, h.finished⟩
    obtain rfl := Option.some.inj hw
    exact h.fresh routing ha
  · exact ⟨h.fresh, h.finished⟩

omit [Scalar α] in
theorem closeRouting (h : b.Apart) : b.closeRouting.Apart where
  fresh w hw := by
    rw [activeRouting_closeRouting] at hw
    cases hw
  finished := by
    obtain ⟨-, hb⟩ | ⟨routing, -, ⟨-, hb⟩ | ⟨hcut, hb⟩⟩ := closeRouting_cases b <;> rw [hb]
    · exact h.finished
    · exact h.finished
    · intro w hw
      rcases List.mem_append.mp hw with hw | hw
      · exact h.finished w hw
      · obtain rfl := List.mem_singleton.mp hw
        exact ⟨hcut, Option.some_ne_none _⟩

theorem settle {kind : CommandKind} (h : b.Apart) (hs : b.settle kind = .ok b') : b'.Apart := by
  cases kind with
  | point =>
    cases hs
    exact h
  | curve =>
    cases hs
    exact ⟨h.fresh, h.finished⟩
  | _ => exact Apart.endPath (b := { b with panelOpen := false }) ⟨h.fresh, h.finished⟩ hs

theorem place (h : b.Apart) (hr : b.context.Plays s r) (hp : b.place r = .ok b') : b'.Apart := by
  have hmap {f : Routing α → Routing α} (hf : ∀ w, (f w).editorId = w.editorId) :
      ∀ w, b.activeRouting.map f = some w → w.editorId = none := by
    intro w hw
    obtain ⟨routing, ha, rfl⟩ := Option.map_eq_some_iff.mp hw
    rw [hf, h.fresh routing ha]
  cases hr with
  | @member m =>
    cases hp
    refine ⟨h.fresh, ?_⟩
    cases hk : m.kind <;> simpa [pushMember, extend, hk] using h.finished
  | header =>
    cases hp
    refine ⟨fun w hw => ?_, h.closeRouting.finished⟩
    obtain rfl := Option.some.inj hw
    rfl
  | foreign =>
    cases hp
    exact ⟨h.closeRouting.fresh, h.closeRouting.finished⟩
  | circle =>
    obtain ⟨c, rfl, rfl⟩ := exists_of_place_circle hp
    exact ⟨hmap fun _ => rfl, h.finished⟩
  | point =>
    cases hp
    exact ⟨hmap fun _ => rfl, h.finished⟩
  | curve =>
    cases hp
    exact ⟨hmap fun _ => rfl, h.finished⟩
  | _ =>
    cases hp
    exact ⟨h.fresh, h.finished⟩

theorem feed (h : b.Apart) (hf : b.feed s = .ok b') : b'.Apart := by
  obtain ⟨b₁, hs, ha⟩ := feed_eq hf
  exact (h.settle hs).place (b₁.context.plays_role s) ha

end Apart

/-! ## Paths -/

/-- An open path: each vertex is that of a line, with its command and its entry. The entries are
those of the last statements of the open routing. -/
structure Accumulates (b : Builder α) (ss : List (Statement α)) (run : VertexRun α) : Prop where
  shut : b.panelOpen = false
  lines : ∃ lines, lines.Sublist ss ∧ List.Forall₂ GivesVertex lines run.toList
  routing : ∃ routing, b.activeRouting = some routing ∧
    run.toList.map (·.entry.statementIndex) <:+ routing.statementIndices

omit [Scalar α] in
/-- A vertex is put at the end of a path, or begins one. -/
theorem toList_extend (run? : Option (VertexRun α)) (v : Vertex α) :
    (VertexRun.extend run? v).toList = (run?.map VertexRun.toList).getD [] ++ [v] := by
  cases run? <;> rfl

namespace Accumulates

/-- Statements that leave the path and its routing as they are. -/
theorem concat (h : b.Accumulates ss run) (hopen : b'.panelOpen = b.panelOpen)
    (hrouting : b'.activeRouting = b.activeRouting) : b'.Accumulates (ss ++ [s]) run where
  shut := hopen.trans h.shut
  lines :=
    let ⟨lines, hsub, hgives⟩ := h.lines
    ⟨lines, hsub.trans (List.sublist_append_left ss [s]), hgives⟩
  routing := hrouting ▸ h.routing

/-- A vertex makes the path longer, or begins it. -/
theorem pushVertex {routing : Routing α} {v : Vertex α}
    (h : ∀ run, b.run = some run → b.Accumulates ss run) (hshut : b.panelOpen = false)
    (ha : b.activeRouting = some routing) (hv : GivesVertex s v) :
    (b.pushVertex v).Accumulates (ss ++ [s]) (VertexRun.extend b.run v) := by
  obtain ⟨hlines, hindices⟩ : (∃ lines, lines.Sublist ss ∧
      List.Forall₂ GivesVertex lines ((b.run.map VertexRun.toList).getD [])) ∧
      ((b.run.map VertexRun.toList).getD []).map (·.entry.statementIndex) <:+
        routing.statementIndices := by
    cases hrun : b.run with
    | none => exact ⟨⟨[], List.nil_sublist ss, .nil⟩, List.nil_suffix⟩
    | some run =>
      obtain ⟨-, hlines, routing', ha', hindices⟩ := h run hrun
      obtain rfl := Option.some.inj (ha.symm.trans ha')
      exact ⟨hlines, hindices⟩
  refine ⟨hshut, ?_, pushIndex routing v.entry.statementIndex,
    by simp [Builder.pushVertex, extend, ha], ?_⟩
  · obtain ⟨lines, hsub, hgives⟩ := hlines
    rw [toList_extend]
    exact ⟨lines ++ [s], hsub.append (List.Sublist.refl [s]),
      List.rel_append hgives (.cons hv .nil)⟩
  · obtain ⟨before, hbefore⟩ := hindices
    rw [toList_extend, List.map_append, pushIndex, ← hbefore]
    exact ⟨before, (List.append_assoc _ _ _).symm⟩

end Accumulates

/-- What is neither a vertex nor the header of a panel leaves the path and the panel as they are. -/
theorem place_keeps (hr : b.context.Plays s r) (hp : b.place r = .ok b')
    (hpoint : s.command.kind ≠ .point) (hcurve : s.command.kind ≠ .curve)
    (hpanel : ∀ p, r ≠ .panel p) : b'.run = b.run ∧ b'.panelOpen = b.panelOpen := by
  have hclose : b.closeRouting.panelOpen = b.panelOpen := by
    obtain ⟨-, h⟩ | ⟨_, -, ⟨-, h⟩ | ⟨-, h⟩⟩ := closeRouting_cases b <;> simp [h, record]
  cases hr with
  | panel => exact absurd rfl (hpanel _)
  | boundary kind => exact absurd kind hpoint
  | point kind => exact absurd kind hpoint
  | curve kind => exact absurd kind hcurve
  | header =>
    cases hp
    exact ⟨closeRouting_run b, hclose⟩
  | foreign =>
    cases hp
    exact ⟨closeRouting_run b, hclose⟩
  | circle =>
    obtain ⟨c, rfl, rfl⟩ := exists_of_place_circle hp
    exact ⟨rfl, rfl⟩
  | _ =>
    cases hp
    exact ⟨rfl, rfl⟩

/-! ## The whole state -/

/-- What a pass has open after some statements fits together. -/
structure Coherent (b : Builder α) (ss : List (Statement α)) : Prop extends Apart b where
  run : ∀ run, b.run = some run → b.Accumulates ss run
  /-- A panel is open if the statements end in its header and points. -/
  opened : b.panelOpen = true ↔ ∃ p, OpensPanel ss b.activeModule p
  /-- Then it is the last one of the model, and no path is open. -/
  panel : ∀ p, OpensPanel ss b.activeModule p →
    b.run = none ∧ ∃ points, b.model.sheathing.getLast? = some { p with points }

theorem coherent_start (texts : List String) (source : String) (firstId : Int) :
    (start texts source firstId : Builder α).Coherent [] where
  fresh _ h := nomatch h
  finished _ h := nomatch h
  run _ h := nomatch h
  opened := iff_of_false Bool.false_ne_true fun ⟨_, h⟩ => not_opensPanel_nil h
  panel _ h := absurd h not_opensPanel_nil

namespace Coherent

/-- Where no panel takes points, none is open: one that is open is the last of the model. -/
theorem panelOpen_eq_false (h : b.Coherent ss) (hc : b.context.panel = none) :
    b.panelOpen = false := by
  refine Bool.eq_false_iff.mpr fun hopen => ?_
  obtain ⟨p, hp⟩ := h.opened.mp hopen
  obtain ⟨-, points, hlast⟩ := h.panel p hp
  simp [context, openPanel?, hopen, hlast] at hc

/-- Without a panel, what is open fits together if the path and the routings do. -/
theorem of_shut (happart : b.Apart) (hrun : ∀ run, b.run = some run → b.Accumulates ss run)
    (hshut : b.panelOpen = false) (hnone : ∀ p, ¬OpensPanel ss b.activeModule p) :
    b.Coherent ss where
  toApart := happart
  run := hrun
  opened := iff_of_false (by simp [hshut]) fun ⟨p, hp⟩ => hnone p hp
  panel p hp := absurd hp (hnone p)

/-- A vertex is put on the path of the open routing. -/
theorem of_vertex {routing : Routing α} {v : Vertex α} (happart : (b.pushVertex v).Apart)
    (hrun : ∀ run, b.run = some run → b.Accumulates ss run) (hshut : b.panelOpen = false)
    (ha : b.activeRouting = some routing) (hv : GivesVertex s v)
    (hnone : ∀ p, ¬OpensPanel (ss ++ [s]) b.activeModule p) :
    (b.pushVertex v).Coherent (ss ++ [s]) := by
  refine of_shut happart (fun run hr => ?_) hshut hnone
  obtain rfl := Option.some.inj hr
  exact .pushVertex hrun hshut ha hv

/-- A point is taken by the panel, or else by the path, or it has no place. -/
theorem accept_point (h : b.Coherent ss) (hk : s.command.kind = .point)
    (ha : b.accept s = .ok b') (happart : b'.Apart) : b'.Coherent (ss ++ [s]) := by
  have hplays := b.context.plays_role s
  rw [accept] at ha
  generalize b.context.role s = r at ha hplays
  cases hplays with
  | boundary kind usable opened entry =>
    cases ha
    have hopen : b.panelOpen = true := by
      by_contra hshut
      simp [context, openPanel?, hshut] at opened
    obtain ⟨p, hp⟩ := h.opened.mp hopen
    refine ⟨happart, fun run hrun => ?_, iff_of_true hopen ⟨p, (opensPanel_point hk).mpr hp⟩,
      fun q hq => ?_⟩
    · have hnone : b.run = none := (h.panel p hp).1
      cases hnone.symm.trans hrun
    · obtain ⟨hnone, points, hlast⟩ := h.panel q ((opensPanel_point hk).mp hq)
      exact ⟨hnone, _, by simp [pushPanelPoint, extend, hlast]; rfl⟩
  | point kind usable closed opened entry =>
    cases ha
    obtain ⟨routing, hrouting, -⟩ := Option.map_eq_some_iff.mp opened
    have hshut := h.panelOpen_eq_false closed
    refine of_vertex happart h.run hshut hrouting (.inl ⟨kind, _, entry⟩) fun p hp => ?_
    have hopen := h.opened.mpr ⟨p, (opensPanel_point hk).mp hp⟩
    rw [hshut] at hopen
    cases hopen
  | unhandled =>
    cases ha
    refine ⟨happart, fun run hrun => (h.run run hrun).concat rfl rfl, ?_, fun p hp => ?_⟩
    · exact h.opened.trans (exists_congr fun p => (opensPanel_point hk).symm)
    · exact h.panel p ((opensPanel_point hk).mp hp)
  | member kind =>
    rw [hk] at kind
    cases kind
  | _ => simp_all

/-- A curve closes the panel. It is taken by the path, or it has no place. -/
theorem accept_curve (h : b.Coherent ss) (hk : s.command.kind = .curve)
    (ha : ({ b with panelOpen := false } : Builder α).accept s = .ok b') (happart : b'.Apart) :
    b'.Coherent (ss ++ [s]) := by
  have hrun (run : VertexRun α) (hr : b.run = some run) :
      ({ b with panelOpen := false } : Builder α).Accumulates ss run :=
    { h.run run hr with shut := rfl }
  have hnone (module? : Option (ModuleFrame α)) (p : SheathingPanel α) :
      ¬OpensPanel (ss ++ [s]) module? p := by
    intro hp
    obtain ⟨hpoint, -⟩ | ⟨side, hside, -⟩ := opensPanel_concat hp
    · cases hk.symm.trans hpoint
    · cases hk.symm.trans hside
  have hplays := ({ b with panelOpen := false } : Builder α).context.plays_role s
  rw [accept] at ha
  generalize ({ b with panelOpen := false } : Builder α).context.role s = r at ha hplays
  cases hplays with
  | curve kind usable opened entry =>
    cases ha
    obtain ⟨routing, hrouting, -⟩ := Option.map_eq_some_iff.mp opened
    exact of_vertex happart hrun rfl hrouting (.inr ⟨kind, entry⟩) (hnone _)
  | unhandled =>
    cases ha
    exact of_shut happart (fun run hr => (hrun run hr).concat rfl rfl) rfl (hnone _)
  | member kind =>
    rw [hk] at kind
    cases kind
  | _ => simp_all

/-- Any other statement finds neither a panel nor a path open, and only a header opens a panel. -/
theorem accept_other (hrun : b.run = none) (hshut : b.panelOpen = false)
    (hpoint : s.command.kind ≠ .point) (hcurve : s.command.kind ≠ .curve)
    (ha : b.accept s = .ok b') (happart : b'.Apart) : b'.Coherent (ss ++ [s]) := by
  have hplays := b.context.plays_role s
  rw [accept] at ha
  generalize b.context.role s = r at ha hplays
  -- A header is told by its role, as the module it is relative to may be another one behind it.
  by_cases hpanel : ∃ p, r = .panel p
  · obtain ⟨p, rfl⟩ := hpanel
    cases hplays with
    | panel kind usable entry =>
      cases ha
      have hopens : OpensPanel (ss ++ [s]) b.activeModule p :=
        opensPanel_of_header kind usable entry
      refine ⟨happart, fun run hr => ?_, iff_of_true rfl ⟨p, hopens⟩,
        fun q hq => ⟨hrun, p.points, ?_⟩⟩
      · cases hrun.symm.trans hr
      · obtain ⟨hk, -⟩ | ⟨side, hk, -, hq⟩ := opensPanel_concat hq
        · exact absurd hk hpoint
        · obtain rfl := CommandKind.panel.inj (kind.symm.trans hk)
          obtain rfl := Option.some.inj (entry.symm.trans hq)
          exact List.getLast?_concat
  · obtain ⟨hrun', hshut'⟩ := place_keeps hplays ha hpoint hcurve fun p hp => hpanel ⟨p, hp⟩
    refine of_shut happart (fun run hr => ?_) (hshut'.trans hshut) fun p hp => ?_
    · rw [hrun', hrun] at hr
      cases hr
    · obtain ⟨hk, -⟩ | ⟨side, hk, hu, -⟩ := opensPanel_concat hp
      · exact hpoint hk
      · obtain ⟨q, hq, -⟩ := hplays.exists_panel hk hu
        exact hpanel ⟨q, hq⟩

/-- A statement leaves the state as it should be, whatever it ends before it is taken in. -/
theorem feed (h : b.Coherent ss) (hf : b.feed s = .ok b') : b'.Coherent (ss ++ [s]) := by
  have happart := h.toApart.feed hf
  obtain ⟨b₁, hs, ha⟩ := feed_eq hf
  by_cases hpoint : s.command.kind = .point
  · rw [hpoint] at hs
    cases hs
    exact h.accept_point hpoint ha happart
  by_cases hcurve : s.command.kind = .curve
  · rw [hcurve] at hs
    cases hs
    exact h.accept_curve hcurve ha happart
  · rw [settle_of_ne hpoint hcurve] at hs
    exact accept_other (run_endPath hs) (panelOpen_endPath hs) hpoint hcurve ha happart

theorem foldlM {ts : List (Statement α)} (h : b.Coherent ss)
    (hf : ts.foldlM Builder.feed b = .ok b') : b'.Coherent (ss ++ ts) := by
  induction ts generalizing b ss with
  | nil =>
    cases hf
    rwa [List.append_nil]
  | cons t ts ih =>
    rw [List.foldlM_cons] at hf
    obtain ⟨b₁, ht, hts⟩ := exists_of_bind_eq_ok hf
    rw [List.append_cons]
    exact ih (h.feed ht) hts

end Coherent

/-- In every state of a pass, after any statements that it has got through, what is open fits
together, and a routing that is open is not in the model yet. An open path has as many commands as
entries, and one at least. So where it ends there is a routing for it and a first line of it, wherever
the routing ends the path has ended before, and a vertex that is taken in is counted among the
statements of an open routing. -/
theorem coherent_of_foldlM {texts : List String} {source : String} {firstId : Int}
    (h : ss.foldlM feed (start texts source firstId) = .ok b) :
    b.Coherent ss ∧
      (∀ routing, b.activeRouting = some routing → routing ∉ b.model.routings) ∧
      (∀ run, b.run = some run →
        (run.toList.map (·.command)).length = (run.toList.map (·.entry)).length ∧
        1 ≤ (run.toList.map (·.entry)).length ∧
        ∃ routing, b.activeRouting = some routing ∧
          (run.toList.map (·.entry)).head? = some run.first.entry) ∧
      ∀ (s : Statement α) b₁, b.settle s.command.kind = .ok b₁ →
        (s.command.kind ≠ .point → s.command.kind ≠ .curve → b₁.run = none) ∧
        ∀ j k v, b₁.context.role s = .vertex j k v → ∃ routing,
          b₁.activeRouting = some routing ∧ routing.statementIndex = j ∧
          (b₁.pushVertex v).activeRouting = some (pushIndex routing s.index) := by
  have hb : b.Coherent ([] ++ ss) := (coherent_start texts source firstId).foldlM h
  rw [List.nil_append] at hb
  refine ⟨hb, fun routing ha => hb.toApart.notMem ha, fun run hr => ?_, fun s b₁ hs => ⟨?_, ?_⟩⟩
  · obtain ⟨routing, ha, -⟩ := (hb.run run hr).routing
    exact ⟨run.length_commands, run.one_le_length_entries, routing, ha, rfl⟩
  · intro hpoint hcurve
    rw [settle_of_ne hpoint hcurve] at hs
    exact run_endPath hs
  · intro j k v hrole
    have hplays := b₁.context.plays_role s
    rw [hrole] at hplays
    obtain ⟨routing, ha, hj⟩ := Option.map_eq_some_iff.mp hplays.vertex_opened.1
    refine ⟨routing, ha, hj, ?_⟩
    rw [← hplays.vertex_index]
    simp [pushVertex, extend, ha]

open RealNumber in
/-- A routing with a circle and an open path behind it. -/
theorem coherent_of_open_path :
    let ss := [statementOf 0 .routing "PAF" [], statementOf 1 .circle "MP" [5, 5, 2],
      statementOf 2 .point "PP" [0, 0], statementOf 3 .point "PP" [10, 0]]
    ∃ (b : Builder RealNumber) (run : VertexRun RealNumber) (routing : Routing RealNumber),
      ss.foldlM feed (start [] "" 1) = .ok b ∧ b.run = some run ∧ b.activeRouting = some routing ∧
      run.toList.map (·.entry.statementIndex) = [2, 3] ∧
      routing.statementIndices = [0, 1, 2, 3] ∧ b.Coherent ss ∧ routing ∉ b.model.routings := by
  intro ss
  obtain ⟨b, run, routing, hb, hr, ha, hrun, hrouting⟩ : ∃ b run routing,
      ss.foldlM feed (start [] "" 1) = .ok b ∧ b.run = some run ∧ b.activeRouting = some routing ∧
      run.toList.map (·.entry.statementIndex) = [2, 3] ∧
      routing.statementIndices = [0, 1, 2, 3] :=
    ⟨_, _, _, rfl, rfl, rfl, rfl, rfl⟩
  obtain ⟨hcoherent, hapart, -⟩ := coherent_of_foldlM hb
  exact ⟨b, run, routing, hb, hr, ha, hrun, hrouting, hcoherent, hapart routing ha⟩

end Builder

end WallPanel
