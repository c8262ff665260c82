import WallPanel.Proofs.Building.Contexts
import WallPanel.Proofs.Building.Frame
import WallPanel.Proofs.Reading.Growth

/-!
# Building the routings

The routings of the model in the making and what has no place in it are those of the reading as far
as they are not open, and what is open holds what the reading says of it so far
(`Builder.SharesCuts`). The ends of paths and routings keep it so, and so does every role
(`Builder.sharesCuts_place`).
-/

namespace WallPanel

variable {α : Type} [Scalar α]

/-- The routings of a model in the making and what has no place in it are those of a reading, as far
as they are not open, and what is open is what the reading says of it. -/
structure Builder.SharesCuts (b : Builder α) (es : List (Placed α)) : Prop where
  routings : b.model.routings.map Routing.anonymous = Reading.routings es b.context.routing
  unhandled : b.model.unhandled.Perm (Reading.unhandled es b.context.run b.context.routing)
  opened : ∀ r, b.activeRouting = some r → r.editorId = none ∧
    ∃ h ∈ Reading.headers es, r = Reading.filled es b.context.run h
  run : ∀ r, b.run = some r → r.toList = Reading.vertices es r.first.entry.statementIndex
  readable : ∀ j, ∀ c ∈ Reading.cuts es b.context.run j, ∃ segment, c = .ok segment

namespace Builder

variable {b b' : Builder α} {es : List (Placed α)} {s : Statement α} {r : Role α}

omit [Scalar α] in
theorem statementIndex_of_activeRouting {j : Nat} {routing : Routing α}
    (hj : b.context.routing = some j) (ha : b.activeRouting = some routing) :
    routing.statementIndex = j := by
  simpa [context, ha] using hj

/-- The open routing is what the reading says of the header that the context names. -/
theorem SharesCuts.exists_header (h : b.SharesCuts es) {j : Nat} {routing : Routing α}
    (hj : b.context.routing = some j) (ha : b.activeRouting = some routing) :
    routing.editorId = none ∧ ∃ w ∈ Reading.headers es, w.statementIndex = j ∧
      routing = Reading.filled es b.context.run w := by
  obtain ⟨hid, w, hw, hfilled⟩ := h.opened routing ha
  have hwj := statementIndex_of_activeRouting hj ha
  rw [hfilled] at hwj
  exact ⟨hid, w, hw, hwj, hfilled⟩

/-! ## Ends -/

/-- A path ends in a cut of the open routing or in a record. -/
theorem sharesCuts_endPath (h : b.SharesCuts es) (hc : b.context.Rooted es)
    (he : b.endPath = .ok b') : b'.SharesCuts es := by
  obtain ⟨-, rfl⟩ | ⟨run, hr, hcases⟩ := endPath_cases he
  · exact h
  have hrun : b.context.run = some run.first.entry.statementIndex := by simp [context, hr]
  obtain ⟨j, v, hj, hfirsts, hv, hitems, hothers⟩ := hc.run _ hrun
  have hcut := Reading.cutOf?_eq (h.run run hr)
  have hcuts := Reading.cuts_close hitems
  have hunh := Reading.unhandled_closeRun (o := b.context.routing) hfirsts hv
  have hv' : v = run.first := by
    refine (hfirsts.eq_of_key (Reading.mem_firsts ?_ rfl) hv.symm).symm
    rw [← h.run run hr]
    exact List.mem_cons_self
  have hrestcuts : ∀ j' ≠ j, Reading.cuts es none j' = Reading.cuts es b.context.run j' :=
    fun j' hj' => hrun ▸ Reading.cuts_of_notMem (hothers j' hj')
  have hctx := context_endPath he
  rcases hcases with ⟨routing, cut, ha, hok, rfl⟩ | ⟨hnone, rfl⟩
  · have hnew : Reading.itemCut? es none (.run run.first.entry.statementIndex) =
        some (.ok (.path cut)) := by
      simp [Reading.itemCut?, hcut, hok, Except.map]
    have hshort : Reading.shortRun? es none v = none := by
      simp [Reading.shortRun?, hv, hcut, hok]
    rw [hnew, ← hrun] at hcuts
    refine ⟨by rw [hctx]; exact h.routings, ?_, fun r hr => ?_, (fun _ hr => by cases hr), fun j' c hmem => ?_⟩
    · rw [hctx]
      refine h.unhandled.trans ?_
      simpa [hshort, hrun] using hunh.symm
    · obtain ⟨hid, w, hw, hwj, hr'⟩ := h.exists_header hj ha
      cases hr
      refine ⟨hid, w, hw, ?_⟩
      rw [hctx, hr']
      simp [Reading.filled, pushSegment, hwj, hcuts, Except.toOption]
    · rw [hctx] at hmem
      by_cases hj' : j' = j
      · rw [hj', hcuts] at hmem
        rcases List.mem_append.mp hmem with hmem | hmem
        · exact h.readable j c hmem
        · exact ⟨.path cut, by simpa using hmem⟩
      · exact h.readable j' c (hrestcuts j' hj' ▸ hmem)
  · have hnone : run.cut? = none := by
      refine hnone.resolve_left fun ha => ?_
      simp [context, ha] at hj
    have hnew : Reading.itemCut? es none (.run run.first.entry.statementIndex) = none := by
      simp [Reading.itemCut?, hcut, hnone]
    have hshort : Reading.shortRun? es none v = some v.unhandled := by
      simp [Reading.shortRun?, hv, hcut, hnone]
    rw [hnew, ← hrun] at hcuts
    have hsame : ∀ j', Reading.cuts es none j' = Reading.cuts es b.context.run j' := by
      intro j'
      by_cases hj' : j' = j
      · simpa [hj'] using hcuts
      · exact hrestcuts j' hj'
    refine ⟨by rw [hctx]; exact h.routings, ?_, fun r hr => ?_, (fun _ hr => by cases hr), fun j' c hmem => ?_⟩
    · rw [hctx]
      refine (h.unhandled.append_right [run.first.unhandled]).trans ?_
      rw [hshort, hv'] at hunh
      simpa [hrun] using hunh.symm
    · obtain ⟨hid, w, hw, hr'⟩ := h.opened r hr
      refine ⟨hid, w, hw, ?_⟩
      rw [hctx, hr']
      simp [Reading.filled, hsame]
    · rw [hctx, hsame] at hmem
      exact h.readable j' c hmem

/-- A routing ends as one of the model or in a record. -/
theorem sharesCuts_closeRouting (h : b.SharesCuts es) (hc : b.context.Rooted es)
    (hrun : b.run = none) : b.closeRouting.SharesCuts es := by
  cases ha : b.activeRouting with
  | none => simpa [closeRouting, ha] using h
  | some routing =>
    have ho : b.context.run = none := by simp [context, hrun]
    obtain ⟨hid, w, hw, hr⟩ := h.opened routing ha
    have hj : b.context.routing = some w.statementIndex := by
      rw [show w.statementIndex = routing.statementIndex by rw [hr]; rfl]
      simp [context, ha]
    obtain ⟨w', hlast, hw'⟩ := hc.routing _ hj
    obtain rfl : w = w' := hlast.eq_of_key hw hw'.symm
    have hread := h.readable w.statementIndex
    rw [ho] at hr hread
    have hempty : routing.segments = [] ↔ Reading.cuts es none w.statementIndex = [] := by
      rw [hr]
      cases hcuts : Reading.cuts es none w.statementIndex with
      | nil => simp [Reading.filled, hcuts]
      | cons c cs =>
        obtain ⟨segment, rfl⟩ := hread c (by simp [hcuts])
        simp [Reading.filled, hcuts, Except.toOption]
    have hemit : Reading.routings es none =
        Reading.routings es b.context.routing ++ (Reading.emitted? es none w).toList := by
      refine hlast.filterMap_eq (by simp [Reading.emitted?, hj]) fun w' hw' => ?_
      simp [Reading.emitted?, hj, Ne.symm hw']
    have hrecord : Reading.unhandled es none none =
        Reading.unhandled es none b.context.routing ++
          (Reading.emptyHeader? es none w).toList := by
      rw [Reading.unhandled, Reading.unhandled, List.append_assoc _ _ (Option.toList _)]
      congr 1
      refine hlast.filterMap_eq (by simp [Reading.emptyHeader?, hj]) fun w' hw' => ?_
      simp [Reading.emptyHeader?, hj, Ne.symm hw']
    have hctx := context_closeRouting b
    refine ⟨?_, ?_, fun r hr => ?_, by simp [closeRouting_run, hrun], by simpa [hctx] using h.readable⟩
    · rw [hctx, hemit, ← h.routings]
      by_cases hs : routing.segments = []
      · simp [closeRouting, ha, hs, record, Reading.emitted?, hempty.mp hs]
      · have hcuts := mt hempty.mpr hs
        have hanon : ({ routing with editorId := some b.nextId } : Routing α).anonymous =
            Reading.filled es none w := by
          rw [← hr, Routing.anonymous, ← hid]
        simp [closeRouting, ha, hs, Reading.emitted?, hcuts, hanon]
    · rw [hctx, ho, hrecord]
      by_cases hs : routing.segments = []
      · have hu : routing.unhandled = w.unhandled := by rw [hr]; rfl
        have := h.unhandled.append_right [w.unhandled]
        simpa [closeRouting, ha, hs, record, Reading.emptyHeader?, hempty.mp hs, hu, ho] using this
      · have hcuts := mt hempty.mpr hs
        simpa [closeRouting, ha, hs, Reading.emptyHeader?, hcuts, ho] using h.unhandled
    · rw [activeRouting_closeRouting] at hr
      cases hr

/-! ## Roles -/

/-- A statement that belongs to no routing keeps the routings. -/
theorem sharesCuts_apart (h : b.SharesCuts es) {p : Placed α} (hp : p.role.isApart = true)
    (hr : b'.model.routings = b.model.routings)
    (hu : b'.model.unhandled = b.model.unhandled ++ p.role.unhandled?.toList)
    (ha : b'.activeRouting = b.activeRouting) (hn : b'.run = b.run) :
    b'.SharesCuts (es ++ [p]) := by
  have hrouting : b'.context.routing = b.context.routing := by simp [context, ha]
  have hrun : b'.context.run = b.context.run := by simp [context, hn]
  refine ⟨?_, ?_, fun r hr' => ?_, fun r hr' => ?_, fun j c hc => ?_⟩
  · rw [hr, hrouting, Reading.routings_apart hp, h.routings]
  · rw [hu, hrouting, hrun]
    exact (h.unhandled.append_right _).trans (Reading.unhandled_apart hp _ _).symm
  · obtain ⟨hid, w, hw, hf⟩ := h.opened r (ha ▸ hr')
    refine ⟨hid, w, ?_, ?_⟩
    · simpa [Reading.headers_concat] using .inl hw
    · rw [hrun, Reading.filled_apart hp, hf]
  · rw [Reading.vertices_concat, Role.vertex?_of_isApart hp, h.run r (hn ▸ hr')]
    simp
  · rw [hrun, Reading.cuts_apart hp] at hc
    exact h.readable j c hc

/-- A header opens a routing, when none is open. -/
theorem sharesCuts_header (h : b.SharesCuts es) (hb : Reading.Below es s.index)
    (hrun : b.run = none) (ha : b.activeRouting = none) {w : Routing α}
    (hw : w.statementIndex = s.index) (hs : w.segments = []) (hi : w.statementIndices = [s.index])
    (hid : w.editorId = none) :
    ({ b with activeRouting := some w } : Builder α).SharesCuts (es ++ [⟨s, .header w⟩]) := by
  have ho : b.context.run = none := by simp [context, hrun]
  have hor : b.context.routing = none := by simp [context, ha]
  refine ⟨?_, ?_, fun r hr => ?_, fun r hr => ?_, fun j c hc => ?_⟩
  · exact h.routings.trans ((congrArg _ hor).trans (Reading.routings_header hw hb).symm)
  · have hu := h.unhandled
    rw [hor, ho, ← Reading.unhandled_header hw hb] at hu
    simpa [context, hrun] using hu
  · obtain rfl : w = r := Option.some.inj hr
    exact ⟨hid, w, by simp [Reading.headers_concat, Role.header?],
      (Reading.filled_header hw hb hs hi _).symm⟩
  · exact absurd hr (by simp [hrun])
  · rw [Reading.cuts_header] at hc
    exact h.readable j c hc

/-- A circle goes to the open routing. -/
theorem sharesCuts_circle (h : b.SharesCuts es) {j : Nat}
    {d : CircleCut α} (hj : b.context.routing = some j) (hrun : b.run = none)
    (hd : d.statementIndex = s.index) :
    (b.pushCircle d).SharesCuts (es ++ [⟨s, .circle j (.ok d)⟩]) := by
  have ho : b.context.run = none := by simp [context, hrun]
  have hctx : (b.pushCircle d).context = b.context := by
    simp only [context, pushCircle, extend, Option.map_map]
    rfl
  have hof : ∀ j' ≠ j, (Role.circle j (.ok d)).isOf j' = false :=
    fun j' hj' => by simp [Role.isOf, Ne.symm hj']
  have hcuts (j' : Nat) : Reading.cuts (es ++ [⟨s, .circle j (.ok d)⟩]) none j' =
      Reading.cuts es none j' ++ if j = j' then [.ok (.circle d)] else [] := by
    rw [Reading.cuts_concat (fun _ _ _ => rfl) fun _ hk => ?_]
    · by_cases hj' : j = j' <;> simp [Role.item?, hj', Reading.itemCut?, Except.map]
    · simp only [Role.item?] at hk
      split at hk <;> cases hk
  refine ⟨?_, ?_, fun r hr => ?_, fun r hr => ?_, fun j' c hmem => ?_⟩
  · rw [hctx, hj, Reading.routings_within rfl hof fun _ _ _ _ => rfl, ← hj]
    exact h.routings
  · have hshort : Reading.shortRun? (es ++ [⟨s, .circle j (.ok d)⟩]) none =
        Reading.shortRun? es none := by
      funext v
      simp only [Reading.shortRun?, Reading.cutOf?_concat (p := ⟨s, .circle j (.ok d)⟩) rfl]
    have hfirsts : Reading.firsts (es ++ [⟨s, .circle j (.ok d)⟩]) = Reading.firsts es := by
      simp [Reading.firsts_concat, Role.first?]
    have hu := h.unhandled
    rw [hj, ho] at hu
    rw [hctx, hj, ho, Reading.unhandled_within rfl hof (fun _ _ _ _ => rfl) rfl
      (by rw [hfirsts, hshort])]
    exact hu
  · obtain ⟨r', hr', rfl⟩ := Option.map_eq_some_iff.mp hr
    obtain ⟨hid, w, hw, hwj, hf⟩ := h.exists_header hj hr'
    refine ⟨hid, w, by simpa [Reading.headers_concat, Role.header?] using hw, ?_⟩
    rw [hctx, hf, ho]
    simp [pushSegment, Reading.filled, hcuts, hwj, Reading.indices_concat, Role.isOf, hd, Except.toOption]
  · exact absurd hr (by simp [pushCircle, extend, hrun])
  · rw [hctx, ho, hcuts] at hmem
    rcases List.mem_append.mp hmem with hmem | hmem
    · exact h.readable j' c (by rwa [ho])
    · split at hmem
      · exact ⟨.circle d, by simpa using hmem⟩
      · cases hmem

/-- A vertex goes to the open routing, on the open path or on a new one. -/
theorem sharesCuts_vertex (h : b.SharesCuts es) (hc : b.context.Rooted es)
    (hb : Reading.Below es s.index) {j k : Nat} {v : Vertex α} (hj : b.context.routing = some j)
    (hk : k = b.context.run.getD s.index) (hv : v.entry.statementIndex = s.index) :
    (b.pushVertex v).SharesCuts (es ++ [⟨s, .vertex j k v⟩]) := by
  have hctx := context_pushVertex hk hv
  have hrun : (b.pushVertex v).context.run = some k := by rw [hctx]
  have hrouting : (b.pushVertex v).context.routing = b.context.routing := by rw [hctx]
  have ho : b.context.run = some k ∧ v.entry.statementIndex ≠ k ∨
      b.context.run = none ∧ v.entry.statementIndex = k ∧ Reading.Below es k := by
    cases hr : b.context.run with
    | none =>
      obtain rfl : k = s.index := by rw [hk, hr]; rfl
      exact .inr ⟨rfl, hv, hb⟩
    | some k' =>
      obtain rfl : k = k' := by rw [hk, hr]; rfl
      obtain ⟨_, w, _, hfirst, hw, _⟩ := hc.run k hr
      have := hb.first hfirst.mem
      exact .inl ⟨rfl, by omega⟩
  have ho' : b.context.run = some k ∨ b.context.run = none ∧ Reading.Below es k :=
    ho.imp And.left fun h => ⟨h.1, h.2.2⟩
  have hof : ∀ j' ≠ j, (Role.vertex j k v).isOf j' = false :=
    fun j' hj' => by simp [Role.isOf, Ne.symm hj']
  have hother : ∀ j' ≠ j, ∀ k', .run k' ∈ Reading.items es j' → Role.vertex? k' (.vertex j k v) = none := by
    intro j' hj' k' hmem
    have hne : k ≠ k' := by
      rintro rfl
      rcases ho with ⟨hr, -⟩ | ⟨-, -, hbk⟩
      · obtain ⟨i, _, hi, _, _, _, hothers⟩ := hc.run k hr
        obtain rfl : i = j := Option.some.inj (hi.symm.trans hj)
        exact hothers j' hj' hmem
      · exact Nat.lt_irrefl k (hbk.run hmem)
    simp [Role.vertex?, hne]
  refine ⟨?_, ?_, fun r hr => ?_, fun r hr => ?_, fun j' c hmem => ?_⟩
  · rw [hrouting, hj, Reading.routings_within rfl hof hother, ← hj]
    exact h.routings
  · have hu := h.unhandled
    rw [hj] at hu
    rw [hrouting, hj, hrun, Reading.unhandled_within rfl hof hother rfl (Reading.shortRuns_vertex ho)]
    exact hu
  · obtain ⟨r', hr', rfl⟩ := Option.map_eq_some_iff.mp hr
    obtain ⟨hid, w, hw, hwj, hf⟩ := h.exists_header hj hr'
    refine ⟨hid, w, by simpa [Reading.headers_concat, Role.header?] using hw, ?_⟩
    rw [hrun, hf]
    simp [pushIndex, Reading.filled, Reading.cuts_vertex ho', hwj, Reading.indices_concat, Role.isOf, hv]
  · obtain rfl : VertexRun.extend b.run v = r := Option.some.inj hr
    have hfirst : (VertexRun.extend b.run v).first.entry.statementIndex = k :=
      Option.some.inj hrun
    rw [hfirst, Reading.vertices_concat, show Role.vertex? k (.vertex j k v) = some v by
      simp [Role.vertex?]]
    rcases ho with ⟨hr, -⟩ | ⟨hr, -, hbk⟩
    · obtain ⟨run, hrun', hrun''⟩ := Option.map_eq_some_iff.mp hr
      have hvs := h.run run hrun'
      rw [hrun''] at hvs
      simp [← hvs, hrun', VertexRun.extend, VertexRun.push, VertexRun.toList]
    · have hnone : b.run = none := Option.map_eq_none_iff.mp hr
      simp [hnone, VertexRun.extend, VertexRun.toList, hbk.vertices]
  · rw [hrun, Reading.cuts_vertex ho'] at hmem
    exact h.readable j' c hmem

/-- Every role keeps the routings in step with the reading. -/
theorem sharesCuts_place (h : b.SharesCuts es) (hc : b.context.Rooted es)
    (hb : Reading.Below es s.index) (hr : b.context.Plays s r)
    (hrun : s.command.kind ≠ .point → s.command.kind ≠ .curve → b.run = none)
    (hp : b.place r = .ok b') : b'.SharesCuts (es ++ [⟨s, r⟩]) := by
  have hclosed {t : CommandKind} (ht : s.command.kind = t) (hp : t ≠ .point) (hc' : t ≠ .curve) :
      b.run = none := hrun (ht ▸ hp) (ht ▸ hc')
  cases hr with
  | header kind =>
    cases hp
    have hrun' := hclosed kind nofun nofun
    exact sharesCuts_header (sharesCuts_closeRouting h hc hrun') hb
      (by rw [closeRouting_run, hrun']) (activeRouting_closeRouting b) rfl rfl rfl rfl
  | foreign kind =>
    cases hp
    exact sharesCuts_apart (sharesCuts_closeRouting h hc (hclosed kind nofun nofun)) rfl rfl rfl
      rfl rfl
  | circle kind usable opened entry =>
    obtain ⟨d, rfl, rfl⟩ := exists_of_place_circle hp
    exact sharesCuts_circle h opened (hclosed kind nofun nofun) (CircleCut.of_ofStatement? entry)
  | point kind usable closed opened entry =>
    cases hp
    have hv := (Context.Plays.point kind usable closed opened entry).vertex_index
    exact sharesCuts_vertex h hc hb opened rfl hv
  | curve kind usable opened entry =>
    cases hp
    have hv := (Context.Plays.curve kind usable opened entry).vertex_index
    exact sharesCuts_vertex h hc hb opened rfl hv
  | unhandled =>
    cases hp
    exact sharesCuts_apart h rfl rfl rfl rfl rfl
  | @member m =>
    cases hp
    have hsame : (b.pushMember m).model.routings = b.model.routings ∧
        (b.pushMember m).model.unhandled = b.model.unhandled := by
      cases hk : m.kind <;> simp [pushMember, extend, hk]
    exact sharesCuts_apart h rfl hsame.1 (by simp [hsame.2, Role.unhandled?]) rfl rfl
  | _ =>
    cases hp
    exact sharesCuts_apart h rfl rfl (by simp [Role.unhandled?]; rfl) rfl rfl

end Builder

end WallPanel
