import WallPanel.Number.Binary64
import WallPanel.Proofs.Attribution.Closing
import WallPanel.Proofs.Attribution.Document
import WallPanel.Proofs.Editing.Deletion
import WallPanel.Proofs.Reading.Starts

/-!
# Deleting a nail row or a drilling

A nail row or a drilling says nothing of the rest of the wall, but it closes the panel and the path
that are open. What is read from the document after it was deleted is what is left of the model,
exactly when it neither kept a point off the boundary of a panel nor divided a path
(`WallModel.reparse_deleteFastener`).
-/

namespace WallPanel

open Reading Attribution

variable {α : Type}

/-! ## A reading without one statement -/

namespace Reading

/-- A reading without the statement at a position. -/
def butFor (i : Nat) (es : List (Placed α)) : List (Placed α) := es.filter (·.statement.index ≠ i)

variable {i : Nat} {es : List (Placed α)}

theorem filterMap_butFor {γ : Type} {g : Role α → Option γ}
    (hg : ∀ p ∈ es, p.statement.index = i → g p.role = none) :
    (butFor i es).filterMap (g ·.role) = es.filterMap (g ·.role) := by
  rw [butFor, List.filterMap_filter]
  refine List.filterMap_congr fun p hp => ?_
  by_cases hi : p.statement.index = i
  · simp [hi, hg p hp hi]
  · simp [hi]

/-- Of records that have the positions of their statements, that of the statement goes. -/
theorem filterMap_butFor_eq_filter {γ : Type} {g : Role α → Option γ} {key : γ → Nat}
    (hkey : ∀ p ∈ es, ∀ x, g p.role = some x → key x = p.statement.index) :
    (butFor i es).filterMap (g ·.role) = (es.filterMap (g ·.role)).filter (key · ≠ i) := by
  rw [butFor, List.filterMap_filter, List.filter_filterMap]
  refine List.filterMap_congr fun p hp => ?_
  cases hx : g p.role with
  | none => simp
  | some x => simp [← hkey p hp x hx, Option.filter]

section Fastener

variable (hE : ∀ p ∈ es, p.statement.index = i → p.role.isFastener = true)
include hE

theorem filterMap_butFor_of_isFastener {γ : Type} {g : Role α → Option γ}
    (hg : ∀ r : Role α, r.isFastener = true → g r = none) :
    (butFor i es).filterMap (g ·.role) = es.filterMap (g ·.role) :=
  filterMap_butFor fun p hp hi => hg _ (hE p hp hi)

theorem panels_butFor : panels (butFor i es) = panels es :=
  filterMap_butFor_of_isFastener hE fun r hr => by cases r <;> first | rfl | cases hr

theorem points_butFor (j : Nat) : points (butFor i es) j = points es j :=
  filterMap_butFor_of_isFastener hE fun r hr => by cases r <;> first | rfl | cases hr

theorem indices_butFor (j : Nat) : indices (butFor i es) j = indices es j := by
  rw [indices, indices, butFor, List.filter_filter]
  congr 1
  refine List.filter_congr fun p hp => ?_
  by_cases hi : p.statement.index = i
  · have hr := hE p hp hi
    cases hrole : p.role <;> simp_all [Role.isFastener, Role.isOf]
  · simp [hi]

theorem sheathing_butFor : sheathing (butFor i es) = sheathing es := by
  simp only [sheathing, panels_butFor hE, points_butFor hE]

theorem headers_butFor : headers (butFor i es) = headers es :=
  filterMap_butFor_of_isFastener hE fun r hr => by cases r <;> first | rfl | cases hr

variable [Scalar α]

theorem cutOf?_butFor (k : Nat) : cutOf? (butFor i es) k = cutOf? es k := by
  have hv : vertices (butFor i es) k = vertices es k :=
    filterMap_butFor_of_isFastener hE fun r hr => by cases r <;> first | rfl | cases hr
  rw [cutOf?, cutOf?, hv]

theorem cuts_butFor (j : Nat) : cuts (butFor i es) none j = cuts es none j := by
  have hi : items (butFor i es) j = items es j :=
    filterMap_butFor_of_isFastener hE fun r hr => by cases r <;> first | rfl | cases hr
  rw [cuts, cuts, hi]
  refine List.filterMap_congr fun x _ => ?_
  cases x <;> simp only [itemCut?, cutOf?_butFor hE]

theorem routings_butFor : routings (butFor i es) none = routings es none := by
  have he : emitted? (butFor i es) none = emitted? es none := by
    funext w
    simp only [emitted?, filled, cuts_butFor hE, indices_butFor hE]
  rw [routings, routings, headers_butFor hE, he]

theorem unhandled_butFor : unhandled (butFor i es) none none = unhandled es none none := by
  have hown : (butFor i es).filterMap (·.role.unhandled?) = es.filterMap (·.role.unhandled?) :=
    filterMap_butFor_of_isFastener hE fun r hr => by cases r <;> first | rfl | cases hr
  have hfirsts : firsts (butFor i es) = firsts es :=
    filterMap_butFor_of_isFastener hE fun r hr => by cases r <;> first | rfl | cases hr
  have hshort : shortRun? (butFor i es) none = shortRun? es none := by
    funext v
    simp only [shortRun?, cutOf?_butFor hE]
  have hempty : emptyHeader? (butFor i es) none = emptyHeader? es none := by
    funext w
    simp only [emptyHeader?, cuts_butFor hE]
  rw [unhandled, unhandled, hown, hfirsts, hshort, headers_butFor hE, hempty]

end Fastener

end Reading

namespace WallModel

variable [Scalar α] {m : WallModel α} {es : List (Placed α)} {E : Entity α} {i : Nat}

omit [Scalar α] in
/-- A nail row or a drilling says nothing of the rest of the frame. -/
theorem SharesFrame.butFor (h : m.SharesFrame es)
    (hE : ∀ p ∈ es, p.statement.index = i → p.role.isFastener = true) {rows : List (NailRow α)}
    {drillings : List (Drilling α)} {statements : List (Option String)} {bounds : Bounds α}
    (hr : rows.map NailRow.anonymous = (butFor i es).filterMap (·.role.nailRow?))
    (hd : drillings.map Drilling.anonymous = (butFor i es).filterMap (·.role.drilling?)) :
    ({ m with nailRows := rows, drillings, statements, bounds } : WallModel α).SharesFrame
      (butFor i es) where
  wall := by
    rw [h.wall, ← List.head?_filterMap, ← List.head?_filterMap]
    rw [filterMap_butFor_of_isFastener hE fun r hr => by cases r <;> first | rfl | cases hr]
  modules := by
    rw [h.modules, filterMap_butFor_of_isFastener hE fun r hr => by
      cases r <;> first | rfl | cases hr]
  studs := by
    rw [h.studs, filterMap_butFor_of_isFastener hE fun r hr => by
      cases r <;> first | rfl | cases hr]
  blocking := by
    rw [h.blocking, filterMap_butFor_of_isFastener hE fun r hr => by
      cases r <;> first | rfl | cases hr]
  plates := by
    rw [h.plates, filterMap_butFor_of_isFastener hE fun r hr => by
      cases r <;> first | rfl | cases hr]
  sheathing := by rw [h.sheathing, sheathing_butFor hE]
  nailRows := hr
  drillings := hd

/-- A nail row or a drilling of a model has a statement. -/
theorem Says.exists_fastener (h : m.Says es) (hs : Sound es)
    (hE : E ∈ m.nailRows.map .nailRow ++ m.drillings.map .drilling) :
    ∃ p ∈ es, p.statement.index = E.statementIndex ∧ p.role.isFastener = true := by
  rcases List.mem_append.mp hE with hE | hE
  · obtain ⟨r, hr, rfl⟩ := List.mem_map.mp hE
    obtain ⟨p, hp, hi, hrole⟩ := h.exists_nailRow hs hr
    exact ⟨p, hp, hi, by rw [hrole]; rfl⟩
  · obtain ⟨d, hd, rfl⟩ := List.mem_map.mp hE
    obtain ⟨p, hp, hi, hrole⟩ := h.exists_drilling hs hd
    exact ⟨p, hp, hi, by rw [hrole]; rfl⟩

/-- What is left of a collection when an entity is taken out. -/
theorem eraseP_butFor {β : Type} {l : List β} {b : β} {anon : β → β} {id? : β → Option Int}
    {next : Int} {key : β → Nat} {g : Role α → Option β} (hs : Sound es)
    (hl : l.map anon = es.filterMap (g ·.role)) (hids : Issued (l.map id?) next)
    (hkey : ∀ p ∈ es, ∀ x, g p.role = some x → key x = p.statement.index)
    (hanon : ∀ x, key (anon x) = key x) (hb : b ∈ l) :
    (l.eraseP (id? · == id? b)).map anon = (butFor (key b) es).filterMap (g ·.role) := by
  have hsorted : (l.map key).Pairwise (· < ·) := by
    have hmap : l.map key = (es.filterMap (g ·.role)).map key := by
      rw [← hl, List.map_map]
      exact List.map_congr_left fun x _ => (hanon x).symm
    rw [hmap]
    exact hs.sorted_filterMap hkey
  rw [hids.eraseP_eq_filter hsorted hb, filterMap_butFor_eq_filter hkey, ← hl, List.filter_map]
  congr 2
  funext x
  simp [hanon]

/-- What is left of a model when a nail row or a drilling is deleted. -/
theorem Says.deleteFastener (h : m.Says es) (hs : Sound es) {next : Int} (hids : m.HasIds next)
    (hE : E ∈ m.nailRows.map .nailRow ++ m.drillings.map .drilling) :
    (m.deleteEntity E).withBounds.SharesFrame (Reading.butFor E.statementIndex es) ∧
      (m.deleteEntity E).withBounds.routings = m.routings ∧
      (m.deleteEntity E).withBounds.unhandled = m.unhandled := by
  obtain ⟨p, hp, hi, hfast⟩ := h.exists_fastener hs hE
  have hall : ∀ q ∈ es, q.statement.index = E.statementIndex → q.role.isFastener = true :=
    fun q hq hqi => hs.eq_of_index hp hq (hi.trans hqi.symm) ▸ hfast
  rcases List.mem_append.mp hE with hE | hE
  · obtain ⟨r, hr, rfl⟩ := List.mem_map.mp hE
    obtain ⟨p, hp, hi, hrole⟩ := h.exists_nailRow hs hr
    have hother : ∀ q ∈ es, q.statement.index = r.statementIndex → q.role.drilling? = none :=
      fun q hq hqi => by rw [← hs.eq_of_index hp hq (hi.trans hqi.symm), hrole]; rfl
    exact ⟨h.frame.butFor hall (eraseP_butFor hs h.frame.nailRows hids.nailRows
      (fun _ hp _ hr => hs.nailRow_index hp hr) (fun _ => rfl) hr)
      (h.frame.drillings.trans (filterMap_butFor hother).symm), rfl, rfl⟩
  · obtain ⟨d, hd, rfl⟩ := List.mem_map.mp hE
    obtain ⟨p, hp, hi, hrole⟩ := h.exists_drilling hs hd
    have hother : ∀ q ∈ es, q.statement.index = d.statementIndex → q.role.nailRow? = none :=
      fun q hq hqi => by rw [← hs.eq_of_index hp hq (hi.trans hqi.symm), hrole]; rfl
    exact ⟨h.frame.butFor hall (h.frame.nailRows.trans (filterMap_butFor hother).symm)
      (eraseP_butFor hs h.frame.drillings hids.drillings
        (fun _ hp _ hr => hs.drilling_index hp hr) (fun _ => rfl) hd), rfl, rfl⟩

end WallModel

/-! ## A document without one statement -/

section Document

variable [Scalar α] {ss pre post : List (Statement α)} {s : Statement α}

omit [Scalar α] in
/-- The statements before and after the one at a position. -/
theorem filter_ne_index (hn : Numbered ss) (hss : ss = pre ++ s :: post) :
    ss.filter (·.index ∉ [s.index]) = pre ++ post := by
  have hsorted := hn.sorted
  rw [hss, List.map_append, List.map_cons, List.pairwise_append, List.pairwise_cons] at hsorted
  obtain ⟨-, ⟨hpost, -⟩, hpre⟩ := hsorted
  have hp : pre.filter (·.index ∉ [s.index]) = pre := List.filter_eq_self.mpr fun t ht => by
    simpa using Nat.ne_of_lt (hpre _ (List.mem_map_of_mem ht) _ List.mem_cons_self)
  have hq : post.filter (·.index ∉ [s.index]) = post := List.filter_eq_self.mpr fun t ht => by
    simpa using Nat.ne_of_gt (hpost _ (List.mem_map_of_mem ht))
  rw [hss, List.filter_append, List.filter_cons_of_neg (by simp), hp, hq]

/-- A document is read up to a nail row or a drilling, and then with the panel and the path
closed. -/
theorem read_of_isFastener (hss : ss = pre ++ s :: post)
    (hs : (((Context.start.afterAll pre).settle s.command.kind).role s).isFastener = true) :
    Context.start.read ss = Context.start.read pre ++
      ⟨s, ((Context.start.afterAll pre).settle s.command.kind).role s⟩ ::
        (Context.start.afterAll pre).closed.read post := by
  rw [hss, Context.read_append, Context.read, Context.next_of_isFastener hs]

theorem butFor_read (hn : Numbered ss) (hss : ss = pre ++ s :: post)
    (hs : (((Context.start.afterAll pre).settle s.command.kind).role s).isFastener = true) :
    butFor s.index (Context.start.read ss) = Context.start.read pre ++
      (Context.start.afterAll pre).closed.read post := by
  have hsorted := hn.sorted
  rw [hss, List.map_append, List.map_cons, List.pairwise_append, List.pairwise_cons] at hsorted
  obtain ⟨-, ⟨hpost, -⟩, hpre⟩ := hsorted
  have keep (l : List (Placed α)) (hl : ∀ p ∈ l, p.statement.index ≠ s.index) :
      butFor s.index l = l := List.filter_eq_self.mpr fun p hp => by simpa using hl p hp
  have hp := keep (Context.start.read pre) fun p hp => Nat.ne_of_lt
    (hpre _ (List.mem_map_of_mem (Context.statement_mem hp)) _ List.mem_cons_self)
  have hq := keep ((Context.start.afterAll pre).closed.read post) fun p hp => Nat.ne_of_gt
    (hpost _ (List.mem_map_of_mem (Context.statement_mem hp)))
  rw [read_of_isFastener hss hs, butFor, List.filter_append, List.filter_cons_of_neg (by simp)]
  exact congrArg₂ _ hp hq

/-- A nail row or a drilling is of a command that keeps neither a panel nor a path open and opens or
ends nothing. -/
theorem closes_of_isFastener {c : Context α}
    (hs : ((c.settle s.command.kind).role s).isFastener = true) :
    s.isPathPart = false ∧ s.endsRouting = false ∧ s.opensPanel = false := by
  have hplays := (c.settle s.command.kind).plays_role s
  generalize (c.settle s.command.kind).role s = r at hs hplays
  cases hplays with
  | nailRow kind => simp [Statement.isPathPart, Statement.endsRouting, Statement.opensPanel, kind]
  | drilling kind => simp [Statement.isPathPart, Statement.endsRouting, Statement.opensPanel, kind]
  | _ => cases hs

omit [Scalar α] in
/-- Panels that are read with the same headers and the same sheathing have the same points. -/
theorem points_eq_of_sheathing {es es' : List (Placed α)} {f : Nat → Nat}
    (hp : panels es' = panels es)
    (h : (sheathing es').map (·.renumber f) = (sheathing es).map (·.renumber f))
    {q : SheathingPanel α} (hq : q ∈ panels es) :
    points es' q.statementIndex = points es q.statementIndex := by
  rw [sheathing, sheathing, hp, List.map_map, List.map_map, List.map_inj_left] at h
  simpa [SheathingPanel.renumber] using congrArg SheathingPanel.points (h q hq)

section Converse

variable (hn : Numbered ss) (hss : ss = pre ++ s :: post)
  (hs : (((Context.start.afterAll pre).settle s.command.kind).role s).isFastener = true)
include hn hss hs

theorem isFastener_of_index {p : Placed α} (hp : p ∈ Context.start.read ss)
    (hi : p.statement.index = s.index) : p.role.isFastener = true := by
  have hmem : ⟨s, ((Context.start.afterAll pre).settle s.command.kind).role s⟩ ∈
      Context.start.read ss := by
    rw [read_of_isFastener hss hs]
    exact List.mem_append_right _ List.mem_cons_self
  rw [(Context.sound_read hn.sorted).eq_of_index hp hmem hi]
  exact hs

/-- Where a point was kept off a boundary, the panel has another point without the statement. -/
theorem not_cutsBoundary {f : Nat → Nat}
    (h : (sheathing (Context.start.read (pre ++ post))).map (·.renumber f) =
      (sheathing (Context.start.read ss)).map (·.renumber f)) : ¬CutsBoundary ss s.index := by
  intro hcuts
  have hstands := stands_afterAll hn hss
  obtain ⟨hpanel, ht⟩ := (hstands.cutsBoundary_iff hss).mp hcuts
  obtain ⟨q, hq⟩ := Option.ne_none_iff_exists'.mp hpanel
  have hshelters : (Context.start.afterAll pre).closed.Shelters (Context.start.afterAll pre) :=
    ⟨rfl, nofun⟩
  have hfast : ∀ p ∈ Context.start.read ss, p.statement.index = s.index →
      p.role.isFastener = true := fun _ => isFastener_of_index hn hss hs
  have hbut := butFor_read hn hss hs
  have hpanels : panels (Context.start.read (pre ++ post)) = panels (Context.start.read ss) := by
    rw [← panels_butFor hfast, hbut, Context.read_append, panels, panels, List.filterMap_append,
      List.filterMap_append]
    exact congrArg _ (hshelters.panels_read post)
  have hmem : q ∈ panels (Context.start.read ss) := by
    have hpre := hn.sorted
    rw [hss, List.map_append, List.pairwise_append] at hpre
    have hq' := ((Context.rooted_read hpre.1).1.panel q hq).mem
    rw [read_of_isFastener hss hs, panels, List.filterMap_append]
    exact List.mem_append_left _ hq'
  have hpoints := points_eq_of_sheathing hpanels h hmem
  rw [← points_butFor hfast, hbut, Context.read_append, points, points, List.filterMap_append,
    List.filterMap_append] at hpoints
  have hlt := Context.points_lt hshelters rfl hq ht
  have hlen := congrArg List.length (List.append_cancel_left hpoints)
  exact Nat.ne_of_lt hlt hlen.symm

/-- Where a path was divided, the second part begins nowhere without the statement. -/
theorem not_cutsPath {f : Nat → Nat}
    (hread : ∀ j, ∀ c ∈ cuts (Context.start.read ss) none j, ∃ segment, c = .ok segment)
    (hf : ∀ t ∈ pre ++ post, ∀ u ∈ pre ++ post, f t.index = f u.index → t.index = u.index)
    (h : ((startsOf (unhandled (Context.start.read (pre ++ post)) none none)
        (routings (Context.start.read (pre ++ post)) none)).map f).Perm
      ((startsOf (unhandled (Context.start.read ss) none none)
        (routings (Context.start.read ss) none)).map f)) : ¬CutsPath ss s.index := by
  intro hcuts
  have hstands := stands_afterAll hn hss
  obtain ⟨hpath, hends, hopens⟩ := closes_of_isFastener hs
  obtain ⟨hrun, ht⟩ := (hstands.cutsPath_iff hss hpath hends hopens).mp hcuts
  obtain ⟨k, hk⟩ := Option.ne_none_iff_exists'.mp hrun
  have hreach := (hstands.opened.run k).mp hk
  obtain ⟨f', hf', rfl, j, hbegins⟩ := hreach.2.1
  have hj := (hstands.opened.routing j).mpr (hreach.routing hn hf' hbegins)
  obtain ⟨b, v, v', hb, hb'⟩ :=
    Context.read_closed_vertex (hstands.panel_eq_none_of_run hk) hj hk ht
  have hsorted := hn.sorted
  have hsorted' : ((pre ++ post).map (·.index)).Pairwise (· < ·) := by
    rw [← filter_ne_index hn hss]
    exact hsorted.sublist (List.filter_sublist.map _)
  have hmem : ⟨b, .vertex j b.index v⟩ ∈ Context.start.read ss := by
    rw [read_of_isFastener hss hs]
    exact List.mem_append_right _ (List.mem_cons_of_mem _ hb)
  have hmem' : ⟨b, .vertex j f'.index v'⟩ ∈ Context.start.read (pre ++ post) := by
    rw [Context.read_append]
    exact List.mem_append_right _ hb'
  obtain ⟨_, hplays⟩ := Context.exists_plays hmem
  obtain ⟨_, hplays'⟩ := Context.exists_plays hmem'
  -- the second part begins with `b`, so without the statement something begins there too
  have hstart := List.mem_map_of_mem (f := f)
    (Context.mem_starts hsorted hread hmem rfl hplays.vertex_index)
  rw [← h.mem_iff] at hstart
  obtain ⟨i, hi, hfi⟩ := List.mem_map.mp hstart
  obtain ⟨q, hq, rfl, hfirst⟩ := Context.first_of_mem_starts hsorted' hi
  have hqb := hf _ (Context.statement_mem hq) _ (Context.statement_mem hmem') hfi
  obtain rfl := (Context.sound_read hsorted').eq_of_index hq hmem' hqb
  -- but there `b` goes on with the path that begins before the statement
  have hbf : b.index = f'.index := hplays'.vertex_index.symm.trans (hfirst _ _ _ rfl)
  have hlt : s.index < b.index := by
    have hb := Context.statement_mem hb
    rw [hss, List.map_append, List.map_cons, List.pairwise_append, List.pairwise_cons] at hsorted
    exact hsorted.2.1.1 _ (List.mem_map_of_mem hb)
  exact Nat.lt_irrefl _ (Nat.lt_trans hlt (hbf ▸ hreach.1))

end Converse

end Document

namespace WallModel

variable [Scalar α] {m : WallModel α} {E : Entity α}

omit [Scalar α] in
theorem statements_deleteFastener
    (hE : E ∈ m.nailRows.map .nailRow ++ m.drillings.map .drilling) :
    (m.deleteEntity E).statements =
      [E.statementIndex].foldl (fun ss i => ss.set i none) m.statements := by
  rcases List.mem_append.mp hE with hE | hE <;>
  · obtain ⟨_, -, rfl⟩ := List.mem_map.mp hE
    rfl

section Reparse

variable {p : WallModel α} {ss pre post : List (Statement α)} {s : Statement α} {f : Nat → Nat}
  (hn : Numbered ss) (hss : ss = pre ++ s :: post)
  (hs : (((Context.start.afterAll pre).settle s.command.kind).role s).isFastener = true)
  (hframe : m.SharesFrame (Reading.butFor s.index (Context.start.read ss)))
  (hroutings : m.routings.map Routing.anonymous =
    Reading.routings (Context.start.read ss) none)
  (hunhandled : m.unhandled.Perm (Reading.unhandled (Context.start.read ss) none none))
  (hp : p.Says ((Context.start.read (pre ++ post)).map (·.renumber f)))
  (hd : Distinct f (Context.start.read (pre ++ post)))
include hn hss hs hframe hroutings hunhandled hp hd

/-- A document without a statement that cut nothing off says what the model says. -/
theorem renumbered_of_not_cuts
    (hcuts : ¬CutsBoundary ss s.index ∧ ¬CutsPath ss s.index) : m.Renumbered f p ∧
      p.unhandled.Perm (m.unhandled.map (·.renumber f)) := by
  have hall : ∀ q ∈ Context.start.read ss, q.statement.index = s.index →
      q.role.isFastener = true := fun _ => isFastener_of_index hn hss hs
  obtain ⟨hpath, hends, hopens⟩ := closes_of_isFastener hs
  have hidle := ((stands_afterAll hn hss).idle_iff hss hpath hends hopens).mpr hcuts
  have hread : Context.start.read (pre ++ post) =
      butFor s.index (Context.start.read ss) := by
    rw [butFor_read hn hss hs, Context.read_closed hidle, Context.read_append]
  rw [hread] at hp hd
  refine ⟨renumbered_of_reading hframe hp hd (by rw [hroutings, routings_butFor hall]),
    hp.unhandled.trans ?_⟩
  rw [unhandled_renumber hd, unhandled_butFor hall]
  exact (hunhandled.map _).symm

/-- A document without a statement that cut something off says something else. -/
theorem not_cuts_of_renumbered
    (hread : ∀ j, ∀ c ∈ cuts (Context.start.read ss) none j, ∃ segment, c = .ok segment)
    (hf : ∀ t ∈ pre ++ post, ∀ u ∈ pre ++ post, f t.index = f u.index → t.index = u.index)
    (hren : m.Renumbered f p) (hperm : p.unhandled.Perm (m.unhandled.map (·.renumber f))) :
    ¬CutsBoundary ss s.index ∧ ¬CutsPath ss s.index := by
  have hall : ∀ q ∈ Context.start.read ss, q.statement.index = s.index →
      q.role.isFastener = true := fun _ => isFastener_of_index hn hss hs
  refine ⟨not_cutsBoundary (f := f) hn hss hs ?_, not_cutsPath hn hss hs hread hf ?_⟩
  · rw [← sheathing_renumber hd, ← hp.frame.sheathing, hren.sheathing, hframe.sheathing,
      sheathing_butFor hall]
  · have hrest : (Reading.routings (Context.start.read (pre ++ post)) none).map (·.renumber f) =
        (Reading.routings (Context.start.read ss) none).map (·.renumber f) := by
      rw [← routings_renumber hd, ← hp.routings, hren.routings, hroutings]
    have hrest' : ((Reading.unhandled (Context.start.read (pre ++ post)) none none).map
        (·.renumber f)).Perm
          ((Reading.unhandled (Context.start.read ss) none none).map (·.renumber f)) := by
      rw [← unhandled_renumber hd]
      exact hp.unhandled.symm.trans (hperm.trans (hunhandled.map _))
    rw [← startsOf_renumber, ← startsOf_renumber, hrest]
    exact startsOf_perm hrest' _

end Reparse

/-- What is read from the document after a nail row or a drilling was deleted is what is left of the
model, exactly when the statement neither kept a point off the boundary of a panel nor divided a
path. -/
theorem reparse_deleteFastener {text : String} {k : Int} (hm : parseModel text k = .ok m)
    (hE : E ∈ m.nailRows.map .nailRow ++ m.drillings.map .drilling) :
    ∃ (ss : List (Statement α)) (id : Int) (m' : WallModel α),
      Statement.readAll 0 (splitStatements text) = .ok ss ∧ E.editorId = some id ∧
      m.withIds.delete [⟨E.kind.name, id⟩] = ⟨some m', 1, []⟩ ∧
      ∀ written k' p, serialize m'.statements none = some written →
        parseModel written k' = .ok p →
        ((m'.Renumbered (rank m'.isLive) p ∧
            p.unhandled.Perm (m'.unhandled.map (·.renumber (rank m'.isLive)))) ↔
          ¬CutsBoundary ss E.statementIndex ∧ ¬CutsPath ss E.statementIndex) := by
  obtain ⟨⟨ss, hss, hsaid⟩, hids, hst⟩ := says_of_parseModel hm
  have hn : Numbered ss := numbered_of_readAll hss
  have hsound := Context.sound_read hn.sorted
  obtain ⟨id, hid, hids', -, hresolve⟩ := resolve_of_parseModel hm (List.mem_append_left _ hE)
  obtain ⟨p₀, hp₀, hi, hfast⟩ := hsaid.exists_fastener hsound hE
  obtain ⟨pre, post, hsplit, hrole⟩ := Context.mem_read hp₀
  rw [hrole] at hfast
  have hst' := statements_deleteFastener hE
  rw [hst] at hst'
  have hdelete : m.withIds.delete [⟨E.kind.name, id⟩] =
      ⟨some (m.deleteEntity E).withBounds, 1, []⟩ := by
    rw [hids']
    exact delete_eq hresolve
  refine ⟨ss, id, _, hss, hid, hdelete, fun written k' p hw hp => ?_⟩
  obtain ⟨hframe, hroutings, hunhandled⟩ := hsaid.deleteFastener hsound hids hE
  have hroutings : (m.deleteEntity E).withBounds.routings.map Routing.anonymous =
      Reading.routings (Context.start.read ss) none := by rw [hroutings, hsaid.routings]
  have hunhandled : (m.deleteEntity E).withBounds.unhandled.Perm
      (Reading.unhandled (Context.start.read ss) none none) := hunhandled ▸ hsaid.unhandled
  have hst' : (m.deleteEntity E).withBounds.statements =
      [E.statementIndex].foldl (fun ss i => ss.set i none)
        ((splitStatements text).map some) := hst'
  have hkept := filter_ne_index hn hsplit
  have hsaid' := says_of_reparse hss hst' hw hp
  have hdistinct := distinct_rank hss hst'
  have hfilter := filter_isLive hss hst'
  rw [← hi, hkept] at hsaid' hdistinct hfilter
  rw [← hi] at hframe ⊢
  have hleft : ∀ t ∈ pre ++ post, (m.deleteEntity E).withBounds.isLive t.index = true := by
    intro t ht
    rw [← hfilter] at ht
    exact (List.mem_filter.mp ht).2
  exact ⟨fun ⟨hren, hperm⟩ => not_cuts_of_renumbered hn hsplit hfast hframe hroutings hunhandled
      hsaid' hdistinct hsaid.readable
      (fun t ht u hu => rank_injective (hleft t ht) (hleft u hu)) hren hperm,
    renumbered_of_not_cuts hn hsplit hfast hframe hroutings hunhandled hsaid' hdistinct⟩

set_option maxRecDepth 100000 in
/-- A nail row behind the boundary of a panel, and a drilling between two paths. -/
theorem reparse_deleteFastener_between :
    ∃ (m : WallModel Float) (E : Entity Float) (id : Int) (m' p : WallModel Float)
      (written : String) (ss : List (Statement Float)),
      parseModel "PLI1 9,9,1,0,0,1,A;PP 1,1;NR 0,0,9,9;PAF;PP 1,1;PP 2,2;BOY 1,2,3,4;MP 3,3,1" 1 =
        .ok m ∧
      E ∈ m.nailRows.map .nailRow ++ m.drillings.map .drilling ∧ E.editorId = some id ∧
      Statement.readAll 0 (splitStatements
        "PLI1 9,9,1,0,0,1,A;PP 1,1;NR 0,0,9,9;PAF;PP 1,1;PP 2,2;BOY 1,2,3,4;MP 3,3,1") = .ok ss ∧
      (m.withIds.delete [⟨E.kind.name, id⟩]).model = some m' ∧
      serialize m'.statements none = some written ∧ parseModel written 1 = .ok p ∧
      ((m'.Renumbered (rank m'.isLive) p ∧
          p.unhandled.Perm (m'.unhandled.map (·.renumber (rank m'.isLive)))) ↔
        ¬CutsBoundary ss E.statementIndex ∧ ¬CutsPath ss E.statementIndex) := by
  have heval : (do
      let m ← (parseModel (α := Float)
        "PLI1 9,9,1,0,0,1,A;PP 1,1;NR 0,0,9,9;PAF;PP 1,1;PP 2,2;BOY 1,2,3,4;MP 3,3,1" 1).toOption
      let r ← m.nailRows.head?
      let m' ← (m.withIds.delete [⟨"nail_row", (← r.editorId)⟩]).model
      (parseModel (α := Float) (← serialize m'.statements none) 1).toOption).isSome = true := by
    decide +kernel
  obtain ⟨p, h⟩ := Option.isSome_iff_exists.mp heval
  simp only [Option.bind_eq_bind, Option.bind_eq_some_iff] at h
  obtain ⟨m, hm, r, hr, id, hid, m', hm', written, hw, hp⟩ := h
  have hm := eq_ok_of_toOption hm
  have hE : Entity.nailRow r ∈ m.nailRows.map .nailRow ++ m.drillings.map .drilling :=
    List.mem_append_left _ (List.mem_map_of_mem (List.mem_of_head? hr))
  obtain ⟨ss, id', m'', hss, hid', hdelete, hall⟩ := reparse_deleteFastener hm hE
  obtain rfl : id' = id := Option.some.inj (hid'.symm.trans hid)
  obtain rfl : m'' = m' := by
    rw [show [(⟨"nail_row", id'⟩ : EntityRef)] = [⟨(Entity.nailRow r).kind.name, id'⟩] from rfl,
      hdelete] at hm'
    exact Option.some.inj hm'
  have hp := eq_ok_of_toOption hp
  exact ⟨m, .nailRow r, id', m'', p, written, ss, hm, hE, hid, hss, by rw [hdelete], hw, hp,
    hall _ _ _ hw hp⟩

set_option maxRecDepth 100000 in
/-- A nail row behind the header of a panel: without it the point behind it goes on the boundary. -/
theorem reparse_deleteNailRow_extends_boundary :
    ∃ (m : WallModel Float) (r : NailRow Float) (id : Int) (m' p : WallModel Float)
      (written : String),
      parseModel "PLI1 9,9,1,0,0,1,A;NR 0,0,9,9;PP 7,7" 1 = .ok m ∧ r ∈ m.nailRows ∧
      r.editorId = some id ∧ (m.withIds.delete [⟨"nail_row", id⟩]).model = some m' ∧
      serialize m'.statements none = some written ∧ parseModel written 1 = .ok p ∧
      m'.sheathing.map (·.points.length) = [0] ∧ p.sheathing.map (·.points.length) = [1] ∧
      m'.unhandled.length = 1 ∧ p.unhandled = [] := by
  have heval : (do
      let m ← (parseModel (α := Float) "PLI1 9,9,1,0,0,1,A;NR 0,0,9,9;PP 7,7" 1).toOption
      let r ← m.nailRows.head?
      let m' ← (m.withIds.delete [⟨"nail_row", (← r.editorId)⟩]).model
      let p ← (parseModel (α := Float) (← serialize m'.statements none) 1).toOption
      let points (m : WallModel Float) := m.sheathing.map fun q : SheathingPanel Float => q.points.length
      if points m' = [0] ∧ points p = [1] ∧ m'.unhandled.length = 1 ∧ p.unhandled.length = 0
      then some p else none).isSome = true := by
    decide +kernel
  obtain ⟨p, h⟩ := Option.isSome_iff_exists.mp heval
  simp only [Option.bind_eq_bind, Option.bind_eq_some_iff, Option.ite_none_right_eq_some] at h
  obtain ⟨m, hm, r, hr, id, hid, m', hm', written, hw, p, hp, ⟨hs, hs', hu, hu'⟩, -⟩ := h
  exact ⟨m, r, id, m', p, written, eq_ok_of_toOption hm, List.mem_of_head? hr, hid, hm', hw,
    eq_ok_of_toOption hp, hs, hs', hu, List.eq_nil_of_length_eq_zero hu'⟩

end WallModel

end WallPanel
