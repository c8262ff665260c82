import WallPanel.Proofs.Attribution.Document
import WallPanel.Proofs.Editing.Sources
import WallPanel.Proofs.Reading.Tally

/-!
# Every statement is accounted for

A document has one fate for each of its statements: a record of the model stands for it, or it is a
point, a circle or a line in such a record, or it is unhandled. Only a vertex that goes on with a
path of too few points leaves nothing behind (`Attribution.FollowsShortRun`).

* `Attribution.positions`: the statements with a fate, by the records of a model.
* `Attribution.perm_positions`: they are those to which the reading gives the fate.
* `accounts_of_parseModel`: the fates share the statements out, with none lost and none twice.
-/

namespace WallPanel

open Attribution

variable {α : Type} [Scalar α]

namespace Attribution

variable (ss : List (Statement α))

/-! ## The statements with a fate -/

/-- The statements of a kind that have a place. -/
def accepted (kind : CommandKind) : List (Statement α) :=
  ss.filter fun s => s.command.kind = kind ∧ IsPlaced ss s

/-- The path with a first vertex keeps fewer than two points that are apart. -/
def KeepsFewPoints (j : Nat) (first : Statement α) : Prop :=
  (path? ss j first).any (fun r => (dedupe r.trace.samples).length < 2) = true

instance (j : Nat) (first : Statement α) : Decidable (KeepsFewPoints ss j first) :=
  inferInstanceAs (Decidable (_ = true))

/-- A statement goes on with a path that keeps fewer than two points. -/
def FollowsShortRun (s : Statement α) : Prop :=
  ∃ f ∈ ss, ∃ j < f.index, BeginsRun ss j f ∧ KeepsFewPoints ss j f ∧
    f.index < s.index ∧ VertexOf ss j s ∧ SameRun ss f.index s.index

instance (s : Statement α) : Decidable (FollowsShortRun ss s) :=
  inferInstanceAs (Decidable (∃ _ ∈ _, ∃ _ < _, _))

/-- The positions of the statements with a fate, as the records of a model give them. -/
def positions (m : WallModel α) : Fate → List Nat
  | .wall => (accepted ss .wall).map (·.index)
  | .moduleBegin => (accepted ss .moduleBegin).map (·.index)
  | .moduleEnd => (accepted ss .moduleEnd).map (·.index)
  | .member => m.members.map (·.statementIndex)
  | .panel => m.sheathing.map (·.statementIndex)
  | .boundary => m.sheathing.flatMap fun p => (boundary ss p.statementIndex).map (·.index)
  | .nailRow => m.nailRows.map (·.statementIndex)
  | .drilling => m.drillings.map (·.statementIndex)
  | .header => m.routings.map (·.statementIndex)
  | .circle => m.routings.flatMap Routing.circleIndices
  | .source => m.routings.flatMap Routing.sourceIndices
  | .unhandled => m.unhandled.map (·.statementIndex)
  | .silent => (ss.filter fun s => FollowsShortRun ss s).map (·.index)

/-! ## The fate of a statement -/

variable {ss} {s : Statement α} {c : Context α} {es : List (Placed α)} {j : Nat}

theorem exists_path (hn : Numbered ss) {f : Statement α} (hf : f ∈ ss) (hb : BeginsRun ss j f) :
    ∃ r, path? ss j f = some r := by
  obtain ⟨v, hv⟩ := Option.isSome_iff_exists.mp (isSome_vertex? hn hf hb.1)
  have hself : Between ss Statement.isPathPart f.index f.index := between_of_le (Nat.le_refl _)
  have hmem : v ∈ (run ss j f).filterMap (Attribution.vertex? ss j) :=
    List.mem_filterMap.mpr ⟨f, List.mem_filter.mpr ⟨hf, by simp [hb.1, SameRun, hself]⟩, hv⟩
  unfold path?
  split
  · next hnil => rw [hnil] at hmem; cases hmem
  · exact ⟨_, rfl⟩

/-- A path keeps fewer than two points if it has no cut. -/
theorem keepsFewPoints_iff {f : Statement α} {r : VertexRun α} (h : path? ss j f = some r) :
    KeepsFewPoints ss j f ↔ r.cut? = none := by
  rw [KeepsFewPoints, h, Option.any_some, decide_eq_true_eq, ← Option.isNone_iff_eq_none,
    ← Option.not_isSome, VertexRun.isSome_cut?]
  simp

/-- A path that keeps two points is cut. -/
theorem exists_cut? (hn : Numbered ss) {f : Statement α} (hf : f ∈ ss) (hb : BeginsRun ss j f)
    (hkeeps : ¬KeepsFewPoints ss j f) :
    ∃ r d, path? ss j f = some r ∧ r.cut? = some d ∧ cut? ss j f = some (d.map .path) := by
  obtain ⟨r, hr⟩ := exists_path hn hf hb
  obtain ⟨d, hd⟩ := Option.ne_none_iff_exists'.mp (mt (keepsFewPoints_iff hr).mpr hkeeps)
  refine ⟨r, d, hr, hd, ?_⟩
  rw [cut?, if_neg (not_circleOf_of_beginsRun hb), if_pos hb, hr, Option.bind_some, pathCut?_eq, hd,
    Option.map_some]

theorem cutOf?_eq_none_iff (hn : Numbered ss) {f : Statement α} (hf : f ∈ ss)
    (hb : BeginsRun ss j f) :
    Reading.cutOf? (Context.start.read ss) f.index = none ↔ KeepsFewPoints ss j f := by
  obtain ⟨r, hr⟩ := exists_path hn hf hb
  have hread := cutOf?_read hn hf hb
  rw [hr, Option.bind_some, pathCut?_eq] at hread
  rw [keepsFewPoints_iff hr, ← Option.map_eq_none_iff, hread, Option.map_eq_none_iff]

namespace Stands

variable (h : Stands ss s c)
include h

/-- The wall and the modules take a statement of their kind if it has a place. -/
theorem fate_eq_iff {kind : CommandKind} {f : Fate}
    (hf : (kind, f) ∈ [(.wall, .wall), (.moduleBegin, .moduleBegin), (.moduleEnd, .moduleEnd)]) :
    Reading.fate es ((c.settle s.command.kind).role s) = f ↔
      s.command.kind = kind ∧ IsPlaced ss s := by
  have hplaced : IsPlaced ss s ↔ ((c.settle s.command.kind).role s).unhandled? = none := by
    rw [h.unhandled?_role]
    split <;> simp [*]
  have hplays := (c.settle s.command.kind).plays_role s
  rw [hplaced]
  generalize (c.settle s.command.kind).role s = r at hplays
  simp only [List.mem_cons, Prod.mk.injEq, List.not_mem_nil, or_false] at hf
  cases hplays with
  | unhandled => rcases hf with ⟨rfl, rfl⟩ | ⟨rfl, rfl⟩ | ⟨rfl, rfl⟩ <;>
      simp [Reading.fate, Role.unhandled?]
  | member kind =>
    rcases hf with ⟨rfl, rfl⟩ | ⟨rfl, rfl⟩ | ⟨rfl, rfl⟩ <;> grind [Reading.fate, CommandKind.isMember]
  | _ => rcases hf with ⟨rfl, rfl⟩ | ⟨rfl, rfl⟩ | ⟨rfl, rfl⟩ <;> grind [Reading.fate, Role.unhandled?]

theorem wall?_role : ((c.settle s.command.kind).role s).wall?.map some =
    if s.command.kind = .wall ∧ IsPlaced ss s then some (WallSize.ofNumbers? s.numbers)
    else none := by
  have hplays := (c.settle s.command.kind).plays_role s
  have hfate : Reading.fate [] ((c.settle s.command.kind).role s) = .wall ↔
      s.command.kind = .wall ∧ IsPlaced ss s := h.fate_eq_iff (by simp)
  simp only [← hfate]
  generalize (c.settle s.command.kind).role s = r at hplays
  cases hplays with
  | wall _ _ entry => simp [Role.wall?, Reading.fate, entry]
  | _ => grind [Role.wall?, Reading.fate]

theorem module?_role : ((c.settle s.command.kind).role s).module?.map some =
    if s.command.kind = .moduleBegin ∧ IsPlaced ss s then some (ModuleFrame.ofNumbers? s.numbers)
    else none := by
  have hplays := (c.settle s.command.kind).plays_role s
  have hfate : Reading.fate [] ((c.settle s.command.kind).role s) = .moduleBegin ↔
      s.command.kind = .moduleBegin ∧ IsPlaced ss s := h.fate_eq_iff (by simp)
  simp only [← hfate]
  generalize (c.settle s.command.kind).role s = r at hplays
  cases hplays with
  | moduleBegin _ entry => simp [Role.module?, Reading.fate, entry]
  | _ => grind [Role.module?, Reading.fate]

theorem boundaryOf?_role {t : Statement α} {p : SheathingPanel α} (ht : t ∈ ss)
    (hp : header? ss t = some p) :
    ((c.settle s.command.kind).role s).boundaryOf? = some t.index ↔
      (s.isPoint && s.isUsable && PanelReaches ss t.index s.index) = true := by
  have hsome : (((c.settle s.command.kind).role s).point? t.index).isSome ↔
      ((c.settle s.command.kind).role s).boundaryOf? = some t.index := by
    cases (c.settle s.command.kind).role s <;> simp [Role.point?, Role.boundaryOf?]
  rw [← hsome, h.point?_role ht hp]
  split
  · next hs =>
    have hlen := hs
    simp only [Statement.isPoint, Statement.isUsable_eq, Bool.and_eq_true, decide_eq_true_eq] at hlen
    rw [hlen.1.1] at hlen
    simp only [PanelPoint.isSome_ofNumbers? hlen.1.2, hs]
  · simp [*]

/-- The path that a vertex goes on with is one of too few points if it has no cut. -/
theorem fate_eq_silent_iff :
    Reading.fate (Context.start.read ss) ((c.settle s.command.kind).role s) = .silent ↔
      FollowsShortRun ss s := by
  rw [Reading.fate_eq_silent_iff]
  constructor
  · rintro ⟨j, k, v, hr, hcut, hne⟩
    have hv := h.vertexOf_of_role hr
    have hplays := (c.settle s.command.kind).plays_role s
    rw [hr] at hplays
    obtain ⟨v', -, hr'⟩ := h.role_of_vertexOf hv
    obtain rfl : k = c.run.getD s.index := by rw [hr] at hr'; cases hr'; rfl
    rw [hplays.vertex_index] at hne
    cases hrun : c.run with
    | none => rw [hrun] at hne; exact absurd rfl hne
    | some k =>
      have hreach := (h.opened.run k).mp hrun
      obtain ⟨f, hf, rfl, j', hb⟩ := hreach.2.1
      obtain rfl := (hreach.routing h.numbered hf hb).unique hv.2.1
      have hk : c.run.getD s.index = f.index := by rw [hrun]; rfl
      rw [hk] at hcut
      exact ⟨f, hf, _, hb.1.2.1.1, hb, (cutOf?_eq_none_iff h.numbered hf hb).mp hcut, hreach.1, hv,
        (h.run_getD_eq_iff hf hb hv).mp hk⟩
  · rintro ⟨f, hf, j, -, hb, hfew, hlt, hv, hsame⟩
    obtain ⟨v, -, hr⟩ := h.role_of_vertexOf hv
    have hplays := (c.settle s.command.kind).plays_role s
    rw [(h.run_getD_eq_iff hf hb hv).mpr hsame] at hr
    rw [hr] at hplays
    exact ⟨j, f.index, v, hr, (cutOf?_eq_none_iff h.numbered hf hb).mpr hfew,
      hplays.vertex_index ▸ Nat.ne_of_gt hlt⟩

end Stands

section Read

variable (hn : Numbered ss)
include hn

theorem tally_read {f : Fate} {f' : Statement α → Bool}
    (hf : ∀ s c, Stands ss s c →
      (Reading.fate (Context.start.read ss) ((c.settle s.command.kind).role s) = f ↔ f' s)) :
    (ss.filter f').map (·.index) = Reading.tally (Context.start.read ss) f := by
  rw [Reading.tally, ← filter_read hn (f := fun r => Reading.fate (Context.start.read ss) r = f)
    fun s c h => Bool.eq_iff_iff.mpr (decide_eq_true_iff.trans (hf s c h)), List.map_map]
  rfl

theorem boundary_read {p : SheathingPanel α} (hp : p ∈ Reading.panels (Context.start.read ss)) :
    (boundary ss p.statementIndex).map (·.index) =
      ((Context.start.read ss).filter (·.role.boundaryOf? = some p.statementIndex)).map
        (·.statement.index) := by
  have hpanels : Reading.panels (Context.start.read ss) = ss.filterMap (header? ss) :=
    filterMap_read hn fun _ _ h => h.panel?_role
  obtain ⟨t, ht, hheader⟩ := List.mem_filterMap.mp (hpanels ▸ hp)
  rw [boundary, (header?_index hheader).1,
    ← filter_read hn (f := fun r => r.boundaryOf? = some t.index) fun s c h =>
      Bool.eq_iff_iff.mpr (decide_eq_true_iff.trans (h.boundaryOf?_role ht hheader)), List.map_map]
  rfl

/-- The records of a model stand for the statements of their fates. -/
theorem perm_positions {m : WallModel α} (h : m.Says (Context.start.read ss)) (f : Fate) :
    (positions ss m f).Perm (Reading.tally (Context.start.read ss) f) := by
  have hg : Reading.Grounded (Context.start.read ss) := Context.grounded_read hn.sorted
  have hpanels : m.sheathing.map (·.statementIndex) =
      (Reading.panels (Context.start.read ss)).map (·.statementIndex) := by
    rw [h.frame.sheathing, Reading.sheathing, List.map_map]
    rfl
  have hrouting {β : Type} (g : Routing α → β) (hg : ∀ r, g r.anonymous = g r) :
      (Reading.routings (Context.start.read ss) none).map g = m.routings.map g := by
    rw [← h.routings, List.map_map]
    exact List.map_congr_left fun r _ => hg r
  cases f with
  | wall => exact .of_eq (tally_read hn fun s c h => by simp [h.fate_eq_iff])
  | moduleBegin => exact .of_eq (tally_read hn fun s c h => by simp [h.fate_eq_iff])
  | moduleEnd => exact .of_eq (tally_read hn fun s c h => by simp [h.fate_eq_iff])
  | member =>
    rw [positions, WallModel.members, h.frame.studs, h.frame.blocking, h.frame.plates]
    exact hg.tally_member
  | panel =>
    rw [positions, hpanels]
    exact .of_eq hg.tally_panel
  | boundary =>
    refine List.Perm.trans (.of_eq ?_) hg.tally_boundary
    rw [positions, h.frame.sheathing, Reading.sheathing, List.flatMap_map, List.flatMap_map]
    exact List.flatMap_congr fun p hp => boundary_read hn (p := p) hp
  | nailRow =>
    rw [← hg.tally_nailRow, ← h.frame.nailRows, List.map_map]
    exact .refl _
  | drilling =>
    rw [← hg.tally_drilling, ← h.frame.drillings, List.map_map]
    exact .refl _
  | header =>
    rw [← hg.tally_header, hrouting _ fun _ => rfl]
    exact .refl _
  | circle =>
    refine List.Perm.trans (.of_eq ?_) (hg.tally_circle h.readable)
    rw [positions, List.flatMap_def, List.flatMap_def, hrouting _ fun _ => rfl]
  | source =>
    refine List.Perm.trans (.of_eq ?_) (hg.tally_source h.readable)
    rw [positions, List.flatMap_def, List.flatMap_def, hrouting _ fun _ => rfl]
  | unhandled => exact (h.unhandled.map _).trans hg.tally_unhandled
  | silent => exact .of_eq (tally_read hn fun s c h => by simp [h.fate_eq_silent_iff])

/-- No two of the entities, the members and the panels of a model own a statement. -/
theorem nodup_owned {m : WallModel α} (h : m.Says (Context.start.read ss)) :
    (m.entities.flatMap Entity.statementIndices ++ m.members.map (·.statementIndex) ++
      m.sheathing.map (·.statementIndex)).Nodup := by
  have hentities : m.entities.flatMap Entity.statementIndices =
      m.nailRows.map (·.statementIndex) ++ m.drillings.map (·.statementIndex) ++
        m.routings.flatMap Routing.statementIndices := by
    rw [WallModel.entities, List.flatMap_append, List.flatMap_append, List.flatMap_map,
      List.flatMap_map, List.flatMap_map, List.map_eq_flatMap (l := m.nailRows),
      List.map_eq_flatMap (l := m.drillings)]
    rfl
  have hroutings : m.routings.flatMap Routing.statementIndices =
      (Reading.routings (Context.start.read ss) none).flatMap Routing.statementIndices := by
    rw [← h.routings, List.flatMap_map]
    rfl
  rw [hentities, hroutings]
  have hperm := perm_positions hn h
  exact ((((hperm .nailRow).append (hperm .drilling)).append_right _).append (hperm .member)
    |>.append (hperm .panel)).nodup_iff.mpr (Context.grounded_read hn.sorted).nodup_owned

end Read

end Attribution

/-! ## The accounts of a document -/

/-- What becomes of the statements of a document, in a model of it. -/
structure Accounts (ss : List (Statement α)) (m : WallModel α) : Prop where
  /-- Every statement has one fate. -/
  fate : ∀ i < ss.length, ∃! f, i ∈ positions ss m f
  /-- Only statements have fates. -/
  bounded : ∀ f, ∀ i ∈ positions ss m f, i < ss.length
  /-- One record stands for a statement, in one place. -/
  once : ∀ f, (positions ss m f).Nodup
  /-- The size of the wall is that of the one line that is accepted. -/
  wall : (accepted ss .wall).map (WallSize.ofNumbers? ·.numbers) = m.wall.toList.map some
  modules : (accepted ss .moduleBegin).map (ModuleFrame.ofNumbers? ·.numbers) = m.modules.map some
  /-- Each statement on a boundary became a point. -/
  points : ∀ p ∈ m.sheathing, p.points.length = (boundary ss p.statementIndex).length
  /-- A path that goes on without leaving a record is unhandled by its first vertex. -/
  first : ∀ f ∈ ss, ∀ j, BeginsRun ss j f → KeepsFewPoints ss j f → f.index ∈ positions ss m .unhandled
  /-- No statement is in two entities. -/
  entities : (m.entities.flatMap Entity.statementIndices).Nodup
  /-- What is unhandled is recorded as it is written. -/
  records : ∀ u ∈ m.unhandled, ∃ s ∈ ss, u = .ofStatement s

namespace Attribution

variable {ss : List (Statement α)} {m : WallModel α}

/-- The fates share the statements out. -/
theorem perm_range (hn : Numbered ss) (h : m.Says (Context.start.read ss)) :
    (Fate.all.flatMap (positions ss m)).Perm (List.range' 0 ss.length) := by
  have hall : (Fate.all.flatMap (positions ss m)).Perm
      (Fate.all.flatMap (Reading.tally (Context.start.read ss))) :=
    List.Perm.flatMap_left _ fun f _ => perm_positions hn h f
  refine (hall.trans (Reading.perm_tally _)).trans (.of_eq ?_)
  rw [← hn, ← congrArg (List.map _) (Context.statement_read Context.start ss), List.map_map]
  rfl

/-- The statements of a kind that have a place give what the reading has of the kind. -/
theorem map_accepted {β : Type} (hn : Numbered ss) {kind : CommandKind} {g : Role α → Option β}
    {f : Statement α → Option β} (hg : ∀ s c, Stands ss s c →
      (g ((c.settle s.command.kind).role s)).map some =
        if s.command.kind = kind ∧ IsPlaced ss s then some (f s) else none) :
    (accepted ss kind).map f = ((Context.start.read ss).filterMap (g ·.role)).map some := by
  rw [accepted, map_filter_eq, List.map_filterMap]
  exact (filterMap_read hn (g := fun r => (g r).map some) hg).symm

omit [Scalar α] in
/-- One declaration of the wall is accepted at most. -/
theorem length_accepted_wall (hn : Numbered ss) : (accepted ss .wall).length ≤ 1 := by
  have hsorted : (accepted ss .wall).Pairwise fun s t => s.index < t.index :=
    (List.pairwise_map.mp hn.sorted).sublist List.filter_sublist
  have hmem : ∀ s ∈ accepted ss .wall, s ∈ ss ∧ s.command.kind = .wall ∧ IsPlaced ss s :=
    fun s hs => by simpa [accepted] using hs
  generalize accepted ss .wall = walls at hsorted hmem
  cases walls with
  | nil => simp
  | cons s walls =>
    cases walls with
    | nil => simp
    | cons t walls =>
      -- the first one keeps the second from having a place
      obtain ⟨hs, hk, hu, -⟩ := hmem s (by simp)
      obtain ⟨-, hk', -, hp⟩ := hmem t (by simp)
      rw [hk'] at hp
      have hlt : s.index < t.index := (List.pairwise_cons.mp hsorted).1 t (by simp)
      exact absurd (hp s hs hlt hk) (by simp [hu])

theorem accounts_of_reading (hn : Numbered ss) (h : m.Says (Context.start.read ss))
    (hword : ∀ s ∈ ss, s.command.kind = .routing → s.command.word = Routing.word) :
    Accounts ss m where
  fate i hi := by
    have hperm := perm_range hn h
    obtain ⟨f, -, hf⟩ := List.mem_flatMap.mp (hperm.mem_iff.mpr (by simpa using hi))
    exact ⟨f, hf, fun f' hf' => eq_of_mem_of_nodup_flatMap (hperm.nodup_iff.mpr List.nodup_range')
      (Fate.mem_all f') (Fate.mem_all f) hf' hf⟩
  bounded f i hf := by
    have hmem : i ∈ Fate.all.flatMap (positions ss m) :=
      List.mem_flatMap.mpr ⟨f, Fate.mem_all f, hf⟩
    simpa using (perm_range hn h).mem_iff.mp hmem
  once f := by
    have hnodup := (perm_range hn h).nodup_iff.mpr List.nodup_range'
    exact (List.nodup_flatMap.mp hnodup).1 f (Fate.mem_all f)
  wall := by
    have haccepted := map_accepted hn fun s c (h : Stands ss s c) => h.wall?_role
    have hlen := length_accepted_wall hn
    rw [haccepted, h.frame.wall, ← List.head?_filterMap]
    rw [← List.length_map (f := fun s : Statement α => WallSize.ofNumbers? s.numbers), haccepted,
      List.length_map] at hlen
    generalize (Context.start.read ss).filterMap (·.role.wall?) = walls at hlen
    cases walls with
    | nil => rfl
    | cons w walls => cases walls with
      | nil => rfl
      | cons => simp at hlen
  modules := by
    rw [map_accepted hn (g := Role.module?) fun s c (h : Stands ss s c) => h.module?_role,
      h.frame.modules]
  points p hp := by
    have hd := describes_of_reading hn h
    rw [hd.sheathing] at hp
    obtain ⟨t, ht, hp⟩ := List.mem_filterMap.mp hp
    obtain ⟨q, hq, rfl⟩ := Option.map_eq_some_iff.mp hp
    rw [(header?_index hq).1]
    exact List.filterMap_length_eq_length.mpr fun s hs => hd.point _ s hs q _
  first f hf j hb hfew := by
    rw [← Context.statement_read Context.start ss] at hf
    obtain ⟨p, hp, rfl⟩ := List.mem_map.mp hf
    obtain ⟨c, hc, hr⟩ := exists_stands hn hp
    obtain ⟨v, hi, -, hrole⟩ := hc.role_of_beginsRun hb
    have hcut := (cutOf?_eq_none_iff hn hc.mem hb).mpr hfew
    have hfate : Reading.fate (Context.start.read ss) p.role = .unhandled := by
      simp [hr, hrole, Reading.fate, hcut, hi]
    exact (perm_positions hn h .unhandled).mem_iff.mpr
      (List.mem_map.mpr ⟨p, List.mem_filter.mpr ⟨hp, by simp [hfate]⟩, rfl⟩)
  entities := by
    have hnodup := nodup_owned hn h
    rw [List.append_assoc] at hnodup
    exact (List.nodup_append.mp hnodup).1
  records u hu := by
    rw [(describes_of_reading hn h).unhandled.mem_iff, unhandled, List.mem_append, List.mem_append]
      at hu
    rcases hu with (hu | hu) | hu
    · obtain ⟨s, hs, rfl⟩ := List.mem_map.mp hu
      exact ⟨s, List.mem_of_mem_filter hs, rfl⟩
    · obtain ⟨s, hs, rfl⟩ := List.mem_map.mp hu
      exact ⟨s, List.mem_of_mem_filter hs, rfl⟩
    · obtain ⟨s, hs, rfl⟩ := List.mem_map.mp hu
      obtain ⟨hs, hk⟩ := List.mem_filter.mp hs
      refine ⟨s, hs, ?_⟩
      have hkind : s.command.kind = .routing := by simpa using (of_decide_eq_true hk).1
      simp [Routing.unhandled, Routing.ofHeader, Unhandled.ofStatement, hword s hs hkind]

end Attribution

/-- The statements of a text that is read are shared out, by the model and by what it leaves
unhandled. -/
theorem accounts_of_parseModel {text : String} {k : Int} {m : WallModel α}
    (hm : parseModel text k = .ok m) :
    ∃ ss, Statement.readAll 0 (splitStatements text) = .ok ss ∧ Accounts ss m := by
  obtain ⟨⟨ss, hss, hsaid⟩, -⟩ := says_of_parseModel hm
  refine ⟨ss, hss, accounts_of_reading (numbered_of_readAll hss) hsaid fun s hs hk => ?_⟩
  obtain ⟨n, t, -, -, hread⟩ := Statement.exists_text hss hs
  exact (Command.kind_ofWord_iff (by decide) (Statement.ofWord_read hread)).mp hk

set_option maxRecDepth 100000 in
/-- A document with a path that keeps one point, and with a routing that cuts nothing. -/
theorem accounts_of_short_run :
    ∃ (text : String) (m : WallModel Float),
      text = "ELM 9,9;PLI1 9,9,1,0,0,1,A;PP 7,7;NR 0,0,9,9;PAF 1;PP 1,1;PP 1,1;MP 5,5,1;PP 2,2;KB 3,3,1;PP 4,2;XX;PAF 2" ∧
      parseModel text 1 = .ok m ∧
      ∃ ss, Statement.readAll 0 (splitStatements text) = .ok ss ∧ Accounts ss m := by
  have heval : (parseModel (α := Float)
      "ELM 9,9;PLI1 9,9,1,0,0,1,A;PP 7,7;NR 0,0,9,9;PAF 1;PP 1,1;PP 1,1;MP 5,5,1;PP 2,2;KB 3,3,1;PP 4,2;XX;PAF 2"
      1).toOption.isSome = true := by
    decide +kernel
  obtain ⟨m, hm⟩ := Option.isSome_iff_exists.mp heval
  have hm := eq_ok_of_toOption hm
  exact ⟨_, m, rfl, hm, accounts_of_parseModel hm⟩

end WallPanel
