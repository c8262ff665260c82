import WallPanel.Proofs.Attribution.Roles

/-!
# A statement that closes what is open

A nail row or a drilling opens nothing. All that it does to the statements after it is that it closes
the panel and the path (`Context.next_of_isFastener`). The statements after it say the same without
it when no point would go on the boundary of that panel and no vertex on that path
(`Context.read_closed`). Else the panel has another point without it (`Context.points_lt`), or
the path goes on where another one began (`Context.read_closed_vertex`).
-/

namespace WallPanel

open Reading

variable {α : Type}

/-- Whether a statement is a nail row or a drilling. -/
def Role.isFastener : Role α → Bool
  | .nailRow _ | .drilling _ => true
  | _ => false

namespace Context

/-- A context with its panel and its path closed. -/
def closed (c : Context α) : Context α := { c with panel := none, run := none }

theorem closed_eq_self {c : Context α} (hp : c.panel = none) (hr : c.run = none) :
    c.closed = c := by
  cases c
  simp_all [closed]

theorem settle_closed (c : Context α) (k : CommandKind) :
    c.closed.settle k = (c.settle k).closed := by
  cases k <;> rfl

variable [Scalar α] {c c' : Context α} {s : Statement α} {ss : List (Statement α)}

/-- A nail row or a drilling closes the panel and the path. -/
theorem next_of_isFastener (h : ((c.settle s.command.kind).role s).isFastener = true) :
    c.next s = c.closed := by
  have hplays := plays_role (c.settle s.command.kind) s
  unfold next
  dsimp only
  generalize (c.settle s.command.kind).role s = r at h hplays ⊢
  cases hplays with
  | nailRow kind => rw [kind]; rfl
  | drilling kind => rw [kind]; rfl
  | _ => cases h

theorem next_of_not_isVertexLike (c : Context α) (hs : s.isPathPart = true)
    (hv : s.isVertexLike = false) : c.next s = c.settle s.command.kind := by
  rw [next, role_of_not_isVertexLike _ hs hv]
  rfl

/-! ## When nothing is missed -/

/-- The statements neither put a point on the boundary of the open panel nor a vertex on the open
path. -/
structure Idle (c : Context α) (ss : List (Statement α)) : Prop where
  panel : c.panel ≠ none → ∀ s ∈ ss.takeWhile Statement.isPoint, s.isUsable = false
  run : c.run ≠ none → ∀ s ∈ ss.takeWhile Statement.isPathPart, s.isVertexLike = false

omit [Scalar α] in
/-- Something is still open after what a statement ends. -/
theorem open_of_ne (h : (c.settle s.command.kind).closed ≠ c.settle s.command.kind) :
    s.isPoint = true ∧ c.panel ≠ none ∨ s.isPathPart = true ∧ c.run ≠ none := by
  by_contra hall
  refine h (closed_eq_self ?_ ?_)
  · rw [settle_panel]
    by_cases hs : s.isPoint = true <;> simp_all
  · rw [settle_run]
    by_cases hs : s.isPathPart = true <;> simp_all

omit [Scalar α] in
theorem Idle.not_isVertexLike (h : c.Idle (s :: ss))
    (hc : (c.settle s.command.kind).closed ≠ c.settle s.command.kind) :
    s.isPathPart = true ∧ s.isVertexLike = false := by
  rcases open_of_ne hc with ⟨hs, hp⟩ | ⟨hs, hr⟩
  · have hu := h.panel hp s (by simp [hs])
    simp only [Statement.isPoint, decide_eq_true_eq] at hs
    simp [Statement.isPathPart, Statement.isVertexLike, hs, hu]
  · exact ⟨hs, h.run hr s (by simp [hs])⟩

omit [Scalar α] in
theorem Idle.settle (h : c.Idle (s :: ss)) : (c.settle s.command.kind).Idle ss := by
  refine ⟨fun hp t ht => ?_, fun hr t ht => ?_⟩
  · rw [settle_panel, ne_eq, ite_eq_right_iff, not_forall] at hp
    obtain ⟨hs, hp⟩ := hp
    exact h.panel hp t (by simp [hs, ht])
  · rw [settle_run, ne_eq, ite_eq_right_iff, not_forall] at hr
    obtain ⟨hs, hr⟩ := hr
    exact h.run hr t (by simp [hs, ht])

/-- The statements after one that closes say the same without it, when they miss neither the panel
nor the path. -/
theorem read_closed (h : c.Idle ss) : c.closed.read ss = c.read ss := by
  induction ss generalizing c with
  | nil => rfl
  | cons s ss ih =>
    by_cases hc : (c.settle s.command.kind).closed = c.settle s.command.kind
    · simp only [read, next, settle_closed, hc]
    · obtain ⟨hs, hv⟩ := h.not_isVertexLike hc
      simp only [read, settle_closed, role_of_not_isVertexLike _ hs hv,
        next_of_not_isVertexLike _ hs hv, ih h.settle]

/-! ## When a point is missed -/

/-- The second context is in the same setting as the first, and has its panel open. -/
structure Shelters (c c' : Context α) : Prop where
  setting : c'.setting = c.setting
  panel : ∀ p, c.panel = some p → c'.panel = some p

theorem role_congr (h : c'.setting = c.setting) (hp : s.command.kind ≠ .point)
    (hk : s.command.kind ≠ .curve) (hc : s.command.kind ≠ .circle) : c'.role s = c.role s := by
  have hrole : c'.role? s = c.role? s := by
    cases hkind : s.command.kind <;> first | contradiction | simp [role?, hkind, h]
  rw [role, role, hrole]

/-- Points, curves and circles neither open a panel nor change the setting. -/
theorem role_inner (c : Context α) (h : s.command.kind = .point ∨ s.command.kind = .curve ∨
    s.command.kind = .circle) : (c.role s).panel? = none ∧ ∀ g, Setting.after g (c.role s) = g := by
  have hplays := plays_role c s
  generalize c.role s = r at hplays
  cases hplays with
  | member kind => rcases h with h | h | h <;> simp [h, CommandKind.isMember] at kind
  | boundary => exact ⟨rfl, fun _ => rfl⟩
  | circle => exact ⟨rfl, fun _ => rfl⟩
  | point => exact ⟨rfl, fun _ => rfl⟩
  | curve => exact ⟨rfl, fun _ => rfl⟩
  | unhandled => exact ⟨rfl, fun _ => rfl⟩
  | _ => simp_all

namespace Shelters

omit [Scalar α] in
theorem settle (h : c.Shelters c') (k : CommandKind) : (c.settle k).Shelters (c'.settle k) where
  setting := by simpa using h.setting
  panel p hp := by cases k <;> first | exact h.panel p hp | cases hp

/-- A panel that is opened is opened in both, and the settings stay the same. -/
theorem role (h : c.Shelters c') (s : Statement α) : (c'.role s).panel? = (c.role s).panel? ∧
    c'.setting.after (c'.role s) = c.setting.after (c.role s) := by
  by_cases hk : s.command.kind = .point ∨ s.command.kind = .curve ∨ s.command.kind = .circle
  · obtain ⟨hp, hs⟩ := c.role_inner hk
    obtain ⟨hp', hs'⟩ := c'.role_inner hk
    rw [hp, hp', hs, hs', h.setting]
    exact ⟨rfl, rfl⟩
  · rw [not_or, not_or] at hk
    rw [role_congr h.setting hk.1 hk.2.1 hk.2.2, h.setting]
    exact ⟨rfl, rfl⟩

theorem next (h : c.Shelters c') (s : Statement α) : (c.next s).Shelters (c'.next s) := by
  obtain ⟨hp, hs⟩ := (h.settle s.command.kind).role s
  refine ⟨by rw [Context.next, Context.next, after_setting, after_setting, hs], fun p => ?_⟩
  rw [Context.next, Context.next, panel_after, panel_after, hp]
  cases ((c.settle s.command.kind).role s).panel? with
  | some q => exact id
  | none => simpa using (h.settle s.command.kind).panel p

/-- A point on the boundary of a panel stays there. -/
theorem point? (h : c.Shelters c') {j : Nat} {p : PanelPoint α}
    (hp : (c.role s).point? j = some p) : (c'.role s).point? j = some p := by
  have hplays := plays_role c s
  generalize c.role s = r at hplays hp
  cases hplays with
  | @boundary q p' kind usable opened entry =>
    have hb : c'.boundary? s = some (.boundary q.statementIndex p') := by
      simp only [boundary?, h.panel _ opened, h.setting, entry, Option.bind_eq_bind,
        Option.bind_some, Option.pure_def]
    rw [Context.role, if_pos usable, role?, kind]
    simpa [hb] using hp
  | _ => cases hp

theorem panels_read (h : c.Shelters c') (ss : List (Statement α)) :
    panels (c'.read ss) = panels (c.read ss) := by
  induction ss generalizing c c' with
  | nil => rfl
  | cons s ss ih =>
    have hp := ((h.settle s.command.kind).role s).1
    have ih := ih (h.next s)
    unfold panels at ih ⊢
    rw [read, read, List.filterMap_cons, List.filterMap_cons, hp, ih]

/-- The boundaries have at least the points that they had. -/
theorem points_sublist (h : c.Shelters c') (ss : List (Statement α)) (j : Nat) :
    (points (c.read ss) j).Sublist (points (c'.read ss) j) := by
  induction ss generalizing c c' with
  | nil => exact .slnil
  | cons s ss ih =>
    have ih := ih (h.next s)
    unfold points at ih ⊢
    rw [read, read, List.filterMap_cons, List.filterMap_cons]
    cases hp : ((c.settle s.command.kind).role s).point? j with
    | some p => simpa [(h.settle _).point? hp] using ih
    | none =>
      cases ((c'.settle s.command.kind).role s).point? j with
      | some p => exact ih.cons p
      | none => exact ih

end Shelters

theorem point?_role_of_closed (hp : c.panel = none) (j : Nat) : (c.role s).point? j = none := by
  have hplays := plays_role c s
  generalize c.role s = r at hplays
  cases hplays with
  | boundary kind usable opened => cases hp.symm.trans opened
  | _ => rfl

theorem point?_role_of_isUsable {q : SheathingPanel α} (hs : s.isPoint = true)
    (hu : s.isUsable = true) (hq : c.panel = some q) :
    ∃ p, (c.role s).point? q.statementIndex = some p := by
  have hk : s.command.kind = .point := of_decide_eq_true hs
  have hlen := hu
  rw [Statement.isUsable_eq, hk, decide_eq_true_eq] at hlen
  obtain ⟨p, hp⟩ := Option.isSome_iff_exists.mp
    (PanelPoint.isSome_ofNumbers? hlen q c.setting.module)
  exact ⟨p, by simp [role, hu, role?, hk, boundary?, hq, hp, Role.point?]⟩

/-- A panel that stays open has another point. -/
theorem points_lt (h : c.Shelters c') (hp : c.panel = none) {q : SheathingPanel α}
    (hq : c'.panel = some q)
    (ht : ∃ t ∈ ss.takeWhile Statement.isPoint, t.isUsable = true) :
    (points (c.read ss) q.statementIndex).length <
      (points (c'.read ss) q.statementIndex).length := by
  induction ss with
  | nil => simp at ht
  | cons s ss ih =>
    have hs : s.isPoint = true := by
      by_contra hs
      simp [hs] at ht
    have hk : s.command.kind = .point := of_decide_eq_true hs
    unfold points
    rw [read, read, List.filterMap_cons, List.filterMap_cons, hk]
    simp only [settle, point?_role_of_closed hp]
    by_cases hu : s.isUsable = true
    · obtain ⟨p, hp'⟩ := point?_role_of_isUsable hs hu hq
      rw [hp', List.length_cons]
      exact Nat.lt_succ_of_le ((h.next s).points_sublist ss _).length_le
    · have hv : s.isVertexLike = false := by simp [Statement.isVertexLike, hu]
      have hpath : s.isPathPart = true := by simp [Statement.isPathPart, hk]
      rw [role_of_not_isVertexLike c' hpath hv, next_of_not_isVertexLike c hpath hv,
        next_of_not_isVertexLike c' hpath hv, hk]
      exact ih (by simpa [hs, hu] using ht)

/-! ## When a vertex is missed -/

/-- Where a path goes on, another one begins after it was closed. -/
theorem read_closed_vertex {j k : Nat} (hp : c.panel = none) (hj : c.routing = some j)
    (hk : c.run = some k) (ht : ∃ t ∈ ss.takeWhile Statement.isPathPart, t.isVertexLike = true) :
    ∃ b v v', ⟨b, .vertex j b.index v⟩ ∈ c.closed.read ss ∧ ⟨b, .vertex j k v'⟩ ∈ c.read ss := by
  induction ss generalizing c with
  | nil => simp at ht
  | cons s ss ih =>
    have hs : s.isPathPart = true := by
      by_contra hs
      simp [hs] at ht
    by_cases hv : s.isVertexLike = true
    · obtain ⟨v, -, hr⟩ := role_of_isVertexLike (c := c.closed) hv (fun _ => rfl) hj
      obtain ⟨v', -, hr'⟩ := role_of_isVertexLike hv (fun _ => hp) hj
      rw [hk, Option.getD_some] at hr'
      exact ⟨s, v, v', by rw [read, hr]; exact List.mem_cons_self,
        by rw [read, hr']; exact List.mem_cons_self⟩
    · rw [Bool.not_eq_true] at hv
      obtain ⟨b, v, v', hb, hb'⟩ := ih (c := c.settle s.command.kind)
        (by rw [settle_panel, hp, ite_self]) (by rwa [settle_routing])
        (by rw [settle_run, if_pos hs, hk]) (by simpa [hs, hv] using ht)
      refine ⟨b, v, v', ?_, ?_⟩
      · rw [read, next_of_not_isVertexLike _ hs hv, settle_closed]
        exact List.mem_cons_of_mem _ hb
      · rw [read, next_of_not_isVertexLike _ hs hv]
        exact List.mem_cons_of_mem _ hb'

end Context

/-! ## In a document -/

namespace Attribution

/-- A statement stands between the header of a panel and a point that only points separate from it
otherwise. -/
def CutsBoundary (ss : List (Statement α)) (i : Nat) : Prop :=
  ∃ j, PanelReaches ss j i ∧ ∃ s ∈ ss, i < s.index ∧ s.isPoint = true ∧ s.isUsable = true ∧
    Between ss Statement.isPoint i s.index

/-- A statement stands between two vertices of a routing that only points and curves separate
otherwise. -/
def CutsPath (ss : List (Statement α)) (i : Nat) : Prop :=
  ∃ j, ∃ a ∈ ss, ∃ b ∈ ss, VertexOf ss j a ∧ VertexOf ss j b ∧ a.index < i ∧ i < b.index ∧
    Between ss Statement.isPathPart a.index i ∧ Between ss Statement.isPathPart i b.index

variable {ss pre post : List (Statement α)} {s t : Statement α}

theorem mem_takeWhile_iff_of_sorted {l : List (Statement α)} {passes : Statement α → Bool}
    (hl : (l.map (·.index)).Pairwise (· < ·)) : t ∈ l.takeWhile passes ↔
      t ∈ l ∧ passes t = true ∧ ∀ u ∈ l, u.index < t.index → passes u = true := by
  induction l with
  | nil => simp
  | cons s l ih =>
    rw [List.map_cons, List.pairwise_cons] at hl
    have hlt : ∀ u ∈ l, s.index < u.index := fun u hu => hl.1 _ (List.mem_map_of_mem hu)
    rw [List.takeWhile_cons]
    by_cases hs : passes s = true
    · rw [if_pos hs, List.mem_cons, ih hl.2, List.mem_cons]
      constructor
      · rintro (rfl | ⟨ht, hp, hu⟩)
        · refine ⟨.inl rfl, hs, fun u hu hut => ?_⟩
          rcases List.mem_cons.mp hu with rfl | hu
          · exact hs
          · exact absurd hut (Nat.lt_asymm (hlt u hu))
        · refine ⟨.inr ht, hp, fun u hu' hut => ?_⟩
          rcases List.mem_cons.mp hu' with rfl | hu'
          · exact hs
          · exact hu u hu' hut
      · rintro ⟨rfl | ht, hp, hu⟩
        · exact .inl rfl
        · exact .inr ⟨ht, hp, fun u hu' => hu u (List.mem_cons_of_mem _ hu')⟩
    · rw [if_neg hs]
      refine ⟨nofun, fun ⟨ht, hp, hu⟩ => absurd ?_ hs⟩
      rcases List.mem_cons.mp ht with rfl | ht
      · exact hp
      · exact hu s List.mem_cons_self (hlt t ht)

/-- The statements right after one that satisfy a condition. -/
theorem mem_takeWhile_iff (hn : Numbered ss) (hss : ss = pre ++ s :: post)
    (passes : Statement α → Bool) : t ∈ post.takeWhile passes ↔
      t ∈ ss ∧ s.index < t.index ∧ passes t = true ∧ Between ss passes s.index t.index := by
  have hsorted := hn.sorted
  rw [hss, List.map_append, List.map_cons, List.pairwise_append, List.pairwise_cons] at hsorted
  obtain ⟨-, ⟨hpost, hsorted⟩, hpre⟩ := hsorted
  have hafter (u : Statement α) : u ∈ ss ∧ s.index < u.index ↔ u ∈ post := by
    rw [hss]
    constructor
    · rintro ⟨hu, hlt⟩
      rcases List.mem_append.mp hu with hu | hu
      · exact absurd hlt (Nat.lt_asymm (hpre _ (List.mem_map_of_mem hu) _ List.mem_cons_self))
      · rcases List.mem_cons.mp hu with rfl | hu
        · exact absurd hlt (Nat.lt_irrefl _)
        · exact hu
    · exact fun hu => ⟨by simp [hu], hpost _ (List.mem_map_of_mem hu)⟩
  rw [mem_takeWhile_iff_of_sorted hsorted, ← hafter]
  constructor
  · rintro ⟨⟨ht, hlt⟩, hp, hall⟩
    exact ⟨ht, hlt, hp, fun u hu hsu hut => hall u ((hafter u).mp ⟨hu, hsu⟩) hut⟩
  · rintro ⟨ht, hlt, hp, hb⟩
    refine ⟨⟨ht, hlt⟩, hp, fun u hu hut => ?_⟩
    obtain ⟨hu, hsu⟩ := (hafter u).mpr hu
    exact hb u hu hsu hut

variable [Scalar α] {c : Context α}

namespace Stands

variable (h : Stands ss s c)
include h

/-- While a path is open no panel is. -/
theorem panel_eq_none_of_run {k : Nat} (hk : c.run = some k) : c.panel = none := by
  rw [h.panel_eq_none_iff]
  rintro ⟨j, -, hj, ⟨w, hw, rfl, ho⟩, hb⟩
  obtain ⟨hlt, ⟨f, hf, rfl, j', hbegins⟩, hbetween⟩ := (h.opened.run k).mp hk
  have hclosed := isPathPart_of_opensPanel ho
  rcases Nat.lt_trichotomy w.index f.index with hwf | hwf | hwf
  · have hp := hb f hf hwf hlt
    exact hbegins.1.2.2 ⟨of_decide_eq_true hp, w.index, hwf,
      ⟨hwf, ⟨w, hw, rfl, ho⟩, hb.mono (Nat.le_refl _) (Nat.le_of_lt hlt)⟩⟩
  · obtain rfl := h.numbered.eq_of_index hf hw hwf
    cases (isPathPart_of_isVertexLike hbegins.1.1).symm.trans hclosed
  · cases (hbetween w hw hwf hj).symm.trans hclosed

variable (hss : ss = pre ++ s :: post)
include hss

/-- A statement keeps a point off a boundary when it closes a panel that points would reach. -/
theorem cutsBoundary_iff : CutsBoundary ss s.index ↔
    c.panel ≠ none ∧ ∃ t ∈ post.takeWhile Statement.isPoint, t.isUsable = true := by
  have hon : OnPanel ss s.index ↔ ∃ j, PanelReaches ss j s.index :=
    ⟨fun ⟨j, _, hj⟩ => ⟨j, hj⟩, fun ⟨j, hj⟩ => ⟨j, hj.1, hj⟩⟩
  rw [ne_eq, h.panel_eq_none_iff, not_not, hon]
  simp only [CutsBoundary, mem_takeWhile_iff h.numbered hss]
  constructor
  · rintro ⟨j, hj, t, ht, hlt, hp, hu, hb⟩
    exact ⟨⟨j, hj⟩, t, ⟨ht, hlt, hp, hb⟩, hu⟩
  · rintro ⟨⟨j, hj⟩, t, ⟨ht, hlt, hp, hb⟩, hu⟩
    exact ⟨j, hj, t, ht, hlt, hp, hu, hb⟩

/-- A statement divides a path when it closes one that vertices would go on with. -/
theorem cutsPath_iff (hpath : s.isPathPart = false) (hends : s.endsRouting = false)
    (hopens : s.opensPanel = false) : CutsPath ss s.index ↔
      c.run ≠ none ∧ ∃ t ∈ post.takeWhile Statement.isPathPart, t.isVertexLike = true := by
  simp only [CutsPath, mem_takeWhile_iff h.numbered hss]
  constructor
  · rintro ⟨j, a, ha, b, hb, hva, hvb, hai, hib, hbetween, hbetween'⟩
    obtain ⟨f, hf, hbegins, hle, hfa⟩ := exists_beginsRun h.numbered ha hva
    have hreach : RunReaches ss f.index s.index := by
      refine ⟨Nat.lt_of_le_of_lt hle hai, ⟨f, hf, rfl, j, hbegins⟩,
        hfa.trans hbetween fun u hu he => ?_⟩
      rw [h.numbered.eq_of_index ha hu he]
      exact isPathPart_of_isVertexLike hva.1
    refine ⟨?_, b, ⟨hb, hib, isPathPart_of_isVertexLike hvb.1, hbetween'⟩, hvb.1⟩
    rw [(h.opened.run _).mpr hreach]
    exact nofun
  · rintro ⟨hrun, t, ⟨ht, hlt, hp, hb⟩, hv⟩
    obtain ⟨k, hk⟩ := Option.ne_none_iff_exists'.mp hrun
    have hreach := (h.opened.run k).mp hk
    obtain ⟨f, hf, rfl, j, hbegins⟩ := hreach.2.1
    obtain ⟨hj, ho, hbetween⟩ := hreach.routing h.numbered hf hbegins
    have hrouting : RoutingReaches ss j t.index := by
      refine ⟨Nat.lt_trans hj hlt, ho, hbetween.trans
        (hb.imp fun _ => not_endsRouting_of_isPathPart) fun u hu he => ?_⟩
      rw [h.numbered.eq_of_index h.mem hu he, hends]
      rfl
    have hoff : ¬OnPanel ss t.index := by
      rintro ⟨w, -, hwt, ⟨u, hu, rfl, hou⟩, hbu⟩
      rcases Nat.lt_trichotomy u.index s.index with hus | hus | hus
      · cases (isPathPart_of_isPoint (hbu s h.mem hus hlt)).symm.trans hpath
      · rw [h.numbered.eq_of_index h.mem hu hus, hopens] at hou
        cases hou
      · cases (hb u hu hus hwt).symm.trans (isPathPart_of_opensPanel hou)
    exact ⟨j, f, hf, t, ht, hbegins.1, ⟨hv, hrouting, fun hall => hoff hall.2⟩, hreach.1, hlt,
      hreach.2.2, hb⟩

/-- Nothing is missed after a statement that neither keeps a point off a boundary nor divides a
path. -/
theorem idle_iff (hpath : s.isPathPart = false) (hends : s.endsRouting = false)
    (hopens : s.opensPanel = false) :
    c.Idle post ↔ ¬CutsBoundary ss s.index ∧ ¬CutsPath ss s.index := by
  rw [h.cutsBoundary_iff hss, h.cutsPath_iff hss hpath hends hopens]
  simp only [not_and, not_exists, Bool.not_eq_true]
  exact ⟨fun hi => ⟨hi.panel, hi.run⟩, fun ⟨hp, hr⟩ => ⟨hp, hr⟩⟩

end Stands

end Attribution

end WallPanel
