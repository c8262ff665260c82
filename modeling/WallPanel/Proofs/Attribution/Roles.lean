import WallPanel.Proofs.Attribution.Contexts
import WallPanel.Proofs.Reading.Positions

/-!
# The roles of statements by what reaches them

Where a context is what reaches a position (`Attribution.OpenAt`), the statement at this position
has the role that the statements before it give it: `Stands.panel?_role` to
`Stands.unhandled?_role`. So a statement leaves a context that is what reaches the next position
(`Stands.next`), and every statement of a document stands in such a context
(`Attribution.exists_stands`).
-/

namespace WallPanel

open Attribution

variable {α : Type} [Scalar α]

/-! ## Statements with enough numbers -/

theorem PanelPoint.isSome_ofNumbers? {ns : List α} (h : 2 ≤ ns.length) (p : SheathingPanel α)
    (module? : Option (ModuleFrame α)) : (PanelPoint.ofNumbers? ns p module?).isSome = true := by
  match ns, h with
  | _ :: _ :: _, _ => rfl

theorem SheathingPanel.isSome_ofStatement? {s : Statement α} (h : 6 ≤ s.numbers.length)
    (side : Side) (module? : Option (ModuleFrame α)) :
    (SheathingPanel.ofStatement? s side module?).isSome = true := by
  have hlen : 6 ≤ (if (tokenNumbers (α := α) s.body).length < 6 then s.numbers
      else tokenNumbers s.body).length := by
    split
    · exact h
    · omega
  unfold SheathingPanel.ofStatement?
  dsimp only
  match hn : (if (tokenNumbers (α := α) s.body).length < 6 then s.numbers
      else tokenNumbers s.body), hlen with
  | _ :: _ :: _ :: _ :: _ :: _ :: _, _ => rfl

theorem SheathingPanel.layer_of_ofStatement? {s : Statement α} {side : Side}
    {module? : Option (ModuleFrame α)} {p : SheathingPanel α}
    (h : SheathingPanel.ofStatement? s side module? = some p) :
    p.layer = SheathingPanel.layerOf s.command side := by
  unfold SheathingPanel.ofStatement? at h
  dsimp only at h
  split at h
  · cases h; rfl
  · cases h

theorem CircleCut.isSome_ofStatement? {s : Statement α} (h : 3 ≤ s.numbers.length) :
    (CircleCut.ofStatement? s).isSome = true := by
  unfold CircleCut.ofStatement?
  match hn : s.numbers, h with
  | _ :: _ :: _ :: _, _ => rfl

omit [Scalar α] in
theorem WallSize.isSome_ofNumbers? {ns : List α} (h : 2 ≤ ns.length) :
    (WallSize.ofNumbers? ns).isSome = true := by
  match ns, h with
  | _ :: _ :: _, _ => rfl

theorem ModuleFrame.isSome_ofNumbers? {ns : List α} (h : 5 ≤ ns.length) :
    (ModuleFrame.ofNumbers? ns).isSome = true := by
  match ns, h with
  | _ :: _ :: _ :: _ :: _ :: _, _ => rfl

theorem FrameMember.isSome_ofNumbers? {ns : List α} (h : 5 ≤ ns.length)
    (module? : Option (ModuleFrame α)) (label : MemberLabel α) :
    (FrameMember.ofNumbers? ns module? label).isSome = true := by
  match ns, h with
  | _ :: _ :: _, _ => rfl

omit [Scalar α] in
theorem NailRow.isSome_ofStatement? {s : Statement α} (h : 4 ≤ s.numbers.length)
    (layer : Option PanelLayer) : (NailRow.ofStatement? s layer).isSome = true := by
  unfold NailRow.ofStatement?
  match s.numbers, h with
  | _ :: _ :: _ :: _ :: _, _ => rfl

theorem Drilling.isSome_ofStatement? {s : Statement α} (h : 4 ≤ s.numbers.length)
    (module? : Option (ModuleFrame α)) (member? : Option (FrameMember α)) :
    (Drilling.ofStatement? s module? member?).isSome = true := by
  unfold Drilling.ofStatement?
  match s.numbers, h with
  | _ :: _ :: _ :: _ :: _, _ => rfl

theorem Vertex.isSome_ofPoint? {s : Statement α} (h : 2 ≤ s.numbers.length) (isFirst : Bool) :
    (Vertex.ofPoint? s isFirst).isSome = true := by
  have hx : s.number? 0 = some s.numbers[0] := List.getElem?_eq_getElem (by omega)
  have hy : s.number? 1 = some s.numbers[1] := List.getElem?_eq_getElem (by omega)
  simp [Vertex.ofPoint?, hx, hy]

theorem Vertex.isSome_ofCurve? {s : Statement α} (h : 3 ≤ s.numbers.length)
    (hf : ((tokens s.body)[3]?).isSome = true) : (Vertex.ofCurve? s).isSome = true := by
  obtain ⟨flag, hf⟩ := Option.isSome_iff_exists.mp hf
  have hx : s.number? 0 = some s.numbers[0] := List.getElem?_eq_getElem (by omega)
  have hy : s.number? 1 = some s.numbers[1] := List.getElem?_eq_getElem (by omega)
  have hz : s.number? 2 = some s.numbers[2] := List.getElem?_eq_getElem (by omega)
  simp [Vertex.ofCurve?, hf, hx, hy, hz]

omit [Scalar α] in
theorem Statement.isUsable_eq (s : Statement α) :
    s.isUsable = decide (s.command.kind.minNumbers ≤ s.numbers.length) := rfl

/-- A statement that hangs on the frame alone has a role if it has enough numbers. Only the wall may
have been declared before. -/
theorem Setting.isSome_role? {g : Setting α} {s : Statement α} (hu : s.isUsable = true)
    (hp : s.command.kind ≠ .point) (hk : s.command.kind ≠ .curve) (hc : s.command.kind ≠ .circle)
    (hw : s.command.kind = .wall → g.hasWall = false) : (g.role? s).isSome = true := by
  simp only [Statement.isUsable, decide_eq_true_eq] at hu
  cases hkind : s.command.kind with
  | point => exact absurd hkind hp
  | curve => exact absurd hkind hk
  | circle => exact absurd hkind hc
  | moduleEnd => simp [role?, hkind]
  | routing => simp [role?, hkind]
  | unknown => simp [role?, hkind]
  | panel side =>
    rw [hkind] at hu
    simp [role?, hkind, SheathingPanel.isSome_ofStatement? hu]
  | wall =>
    rw [hkind] at hu
    simp [role?, hkind, hw hkind, WallSize.isSome_ofNumbers? hu]
  | moduleBegin =>
    rw [hkind] at hu
    simp [role?, hkind, ModuleFrame.isSome_ofNumbers? hu]
  | nailRow =>
    rw [hkind] at hu
    simp [role?, hkind, NailRow.isSome_ofStatement? hu]
  | drilling =>
    rw [hkind] at hu
    simp [role?, hkind, Drilling.isSome_ofStatement? hu]
  | _ =>
    rw [hkind] at hu
    simp [role?, hkind, FrameMember.ofStatement?, FrameMember.isSome_ofNumbers? hu]

namespace Context

omit [Scalar α] in
theorem settle_panel (c : Context α) (s : Statement α) :
    (c.settle s.command.kind).panel = if s.isPoint then c.panel else none := by
  cases hk : s.command.kind <;> simp [settle, Statement.isPoint, hk]

omit [Scalar α] in
theorem settle_run (c : Context α) (s : Statement α) :
    (c.settle s.command.kind).run = if s.isPathPart then c.run else none := by
  cases hk : s.command.kind <;> simp [settle, Statement.isPathPart, hk]

omit [Scalar α] in
theorem panel_after (c : Context α) (r : Role α) : (c.after r).panel = r.panel?.or c.panel := by
  cases r <;> rfl

/-- A statement that has the numbers for a vertex is one while a routing is open, unless a panel
takes it. -/
theorem role_of_isVertexLike {c : Context α} {s : Statement α} {j : Nat}
    (hv : s.isVertexLike = true) (hp : s.isPoint = true → c.panel = none)
    (hj : c.routing = some j) :
    ∃ v, (if s.isPoint then Vertex.ofPoint? s c.run.isNone else Vertex.ofCurve? s) = some v ∧
      (c.settle s.command.kind).role s = .vertex j (c.run.getD s.index) v := by
  simp only [Statement.isVertexLike, Bool.and_eq_true, Bool.or_eq_true, decide_eq_true_eq] at hv
  obtain ⟨hu, hk | ⟨hk, hflag⟩⟩ := hv
  · have hp := hp (decide_eq_true hk)
    have hlen := hu
    simp only [Statement.isUsable_eq, hk, decide_eq_true_eq] at hlen
    obtain ⟨v, hv⟩ := Option.isSome_iff_exists.mp (Vertex.isSome_ofPoint? hlen c.run.isNone)
    exact ⟨v, by simpa [Statement.isPoint, hk] using hv,
      by simp [role, hu, role?, hk, boundary?, settle, hp, vertex?, hj, hv]⟩
  · have hlen := hu
    simp only [Statement.isUsable_eq, hk, decide_eq_true_eq] at hlen
    obtain ⟨v, hv⟩ := Option.isSome_iff_exists.mp (Vertex.isSome_ofCurve? hlen hflag)
    exact ⟨v, by simpa [Statement.isPoint, hk] using hv,
      by simp [role, hu, role?, hk, settle, vertex?, hj, hv]⟩

/-- A point or a curve that has not the numbers for a vertex has no place. -/
theorem role_of_not_isVertexLike (c : Context α) {s : Statement α}
    (hs : s.isPathPart = true) (hv : s.isVertexLike = false) :
    c.role s = .unhandled (.ofStatement s) := by
  unfold role
  by_cases hu : s.isUsable = true
  · have hk : s.command.kind = .curve := by
      simp_all [Statement.isPathPart, Statement.isVertexLike]
    have hf : (tokens s.body)[3]? = none := by
      simpa [Statement.isVertexLike, hu, hk] using hv
    simp [hu, role?, hk, vertex?, Vertex.ofCurve?, hf]
  · simp [hu]

end Context

namespace Attribution

variable {ss : List (Statement α)} {c : Context α} {s : Statement α} {i j k : Nat}

theorem isSome_header?_iff : (header? ss s).isSome = true ↔ s.opensPanel = true := by
  unfold header? Statement.opensPanel
  cases hk : s.command.kind with
  | panel side =>
    by_cases hu : s.isUsable = true
    · have hlen := hu
      simp only [Statement.isUsable_eq, hk, decide_eq_true_eq] at hlen
      simp [hu, SheathingPanel.isSome_ofStatement? hlen]
    · simp [hu]
  | _ => simp

theorem isSome_of_circleOf (h : CircleOf ss j s) : (CircleCut.ofStatement? s).isSome = true := by
  obtain ⟨hk, hlen, -⟩ := h
  rw [Statement.isUsable_eq, hk, decide_eq_true_eq] at hlen
  exact CircleCut.isSome_ofStatement? hlen

theorem header?_index {p : SheathingPanel α} (h : header? ss s = some p) :
    p.statementIndex = s.index ∧ p.points = [] := by
  unfold header? at h
  split at h
  · split at h
    · exact SheathingPanel.of_ofStatement? h
    · cases h
  · cases h

/-! ## What is open -/

/-- A context is what reaches a position. -/
structure OpenAt (ss : List (Statement α)) (i : Nat) (c : Context α) : Prop where
  module : c.setting.module = moduleAt ss i
  member : c.setting.member = memberAt ss i
  layer : c.setting.layer = layerAt ss i
  wall : c.setting.hasWall = (before ss i).any fun s => s.command.kind = .wall && s.isUsable
  panel : ∀ p, c.panel = some p ↔ ∃ s ∈ ss, PanelReaches ss s.index i ∧ header? ss s = some p
  routing : ∀ j, c.routing = some j ↔ RoutingReaches ss j i
  run : ∀ k, c.run = some k ↔ RunReaches ss k i

/-- The state before a statement, and the statement after what it ends. -/
structure Stands (ss : List (Statement α)) (s : Statement α) (c : Context α) : Prop where
  numbered : Numbered ss
  mem : s ∈ ss
  opened : OpenAt ss s.index c

namespace Stands

variable (h : Stands ss s c)
include h

theorem panel_eq_none_iff : c.panel = none ↔ ¬OnPanel ss s.index := by
  constructor
  · rintro hp ⟨j, -, hj⟩
    obtain ⟨t, ht, rfl, ho⟩ := hj.2.1
    have hsome : (header? ss t).isSome = true := isSome_header?_iff.mpr ho
    obtain ⟨p, hp'⟩ := Option.isSome_iff_exists.mp hsome
    cases hp.symm.trans ((h.opened.panel p).mpr ⟨t, ht, hj, hp'⟩)
  · intro hn
    cases hp : c.panel with
    | none => rfl
    | some p =>
      obtain ⟨t, -, ht, -⟩ := (h.opened.panel p).mp hp
      exact absurd ⟨t.index, ht.1, ht⟩ hn

/-! ## Panels -/

theorem panel?_role : ((c.settle s.command.kind).role s).panel? = header? ss s := by
  have hplays := (c.settle s.command.kind).plays_role s
  generalize (c.settle s.command.kind).role s = r at hplays
  cases hplays with
  | panel kind usable entry =>
    rw [c.settle_setting, h.opened.module] at entry
    simp [Role.panel?, header?, kind, usable, entry]
  | unhandled known none =>
    have hn : header? ss s = Option.none := by
      cases hk : s.command.kind with
      | panel side =>
        by_cases hu : s.isUsable = true
        · have := none hu
          rw [hk] at this
          simp only [Context.role?, hk, Setting.role?, c.settle_setting,
            h.opened.module, Option.map_eq_none_iff] at this
          simp [header?, hk, this]
        · simp [header?, hk, hu]
      | _ => simp [header?, hk]
    simp [Role.panel?, hn]
  | member kind => cases hk : s.command.kind <;> simp_all [Role.panel?, header?, CommandKind.isMember]
  | _ => simp_all [Role.panel?, header?]

/-- A point that a panel reaches is on its boundary. -/
theorem point?_role {t : Statement α} {p : SheathingPanel α} (ht : t ∈ ss)
    (hp : header? ss t = some p) :
    ((c.settle s.command.kind).role s).point? t.index =
      if s.isPoint && s.isUsable && PanelReaches ss t.index s.index then
        PanelPoint.ofNumbers? s.numbers p (moduleAt ss s.index)
      else none := by
  have hplays := (c.settle s.command.kind).plays_role s
  generalize (c.settle s.command.kind).role s = r at hplays
  have hopen (hr : PanelReaches ss t.index s.index) : c.panel = some p :=
    (h.opened.panel p).mpr ⟨t, ht, hr, hp⟩
  cases hplays with
  | @boundary q pt kind usable opened entry =>
    rw [kind] at opened entry
    obtain ⟨t', ht', hr, hq⟩ := (h.opened.panel q).mp opened
    have hidx := (header?_index hq).1
    by_cases heq : t'.index = t.index
    · obtain rfl := h.numbered.eq_of_index ht ht' heq
      obtain rfl : q = p := Option.some.inj (hq.symm.trans hp)
      rw [c.settle_setting, h.opened.module] at entry
      simp [Role.point?, hidx, Statement.isPoint, kind, usable, hr, entry]
    · have hnr : ¬PanelReaches ss t.index s.index := fun hr' => heq (hr.unique hr')
      simp [Role.point?, hidx, heq, hnr]
  | point kind usable closed opened entry =>
    rw [kind] at closed
    have hnr : ¬PanelReaches ss t.index s.index := fun hr => by
      cases closed.symm.trans (hopen hr)
    simp [Role.point?, hnr]
  | unhandled known none =>
    have hn : (s.isPoint && s.isUsable && PanelReaches ss t.index s.index) = false := by
      refine Bool.eq_false_iff.mpr fun hall => ?_
      simp only [Statement.isPoint, Bool.and_eq_true, decide_eq_true_eq] at hall
      obtain ⟨⟨hk, hu⟩, hr⟩ := hall
      have hrole := none hu
      rw [hk] at hrole
      have hb : (c.settle .point).boundary? s = Option.none := by
        cases hb : (c.settle .point).boundary? s with
        | none => rfl
        | some r => simp [Context.role?, hk, hb] at hrole
      cases (Context.panel_eq_none_of_boundary? hk hu hb).symm.trans (hopen hr)
    simp [Role.point?, hn]
  | member kind => cases hk : s.command.kind <;> simp_all [Role.point?, Statement.isPoint, CommandKind.isMember]
  | _ => simp_all [Role.point?, Statement.isPoint]

/-! ## Routings -/

theorem header?_role : ((c.settle s.command.kind).role s).header? =
    if s.command.kind = .routing then some (Routing.ofHeader s (layerAt ss s.index))
    else none := by
  have hplays := (c.settle s.command.kind).plays_role s
  generalize (c.settle s.command.kind).role s = r at hplays
  cases hplays with
  | header kind => simp [Role.header?, kind, h.opened.layer]
  | unhandled known none =>
    have hn : s.command.kind ≠ .routing := fun hk => by
      have hu : s.isUsable = true := by simp [Statement.isUsable, hk, CommandKind.minNumbers]
      have := none hu
      simp [Context.role?, hk, Setting.role?] at this
    simp [Role.header?, hn]
  | member kind =>
    cases hk : s.command.kind <;> simp_all [Role.header?, CommandKind.isMember]
  | _ => simp_all [Role.header?]

theorem circleOf_of_role {d : Except NoInteger (CircleCut α)}
    (hr : (c.settle s.command.kind).role s = .circle j d) : CircleOf ss j s := by
  have hplays := (c.settle s.command.kind).plays_role s
  rw [hr] at hplays
  cases hplays with
  | circle kind usable opened entry =>
    rw [c.settle_routing] at opened
    exact ⟨kind, usable, (h.opened.routing j).mp opened⟩

theorem role_of_circleOf (hc : CircleOf ss j s) :
    ∃ d, CircleCut.ofStatement? s = some d ∧
      (c.settle s.command.kind).role s = .circle j d := by
  obtain ⟨d, hd⟩ := Option.isSome_iff_exists.mp (isSome_of_circleOf hc)
  obtain ⟨hk, hu, hr⟩ := hc
  have hj := (h.opened.routing j).mpr hr
  exact ⟨d, hd, by simp [Context.role, hu, Context.role?, hk, Context.circle?, hj, hd]⟩

theorem vertexOf_of_role {v : Vertex α}
    (hr : (c.settle s.command.kind).role s = .vertex j k v) : VertexOf ss j s := by
  have hplays := (c.settle s.command.kind).plays_role s
  rw [hr] at hplays
  cases hplays with
  | point kind usable closed opened entry =>
    rw [c.settle_routing] at opened
    rw [kind] at closed
    exact ⟨by simp [Statement.isVertexLike, kind, usable], (h.opened.routing j).mp opened,
      fun hon => h.panel_eq_none_iff.mp closed hon.2⟩
  | curve kind usable opened entry =>
    rw [c.settle_routing] at opened
    obtain ⟨⟨flag, hf, -⟩, -⟩ := Vertex.of_ofCurve? entry
    exact ⟨by simp [Statement.isVertexLike, kind, usable, hf], (h.opened.routing j).mp opened,
      by simp [kind]⟩

theorem role_of_vertexOf (hv : VertexOf ss j s) :
    ∃ v, (if s.isPoint then Vertex.ofPoint? s c.run.isNone else Vertex.ofCurve? s) = some v ∧
      (c.settle s.command.kind).role s = .vertex j (c.run.getD s.index) v :=
  Context.role_of_isVertexLike hv.1
    (fun hp => h.panel_eq_none_iff.mpr fun hon => hv.2.2 ⟨of_decide_eq_true hp, hon⟩)
    ((h.opened.routing j).mpr hv.2.1)

end Stands

/-! ## Paths -/

omit [Scalar α] in
/-- Every vertex of a routing is on a path that begins with a vertex of it. -/
theorem exists_beginsRun (hn : Numbered ss) (hs : s ∈ ss) (hv : VertexOf ss j s) :
    ∃ f ∈ ss, BeginsRun ss j f ∧ f.index ≤ s.index ∧
      Between ss Statement.isPathPart f.index s.index := by
  induction hi : s.index using Nat.strongRecOn generalizing s with
  | ind i ih =>
    subst hi
    by_cases hb : BeginsRun ss j s
    · exact ⟨s, hs, hb, Nat.le_refl _, between_of_le (Nat.le_refl _)⟩
    · simp only [BeginsRun, hv, true_and, not_forall, not_not] at hb
      obtain ⟨u, hu, huv, hlt, hsame⟩ := hb
      obtain ⟨f, hf, hbegins, hle, hbetween⟩ := ih u.index hlt hu huv rfl
      refine ⟨f, hf, hbegins, Nat.le_trans hle (Nat.le_of_lt hlt),
        hbetween.trans hsame.1 fun t ht he => ?_⟩
      rw [hn.eq_of_index hu ht he]
      exact isPathPart_of_isVertexLike huv.1

omit [Scalar α] in
/-- While a path is open, so is its routing. -/
theorem RunReaches.routing {f : Statement α} (hn : Numbered ss) (hf : f ∈ ss)
    (hr : RunReaches ss f.index i) (hb : BeginsRun ss j f) : RoutingReaches ss j i := by
  obtain ⟨hlike, ⟨hj, ho, hbetween⟩, -⟩ := hb.1
  refine ⟨Nat.lt_trans hj hr.1, ho, hbetween.trans
    (hr.2.2.imp fun _ => not_endsRouting_of_isPathPart) fun t ht he => ?_⟩
  rw [hn.eq_of_index hf ht he]
  exact not_endsRouting_of_isPathPart (isPathPart_of_isVertexLike hlike)

namespace Stands

variable (h : Stands ss s c)
include h

/-- A vertex begins a path when none is open. -/
theorem beginsRun_iff : BeginsRun ss j s ↔ VertexOf ss j s ∧ c.run = none := by
  constructor
  · refine fun hb => ⟨hb.1, ?_⟩
    cases hk : c.run with
    | none => rfl
    | some k =>
      have hreach := (h.opened.run k).mp hk
      obtain ⟨f, hf, rfl, j', hbf⟩ := hreach.2.1
      obtain rfl := (hreach.routing h.numbered hf hbf).unique hb.1.2.1
      exact absurd ⟨hreach.2.2, between_of_le (Nat.le_of_lt hreach.1)⟩ (hb.2 f hf hbf.1 hreach.1)
  · rintro ⟨hv, hk⟩
    refine ⟨hv, fun t ht htv hlt hsame => ?_⟩
    obtain ⟨f, hf, hbegins, hle, hbetween⟩ := exists_beginsRun h.numbered ht htv
    have hreach : RunReaches ss f.index s.index := by
      refine ⟨Nat.lt_of_le_of_lt hle hlt, ⟨f, hf, rfl, j, hbegins⟩,
        hbetween.trans hsame.1 fun u hu he => ?_⟩
      rw [h.numbered.eq_of_index ht hu he]
      exact isPathPart_of_isVertexLike htv.1
    cases hk.symm.trans ((h.opened.run _).mpr hreach)

theorem vertex_of_vertexOf (hv : VertexOf ss j s) :
    ∃ v, Attribution.vertex? ss j s = some v ∧
      (c.settle s.command.kind).role s = .vertex j (c.run.getD s.index) v := by
  obtain ⟨v, hentry, hr⟩ := h.role_of_vertexOf hv
  have hfirst : c.run.isNone = decide (BeginsRun ss j s) :=
    Bool.eq_iff_iff.mpr (by simp [h.beginsRun_iff, hv])
  rw [hfirst] at hentry
  exact ⟨v, hentry, hr⟩

/-- A vertex is on the path that is open, or begins one. -/
theorem run_getD_eq_iff {f : Statement α} (hf : f ∈ ss) (hb : BeginsRun ss j f)
    (hv : VertexOf ss j s) : c.run.getD s.index = f.index ↔ SameRun ss f.index s.index := by
  constructor
  · intro hk
    cases hrun : c.run with
    | none =>
      rw [hrun, Option.getD_none] at hk
      exact hk ▸ ⟨between_of_le (Nat.le_refl _), between_of_le (Nat.le_refl _)⟩
    | some k =>
      obtain rfl : k = f.index := by rw [← hk, hrun]; rfl
      have hreach := (h.opened.run _).mp hrun
      exact ⟨hreach.2.2, between_of_le (Nat.le_of_lt hreach.1)⟩
  · intro hsame
    rcases Nat.lt_trichotomy f.index s.index with hlt | heq | hgt
    · rw [(h.opened.run f.index).mpr ⟨hlt, ⟨f, hf, rfl, j, hb⟩, hsame.1⟩]
      rfl
    · obtain rfl := h.numbered.eq_of_index hf h.mem heq.symm
      rw [(h.beginsRun_iff.mp hb).2]
      rfl
    · exact absurd hsame.symm (hb.2 s h.mem hv hgt)

/-- A statement is on the path that begins with `f` if it is a vertex of the routing and in the same
run. -/
theorem vertex?_role {f : Statement α} (hf : f ∈ ss) (hb : BeginsRun ss j f) :
    ((c.settle s.command.kind).role s).vertex? f.index =
      if VertexOf ss j s ∧ SameRun ss f.index s.index then Attribution.vertex? ss j s
      else none := by
  by_cases hv : VertexOf ss j s
  · obtain ⟨v, hentry, hr⟩ := h.vertex_of_vertexOf hv
    simp only [hr, Role.vertex?, h.run_getD_eq_iff hf hb hv, hv, true_and, hentry]
  · rw [if_neg fun hall => hv hall.1]
    cases hr : (c.settle s.command.kind).role s with
    | vertex j' k v =>
      have hv' := h.vertexOf_of_role hr
      obtain ⟨v', -, hr'⟩ := h.role_of_vertexOf hv'
      obtain rfl : k = c.run.getD s.index := by rw [hr] at hr'; cases hr'; rfl
      refine if_neg fun hk => hv ?_
      cases hrun : c.run with
      | none =>
        rw [hrun, Option.getD_none] at hk
        exact h.numbered.eq_of_index hf h.mem hk ▸ hb.1
      | some k =>
        obtain rfl : k = f.index := by rw [← hk, hrun]; rfl
        have hreach := (h.opened.run _).mp hrun
        exact (hreach.routing h.numbered hf hb).unique hv'.2.1 ▸ hv'
    | _ => rfl

/-- The statements of a routing are its header, its circles and its vertices. -/
theorem isOf_role {t : Statement α} (ht : t ∈ ss) (hk : t.command.kind = .routing) :
    ((c.settle s.command.kind).role s).isOf t.index =
      decide (s.index = t.index ∨ CircleOf ss t.index s ∨ VertexOf ss t.index s) := by
  have hhead : s.index = t.index → s.command.kind = .routing := fun he => by
    rwa [← h.numbered.eq_of_index h.mem ht he.symm]
  refine Bool.eq_iff_iff.mpr ?_
  rw [decide_eq_true_eq]
  constructor
  · intro ho
    cases hr : (c.settle s.command.kind).role s with
    | header w =>
      have hplays := (c.settle s.command.kind).plays_role s
      rw [hr] at ho hplays
      refine .inl ?_
      rw [← hplays.header_index rfl]
      simpa [Role.isOf] using ho
    | circle j d =>
      obtain rfl : j = t.index := by simpa [hr, Role.isOf] using ho
      exact .inr (.inl (h.circleOf_of_role hr))
    | vertex j k v =>
      obtain rfl : j = t.index := by simpa [hr, Role.isOf] using ho
      exact .inr (.inr (h.vertexOf_of_role hr))
    | _ => simp [hr, Role.isOf] at ho
  · rintro (he | hc | hv)
    · have hw := h.header?_role
      rw [if_pos (hhead he)] at hw
      cases hr : (c.settle s.command.kind).role s <;> rw [hr] at hw <;> try cases hw
      exact decide_eq_true he
    · obtain ⟨d, -, hr⟩ := h.role_of_circleOf hc
      simp [hr, Role.isOf]
    · obtain ⟨v, -, hr⟩ := h.role_of_vertexOf hv
      simp [hr, Role.isOf]

/-! ## What has no place -/

theorem hasWall_eq_false_iff : c.setting.hasWall = false ↔
    ∀ t ∈ ss, t.index < s.index → t.command.kind = .wall → t.isUsable = false := by
  rw [h.opened.wall, before, List.any_eq_false]
  simp only [List.mem_filter, decide_eq_true_eq, Bool.and_eq_true, not_and, Bool.not_eq_true,
    and_imp]

omit h in
theorem exists_role?_of_role {r : Role α} (hr : c.role s = r) (hne : ∀ u, r ≠ .unhandled u) :
    ∃ r, c.role? s = some r := by
  cases hrole : c.role? s with
  | some r => exact ⟨r, rfl⟩
  | none => exact absurd (by rw [← hr, Context.role, hrole, ite_self]; rfl) (hne (.ofStatement s))

theorem exists_role?_of_isPlaced (hp : IsPlaced ss s) :
    ∃ r, (c.settle s.command.kind).role? s = some r := by
  obtain ⟨hu, hplace⟩ := hp
  have hframe (hk : s.command.kind ≠ .point) (hk' : s.command.kind ≠ .curve)
      (hc : s.command.kind ≠ .circle)
      (hw : s.command.kind = .wall → c.setting.hasWall = false) :
      ∃ r, c.setting.role? s = some r :=
    Option.isSome_iff_exists.mp (Setting.isSome_role? hu hk hk' hc hw)
  cases hk : s.command.kind with
  | point =>
    simp only [hk] at hplace
    by_cases hon : OnPanel ss s.index
    · have hne := h.panel_eq_none_iff.not.mpr (not_not.mpr hon)
      cases hb : (c.settle .point).boundary? s with
      | none => exact absurd (Context.panel_eq_none_of_boundary? hk hu hb) hne
      | some r => exact ⟨r, by simp [Context.role?, hk, hb]⟩
    · obtain ⟨j, -, hj⟩ := hplace.resolve_left hon
      obtain ⟨v, -, hr⟩ := h.role_of_vertexOf (j := j)
        ⟨by simp [Statement.isVertexLike, hu, hk], hj, fun h => hon h.2⟩
      exact exists_role?_of_role (hk ▸ hr) fun _ he => by cases he
  | curve =>
    simp only [hk] at hplace
    obtain ⟨hlike, j, -, hj⟩ := hplace
    obtain ⟨v, -, hr⟩ := h.role_of_vertexOf (j := j) ⟨hlike, hj, by simp [hk]⟩
    exact exists_role?_of_role (hk ▸ hr) fun _ he => by cases he
  | circle =>
    simp only [hk] at hplace
    obtain ⟨j, -, hj⟩ := hplace
    obtain ⟨d, -, hr⟩ := h.role_of_circleOf ⟨hk, hu, hj⟩
    exact exists_role?_of_role (hk ▸ hr) fun _ he => by cases he
  | wall =>
    simp only [hk] at hplace
    simpa [Context.role?, hk] using hframe (by simp [hk]) (by simp [hk]) (by simp [hk])
      fun _ => h.hasWall_eq_false_iff.mpr hplace
  | _ =>
    simpa [Context.role?, hk] using
      hframe (by simp [hk]) (by simp [hk]) (by simp [hk]) (by simp [hk])

theorem isPlaced_of_unhandled?
    (hn : ((c.settle s.command.kind).role s).unhandled? = none) : IsPlaced ss s := by
  have hplays := (c.settle s.command.kind).plays_role s
  generalize hrole : (c.settle s.command.kind).role s = r at hplays hn
  cases hplays with
  | unhandled => cases hn
  | foreign => cases hn
  | wall kind first entry usable =>
    rw [c.settle_setting] at first
    exact ⟨usable, by simpa [kind] using h.hasWall_eq_false_iff.mp first⟩
  | moduleEnd kind => simp [IsPlaced, Statement.isUsable, kind, CommandKind.minNumbers]
  | header kind => simp [IsPlaced, Statement.isUsable, kind, CommandKind.minNumbers]
  | member kind entry usable =>
    refine ⟨usable, ?_⟩
    cases hk : s.command.kind <;> simp_all [CommandKind.isMember]
  | boundary kind usable opened entry =>
    rw [kind] at opened
    have hon : OnPanel ss s.index := not_not.mp fun hn => by
      cases (h.panel_eq_none_iff.mpr hn).symm.trans opened
    exact ⟨usable, by simp [kind, hon]⟩
  | circle kind usable =>
    have hr := (h.circleOf_of_role hrole).2.2
    exact ⟨usable, by simpa only [kind] using ⟨_, hr.1, hr⟩⟩
  | point kind usable =>
    have hr := (h.vertexOf_of_role hrole).2.1
    exact ⟨usable, by simpa only [kind] using .inr ⟨_, hr.1, hr⟩⟩
  | curve kind usable =>
    obtain ⟨hlike, hr, -⟩ := h.vertexOf_of_role hrole
    exact ⟨usable, by simpa only [kind] using ⟨hlike, _, hr.1, hr⟩⟩
  | moduleBegin kind _ usable => simp [IsPlaced, kind, usable]
  | panel kind usable => simp [IsPlaced, kind, usable]
  | nailRow kind _ usable => simp [IsPlaced, kind, usable]
  | drilling kind _ usable => simp [IsPlaced, kind, usable]

/-- A statement without a place is unhandled. -/
theorem unhandled?_role : ((c.settle s.command.kind).role s).unhandled? =
    if IsPlaced ss s then none else some (Unhandled.ofStatement s) := by
  have hplays := (c.settle s.command.kind).plays_role s
  generalize hrole : (c.settle s.command.kind).role s = r at hplays
  cases hplays with
  | unhandled known none =>
    have hn : ¬IsPlaced ss s := fun hp => by
      obtain ⟨r, hr⟩ := h.exists_role?_of_isPlaced hp
      cases (none hp.1).symm.trans hr
    rw [if_neg hn]
    rfl
  | foreign kind =>
    have hn : ¬IsPlaced ss s := fun hp => by simp [IsPlaced, kind] at hp
    rw [if_neg hn]
    rfl
  | _ =>
    rw [if_pos (h.isPlaced_of_unhandled? (by rw [hrole]; rfl))]
    rfl

end Stands

/-! ## One statement further -/

omit [Scalar α] in
theorem findSome?_before_succ {β : Type} (hn : Numbered ss) (hs : s ∈ ss)
    (f : Statement α → Option β) :
    (before ss (s.index + 1)).reverse.findSome? f =
      (f s).or ((before ss s.index).reverse.findSome? f) := by
  rw [before_succ hn hs, List.reverse_append, List.findSome?_append]
  cases hf : f s <;> simp [hf]

omit [Scalar α] in
theorem any_before_succ (hn : Numbered ss) (hs : s ∈ ss) (f : Statement α → Bool) :
    (before ss (s.index + 1)).any f = ((before ss s.index).any f || f s) := by
  simp [before_succ hn hs]

section After

variable {r : Role α} (hplays : c.Plays s r)
include hplays

/-- A statement of the frame is unhandled only for want of numbers, but for a wall. -/
theorem isUsable_of_unhandled {u : Unhandled α} (hr : r = .unhandled u)
    (hp : s.command.kind ≠ .point) (hk : s.command.kind ≠ .curve) (hc : s.command.kind ≠ .circle)
    (hw : s.command.kind = .wall → c.setting.hasWall = false) : s.isUsable = false := by
  subst hr
  cases hplays with
  | unhandled known none =>
    refine Bool.eq_false_iff.mpr fun hu => ?_
    have hsome := Setting.isSome_role? hu hp hk hc hw
    have hrole : c.role? s = c.setting.role? s := by
      cases h : s.command.kind <;> first | contradiction | simp [Context.role?, h]
    rw [← hrole, none hu] at hsome
    cases hsome

/-- A statement that is no point, curve, circle or wall is unhandled only for want of numbers. -/
theorem isUsable_of_unhandled_of_notMem {u : Unhandled α} (hr : r = .unhandled u)
    (hk : s.command.kind ∉ [CommandKind.point, .curve, .circle, .wall]) : s.isUsable = false := by
  simp only [List.mem_cons, List.not_mem_nil, or_false, not_or] at hk
  obtain ⟨hpoint, hcurve, hcircle, hwall⟩ := hk
  exact isUsable_of_unhandled hplays hr hpoint hcurve hcircle fun h => absurd h hwall

theorem moduleMark?_of_unhandled {u : Unhandled α} (hr : r = .unhandled u) :
    s.moduleMark? = none := by
  unfold Statement.moduleMark?
  split
  · next hk =>
    have hu := isUsable_of_unhandled_of_notMem hplays hr (by simp [hk])
    simp [hu]
  · next hk =>
    have hu := isUsable_of_unhandled_of_notMem hplays hr (by simp [hk])
    simp [Statement.isUsable, hk, CommandKind.minNumbers] at hu
  · rfl

theorem module_after : (c.setting.after r).module = s.moduleMark?.getD c.setting.module := by
  cases hplays with
  | unhandled known none =>
    rw [moduleMark?_of_unhandled (.unhandled known none) rfl]
    rfl
  | member kind =>
    cases hk : s.command.kind <;>
      simp_all [CommandKind.isMember, Setting.after, Statement.moduleMark?]
  | _ => simp_all [Setting.after, Statement.moduleMark?]

theorem layer_after : (c.setting.after r).layer = s.layer?.or c.setting.layer := by
  cases hplays with
  | panel kind usable entry =>
    simp [Setting.after, Statement.layer?, kind, usable,
      SheathingPanel.layer_of_ofStatement? entry]
  | unhandled known none =>
    have hn : s.layer? = Option.none := by
      unfold Statement.layer?
      split
      · next hk =>
        have hu := isUsable_of_unhandled_of_notMem (.unhandled known none) rfl (by simp [hk])
        simp [hu]
      · rfl
    simp [hn, Setting.after]
  | member kind =>
    cases hk : s.command.kind <;>
      simp_all [CommandKind.isMember, Setting.after, Statement.layer?]
  | _ => simp_all [Setting.after, Statement.layer?]

theorem hasWall_after : (c.setting.after r).hasWall =
    (c.setting.hasWall || (s.command.kind = .wall && s.isUsable)) := by
  cases hplays with
  | unhandled known none =>
    have hn : s.command.kind = .wall → c.setting.hasWall = false → s.isUsable = false :=
      fun hk hw => isUsable_of_unhandled (.unhandled known none) rfl (by simp [hk]) (by simp [hk])
        (by simp [hk]) fun _ => hw
    by_cases hk : s.command.kind = .wall
    · cases hw : c.setting.hasWall <;> simp_all [Setting.after]
    · simp [Setting.after, hk]
  | member kind =>
    cases hk : s.command.kind <;> simp_all [CommandKind.isMember, Setting.after]
  | _ => simp_all [Setting.after]

end After

theorem member?_of_not_isMember (hk : s.command.kind.isMember = false) : member? ss s = none := by
  unfold member? Statement.member?
  cases h : s.command.kind <;> simp_all [CommandKind.isMember]

theorem moduleMark?_of_isMember (hk : s.command.kind.isMember = true) : s.moduleMark? = none := by
  unfold Statement.moduleMark?
  cases h : s.command.kind <;> simp_all [CommandKind.isMember]

/-- A statement that may place a member of the frame does so relative to the module at it. -/
theorem role_of_isMember (hm : c.setting.module = moduleAt ss s.index)
    (hk : s.command.kind.isMember = true) :
    c.role s = ((member? ss s).map Role.member).getD (.unhandled (.ofStatement s)) := by
  have hrole : c.role? s = (s.member? c.setting.module).map Role.member := by
    unfold Context.role? Setting.role? Statement.member?
    cases h : s.command.kind <;> simp_all [CommandKind.isMember]
  rw [Context.role, hrole, hm, member?]
  split <;> rfl

theorem member_after (hm : c.setting.module = moduleAt ss s.index) :
    (c.setting.after (c.role s)).member = (memberMark? ss s).getD c.setting.member := by
  cases hk : s.command.kind.isMember with
  | true =>
    rw [role_of_isMember hm hk, memberMark?, moduleMark?_of_isMember hk]
    cases member? ss s <;> rfl
  | false =>
    rw [memberMark?, member?_of_not_isMember hk]
    have hplays := c.plays_role s
    generalize c.role s = r at hplays
    cases hplays with
    | moduleBegin kind entry usable =>
      simp [Statement.moduleMark?, kind, usable, entry, Setting.after]
    | member kind => exact absurd (hk.symm.trans kind) (by decide)
    | unhandled known none =>
      rw [moduleMark?_of_unhandled (.unhandled known none) rfl]
      rfl
    | _ => simp_all [Setting.after, Statement.moduleMark?]

namespace Stands

variable (h : Stands ss s c)
include h

theorem panel_next (p : SheathingPanel α) : (c.next s).panel = some p ↔
    ∃ t ∈ ss, PanelReaches ss t.index (s.index + 1) ∧ header? ss t = some p := by
  have hpanel : (c.next s).panel =
      (header? ss s).or (if s.isPoint then c.panel else none) := by
    rw [← h.panel?_role, ← Context.settle_panel]
    exact Context.panel_after ..
  rw [hpanel]
  constructor
  · intro hp
    cases hs : header? ss s with
    | some q =>
      obtain rfl : q = p := by simpa [hs] using hp
      exact ⟨s, h.mem, (panelReaches_succ h.numbered h.mem).mpr
        (.inl ⟨rfl, isSome_header?_iff.mp (Option.isSome_of_eq_some hs)⟩), hs⟩
    | none =>
      rw [hs, Option.none_or, Option.ite_none_right_eq_some] at hp
      obtain ⟨t, ht, hr, hq⟩ := (h.opened.panel p).mp hp.2
      exact ⟨t, ht, (panelReaches_succ h.numbered h.mem).mpr (.inr ⟨hr, hp.1⟩), hq⟩
  · rintro ⟨t, ht, hr, hp⟩
    rcases (panelReaches_succ h.numbered h.mem).mp hr with ⟨he, -⟩ | ⟨hr, hpt⟩
    · obtain rfl := h.numbered.eq_of_index h.mem ht he
      rw [hp]
      rfl
    · have hs : header? ss s = none := by
        cases hs : header? ss s with
        | none => rfl
        | some q =>
          have := opensPanel_isPoint (isSome_header?_iff.mp (Option.isSome_of_eq_some hs))
          cases hpt.symm.trans this
      rw [hs, Option.none_or, if_pos hpt]
      exact (h.opened.panel p).mpr ⟨t, ht, hr, hp⟩

theorem routing_next (j : Nat) :
    (c.next s).routing = some j ↔ RoutingReaches ss j (s.index + 1) := by
  rw [routingReaches_succ h.numbered h.mem, ← h.opened.routing, ← c.settle_routing s.command.kind]
  have hplays := (c.settle s.command.kind).plays_role s
  unfold Context.next
  dsimp only
  generalize (c.settle s.command.kind).role s = r at hplays ⊢
  cases hplays with
  | header kind =>
    simp [Context.after, Routing.ofHeader, Statement.endsRouting, kind, eq_comm]
  | foreign kind => simp [Context.after, Statement.endsRouting, kind]
  | member kind =>
    cases hk : s.command.kind <;>
      simp_all [CommandKind.isMember, Context.after, Statement.endsRouting]
  | unhandled known none =>
    have hne : s.command.kind ≠ .routing := fun hk => by
      have hu := isUsable_of_unhandled_of_notMem (.unhandled known none) rfl (by simp [hk])
      simp [Statement.isUsable, hk, CommandKind.minNumbers] at hu
    simp [Context.after, Statement.endsRouting, known, hne]
  | _ => simp_all [Context.after, Statement.endsRouting]

theorem run_next (k : Nat) : (c.next s).run = some k ↔ RunReaches ss k (s.index + 1) := by
  rw [runReaches_succ h.numbered h.mem, ← h.opened.run]
  by_cases hv : ∃ j, VertexOf ss j s
  · obtain ⟨j, hv⟩ := hv
    obtain ⟨v, -, hr⟩ := h.role_of_vertexOf hv
    have hpart := isPathPart_of_isVertexLike hv.1
    have hrun : (c.next s).run = some (c.run.getD s.index) := by
      rw [Context.next, hr]
      rfl
    have hbegins : (∃ j, BeginsRun ss j s) ↔ c.run = none := by
      constructor
      · rintro ⟨_, hb⟩
        exact (h.beginsRun_iff.mp hb).2
      · exact fun hn => ⟨j, h.beginsRun_iff.mpr ⟨hv, hn⟩⟩
    rw [hrun, hbegins]
    cases c.run with
    | none => simp only [Option.getD_none, Option.some.injEq, eq_comm, and_true, reduceCtorEq,
        false_and, or_false]
    | some k' => simp [hpart]
  · have hn : ¬∃ j, BeginsRun ss j s := by
      rintro ⟨j, hb⟩
      exact hv ⟨j, hb.1⟩
    have hrun : (c.next s).run = (c.settle s.command.kind).run := by
      cases hr : (c.settle s.command.kind).role s with
      | vertex j k v => exact absurd ⟨j, h.vertexOf_of_role hr⟩ hv
      | _ => rw [Context.next, hr]; rfl
    rw [hrun, Context.settle_run]
    simp [hn, and_comm]

/-- A statement leaves what reaches the next position. -/
theorem next : OpenAt ss (s.index + 1) (c.next s) where
  module := by
    rw [Context.next, Context.after_setting, module_after (Context.plays_role _ s),
      c.settle_setting, h.opened.module, moduleAt, moduleAt,
      findSome?_before_succ h.numbered h.mem]
    cases s.moduleMark? <;> rfl
  member := by
    rw [Context.next, Context.after_setting,
      member_after ((c.settle_setting _).symm ▸ h.opened.module),
      c.settle_setting, h.opened.member, memberAt, memberAt,
      findSome?_before_succ h.numbered h.mem]
    cases memberMark? ss s <;> rfl
  layer := by
    rw [Context.next, Context.after_setting, layer_after (Context.plays_role _ s),
      c.settle_setting, h.opened.layer, layerAt, layerAt, findSome?_before_succ h.numbered h.mem]
  wall := by
    rw [Context.next, Context.after_setting, hasWall_after (Context.plays_role _ s),
      c.settle_setting, h.opened.wall, any_before_succ h.numbered h.mem]
  panel := h.panel_next
  routing := h.routing_next
  run := h.run_next

end Stands

/-! ## A document -/

theorem openAt_start : OpenAt ss 0 (Context.start : Context α) where
  module := by simp [moduleAt, before, Context.start]
  member := by simp [memberAt, before, Context.start]
  layer := by simp [layerAt, before, Context.start]
  wall := by simp [before, Context.start]
  panel p := by simp [PanelReaches, Context.start]
  routing j := by simp [RoutingReaches, Context.start]
  run k := by simp [RunReaches, Context.start]

/-- The statements before one leave what reaches it. -/
theorem stands_afterAll {pre post : List (Statement α)} (hn : Numbered ss)
    (hss : ss = pre ++ s :: post) : Stands ss s (Context.start.afterAll pre) := by
  refine ⟨hn, by simp [hss], ?_⟩
  rw [hn.index_of_append hss]
  induction pre using List.reverseRecOn generalizing s post with
  | nil => exact openAt_start
  | append_singleton pre t ih =>
    have hss' : ss = pre ++ t :: (s :: post) := by rw [hss, List.append_assoc]; rfl
    have ht : t.index = pre.length := hn.index_of_append hss'
    have hstands : Stands ss t (Context.start.afterAll pre) :=
      ⟨hn, by simp [hss], ht ▸ ih hss'⟩
    rw [Context.afterAll_concat, List.length_append, List.length_singleton, ← ht]
    exact hstands.next

/-- Every statement of a document stands in the context that is what reaches it, and has the role
that this context gives it. -/
theorem exists_stands {p : Placed α} (hn : Numbered ss) (hp : p ∈ Context.start.read ss) :
    ∃ c : Context α, Stands ss p.statement c ∧
      p.role = (c.settle p.statement.command.kind).role p.statement := by
  obtain ⟨pre, post, hss, hr⟩ := Context.mem_read hp
  exact ⟨_, stands_afterAll hn hss, hr⟩

end Attribution

end WallPanel
