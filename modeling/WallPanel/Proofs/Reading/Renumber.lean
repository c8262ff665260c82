import WallPanel.Proofs.Reading.Contents

/-!
# Other positions

What a document says does not hang on where its statements stand. With the positions of its
statements replaced, a document has the same roles (`Context.read_renumber`), and as long as
different positions stay different it says the same of the wall, in the new positions
(`Reading.sheathing_renumber`, `Reading.routings_renumber`, `Reading.unhandled_renumber`).
-/

namespace WallPanel

variable {α : Type}

/-! ## Replacing positions -/

section Definitions

variable (f : Nat → Nat)

def Statement.renumber (s : Statement α) : Statement α := { s with index := f s.index }

def FrameMember.renumber (m : FrameMember α) : FrameMember α :=
  { m with statementIndex := f m.statementIndex }

def SheathingPanel.renumber (p : SheathingPanel α) : SheathingPanel α :=
  { p with statementIndex := f p.statementIndex }

def NailRow.renumber (r : NailRow α) : NailRow α :=
  { r with statementIndex := f r.statementIndex }

def Drilling.renumber (d : Drilling α) : Drilling α :=
  { d with target := d.target.map (·.renumber f), statementIndex := f d.statementIndex }

def SourceEntry.renumber (e : SourceEntry α) : SourceEntry α :=
  { e with statementIndex := f e.statementIndex }

def Vertex.renumber (v : Vertex α) : Vertex α := { v with entry := v.entry.renumber f }

def CircleCut.renumber (c : CircleCut α) : CircleCut α :=
  { c with statementIndex := f c.statementIndex }

def PathCut.renumber (p : PathCut α) : PathCut α :=
  { p with source := p.source.map (·.renumber f) }

def RoutingSegment.renumber : RoutingSegment α → RoutingSegment α
  | circle c => circle (c.renumber f)
  | path p => path (p.renumber f)

def Routing.renumber (r : Routing α) : Routing α :=
  { r with
    segments := r.segments.map (·.renumber f)
    statementIndex := f r.statementIndex
    statementIndices := r.statementIndices.map f }

def Unhandled.renumber (u : Unhandled α) : Unhandled α :=
  { u with statementIndex := f u.statementIndex }

def Item.renumber : Item α → Item α
  | circle c => circle (c.map (·.renumber f))
  | run k => run (f k)

def Role.renumber : Role α → Role α
  | wall w => wall w
  | moduleBegin m => moduleBegin m
  | moduleEnd => moduleEnd
  | member m => member (m.renumber f)
  | panel p => panel (p.renumber f)
  | boundary j p => boundary (f j) p
  | header r => header (r.renumber f)
  | circle j c => circle (f j) (c.map (·.renumber f))
  | vertex j k v => vertex (f j) (f k) (v.renumber f)
  | nailRow r => nailRow (r.renumber f)
  | drilling d => drilling (d.renumber f)
  | unhandled u => unhandled (u.renumber f)
  | foreign u => foreign (u.renumber f)

def Placed.renumber (p : Placed α) : Placed α := ⟨p.statement.renumber f, p.role.renumber f⟩

def Setting.renumber (g : Setting α) : Setting α := { g with member := g.member.map (·.renumber f) }

def Context.renumber (c : Context α) : Context α :=
  { setting := c.setting.renumber f
    panel := c.panel.map (·.renumber f)
    routing := c.routing.map f
    run := c.run.map f }

end Definitions

/-! ## Roles -/

section Roles

variable (f : Nat → Nat)

theorem Context.after_renumber (c : Context α) (r : Role α) :
    (c.renumber f).after (r.renumber f) = (c.after r).renumber f := by
  cases r <;> rfl

theorem Context.settle_renumber (c : Context α) (k : CommandKind) :
    (c.renumber f).settle k = (c.settle k).renumber f := by
  cases k <;> rfl

variable [Scalar α]

theorem FrameMember.ofStatement?_renumber (s : Statement α) (k : MemberKind) (o : Orientation)
    (module? : Option (ModuleFrame α)) (role : Option PlateRole) :
    ofStatement? (s.renumber f) k o module? role =
      (ofStatement? s k o module? role).map (·.renumber f) := by
  simp only [ofStatement?, ofNumbers?, Statement.renumber]
  split <;> rfl

theorem SheathingPanel.ofStatement?_renumber (s : Statement α) (side : Side)
    (module? : Option (ModuleFrame α)) :
    ofStatement? (s.renumber f) side module? =
      (ofStatement? s side module?).map (·.renumber f) := by
  have hn : (s.renumber f).numbers = s.numbers := rfl
  have hb : (s.renumber f).body = s.body := rfl
  unfold ofStatement?
  rw [hn, hb]
  dsimp only
  generalize (if (tokenNumbers s.body : List α).length < 6 then s.numbers
    else tokenNumbers s.body) = numbers
  split <;> rfl

theorem Drilling.ofStatement?_renumber (s : Statement α) (module? : Option (ModuleFrame α))
    (member? : Option (FrameMember α)) :
    ofStatement? (s.renumber f) module? (member?.map (·.renumber f)) =
      (ofStatement? s module? member?).map (·.renumber f) := by
  simp only [ofStatement?, Statement.renumber]
  split
  · cases member? <;> rfl
  · rfl

omit [Scalar α] in
theorem NailRow.ofStatement?_renumber (s : Statement α) (layer : Option PanelLayer) :
    ofStatement? (s.renumber f) layer = (ofStatement? s layer).map (·.renumber f) := by
  simp only [ofStatement?, Statement.renumber]
  split <;> rfl

theorem CircleCut.ofStatement?_renumber (s : Statement α) :
    ofStatement? (s.renumber f) = (ofStatement? s).map (·.map (·.renumber f)) := by
  simp only [ofStatement?, Statement.renumber, read, Statement.number?, bind, Except.bind]
  split
  · cases Option.mapM Scalar.roundHalfUp s.numbers[4]? <;> rfl
  · rfl

theorem Vertex.ofPoint?_renumber (s : Statement α) (isFirst : Bool) :
    ofPoint? (s.renumber f) isFirst = (ofPoint? s isFirst).map (·.renumber f) := by
  simp only [ofPoint?, Statement.renumber, Statement.number?]
  cases s.numbers[0]? <;> cases s.numbers[1]? <;> rfl

theorem Vertex.ofCurve?_renumber (s : Statement α) :
    ofCurve? (s.renumber f) = (ofCurve? s).map (·.renumber f) := by
  simp only [ofCurve?, Statement.renumber, Statement.number?]
  cases (tokens s.body)[3]? <;> cases s.numbers[0]? <;> cases s.numbers[1]? <;>
    cases s.numbers[2]? <;> rfl

theorem Setting.role?_renumber (g : Setting α) (s : Statement α) :
    (g.renumber f).role? (s.renumber f) = (g.role? s).map (·.renumber f) := by
  have hk : (s.renumber f).command.kind = s.command.kind := rfl
  have hn : (s.renumber f).numbers = s.numbers := rfl
  unfold Setting.role?
  rw [hk, hn]
  cases s.command.kind with
  | wall =>
    cases hw : g.hasWall <;> cases WallSize.ofNumbers? s.numbers <;>
      simp [Setting.renumber, hw, Role.renumber]
  | moduleBegin => cases ModuleFrame.ofNumbers? s.numbers <;> rfl
  | drilling =>
    simp only [Setting.renumber, Drilling.ofStatement?_renumber, Option.map_map]
    rfl
  | nailRow =>
    simp only [Setting.renumber, NailRow.ofStatement?_renumber, Option.map_map]
    rfl
  | panel side =>
    simp only [Setting.renumber, SheathingPanel.ofStatement?_renumber, Option.map_map]
    rfl
  | stud | blocking | topPlate | bottomPlate =>
    simp only [Setting.renumber, FrameMember.ofStatement?_renumber, Option.map_map]
    rfl
  | _ => rfl

theorem Context.role?_renumber (c : Context α) (s : Statement α) :
    (c.renumber f).role? (s.renumber f) = (c.role? s).map (·.renumber f) := by
  have hk : (s.renumber f).command.kind = s.command.kind := rfl
  have hvertex (v? : Option (Vertex α)) :
      (c.renumber f).vertex? (s.renumber f) (v?.map (·.renumber f)) =
        (c.vertex? s v?).map (·.renumber f) := by
    simp only [vertex?, Context.renumber]
    cases c.routing <;> cases v? <;> cases c.run <;> rfl
  have hboundary : (c.renumber f).boundary? (s.renumber f) =
      (c.boundary? s).map (·.renumber f) := by
    simp only [boundary?, Context.renumber]
    cases c.panel with
    | none => rfl
    | some q =>
      have hq : PanelPoint.ofNumbers? s.numbers (q.renumber f) c.setting.module =
        PanelPoint.ofNumbers? s.numbers q c.setting.module := rfl
      simp only [Option.map_some, Option.bind_eq_bind, Option.bind_some, Statement.renumber,
        Setting.renumber, hq]
      cases PanelPoint.ofNumbers? s.numbers q c.setting.module <;> rfl
  unfold Context.role?
  rw [hk]
  cases s.command.kind with
  | circle =>
    simp only [circle?, Context.renumber, CircleCut.ofStatement?_renumber]
    cases c.routing <;> cases CircleCut.ofStatement? s <;> rfl
  | point =>
    have hrun : (c.renumber f).run.isNone = c.run.isNone := by simp [Context.renumber]
    simp only [hrun, Vertex.ofPoint?_renumber, hvertex, hboundary]
    cases c.boundary? s <;> rfl
  | curve => simp only [Vertex.ofCurve?_renumber, hvertex]
  | _ => exact Setting.role?_renumber f c.setting s

theorem Context.role_renumber (c : Context α) (s : Statement α) :
    (c.renumber f).role (s.renumber f) = (c.role s).renumber f := by
  have hu : (s.renumber f).isUsable = s.isUsable := rfl
  unfold Context.role
  rw [hu, role?_renumber]
  split
  · cases c.role? s <;> rfl
  · rfl

/-- The roles of a document do not hang on the positions of its statements. -/
theorem Context.read_renumber (c : Context α) (ss : List (Statement α)) :
    (c.renumber f).read (ss.map (·.renumber f)) = (c.read ss).map (·.renumber f) := by
  induction ss generalizing c with
  | nil => rfl
  | cons s ss ih =>
    have hk : (s.renumber f).command.kind = s.command.kind := rfl
    simp only [List.map_cons, read, next, hk, settle_renumber, role_renumber, after_renumber, ih]
    rfl

end Roles

/-! ## Contents -/

namespace Reading

variable {f : Nat → Nat} {es : List (Placed α)}

/-- Positions that roles name stay different when they are replaced. -/
def Distinct (f : Nat → Nat) (es : List (Placed α)) : Prop :=
  ∀ p ∈ es, ∀ i ∈ p.role.keys, ∀ q ∈ es, ∀ j ∈ q.role.keys, f i = f j → i = j

/-- Whether a role of a reading names a position. -/
def Names (es : List (Placed α)) (j : Nat) : Prop := ∃ p ∈ es, j ∈ p.role.keys

section Projections

variable (r : Role α)

theorem panel?_renumber : (r.renumber f).panel? = r.panel?.map (·.renumber f) := by
  cases r <;> rfl

theorem header?_renumber : (r.renumber f).header? = r.header?.map (·.renumber f) := by
  cases r <;> rfl

theorem unhandled?_renumber : (r.renumber f).unhandled? = r.unhandled?.map (·.renumber f) := by
  cases r <;> rfl

theorem nailRow?_renumber : (r.renumber f).nailRow? = r.nailRow?.map (·.renumber f) := by
  cases r <;> rfl

theorem drilling?_renumber : (r.renumber f).drilling? = r.drilling?.map (·.renumber f) := by
  cases r <;> rfl

theorem member?_renumber (k : MemberKind) :
    (r.renumber f).member? k = (r.member? k).map (·.renumber f) := by
  cases r with
  | member m =>
    simp only [Role.renumber, Role.member?, FrameMember.renumber]
    split <;> rfl
  | _ => rfl

end Projections

theorem headers_renumber :
    headers (es.map (·.renumber f)) = (headers es).map (·.renumber f) := by
  simp only [headers, List.filterMap_map, List.map_filterMap]
  exact List.filterMap_congr fun p _ => header?_renumber p.role

section Distinct

variable (hd : Distinct f es) {j : Nat} (hj : Names es j)

include hd hj

theorem eq_iff_of_names {p : Placed α} (hp : p ∈ es) {i : Nat} (hi : i ∈ p.role.keys) :
    f i = f j ↔ i = j := by
  obtain ⟨q, hq, hjq⟩ := hj
  exact ⟨hd p hp i hi q hq j hjq, congrArg f⟩

theorem points_renumber : points (es.map (·.renumber f)) (f j) = points es j := by
  simp only [points, List.filterMap_map]
  refine List.filterMap_congr fun p hp => ?_
  have hk {i : Nat} := eq_iff_of_names hd hj hp (i := i)
  simp only [Function.comp_apply, Placed.renumber]
  cases hr : p.role with
  | boundary i q =>
    simp [Role.renumber, Role.point?, hk (i := i) (by simp [hr, Role.keys])]
  | _ => rfl

theorem vertices_renumber :
    vertices (es.map (·.renumber f)) (f j) = (vertices es j).map (·.renumber f) := by
  simp only [vertices, List.filterMap_map, List.map_filterMap]
  refine List.filterMap_congr fun p hp => ?_
  have hk {i : Nat} := eq_iff_of_names hd hj hp (i := i)
  simp only [Function.comp_apply, Placed.renumber]
  cases hr : p.role with
  | vertex i k v =>
    have := hk (i := k) (by simp [hr, Role.keys])
    by_cases hkj : k = j <;> simp [Role.renumber, Role.vertex?, this, hkj]
  | _ => rfl

theorem indices_renumber :
    indices (es.map (·.renumber f)) (f j) = (indices es j).map f := by
  have hof : es.filter ((fun p : Placed α => p.role.isOf (f j)) ∘ (·.renumber f)) =
      es.filter (·.role.isOf j) := by
    refine List.filter_congr fun p hp => ?_
    have hk {i : Nat} := eq_iff_of_names hd hj hp (i := i)
    simp only [Function.comp_apply, Placed.renumber]
    cases hr : p.role with
    | header r =>
      simp [Role.renumber, Role.isOf, Routing.renumber, hk (i := r.statementIndex) (by simp [hr, Role.keys])]
    | circle i c => simp [Role.renumber, Role.isOf, hk (i := i) (by simp [hr, Role.keys])]
    | vertex i k v => simp [Role.renumber, Role.isOf, hk (i := i) (by simp [hr, Role.keys])]
    | _ => rfl
  rw [indices, List.filter_map, hof]
  simp [indices, Placed.renumber, Statement.renumber]

theorem items_renumber :
    items (es.map (·.renumber f)) (f j) = (items es j).map (·.renumber f) := by
  simp only [items, List.filterMap_map, List.map_filterMap]
  refine List.filterMap_congr fun p hp => ?_
  have hk {i : Nat} := eq_iff_of_names hd hj hp (i := i)
  simp only [Function.comp_apply, Placed.renumber]
  cases hr : p.role with
  | circle i c =>
    have := hk (i := i) (by simp [hr, Role.keys])
    by_cases hij : i = j <;> simp [Role.renumber, Role.item?, this, hij, Item.renumber]
  | vertex i k v =>
    have hij := hk (i := i) (by simp [hr, Role.keys])
    have hvk : f v.entry.statementIndex = f k ↔ v.entry.statementIndex = k :=
      eq_iff_of_names hd ⟨p, hp, by simp [hr, Role.keys]⟩ hp (by simp [hr, Role.keys])
    have hv : (v.renumber f).entry.statementIndex = f v.entry.statementIndex := rfl
    by_cases h : i = j ∧ v.entry.statementIndex = k
    · simp [Role.renumber, Role.item?, hv, h, Item.renumber]
    · simp [Role.renumber, Role.item?, hij, hv, hvk, h]
  | _ => rfl

end Distinct

theorem names_of_mem_items {j k : Nat} (h : .run k ∈ items es j) : Names es k := by
  obtain ⟨p, hp, hr⟩ := List.mem_filterMap.mp h
  refine ⟨p, hp, ?_⟩
  cases hrole : p.role <;> simp_all [Role.item?, Role.keys]

theorem names_of_mem_panels {q : SheathingPanel α} (h : q ∈ panels es) :
    Names es q.statementIndex := by
  obtain ⟨p, hp, hr⟩ := List.mem_filterMap.mp h
  refine ⟨p, hp, ?_⟩
  cases hrole : p.role <;> simp_all [Role.panel?, Role.keys]

theorem names_of_mem_headers {r : Routing α} (h : r ∈ headers es) : Names es r.statementIndex := by
  obtain ⟨p, hp, hr⟩ := List.mem_filterMap.mp h
  refine ⟨p, hp, ?_⟩
  cases hrole : p.role <;> simp_all [Role.header?, Role.keys]

theorem firsts_renumber (hd : Distinct f es) :
    firsts (es.map (·.renumber f)) = (firsts es).map (·.renumber f) := by
  simp only [firsts, List.filterMap_map, List.map_filterMap]
  refine List.filterMap_congr fun p hp => ?_
  simp only [Function.comp_apply, Placed.renumber]
  cases hr : p.role with
  | vertex i k v =>
    have hvk : f v.entry.statementIndex = f k ↔ v.entry.statementIndex = k :=
      eq_iff_of_names hd ⟨p, hp, by simp [hr, Role.keys]⟩ hp (by simp [hr, Role.keys])
    have hv : (v.renumber f).entry.statementIndex = f v.entry.statementIndex := rfl
    by_cases h : v.entry.statementIndex = k <;> simp [Role.renumber, Role.first?, hv, hvk, h]
  | _ => rfl

theorem names_of_mem_firsts {v : Vertex α} (h : v ∈ firsts es) :
    Names es v.entry.statementIndex := by
  obtain ⟨p, hp, hr⟩ := List.mem_filterMap.mp h
  refine ⟨p, hp, ?_⟩
  cases hrole : p.role <;> simp_all [Role.first?, Role.keys]

theorem sheathing_renumber (hd : Distinct f es) :
    sheathing (es.map (·.renumber f)) = (sheathing es).map (·.renumber f) := by
  have hp : panels (es.map (·.renumber f)) = (panels es).map (·.renumber f) := by
    simp only [panels, List.filterMap_map, List.map_filterMap]
    exact List.filterMap_congr fun p _ => panel?_renumber p.role
  rw [sheathing, hp, List.map_map, sheathing, List.map_map]
  refine List.map_congr_left fun q hq => ?_
  have hn := names_of_mem_panels hq
  have hi : (q.renumber f).statementIndex = f q.statementIndex := rfl
  simp only [Function.comp_apply, hi, points_renumber hd hn]
  rfl

variable [Scalar α]

theorem cut_renumber {r r' : VertexRun α} (h : r'.toList = r.toList.map (·.renumber f))
    (kind : PathKind) (points : List (Point α)) (t : Trace α) :
    r'.cut kind points t = (r.cut kind points t).map (·.renumber f) := by
  simp only [VertexRun.cut, h, List.filterMap_map, List.map_map, Function.comp_def,
    Vertex.renumber, bind, Except.bind]
  cases Option.mapM Scalar.roundHalfUp (Scalar.mean? (r.toList.filterMap (·.offset))) with
  | error => rfl
  | ok code => simp [pure, Except.pure, Except.map, PathCut.renumber, Function.comp_def]

/-- The cut of a path does not hang on the positions of its vertices. -/
theorem cut?_renumber {r r' : VertexRun α} (h : r'.toList = r.toList.map (·.renumber f)) :
    r'.cut? = r.cut?.map (·.map (·.renumber f)) := by
  have htrace : r'.trace = r.trace := by
    rw [VertexRun.trace, h, List.map_map]
    rfl
  simp only [VertexRun.cut?, htrace, cut_renumber h]
  split
  · cases PathKind.of? (closePath (dedupe r.trace.samples)).1.length
      (closePath (dedupe r.trace.samples)).2 <;> rfl
  · rfl

theorem cutOf?_renumber (hd : Distinct f es) {k : Nat} (hk : Names es k) :
    cutOf? (es.map (·.renumber f)) (f k) = (cutOf? es k).map (·.map (·.renumber f)) := by
  unfold cutOf?
  rw [vertices_renumber hd hk]
  cases vertices es k with
  | nil => rfl
  | cons v vs => exact cut?_renumber (r := ⟨v, vs⟩) rfl

theorem cuts_renumber (hd : Distinct f es) {j : Nat} (hj : Names es j) :
    cuts (es.map (·.renumber f)) none (f j) =
      (cuts es none j).map (·.map (·.renumber f)) := by
  rw [cuts, items_renumber hd hj, List.filterMap_map, cuts, List.map_filterMap]
  refine List.filterMap_congr fun i hi => ?_
  cases i with
  | circle c => cases c <;> rfl
  | run k =>
    simp only [Function.comp_apply, Item.renumber, itemCut?, cutOf?_renumber hd (names_of_mem_items hi)]
    rcases cutOf? es k with _ | _ | _ <;> rfl

theorem filled_renumber (hd : Distinct f es) {r : Routing α} (hr : Names es r.statementIndex) :
    filled (es.map (·.renumber f)) none (r.renumber f) = (filled es none r).renumber f := by
  have hi : (r.renumber f).statementIndex = f r.statementIndex := rfl
  simp only [filled, hi, cuts_renumber hd hr, indices_renumber hd hr]
  simp only [Routing.renumber, List.filterMap_map, List.map_filterMap]
  congr 1
  refine List.filterMap_congr fun c _ => ?_
  cases c <;> rfl

theorem routings_renumber (hd : Distinct f es) :
    routings (es.map (·.renumber f)) none = (routings es none).map (·.renumber f) := by
  rw [routings, headers_renumber, List.filterMap_map, routings, List.map_filterMap]
  refine List.filterMap_congr fun r hr => ?_
  have hn := names_of_mem_headers hr
  have hi : (r.renumber f).statementIndex = f r.statementIndex := rfl
  simp only [Function.comp_apply, emitted?, hi, cuts_renumber hd hn, filled_renumber hd hn]
  simp only [reduceCtorEq, false_or, List.map_eq_nil_iff]
  split <;> rfl

theorem unhandled_renumber (hd : Distinct f es) :
    unhandled (es.map (·.renumber f)) none none =
      (unhandled es none none).map (·.renumber f) := by
  have hshort : (firsts (es.map (·.renumber f))).filterMap
        (shortRun? (es.map (·.renumber f)) none) =
      ((firsts es).filterMap (shortRun? es none)).map (·.renumber f) := by
    rw [firsts_renumber hd, List.filterMap_map, List.map_filterMap]
    refine List.filterMap_congr fun v hv => ?_
    have hi : (v.renumber f).entry.statementIndex = f v.entry.statementIndex := rfl
    simp only [Function.comp_apply, shortRun?, hi, cutOf?_renumber hd (names_of_mem_firsts hv),
      reduceCtorEq, false_or, Option.isSome_map]
    split <;> rfl
  have hempty : (headers (es.map (·.renumber f))).filterMap
        (emptyHeader? (es.map (·.renumber f)) none) =
      ((headers es).filterMap (emptyHeader? es none)).map (·.renumber f) := by
    rw [headers_renumber, List.filterMap_map, List.map_filterMap]
    refine List.filterMap_congr fun r hr => ?_
    have hi : (r.renumber f).statementIndex = f r.statementIndex := rfl
    simp only [Function.comp_apply, emptyHeader?, hi, cuts_renumber hd (names_of_mem_headers hr),
      reduceCtorEq, false_or, ne_eq, List.map_eq_nil_iff]
    split <;> rfl
  have hown : (es.map (·.renumber f)).filterMap (·.role.unhandled?) =
      (es.filterMap (·.role.unhandled?)).map (·.renumber f) := by
    rw [List.filterMap_map, List.map_filterMap]
    exact List.filterMap_congr fun p _ => unhandled?_renumber p.role
  rw [unhandled, hown, hshort, hempty, unhandled, List.map_append, List.map_append]

end Reading

end WallPanel
