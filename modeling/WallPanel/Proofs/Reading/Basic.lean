import WallPanel.Model.Role

/-!
# Reading a document by contexts

A document is read without building anything: each statement gets its role in
the context that the roles before it leave (`Context.next`), and the reading of
the document is the list of its statements with their roles (`Context.read`).

`Context.Plays` lists the roles that a statement can have, each with all that is
asked for it, and `Context.plays_role` says that it has one of them.

Reading can fail: `bind_eq_ok_iff` and `bind_eq_error_iff` say what comes of two
steps that can.
-/

namespace WallPanel

variable {α : Type}

/-! ## Two steps -/

section Results

variable {ε β γ : Type} {x : Except ε β} {f : β → Except ε γ}

theorem bind_eq_ok_iff {z : γ} : x >>= f = .ok z ↔ ∃ y, x = .ok y ∧ f y = .ok z := by
  cases x <;> simp [bind, Except.bind]

theorem bind_eq_error_iff {e : ε} :
    x >>= f = .error e ↔ x = .error e ∨ ∃ y, x = .ok y ∧ f y = .error e := by
  cases x <;> simp [bind, Except.bind]

end Results

/-! ## Contexts -/

/-- Whether a command places a member of the frame. -/
def CommandKind.isMember : CommandKind → Bool
  | stud | blocking | topPlate | bottomPlate => true
  | _ => false

/-- What a role leaves for the statements after it. -/
def Setting.after (g : Setting α) : Role α → Setting α
  | .wall _ => { g with hasWall := true }
  | .moduleBegin m => { g with module := some m, member := none }
  | .moduleEnd => { g with module := none, member := none }
  | .member m => { g with member := some m }
  | .panel p => { g with layer := some p.layer }
  | _ => g

/-- A statement of a document with its role. -/
structure Placed (α : Type) where
  statement : Statement α
  role : Role α

namespace Context

/-- What a role leaves open. -/
def after (c : Context α) (r : Role α) : Context α :=
  let c := { c with setting := c.setting.after r }
  match r with
  | .panel p => { c with panel := some p }
  | .header r => { c with routing := some r.statementIndex }
  | .vertex _ run _ => { c with run := some run }
  | .foreign _ => { c with routing := none }
  | _ => c

theorem after_setting (c : Context α) (r : Role α) :
    (c.after r).setting = c.setting.after r := by
  cases r <;> rfl

@[simp] theorem settle_setting (c : Context α) (k : CommandKind) :
    (c.settle k).setting = c.setting := by
  cases k <;> rfl

@[simp] theorem settle_routing (c : Context α) (k : CommandKind) :
    (c.settle k).routing = c.routing := by
  cases k <;> rfl

theorem settle_panel_of_ne (c : Context α) {k : CommandKind} (h : k ≠ .point) :
    (c.settle k).panel = none := by
  cases k <;> first | rfl | exact absurd rfl h

theorem settle_run_of_ne (c : Context α) {k : CommandKind} (h : k ≠ .point) (h' : k ≠ .curve) :
    (c.settle k).run = none := by
  cases k <;> first | rfl | exact absurd rfl h | exact absurd rfl h'

variable [Scalar α]

/-- The context after a statement. -/
def next (c : Context α) (s : Statement α) : Context α :=
  let c := c.settle s.command.kind
  c.after (c.role s)

/-- The statements of a document from a context on, with their roles. -/
def read (c : Context α) : List (Statement α) → List (Placed α)
  | [] => []
  | s :: ss => ⟨s, (c.settle s.command.kind).role s⟩ :: (c.next s).read ss

/-- The context after some statements. -/
def afterAll (c : Context α) (ss : List (Statement α)) : Context α :=
  ss.foldl next c

theorem read_append (c : Context α) (ss ts : List (Statement α)) :
    c.read (ss ++ ts) = c.read ss ++ (c.afterAll ss).read ts := by
  induction ss generalizing c with
  | nil => rfl
  | cons s ss ih => simp only [List.cons_append, read, ih, afterAll, List.foldl_cons]

theorem statement_read (c : Context α) (ss : List (Statement α)) :
    (c.read ss).map (·.statement) = ss := by
  induction ss generalizing c with
  | nil => rfl
  | cons s ss ih => simp only [read, List.map_cons, ih]

/-! ## The roles that a statement can have -/

/-- The roles that a statement can have in a context, with all that is asked
for each. -/
inductive Plays (c : Context α) (s : Statement α) : Role α → Prop
  | wall {w : WallSize α} (kind : s.command.kind = .wall) (first : c.setting.hasWall = false)
      (entry : WallSize.ofNumbers? s.numbers = some w) (usable : s.isUsable = true) : Plays c s (.wall w)
  | moduleBegin {m : ModuleFrame α} (kind : s.command.kind = .moduleBegin)
      (entry : ModuleFrame.ofNumbers? s.numbers = some m) (usable : s.isUsable = true) :
      Plays c s (.moduleBegin m)
  | moduleEnd (kind : s.command.kind = .moduleEnd) : Plays c s .moduleEnd
  | member {m : FrameMember α} {k : MemberKind} {o : Orientation} {p : Option PlateRole}
      {module? : Option (ModuleFrame α)} (kind : s.command.kind.isMember = true)
      (entry : FrameMember.ofStatement? s k o module? p = some m) (usable : s.isUsable = true) :
      Plays c s (.member m)
  | panel {p : SheathingPanel α} {side : Side} (kind : s.command.kind = .panel side)
      (usable : s.isUsable = true)
      (entry : SheathingPanel.ofStatement? s side c.setting.module = some p) : Plays c s (.panel p)
  | boundary {q : SheathingPanel α} {p : PanelPoint α} (kind : s.command.kind = .point)
      (usable : s.isUsable = true) (opened : c.panel = some q)
      (entry : PanelPoint.ofNumbers? s.numbers q c.setting.module = some p) :
      Plays c s (.boundary q.statementIndex p)
  | header (kind : s.command.kind = .routing) :
      Plays c s (.header (Routing.ofHeader s c.setting.layer))
  | circle {j : Nat} {d : Except NoInteger (CircleCut α)} (kind : s.command.kind = .circle)
      (usable : s.isUsable = true) (opened : c.routing = some j)
      (entry : CircleCut.ofStatement? s = some d) : Plays c s (.circle j d)
  | point {j : Nat} {v : Vertex α} (kind : s.command.kind = .point) (usable : s.isUsable = true)
      (closed : c.panel = none) (opened : c.routing = some j)
      (entry : Vertex.ofPoint? s c.run.isNone = some v) :
      Plays c s (.vertex j (c.run.getD s.index) v)
  | curve {j : Nat} {v : Vertex α} (kind : s.command.kind = .curve) (usable : s.isUsable = true)
      (opened : c.routing = some j) (entry : Vertex.ofCurve? s = some v) :
      Plays c s (.vertex j (c.run.getD s.index) v)
  | nailRow {r : NailRow α} (kind : s.command.kind = .nailRow)
      (entry : NailRow.ofStatement? s c.setting.layer = some r) (usable : s.isUsable = true) :
      Plays c s (.nailRow r)
  | drilling {d : Drilling α} (kind : s.command.kind = .drilling)
      (entry : Drilling.ofStatement? s c.setting.module c.setting.member = some d)
      (usable : s.isUsable = true) : Plays c s (.drilling d)
  | unhandled (known : s.command.kind ≠ .unknown)
      (none : s.isUsable = true → c.role? s = none) : Plays c s (.unhandled (.ofStatement s))
  | foreign (kind : s.command.kind = .unknown) : Plays c s (.foreign (.ofStatement s))

theorem plays_circle? {c : Context α} {s : Statement α} {r : Role α}
    (hk : s.command.kind = .circle) (hu : s.isUsable = true) (h : c.circle? s = some r) :
    Plays c s r := by
  obtain ⟨j, hj, d, hd, rfl⟩ : ∃ j, c.routing = some j ∧ ∃ d, CircleCut.ofStatement? s = some d ∧
      Role.circle j d = r := by
    simpa [circle?, Option.bind_eq_some_iff] using h
  exact .circle hk hu hj hd

theorem plays_boundary? {c : Context α} {s : Statement α} {r : Role α}
    (hk : s.command.kind = .point) (hu : s.isUsable = true) (h : c.boundary? s = some r) :
    Plays c s r := by
  obtain ⟨q, hq, p, hp, rfl⟩ : ∃ q, c.panel = some q ∧ ∃ p,
      PanelPoint.ofNumbers? s.numbers q c.setting.module = some p ∧
      Role.boundary q.statementIndex p = r := by
    simpa [boundary?, Option.bind_eq_some_iff] using h
  exact .boundary hk hu hq hp

omit [Scalar α] in
theorem vertex?_eq_some {c : Context α} {s : Statement α} {v? : Option (Vertex α)} {r : Role α}
    (h : c.vertex? s v? = some r) :
    ∃ j v, c.routing = some j ∧ v? = some v ∧ r = .vertex j (c.run.getD s.index) v := by
  obtain ⟨j, hj, v, hv, rfl⟩ : ∃ j, c.routing = some j ∧ ∃ v, v? = some v ∧
      Role.vertex j (c.run.getD s.index) v = r := by
    simpa [vertex?, Option.bind_eq_some_iff] using h
  exact ⟨j, v, hj, hv, rfl⟩

/-- A usable point is on the boundary of the panel that is open. -/
theorem panel_eq_none_of_boundary? {c : Context α} {s : Statement α}
    (hk : s.command.kind = .point) (hu : s.isUsable = true) (h : c.boundary? s = none) :
    c.panel = none := by
  cases hq : c.panel with
  | none => rfl
  | some q =>
    simp only [Statement.isUsable, hk, CommandKind.minNumbers, decide_eq_true_eq] at hu
    match hn : s.numbers with
    | [] | [_] => simp [hn] at hu
    | x :: y :: rest => simp [boundary?, hq, hn, PanelPoint.ofNumbers?] at h

theorem plays_role? {c : Context α} {s : Statement α} {r : Role α} (hu : s.isUsable = true)
    (h : c.role? s = some r) : Plays c s r := by
  cases hk : s.command.kind <;> simp only [role?, hk, Setting.role?] at h
  case circle => exact plays_circle? hk hu h
  case point =>
    cases hb : c.boundary? s with
    | some b =>
      obtain rfl : b = r := by simpa [hb] using h
      exact plays_boundary? hk hu hb
    | none =>
      obtain ⟨j, v, hj, hv, rfl⟩ := vertex?_eq_some (by simpa [hb] using h)
      exact .point hk hu (panel_eq_none_of_boundary? hk hu hb) hj hv
  case curve =>
    obtain ⟨j, v, hj, hv, rfl⟩ := vertex?_eq_some h
    exact .curve hk hu hj hv
  case wall =>
    split at h
    · cases h
    · rename_i hf
      obtain ⟨w, hw, rfl⟩ := Option.map_eq_some_iff.mp h
      exact .wall hk (Bool.eq_false_iff.mpr hf) hw hu
  case moduleEnd => cases h; exact .moduleEnd hk
  case routing => cases h; exact .header hk
  case unknown => cases h; exact .foreign hk
  case moduleBegin =>
    obtain ⟨m, hm, rfl⟩ := Option.map_eq_some_iff.mp h
    exact .moduleBegin hk hm hu
  case panel =>
    obtain ⟨p, hp, rfl⟩ := Option.map_eq_some_iff.mp h
    exact .panel hk hu hp
  case nailRow =>
    obtain ⟨n, hn, rfl⟩ := Option.map_eq_some_iff.mp h
    exact .nailRow hk hn hu
  case drilling =>
    obtain ⟨d, hd, rfl⟩ := Option.map_eq_some_iff.mp h
    exact .drilling hk hd hu
  all_goals
    obtain ⟨m, hm, rfl⟩ := Option.map_eq_some_iff.mp h
    exact .member (by rw [hk]; rfl) hm hu

/-- A statement has one of the roles that it can have. -/
theorem plays_role (c : Context α) (s : Statement α) : Plays c s (c.role s) := by
  unfold role
  by_cases hu : s.isUsable = true
  · simp only [hu, ↓reduceIte]
    cases hr : c.role? s with
    | none =>
      refine .unhandled (fun hk => ?_) fun _ => hr
      simp [role?, Setting.role?, hk] at hr
    | some r => exact plays_role? hu hr
  · simp only [hu, Bool.false_eq_true, ↓reduceIte, Option.getD_none]
    refine .unhandled (fun hk => ?_) fun h => absurd h hu
    simp [Statement.isUsable, hk, CommandKind.minNumbers] at hu

end Context

end WallPanel
