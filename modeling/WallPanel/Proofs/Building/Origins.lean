import WallPanel.Proofs.Attribution.Inheritance
import WallPanel.Proofs.Reading.Origins

/-!
# A module with another origin

If the origin of one module is moved in the wall plane then what is placed while that module is open
is moved with it, and nothing else changes but the bounds (`Builder.pass_moved`). The open module,
the last member and the open panel carry the origin on to later statements, each in its own way.
While the module is open all three are moved, and before it begins and once it has ended none is
moved (`Builder.Rebases`). That is kept from one statement to the next (`Builder.Rebases.feed`), and
so along all of them (`Builder.Rebases.foldlM`). A text is built by such a pass over what its
statements say (`Builder.buildAll_eq_pass`).
-/

namespace WallPanel

open Attribution

variable {α : Type} [Scalar α]

/-! ## Modules -/

namespace Statement

variable {s s' : Statement α} {dx dy : α}

/-- Two statements begin the same module, but for its origin in the wall plane: that of the second
is moved. -/
structure MovesModule (s s' : Statement α) (dx dy : α) : Prop where
  index : s'.index = s.index
  command : s'.command = s.command
  kind : s.command.kind = .moduleBegin
  numbers : ∃ width height thickness x y rest,
    s.numbers = width :: height :: thickness :: x :: y :: rest ∧
      s'.numbers = width :: height :: thickness :: (x + dx) :: (y + dy) :: rest

theorem MovesModule.exists_module (h : s.MovesModule s' dx dy) :
    ∃ f, s.module? = some f ∧ s'.module? = some (f.moved dx dy) := by
  obtain ⟨width, height, thickness, x, y, rest, hs, hs'⟩ := h.numbers
  refine ⟨⟨width, height, thickness, x, y, Scalar.orZero rest[0]?⟩, ?_, ?_⟩
  · simp only [module?, h.kind, isUsable, hs, CommandKind.minNumbers, List.length_cons]
    rw [if_pos (by simp)]
    rfl
  · simp only [module?, h.command, h.kind, isUsable, hs', CommandKind.minNumbers, List.length_cons]
    rw [if_pos (by simp)]
    rfl

end Statement

/-- A statement that begins a module does so in any context. -/
theorem Context.role_of_module? {c : Context α} {s : Statement α} {f : ModuleFrame α}
    (h : s.module? = some f) : c.role s = .moduleBegin f := by
  unfold Statement.module? at h
  split at h
  · next hk =>
    split at h
    · next hu => simp [role, hu, role?, hk, Setting.role?, h]
    · cases h
  · cases h

/-! ## Two results -/

theorem exists_of_bind_eq_ok {ε β γ : Type} {x : Except ε β} {f : β → Except ε γ} {c : γ}
    (h : x >>= f = .ok c) : ∃ b, x = .ok b ∧ f b = .ok c := by
  cases x with
  | error e => cases h
  | ok b => exact ⟨b, rfl, h⟩

/-- Two computations end alike: with results that are related, or with the same error. -/
inductive Agrees {ε β γ : Type} (R : β → γ → Prop) : Except ε β → Except ε γ → Prop
  | ok {b : β} {c : γ} (h : R b c) : Agrees R (.ok b) (.ok c)
  | error (e : ε) : Agrees R (.error e) (.error e)

namespace Agrees

variable {ε β γ β' γ' : Type} {R : β → γ → Prop} {S : β' → γ' → Prop} {x : Except ε β}
  {y : Except ε γ}

theorem bind {f : β → Except ε β'} {g : γ → Except ε γ'} (h : Agrees R x y)
    (hnext : ∀ b c, R b c → Agrees S (f b) (g c)) : Agrees S (x >>= f) (y >>= g) := by
  cases h with
  | ok h => exact hnext _ _ h
  | error e => exact .error e

theorem imp {S : β → γ → Prop} (h : Agrees R x y) (himp : ∀ b c, R b c → S b c) :
    Agrees S x y := by
  cases h with
  | ok h => exact .ok (himp _ _ h)
  | error e => exact .error e

/-- What is related are the results. -/
theorem with_eq (h : Agrees R x y) :
    Agrees (fun b c => R b c ∧ x = .ok b ∧ y = .ok c) x y := by
  cases h with
  | ok h => exact .ok ⟨h, rfl, rfl⟩
  | error e => exact .error e

omit [Scalar α] in
/-- An error within the pass interrupts it with what was noted. -/
theorem interruptible {x : Except Fault β} {y : Except Fault γ} {b b' : Builder α}
    (h : Agrees R x y) (hnotes : b'.notes = b.notes) :
    Agrees R (b.interruptible x) (b'.interruptible y) := by
  cases h with
  | ok h => exact .ok h
  | error e =>
    unfold Builder.interruptible
    rw [hnotes]
    exact .error _

end Agrees

/-! ## Moved models -/

/-- A model with what some statements placed moved in the wall plane. Local coordinates stay, and so
do plates. -/
def WallModel.rebased (m : WallModel α) (inside : Nat → Bool) (dx dy : α) : WallModel α :=
  { m with
    studs := m.studs.map fun r => if inside r.statementIndex then r.moved dx dy else r
    blocking := m.blocking.map fun r => if inside r.statementIndex then r.moved dx dy else r
    sheathing := m.sheathing.map fun p => if inside p.statementIndex then p.moved dx dy else p
    drillings := m.drillings.map fun d => if inside d.statementIndex then d.rebased dx dy else d }

/-! ## Roles -/

/-- The role of a statement, moved if the moved module is open. -/
def Role.rebasedIf (isOpen : Bool) (r : Role α) (dx dy : α) : Role α :=
  match r with
  | .member m => .member (if isOpen then m.rebased dx dy else m)
  | .panel p => .panel (if isOpen then p.moved dx dy else p)
  | .boundary i p => .boundary i (if isOpen then p.moved dx dy else p)
  | .drilling d => .drilling (if isOpen then d.rebased dx dy else d)
  | r => r

theorem Role.rebasedIf_true (r : Role α) (dx dy : α) :
    r.rebasedIf true dx dy = r.rebased dx dy := by
  cases r <;> rfl

theorem Role.rebasedIf_false (r : Role α) (dx dy : α) : r.rebasedIf false dx dy = r := by
  cases r <;> rfl

omit [Scalar α] in
/-- Whether a statement begins or ends a module. -/
def Role.turnsModule : Role α → Bool
  | .moduleBegin _ => true
  | .moduleEnd => true
  | _ => false

theorem Context.Plays.turnsModule {c : Context α} {s : Statement α} {r : Role α}
    (h : c.Plays s r) : r.turnsModule = s.turnsModule := by
  have hother (hbegin : s.command.kind ≠ .moduleBegin) (hend : s.command.kind ≠ .moduleEnd) :
      s.turnsModule = false := by
    cases hk : s.command.kind <;>
      simp_all [Statement.turnsModule, Statement.module?, Statement.endsModule]
  cases h with
  | moduleBegin kind entry usable =>
    simp [Role.turnsModule, Statement.turnsModule, Statement.module?, kind, usable, entry]
  | moduleEnd kind => simp [Role.turnsModule, Statement.turnsModule, Statement.endsModule, kind]
  | member kind =>
    refine (hother (fun hk => ?_) (fun hk => ?_)).symm
    · simp [hk, CommandKind.isMember] at kind
    · simp [hk, CommandKind.isMember] at kind
  | unhandled known hnone =>
    have hu (hk : s.command.kind ∉ [CommandKind.point, .curve, .circle, .wall]) :
        s.isUsable = false :=
      isUsable_of_unhandled_of_notMem (.unhandled known hnone) rfl hk
    by_cases hbegin : s.command.kind = .moduleBegin
    · have hu := hu (by simp [hbegin])
      simp [Role.turnsModule, Statement.turnsModule, Statement.module?, Statement.endsModule,
        hbegin, hu]
    · refine (hother hbegin fun hend => ?_).symm
      have hu := hu (by simp [hend])
      simp [Statement.isUsable, CommandKind.minNumbers, hend] at hu
  | _ =>
    refine (hother (fun hk => ?_) (fun hk => ?_)).symm
    · simp_all
    · simp_all

namespace Builder

/-- A model in the making with what some statements placed moved, and what is open if it is the
moved module that is. -/
def rebased (b : Builder α) (inside : Nat → Bool) (dx dy : α) (isOpen : Bool)
    (modules : List (ModuleFrame α)) (bounds : Bounds α) : Builder α :=
  { b with
    model := { b.model.rebased inside dx dy with modules, bounds }
    activeModule := if isOpen then b.activeModule.map (·.moved dx dy) else b.activeModule
    lastMember := if isOpen then b.lastMember.map (·.rebased dx dy) else b.lastMember }

/-- Two models in the making say the same but for what the statements of a moved module placed; a
panel that is open was placed by one of them if that module is open. -/
structure Rebases (inside : Nat → Bool) (dx dy : α) (isOpen : Bool) (b b' : Builder α) : Prop where
  eq : b' = b.rebased inside dx dy isOpen b'.model.modules b'.model.bounds
  module : isOpen = true → b.activeModule.isSome = true
  panel : b.panelOpen = true → ∀ p ∈ b.model.sheathing.getLast?, inside p.statementIndex = isOpen

variable {inside : Nat → Bool} {dx dy : α} {isOpen : Bool} {b b' : Builder α} {s : Statement α}
  {r : Role α}

namespace Rebases

theorem notes (h : Rebases inside dx dy isOpen b b') : b'.notes = b.notes := by
  rw [h.eq]
  rfl

theorem exists_eq (h : Rebases inside dx dy isOpen b b') :
    ∃ modules bounds, b' = b.rebased inside dx dy isOpen modules bounds :=
  ⟨_, _, h.eq⟩

/-! ## Ends of contexts -/

theorem endPath (h : Rebases inside dx dy isOpen b b') :
    Agrees (Rebases inside dx dy isOpen) b.endPath b'.endPath := by
  obtain ⟨modules, bounds, rfl⟩ := h.exists_eq
  have hrun : (b.rebased inside dx dy isOpen modules bounds).run = b.run := rfl
  have hactive : (b.rebased inside dx dy isOpen modules bounds).activeRouting =
    b.activeRouting := rfl
  unfold Builder.endPath
  rw [hrun]
  cases b.run with
  | none => exact .ok ⟨rfl, h.module, h.panel⟩
  | some run =>
    dsimp only
    rw [hactive]
    cases b.activeRouting with
    | none => exact .ok ⟨rfl, h.module, h.panel⟩
    | some routing =>
      dsimp only
      split
      · cases PathKind.of? (closePath (dedupe run.trace.samples)).1.length
            (closePath (dedupe run.trace.samples)).2 with
        | none => exact .ok ⟨rfl, h.module, h.panel⟩
        | some kind =>
          dsimp only
          cases run.cut kind (closePath (dedupe run.trace.samples)).1 run.trace with
          | error e => exact .error _
          | ok cut => exact .ok ⟨rfl, h.module, h.panel⟩
      · exact .ok ⟨rfl, h.module, h.panel⟩

theorem closeRouting (h : Rebases inside dx dy isOpen b b') :
    Rebases inside dx dy isOpen b.closeRouting b'.closeRouting := by
  obtain ⟨modules, bounds, rfl⟩ := h.exists_eq
  have hactive : (b.rebased inside dx dy isOpen modules bounds).activeRouting =
    b.activeRouting := rfl
  unfold Builder.closeRouting
  rw [hactive]
  cases b.activeRouting with
  | none => exact ⟨rfl, h.module, h.panel⟩
  | some routing =>
    dsimp only
    split
    · exact ⟨rfl, h.module, h.panel⟩
    · exact ⟨rfl, h.module, h.panel⟩

theorem settle (h : Rebases inside dx dy isOpen b b') (kind : CommandKind) :
    Agrees (Rebases inside dx dy isOpen) (b.settle kind) (b'.settle kind) := by
  have hclosed : Rebases inside dx dy isOpen { b with panelOpen := false }
      { b' with panelOpen := false } := by
    refine ⟨?_, h.module, fun hopen => absurd hopen Bool.false_ne_true⟩
    conv_lhs => rw [h.eq]
    rfl
  cases kind with
  | point => exact .ok h
  | curve => exact .ok hclosed
  | _ => exact hclosed.endPath

/-! ## Statements -/

theorem panelOpen_of_plays {i : Nat} {p : PanelPoint α}
    (h : b.context.Plays s (.boundary i p)) : b.panelOpen = true := by
  cases h with
  | boundary _ _ opened _ =>
    by_contra hshut
    simp [Builder.context, openPanel?, hshut] at opened

theorem isPoint_of_plays {c : Context α} (h : c.Plays s r) (hr : r.turnsModule = true) :
    s.isPoint = false := by
  cases h with
  | moduleBegin kind => simp [Statement.isPoint, kind]
  | moduleEnd kind => simp [Statement.isPoint, kind]
  | _ => cases hr

/-- A member goes where it belongs, moved if the moved module is open. -/
theorem pushMember {m : FrameMember α} (h : Rebases inside dx dy isOpen b b')
    (hm : inside m.statementIndex = isOpen) : Rebases inside dx dy isOpen (b.pushMember m)
      (b'.pushMember (if isOpen then m.rebased dx dy else m)) := by
  obtain ⟨modules, bounds, rfl⟩ := h.exists_eq
  have hsheathing : (b.pushMember m).model.sheathing = b.model.sheathing := by
    cases hk : m.kind <;> simp [Builder.pushMember, extend, hk]
  refine ⟨?_, h.module, fun hopen p hp => h.panel hopen p (hsheathing ▸ hp)⟩
  cases isOpen <;> cases hk : m.kind <;>
    simp [Builder.pushMember, Builder.rebased, extend, WallModel.rebased, hk, hm,
      FrameMember.rebased, FrameMember.moved]

/-- A panel is put down, moved if the moved module is open. -/
theorem openPanel {p : SheathingPanel α} (h : Rebases inside dx dy isOpen b b')
    (hp : inside p.statementIndex = isOpen) : Rebases inside dx dy isOpen (b.openPanel p)
      (b'.openPanel (if isOpen then p.moved dx dy else p)) := by
  obtain ⟨modules, bounds, rfl⟩ := h.exists_eq
  refine ⟨?_, h.module, fun _ q hq => ?_⟩
  · cases isOpen <;>
      simp [Builder.openPanel, Builder.rebased, extend, WallModel.rebased, hp,
        SheathingPanel.moved]
  · have hlast : (b.openPanel p).model.sheathing.getLast? = some p :=
      List.getLast?_concat ..
    obtain rfl : p = q := Option.some.inj (hlast.symm.trans hq)
    exact hp

/-- A point goes on the boundary of the open panel, moved if that panel is. -/
theorem pushPanelPoint {p : PanelPoint α} (h : Rebases inside dx dy isOpen b b')
    (hopen : b.panelOpen = true) : Rebases inside dx dy isOpen (b.pushPanelPoint p)
      (b'.pushPanelPoint (if isOpen then p.moved dx dy else p)) := by
  obtain ⟨modules, bounds, rfl⟩ := h.exists_eq
  cases hlast : b.model.sheathing.getLast? with
  | none =>
    have hnil : b.model.sheathing = [] := List.getLast?_eq_none_iff.mp hlast
    refine ⟨?_, h.module, fun _ q hq => ?_⟩
    · simp [Builder.pushPanelPoint, Builder.rebased, extend, WallModel.rebased, hnil]
    · simp [Builder.pushPanelPoint, extend, hnil] at hq
  | some q =>
    have hq : inside q.statementIndex = isOpen := h.panel hopen q hlast
    obtain ⟨panels, hpanels⟩ := List.getLast?_eq_some_iff.mp hlast
    refine ⟨?_, h.module, fun _ q' hq' => ?_⟩
    · cases isOpen <;>
        simp [Builder.pushPanelPoint, Builder.rebased, extend, WallModel.rebased, hpanels, hq,
          SheathingPanel.moved]
    · have hpushed : (b.pushPanelPoint p).model.sheathing.getLast? =
          some { q with points := q.points ++ [p] } := by
        simp [Builder.pushPanelPoint, extend, hpanels]
      obtain rfl := Option.some.inj (hpushed.symm.trans hq')
      exact hq

/-- A drilling is made, moved if the moved module is open. -/
theorem pushDrilling {d : Drilling α} (h : Rebases inside dx dy isOpen b b')
    (hd : inside d.statementIndex = isOpen) : Rebases inside dx dy isOpen (b.pushDrilling d)
      (b'.pushDrilling (if isOpen then d.rebased dx dy else d)) := by
  obtain ⟨modules, bounds, rfl⟩ := h.exists_eq
  refine ⟨?_, h.module, h.panel⟩
  cases isOpen <;>
    simp [Builder.pushDrilling, Builder.rebased, extend, WallModel.rebased, hd, Drilling.rebased]

/-- A module begins, and is moved if it is the moved one. -/
theorem beginModule (h : Rebases inside dx dy isOpen b b') (hshut : b.panelOpen = false)
    (f : ModuleFrame α) (isMoved : Bool) : Rebases inside dx dy isMoved (b.beginModule f)
      (b'.beginModule (if isMoved then f.moved dx dy else f)) := by
  obtain ⟨modules, bounds, rfl⟩ := h.exists_eq
  refine ⟨?_, fun _ => rfl, fun hopen => absurd (hshut.symm.trans hopen) Bool.false_ne_true⟩
  cases isMoved <;> rfl

theorem endModule (h : Rebases inside dx dy isOpen b b') (hshut : b.panelOpen = false) :
    Rebases inside dx dy false b.endModule b'.endModule := by
  obtain ⟨modules, bounds, rfl⟩ := h.exists_eq
  exact ⟨rfl, fun hopen => absurd hopen Bool.false_ne_true,
    fun hopen => absurd (hshut.symm.trans hopen) Bool.false_ne_true⟩

theorem reject (h : Rebases inside dx dy isOpen b b') (u : Unhandled α) :
    Rebases inside dx dy isOpen (b.reject u) (b'.reject u) := by
  obtain ⟨modules, bounds, rfl⟩ := h.exists_eq
  exact ⟨rfl, h.module, h.panel⟩

theorem openRouting (h : Rebases inside dx dy isOpen b b') (w : Routing α) :
    Rebases inside dx dy isOpen (b.openRouting w) (b'.openRouting w) := by
  obtain ⟨modules, bounds, heq⟩ := h.closeRouting.exists_eq
  refine ⟨?_, h.closeRouting.module, h.closeRouting.panel⟩
  unfold Builder.openRouting
  rw [heq]
  rfl

/-- A statement is taken in by its role, moved if the moved module is open. That module is open no
more once a module begins or ends. -/
theorem place (h : Rebases inside dx dy isOpen b b') (hplays : b.context.Plays s r)
    (hs : inside s.index = isOpen) (hclosed : s.isPoint = false → b.panelOpen = false) :
    Agrees (Rebases inside dx dy (!r.turnsModule && isOpen)) (b.place r)
      (b'.place (r.rebasedIf isOpen dx dy)) := by
  cases r with
  | member m =>
    have hm : m.statementIndex = s.index :=
      hplays.member_index (if_pos rfl : Role.member? m.kind (.member m) = some m)
    exact .ok (h.pushMember (hm ▸ hs))
  | panel p =>
    have hp : p.statementIndex = s.index := hplays.panel_index rfl
    exact .ok (h.openPanel (hp ▸ hs))
  | boundary i p => exact .ok (h.pushPanelPoint (panelOpen_of_plays hplays))
  | drilling d =>
    have hd : d.statementIndex = s.index := hplays.drilling_index rfl
    exact .ok (h.pushDrilling (hd ▸ hs))
  | moduleBegin f => exact .ok (h.beginModule (hclosed (isPoint_of_plays hplays rfl)) f false)
  | moduleEnd => exact .ok (h.endModule (hclosed (isPoint_of_plays hplays rfl)))
  | header w => exact .ok (h.openRouting w)
  | unhandled u => exact .ok (h.reject u)
  | foreign u => exact .ok (h.closeRouting.reject u)
  | circle i c =>
    obtain ⟨modules, bounds, rfl⟩ := h.exists_eq
    cases c with
    | ok c => exact .ok ⟨rfl, h.module, h.panel⟩
    | error e => exact .error _
  | wall | vertex | nailRow =>
    obtain ⟨modules, bounds, rfl⟩ := h.exists_eq
    exact .ok ⟨rfl, h.module, h.panel⟩

/-- The open panel is moved if the moved module is open. -/
theorem openPanel? (h : Rebases inside dx dy isOpen b b') :
    b'.openPanel? = if isOpen then b.openPanel?.map (·.moved dx dy) else b.openPanel? := by
  obtain ⟨modules, bounds, rfl⟩ := h.exists_eq
  unfold Builder.openPanel?
  have hopen : (b.rebased inside dx dy isOpen modules bounds).panelOpen = b.panelOpen := rfl
  rw [hopen]
  cases hb : b.panelOpen with
  | false => simp
  | true =>
    cases hlast : b.model.sheathing.getLast? with
    | none => simp [Builder.rebased, WallModel.rebased, hlast]
    | some q =>
      have hq : inside q.statementIndex = isOpen := h.panel hb q hlast
      cases isOpen <;>
        simp [Builder.rebased, WallModel.rebased, hlast, hq, SheathingPanel.moved]

/-- What is open is moved if the moved module is open, and otherwise it is the same. -/
theorem context (h : Rebases inside dx dy isOpen b b') :
    b'.context = if isOpen then b.context.rebased dx dy else b.context := by
  unfold Builder.context
  rw [h.openPanel?]
  obtain ⟨modules, bounds, rfl⟩ := h.exists_eq
  cases isOpen with
  | false => rfl
  | true => rfl

end Rebases

theorem panelOpen_endPath (h : b.endPath = .ok b') : b'.panelOpen = b.panelOpen := by
  obtain ⟨-, rfl⟩ | ⟨run, -, ⟨_, _, -, -, rfl⟩ | ⟨-, rfl⟩⟩ := endPath_cases h <;> rfl

/-- Anything but a point closes the panel. -/
theorem panelOpen_settle (h : b.settle s.command.kind = .ok b') (hs : s.isPoint = false) :
    b'.panelOpen = false := by
  cases hk : s.command.kind with
  | point => simp [Statement.isPoint, hk] at hs
  | curve =>
    rw [hk] at h
    cases h
    rfl
  | _ =>
    rw [hk] at h
    exact panelOpen_endPath h

theorem accept_of_module? {f : ModuleFrame α} (h : s.module? = some f) :
    b.accept s = .ok (b.beginModule f) := by
  rw [accept, Context.role_of_module? h]
  rfl

namespace Rebases

variable [Scalar.Exact α]

theorem accept (h : Rebases inside dx dy isOpen b b') (hs : inside s.index = isOpen)
    (hclosed : s.isPoint = false → b.panelOpen = false) :
    Agrees (Rebases inside dx dy (!s.turnsModule && isOpen)) (b.accept s) (b'.accept s) := by
  have hplays := b.context.plays_role s
  have hrole : b'.context.role s = (b.context.role s).rebasedIf isOpen dx dy := by
    rw [h.context]
    cases isOpen with
    | false => exact ((b.context.role s).rebasedIf_false dx dy).symm
    | true =>
      obtain ⟨f, hf⟩ := Option.isSome_iff_exists.mp (h.module rfl)
      rw [Role.rebasedIf_true]
      exact Context.role_rebased hf s dx dy
  have hplace := h.place hplays hs hclosed
  rw [hplays.turnsModule, ← hrole] at hplace
  exact hplace

/-- A step of the pass over a statement that the two documents share. -/
theorem feed (h : Rebases inside dx dy isOpen b b') (hs : inside s.index = isOpen) :
    Agrees (Rebases inside dx dy (!s.turnsModule && isOpen)) (b.feed s) (b'.feed s) := by
  have hsettle := (h.settle s.command.kind).with_eq
  refine (hsettle.interruptible h.notes).bind ?_
  rintro b₁ b₁' ⟨h₁, hb₁, -⟩
  exact (h₁.accept hs (panelOpen_settle hb₁)).interruptible h₁.notes

omit [Scalar.Exact α] in
/-- The step of the pass at which the moved module begins. -/
theorem feed_begin {s' : Statement α} (h : Rebases inside dx dy false b b')
    (hs : s.MovesModule s' dx dy) : Agrees (Rebases inside dx dy true) (b.feed s) (b'.feed s') := by
  obtain ⟨f, hf, hf'⟩ := hs.exists_module
  have hpoint : s.isPoint = false := by simp [Statement.isPoint, hs.kind]
  have hsettle := (h.settle s.command.kind).with_eq
  unfold Builder.feed
  rw [hs.command]
  refine (hsettle.interruptible h.notes).bind ?_
  rintro b₁ b₁' ⟨h₁, hb₁, -⟩
  have hshut : b₁.panelOpen = false := panelOpen_settle hb₁ hpoint
  rw [accept_of_module? hf, accept_of_module? hf']
  exact .ok (h₁.beginModule hshut f true)

theorem foldlM {j : Nat} {ts : List (Statement α)} (h : Rebases inside dx dy (inside j) b b')
    (hts : ts.map (·.index) = List.range' j ts.length)
    (hstep : ∀ t ∈ ts, inside (t.index + 1) = (!t.turnsModule && inside t.index)) :
    Agrees (Rebases inside dx dy (inside (j + ts.length))) (ts.foldlM Builder.feed b)
      (ts.foldlM Builder.feed b') := by
  induction ts generalizing j b b' with
  | nil => exact .ok h
  | cons t ts ih =>
    obtain ⟨hj, hts⟩ := List.cons.inj hts
    obtain rfl : t.index = j := hj
    have hfeed := h.feed (s := t) rfl
    rw [← hstep t List.mem_cons_self] at hfeed
    rw [List.foldlM_cons, List.foldlM_cons, List.length_cons, ← Nat.add_assoc, Nat.add_right_comm]
    exact hfeed.bind fun b₁ b₁' h₁ => ih h₁ hts fun u hu => hstep u (List.mem_cons_of_mem t hu)

omit [Scalar.Exact α] in
theorem finish (h : Rebases inside dx dy isOpen b b') :
    Agrees (Rebases inside dx dy isOpen) b.finish b'.finish :=
  (h.endPath.interruptible h.notes).bind fun _ _ h₁ => .ok h₁.closeRouting

end Rebases

/-! ## The pass over statements -/

variable {ss : List (Statement α)}

/-- The pass over statements that have been read, up to its end. -/
def pass (b : Builder α) (ss : List (Statement α)) : Except Interruption (Builder α) := do
  let b ← ss.foldlM feed b
  b.finish

theorem feedAll_eq_foldlM {i : Nat} {texts : List String}
    (h : Statement.readAll i texts = .ok ss) : b.feedAll i texts = ss.foldlM feed b := by
  induction texts generalizing b i ss with
  | nil =>
    cases h
    rfl
  | cons text texts ih =>
    obtain ⟨s, ss, hs, hss, rfl⟩ := Statement.readAll_cons.mp h
    rw [List.foldlM_cons, feedAll, hs]
    exact congrArg (b.feed s >>= ·) (funext fun _ => ih hss)

/-- A text is built by a pass over its statements. -/
theorem buildAll_eq_pass {text : String} {k : Int}
    (h : Statement.readAll 0 (splitStatements text) = .ok ss) :
    buildAll text k = (start (splitStatements text) text k).pass ss := by
  rw [pass, ← feedAll_eq_foldlM h]
  rfl

theorem modules_place (h : b.place r = .ok b') :
    b'.model.modules = b.model.modules ++ r.module?.toList := by
  have hclose : b.closeRouting.model.modules = b.model.modules := by rw [closeRouting_model]
  cases r with
  | circle j c =>
    obtain ⟨c, rfl, rfl⟩ := exists_of_place_circle h
    simp [Role.module?, pushCircle, extend]
  | member m =>
    cases h
    cases hk : m.kind <;> simp [Role.module?, pushMember, extend, hk]
  | header w =>
    cases h
    simp [Role.module?, openRouting, hclose]
  | foreign u =>
    cases h
    simp [Role.module?, reject, record, note, hclose]
  | _ =>
    cases h
    simp [Role.module?, setWall, beginModule, endModule, openPanel, pushPanelPoint, pushVertex,
      pushNailRow, pushDrilling, reject, record, note, extend]

theorem modules_settle {kind : CommandKind} (h : b.settle kind = .ok b') :
    b'.model.modules = b.model.modules := by
  cases kind with
  | point =>
    cases h
    rfl
  | curve =>
    cases h
    rfl
  | _ => rw [endPath_model (b := { b with panelOpen := false }) h]

theorem modules_feed (h : b.feed s = .ok b') :
    b'.model.modules = b.model.modules ++ s.module?.toList := by
  obtain ⟨b₁, hsettle, haccept⟩ := feed_eq h
  rw [modules_place haccept, modules_settle hsettle, context_settle hsettle,
    Stands.module?_role_eq]

theorem modules_foldlM (h : ss.foldlM feed b = .ok b') :
    b'.model.modules = b.model.modules ++ ss.filterMap Statement.module? := by
  induction ss generalizing b with
  | nil =>
    cases h
    simp
  | cons s ss ih =>
    rw [List.foldlM_cons] at h
    obtain ⟨b₁, hfeed, hrest⟩ := exists_of_bind_eq_ok h
    rw [ih hrest, modules_feed hfeed, List.append_assoc, List.filterMap_cons]
    cases s.module? <;> rfl

/-- The modules of a model are those that its statements begin. -/
theorem modules_pass (h : b.pass ss = .ok b') :
    b'.model.modules = b.model.modules ++ ss.filterMap Statement.module? := by
  obtain ⟨b₁, hfold, hfinish⟩ := exists_of_bind_eq_ok h
  obtain ⟨b₂, hend, rfl⟩ := finish_eq hfinish
  rw [closeRouting_model, endPath_model hend]
  exact modules_foldlM hfold

end Builder

/-! ## A module with another origin -/

/-- Whether the module that the statement at `j` begins is open at `i`: no module has begun or ended
between them. -/
def Attribution.insideModule (ss : List (Statement α)) (j i : Nat) : Bool :=
  j < i ∧ Between ss (!·.turnsModule) j i

namespace Attribution

variable {ss : List (Statement α)} {s t : Statement α} {j : Nat}

theorem insideModule_of_le {i : Nat} (h : i ≤ j) : insideModule ss j i = false :=
  decide_eq_false fun hin => absurd hin.1 (Nat.not_lt.mpr h)

/-- Behind its first statement a module is open. -/
theorem insideModule_succ_self : insideModule ss j (j + 1) = true :=
  decide_eq_true ⟨Nat.lt_succ_self j, fun _ _ hlt hlt' =>
    absurd (Nat.lt_of_lt_of_le hlt (Nat.lt_succ_iff.mp hlt')) (Nat.lt_irrefl j)⟩

/-- A module stays open up to the statement that begins another or ends it. -/
theorem insideModule_succ (hn : Numbered ss) (ht : t ∈ ss) (hj : j < t.index) :
    insideModule ss j (t.index + 1) = (!t.turnsModule && insideModule ss j t.index) := by
  have hlt : j < t.index + 1 := Nat.lt_succ_of_lt hj
  rw [Bool.eq_iff_iff]
  simp [insideModule, between_succ hn ht hj, hlt, hj, and_comm]

omit [Scalar α] in
/-- The positions before a statement, its own, and those behind it. -/
theorem Numbered.split {pre post : List (Statement α)} (hn : Numbered (pre ++ s :: post)) :
    pre.map (·.index) = List.range' 0 pre.length ∧ s.index = pre.length ∧
      post.map (·.index) = List.range' (s.index + 1) post.length := by
  have hs : s.index = pre.length := hn.index_of_append rfl
  unfold Numbered at hn
  rw [List.map_append, List.length_append, ← List.range'_append_1, Nat.zero_add] at hn
  obtain ⟨hpre, hrest⟩ := List.append_inj hn (by simp)
  refine ⟨hpre, hs, ?_⟩
  rw [List.map_cons, List.length_cons, List.range'_succ] at hrest
  rw [hs]
  exact (List.cons.inj hrest).2

section Split

variable {pre post : List (Statement α)} (hn : Numbered (pre ++ s :: post))
include hn

/-- Before a module begins it is not open. -/
theorem insideModule_of_mem_pre (ht : t ∈ pre) :
    insideModule (pre ++ s :: post) s.index (t.index + 1) =
      (!t.turnsModule && insideModule (pre ++ s :: post) s.index t.index) := by
  have hlt : t.index < s.index := by
    have hmem : t.index ∈ pre.map (·.index) := List.mem_map_of_mem ht
    rw [hn.split.1, List.mem_range'_1] at hmem
    rw [hn.split.2.1]
    omega
  rw [insideModule_of_le hlt, insideModule_of_le hlt.le, Bool.and_false]

theorem insideModule_of_mem_post (ht : t ∈ post) :
    insideModule (pre ++ s :: post) s.index (t.index + 1) =
      (!t.turnsModule && insideModule (pre ++ s :: post) s.index t.index) := by
  have hlt : s.index < t.index := by
    have hmem : t.index ∈ post.map (·.index) := List.mem_map_of_mem ht
    rw [hn.split.2.2, List.mem_range'_1] at hmem
    omega
  exact insideModule_succ hn (List.mem_append_right pre (List.mem_cons_of_mem s ht)) hlt

end Split

end Attribution

section Exact

variable [Scalar.Exact α] {pre post : List (Statement α)} {s s' : Statement α} {dx dy : α}

/-- The pass over two documents that differ in the origin of one module, from a start at which
nothing has been placed. -/
theorem Builder.Rebases.pass {b : Builder α} (hn : Numbered (pre ++ s :: post))
    (hs : s.MovesModule s' dx dy)
    (h : Rebases (insideModule (pre ++ s :: post) s.index) dx dy false b b) :
    Agrees (Rebases (insideModule (pre ++ s :: post) s.index) dx dy
        (insideModule (pre ++ s :: post) s.index (s.index + 1 + post.length)))
      (b.pass (pre ++ s :: post)) (b.pass (pre ++ s' :: post)) := by
  obtain ⟨hpre, hindex, hpost⟩ := hn.split
  have hstart : insideModule (pre ++ s :: post) s.index 0 = false :=
    insideModule_of_le (Nat.zero_le _)
  have hreach : insideModule (pre ++ s :: post) s.index (0 + pre.length) = false :=
    insideModule_of_le (by omega)
  have hopen : insideModule (pre ++ s :: post) s.index (s.index + 1) = true :=
    insideModule_succ_self
  have hbefore := (hstart ▸ h).foldlM hpre fun t ht => insideModule_of_mem_pre hn ht
  rw [hreach] at hbefore
  have hall : Agrees (Rebases (insideModule (pre ++ s :: post) s.index) dx dy
        (insideModule (pre ++ s :: post) s.index (s.index + 1 + post.length)))
      ((pre ++ s :: post).foldlM Builder.feed b) ((pre ++ s' :: post).foldlM Builder.feed b) := by
    rw [List.foldlM_append, List.foldlM_append]
    refine hbefore.bind fun b₁ b₁' h₁ => ?_
    rw [List.foldlM_cons, List.foldlM_cons]
    refine (h₁.feed_begin hs).bind fun b₂ b₂' h₂ => ?_
    exact (hopen ▸ h₂).foldlM hpost fun t ht => insideModule_of_mem_post hn ht
  exact hall.bind fun _ _ h₁ => h₁.finish

/-- Of two documents that differ in the origin of one module, in exact arithmetic, either the pass
stops at the same fault, or the two models are the same but for the bounds, the origin of that
module, and what is placed while it is open. The latter is moved as the origin is: studs and
blocking, panels with the points on their boundaries, and the drillings that do not go into a plate,
with the members that they go into. Local coordinates stay, and so do the heights of drillings. -/
theorem Builder.pass_moved (hn : Numbered (pre ++ s :: post)) (hs : s.MovesModule s' dx dy)
    (texts : List String) (source : String) (firstId : Int) :
    Agrees (fun b b' => b'.nextId = b.nextId ∧ b'.notes = b.notes ∧
        ∃ f bounds, s.module? = some f ∧
          b.model.modules =
            pre.filterMap Statement.module? ++ f :: post.filterMap Statement.module? ∧
          b'.model = { b.model.rebased (insideModule (pre ++ s :: post) s.index) dx dy with
            modules :=
              pre.filterMap Statement.module? ++ f.moved dx dy :: post.filterMap Statement.module?
            bounds })
      ((start texts source firstId).pass (pre ++ s :: post))
      ((start texts source firstId).pass (pre ++ s' :: post)) := by
  obtain ⟨f, hf, hf'⟩ := hs.exists_module
  have hstart : Rebases (insideModule (pre ++ s :: post) s.index) dx dy false
      (start texts source firstId) (start texts source firstId) :=
    ⟨rfl, fun ho => absurd ho Bool.false_ne_true, fun ho => absurd ho Bool.false_ne_true⟩
  refine (hstart.pass hn hs).with_eq.imp ?_
  rintro b b' ⟨h, hb, hb'⟩
  have hmodules := modules_pass hb
  have hmodules' := modules_pass hb'
  rw [List.filterMap_append, List.filterMap_cons_some hf] at hmodules
  rw [List.filterMap_append, List.filterMap_cons_some hf'] at hmodules'
  have hmodel := congrArg Builder.model h.eq
  have hnext := congrArg Builder.nextId h.eq
  rw [hmodules'] at hmodel
  exact ⟨hnext, h.notes, f, _, hf, hmodules, hmodel⟩

end Exact

/-! ### A wall with a plate and a module -/

namespace RealNumber

/-- A statement with numbers, and with nothing else in its body. -/
def statementOf (index : Nat) (kind : CommandKind) (word : String) (numbers : List ℝ) :
    Statement RealNumber :=
  ⟨index, { kind, word }, "", numbers.map RealNumber.mk⟩

def bottomPlate : Statement RealNumber := statementOf 0 .bottomPlate "UG" [900, 50, 0, 0, 0]

/-- The begin of a module with an origin. -/
def moduleFrom (x y : RealNumber) : Statement RealNumber :=
  ⟨1, { kind := .moduleBegin, word := "MODUL" }, "", [⟨900⟩, ⟨2500⟩, ⟨100⟩, x, y]⟩

/-- A drilling, a stud with a drilling, the end of the module, and a drilling behind it. -/
def inModule : List (Statement RealNumber) :=
  [statementOf 2 .drilling "BOY" [40, 60, 12, 30], statementOf 3 .stud "QS" [2400, 50, 0, 7, 8],
    statementOf 4 .drilling "BOY" [40, 60, 12, 30], statementOf 5 .moduleEnd "ENDMODUL" [],
    statementOf 6 .drilling "BOY" [40, 60, 12, 30]]

end RealNumber

open RealNumber in
/-- The stud goes with the module, and so do the drillings before and in it. The plate stays, and so
does the drilling behind the module. -/
theorem Builder.pass_moved_of_plate_and_module :
    ∃ b b' : Builder RealNumber,
      (start [] "" 1).pass ([bottomPlate] ++ moduleFrom ⟨10⟩ ⟨20⟩ :: inModule) = .ok b ∧
      (start [] "" 1).pass ([bottomPlate] ++ moduleFrom (⟨10⟩ + ⟨5⟩) (⟨20⟩ + ⟨3⟩) :: inModule) =
        .ok b' ∧
      b'.nextId = b.nextId ∧ b'.model.plates = b.model.plates ∧
      (∃ stud, b.model.studs = [stud] ∧ b'.model.studs = [stud.moved ⟨5⟩ ⟨3⟩]) ∧
      ∃ before within behind, b.model.drillings = [before, within, behind] ∧
        b'.model.drillings = [before.rebased ⟨5⟩ ⟨3⟩, within.rebased ⟨5⟩ ⟨3⟩, behind] := by
  have hn : Numbered ([bottomPlate] ++ moduleFrom ⟨10⟩ ⟨20⟩ :: inModule) := rfl
  have hs : (moduleFrom ⟨10⟩ ⟨20⟩).MovesModule (moduleFrom (⟨10⟩ + ⟨5⟩) (⟨20⟩ + ⟨3⟩)) ⟨5⟩ ⟨3⟩ :=
    ⟨rfl, rfl, rfl, _, _, _, _, _, _, rfl, rfl⟩
  obtain ⟨b, hb, stud, before, within, behind, hstuds, hdrillings, hindices⟩ : ∃ b,
      (start [] "" 1).pass ([bottomPlate] ++ moduleFrom ⟨10⟩ ⟨20⟩ :: inModule) = .ok b ∧
      ∃ stud before within behind, b.model.studs = [stud] ∧
        b.model.drillings = [before, within, behind] ∧ stud.statementIndex = 3 ∧
        before.statementIndex = 2 ∧ within.statementIndex = 4 ∧ behind.statementIndex = 6 :=
    ⟨_, rfl, _, _, _, _, rfl, rfl, rfl, rfl, rfl, rfl⟩
  obtain ⟨b', hb'⟩ : ∃ b', (start [] "" 1).pass
      ([bottomPlate] ++ moduleFrom (⟨10⟩ + ⟨5⟩) (⟨20⟩ + ⟨3⟩) :: inModule) = .ok b' := ⟨_, rfl⟩
  obtain ⟨hstud, hbefore, hwithin, hbehind⟩ := hindices
  obtain ⟨hin₂, hin₃, hin₄, hout⟩ :
      let inside := insideModule ([bottomPlate] ++ moduleFrom ⟨10⟩ ⟨20⟩ :: inModule)
        (moduleFrom ⟨10⟩ ⟨20⟩).index
      inside 2 = true ∧ inside 3 = true ∧ inside 4 = true ∧ inside 6 = false := by decide
  have h := pass_moved hn hs [] "" 1
  rw [hb, hb'] at h
  cases h with
  | ok h =>
    obtain ⟨hnext, -, f, bounds, -, -, hmodel⟩ := h
    refine ⟨b, b', hb, hb', hnext, ?_, ⟨stud, hstuds, ?_⟩, before, within, behind, hdrillings, ?_⟩
    · rw [hmodel]
      rfl
    · simp only [hmodel, WallModel.rebased, hstuds, List.map_cons, List.map_nil, hstud]
      rw [if_pos hin₃]
    · simp only [hmodel, WallModel.rebased, hdrillings, List.map_cons, List.map_nil, hbefore,
        hwithin, hbehind]
      rw [if_pos hin₂, if_pos hin₄, if_neg (ne_true_of_eq_false hout)]

end WallPanel
