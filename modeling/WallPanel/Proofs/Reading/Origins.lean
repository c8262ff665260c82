import WallPanel.Model.Role
import WallPanel.Proofs.Number.Exact

/-!
# Modules with another origin

Studs, blocking, panels and the points on their boundaries are placed relative to the origin of the
module that is open, and a drilling relative to the member that it goes into, or failing that to the
module. So if the origin is moved in the wall plane then a statement has the role that it had, with
what it places moved as well (`Context.role_rebased`). Plates are not placed in a module, and stay
where they are with the drillings that go into them.

* `FrameMember.moved`, `PanelPoint.moved`, `SheathingPanel.moved`: moved in the wall plane, with the
  place in the module as before.
* `FrameMember.rebased`, `Drilling.rebased`: a member and a drilling of a module that is moved.
* `Role.rebased`, `Context.rebased`: the same for a role and for what is open.
-/

namespace WallPanel

open Scalar.Exact (add_right_comm)

variable {α : Type} [Scalar α]

/-! ## What is moved -/

/-- The module with its origin moved in the wall plane. -/
def ModuleFrame.moved (f : ModuleFrame α) (dx dy : α) : ModuleFrame α :=
  { f with originX := f.originX + dx, originY := f.originY + dy }

def FrameMember.moved (m : FrameMember α) (dx dy : α) : FrameMember α :=
  { m with x := m.x + dx, y := m.y + dy }

def PanelPoint.moved (p : PanelPoint α) (dx dy : α) : PanelPoint α :=
  { p with x := p.x + dx, y := p.y + dy }

/-- The panel moved with its boundary. -/
def SheathingPanel.moved (p : SheathingPanel α) (dx dy : α) : SheathingPanel α :=
  { p with x := p.x + dx, y := p.y + dy, points := p.points.map (·.moved dx dy) }

/-- A member that stands in a module which is moved. A plate does not stand in any. -/
def FrameMember.rebased (m : FrameMember α) (dx dy : α) : FrameMember α :=
  match m.kind with
  | .plate => m
  | _ => m.moved dx dy

/-- A drilling made in a module which is moved. Along the wall it goes with the member that it goes
into, or else with the module; its height is as before. -/
def Drilling.rebased (d : Drilling α) (dx dy : α) : Drilling α :=
  { d with
    x := if d.target.any (·.kind = .plate) then d.x else d.x + dx
    target := d.target.map (·.rebased dx dy) }

/-- The role of a statement in a module which is moved. -/
def Role.rebased (r : Role α) (dx dy : α) : Role α :=
  match r with
  | .member m => .member (m.rebased dx dy)
  | .panel p => .panel (p.moved dx dy)
  | .boundary i p => .boundary i (p.moved dx dy)
  | .drilling d => .drilling (d.rebased dx dy)
  | r => r

/-- What is open in a module which is moved. -/
def Context.rebased (c : Context α) (dx dy : α) : Context α :=
  { c with
    setting := { c.setting with
      module := c.setting.module.map (·.moved dx dy)
      member := c.setting.member.map (·.rebased dx dy) }
    panel := c.panel.map (·.moved dx dy) }

/-! ## What a statement places -/

variable [Scalar.Exact α] {s : Statement α} {f : ModuleFrame α} {dx dy : α}

theorem FrameMember.ofStatement?_rebased {kind : MemberKind} (hk : kind ≠ .plate)
    (s : Statement α) (o : Orientation) (f : ModuleFrame α) (role : Option PlateRole) (dx dy : α) :
    ofStatement? s kind o (some (f.moved dx dy)) role =
      (ofStatement? s kind o (some f) role).map (·.rebased dx dy) := by
  unfold ofStatement? ofNumbers?
  split
  · cases kind with
    | plate => exact absurd rfl hk
    | _ => simp only [ModuleFrame.origin, ModuleFrame.moved, rebased, moved, Option.map_some,
        add_right_comm f.originX dx, add_right_comm f.originY dy]
  · rfl

omit [Scalar.Exact α] in
/-- A plate does not move. -/
theorem FrameMember.rebased_ofStatement?_plate (s : Statement α) (o : Orientation)
    (role : Option PlateRole) (dx dy : α) :
    (ofStatement? s .plate o none role).map (·.rebased dx dy) =
      ofStatement? s .plate o none role := by
  unfold ofStatement? ofNumbers?
  split
  · rfl
  · rfl

theorem SheathingPanel.ofStatement?_moved (s : Statement α) (side : Side) (f : ModuleFrame α)
    (dx dy : α) : ofStatement? s side (some (f.moved dx dy)) =
      (ofStatement? s side (some f)).map (·.moved dx dy) := by
  unfold ofStatement?
  dsimp only
  split
  · simp only [ModuleFrame.origin, ModuleFrame.moved, moved, Option.map_some, List.map_nil,
      add_right_comm f.originX dx, add_right_comm f.originY dy]
  · rfl

theorem PanelPoint.ofNumbers?_moved (numbers : List α) (p : SheathingPanel α) (f : ModuleFrame α)
    (dx dy : α) : ofNumbers? numbers (p.moved dx dy) (some (f.moved dx dy)) =
      (ofNumbers? numbers p (some f)).map (·.moved dx dy) := by
  unfold ofNumbers?
  split
  · simp only [ModuleFrame.origin, ModuleFrame.moved, moved, SheathingPanel.moved, Option.map_some,
      add_right_comm f.originX dx, add_right_comm f.originY dy]
  · rfl

theorem Drilling.ofStatement?_rebased (s : Statement α) (f : ModuleFrame α)
    (member? : Option (FrameMember α)) (dx dy : α) :
    ofStatement? s (some (f.moved dx dy)) (member?.map (·.rebased dx dy)) =
      (ofStatement? s (some f) member?).map (·.rebased dx dy) := by
  unfold ofStatement?
  split
  · cases member? with
    | none =>
      simp [place, rebased, ModuleFrame.moved, add_right_comm f.originX dx]
    | some m =>
      cases hk : m.kind <;>
        simp [place, rebased, ModuleFrame.moved, FrameMember.rebased, FrameMember.moved, hk,
          add_right_comm m.x dx]
  · rfl

/-! ## Roles -/

namespace Setting

/-- A statement of the frame places in a moved module what it placed, moved as well. -/
theorem role?_rebased {g : Setting α} (hf : g.module = some f) (s : Statement α) (dx dy : α) :
    Setting.role? { g with
      module := g.module.map (·.moved dx dy), member := g.member.map (·.rebased dx dy) } s =
      (g.role? s).map (·.rebased dx dy) := by
  have hplate (role : PlateRole) :
      (FrameMember.ofStatement? s .plate .horizontal none (some role)).map Role.member =
        ((FrameMember.ofStatement? s .plate .horizontal none (some role)).map Role.member).map
          (·.rebased dx dy) := by
    conv_lhs => rw [← FrameMember.rebased_ofStatement?_plate s .horizontal (some role) dx dy]
    rw [Option.map_map, Option.map_map]
    rfl
  unfold role?
  cases s.command.kind with
  | stud =>
    dsimp only
    rw [hf, Option.map_some, FrameMember.ofStatement?_rebased (by decide), Option.map_map,
      Option.map_map]
    rfl
  | blocking =>
    dsimp only
    rw [hf, Option.map_some, FrameMember.ofStatement?_rebased (by decide), Option.map_map,
      Option.map_map]
    rfl
  | topPlate => exact hplate .top
  | bottomPlate => exact hplate .bottom
  | panel side =>
    dsimp only
    rw [hf, Option.map_some, SheathingPanel.ofStatement?_moved, Option.map_map, Option.map_map]
    rfl
  | drilling =>
    dsimp only
    rw [hf, Option.map_some, Drilling.ofStatement?_rebased, Option.map_map, Option.map_map]
    rfl
  | wall =>
    dsimp only
    split
    · rfl
    · rw [Option.map_map]
      rfl
  | moduleBegin =>
    rw [Option.map_map]
    rfl
  | nailRow =>
    rw [Option.map_map]
    rfl
  | _ => rfl

end Setting

namespace Context

variable {c : Context α}

theorem boundary?_rebased (hf : c.setting.module = some f) (s : Statement α) (dx dy : α) :
    (c.rebased dx dy).boundary? s = (c.boundary? s).map (·.rebased dx dy) := by
  unfold boundary? rebased
  rw [hf]
  cases c.panel with
  | none => rfl
  | some p =>
    simp only [Option.map_some, Option.bind_eq_bind, Option.bind_some,
      PanelPoint.ofNumbers?_moved]
    cases PanelPoint.ofNumbers? s.numbers p (some f) <;> rfl

theorem role?_rebased (hf : c.setting.module = some f) (s : Statement α) (dx dy : α) :
    (c.rebased dx dy).role? s = (c.role? s).map (·.rebased dx dy) := by
  have hvertex (v? : Option (Vertex α)) : (c.rebased dx dy).vertex? s v? =
      (c.vertex? s v?).map (·.rebased dx dy) := by
    unfold vertex? rebased
    cases c.routing <;> cases v? <;> rfl
  unfold role?
  split
  · unfold circle? rebased
    cases c.routing <;> cases CircleCut.ofStatement? s <;> rfl
  · have hpoint := hvertex (Vertex.ofPoint? s c.run.isNone)
    rw [boundary?_rebased hf]
    cases c.boundary? s with
    | none => exact hpoint
    | some r => rfl
  · exact hvertex _
  · exact Setting.role?_rebased hf s dx dy

/-- In a moved module a statement has the role that it had, and what it places is moved as well. -/
theorem role_rebased (hf : c.setting.module = some f) (s : Statement α) (dx dy : α) :
    (c.rebased dx dy).role s = (c.role s).rebased dx dy := by
  unfold role
  rw [role?_rebased hf]
  split
  · cases c.role? s <;> rfl
  · rfl

end Context

end WallPanel
