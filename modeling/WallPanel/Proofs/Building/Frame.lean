import WallPanel.Proofs.Building.Contexts
import WallPanel.Proofs.Reading.Growth

/-!
# Building the frame

The size of the wall, the modules, the members, the panels, the nail rows and the drillings of the
model in the making are those of the reading (`WallModel.SharesFrame`), and every role keeps it so
(`Builder.sharesFrame_place`).
-/

namespace WallPanel

variable {α : Type}

/-- A nail row without its id. -/
def NailRow.anonymous (r : NailRow α) : NailRow α := { r with editorId := none }

/-- A drilling without its id. -/
def Drilling.anonymous (d : Drilling α) : Drilling α := { d with editorId := none }

/-- A routing without its id. -/
def Routing.anonymous (r : Routing α) : Routing α := { r with editorId := none }

/-- What a model says apart from its routings is what a reading says. -/
structure WallModel.SharesFrame (m : WallModel α) (es : List (Placed α)) : Prop where
  wall : m.wall = es.findSome? (·.role.wall?)
  modules : m.modules = es.filterMap (·.role.module?)
  studs : m.studs = es.filterMap (·.role.member? .stud)
  blocking : m.blocking = es.filterMap (·.role.member? .blocking)
  plates : m.plates = es.filterMap (·.role.member? .plate)
  sheathing : m.sheathing = Reading.sheathing es
  nailRows : m.nailRows.map NailRow.anonymous = es.filterMap (·.role.nailRow?)
  drillings : m.drillings.map Drilling.anonymous = es.filterMap (·.role.drilling?)

namespace WallModel.SharesFrame

variable {m m' : WallModel α} {es : List (Placed α)} {p : Placed α}

/-- One more statement, with what it adds to the model. -/
theorem concat (h : m.SharesFrame es) (hw : m'.wall = m.wall.or p.role.wall?)
    (hm : m'.modules = m.modules ++ p.role.module?.toList)
    (hs : m'.studs = m.studs ++ (p.role.member? .stud).toList)
    (hb : m'.blocking = m.blocking ++ (p.role.member? .blocking).toList)
    (hp : m'.plates = m.plates ++ (p.role.member? .plate).toList)
    (hh : m'.sheathing = Reading.sheathing (es ++ [p]))
    (hn : m'.nailRows.map NailRow.anonymous =
      m.nailRows.map NailRow.anonymous ++ p.role.nailRow?.toList)
    (hd : m'.drillings.map Drilling.anonymous =
      m.drillings.map Drilling.anonymous ++ p.role.drilling?.toList) :
    m'.SharesFrame (es ++ [p]) where
  wall := by rw [hw, h.wall, List.findSome?_append]; simp
  modules := by rw [hm, h.modules, Reading.filterMap_concat]
  studs := by rw [hs, h.studs, Reading.filterMap_concat]
  blocking := by rw [hb, h.blocking, Reading.filterMap_concat]
  plates := by rw [hp, h.plates, Reading.filterMap_concat]
  sheathing := hh
  nailRows := by rw [hn, h.nailRows, Reading.filterMap_concat]
  drillings := by rw [hd, h.drillings, Reading.filterMap_concat]

/-- A model that differs in routings, bounds and unhandled statements only. -/
theorem congr (h : m.SharesFrame es) (hm : m' = { m with
      routings := m'.routings, bounds := m'.bounds, unhandled := m'.unhandled }) :
    m'.SharesFrame es := by
  rw [hm]
  exact ⟨h.wall, h.modules, h.studs, h.blocking, h.plates, h.sheathing, h.nailRows, h.drillings⟩

end WallModel.SharesFrame

namespace Builder

variable {b b' : Builder α} {es : List (Placed α)} {s : Statement α} {r : Role α}

/-- A statement that gives neither a member nor anything else of the frame keeps it. -/
theorem sharesFrame_of_eq (h : b.model.SharesFrame es) {p : Placed α}
    (hm : b'.model = { b.model with
      routings := b'.model.routings, bounds := b'.model.bounds
      unhandled := b'.model.unhandled })
    (hw : p.role.wall? = none) (ho : p.role.module? = none) (hk : ∀ k, p.role.member? k = none)
    (hp : p.role.panel? = none) (hq : ∀ j, p.role.point? j = none) (hn : p.role.nailRow? = none)
    (hd : p.role.drilling? = none) : b'.model.SharesFrame (es ++ [p]) := by
  have h' := h.congr hm
  exact h'.concat (by simp [hw]) (by simp [ho]) (by simp [hk]) (by simp [hk]) (by simp [hk])
    (by rw [Reading.sheathing_concat hp hq, h'.sheathing]) (by simp [hn]) (by simp [hd])

/-- A panel has no boundary yet. -/
theorem sheathing_openPanel (h : b.model.SharesFrame es) (hb : Reading.Below es s.index)
    {p : SheathingPanel α} (hp : p.statementIndex = s.index ∧ p.points = []) :
    b.model.sheathing ++ [p] = Reading.sheathing (es ++ [⟨s, .panel p⟩]) := by
  have hs : Reading.points es p.statementIndex = [] := by
    rw [hp.1]
    exact hb.points
  have hq : { p with points := Reading.points es p.statementIndex } = p := by rw [hs, ← hp.2]
  simp [Reading.sheathing, Reading.panels_concat, Reading.points_concat, Role.panel?, Role.point?,
    h.sheathing, hq]

variable [Scalar α]

/-- A point goes to the last panel. -/
theorem sheathing_pushPanelPoint (h : b.model.SharesFrame es) (hc : b.context.Rooted es)
    {q : SheathingPanel α} {p : PanelPoint α} (hq : b.context.panel = some q) :
    (b.pushPanelPoint p).model.sheathing =
      Reading.sheathing (es ++ [⟨s, .boundary q.statementIndex p⟩]) := by
  obtain ⟨init, hp, hne⟩ := hc.panel q hq
  have hinit : (init.map fun q' => { q' with
        points := Reading.points (es ++ [⟨s, .boundary q.statementIndex p⟩]) q'.statementIndex }) =
      init.map fun q' => { q' with points := Reading.points es q'.statementIndex } := by
    refine List.map_congr_left fun q' hq' => ?_
    have hne' : q.statementIndex ≠ q'.statementIndex := Ne.symm (hne q' hq')
    simp [Reading.points_concat, Role.point?, hne']
  have hpanels : Reading.panels (es ++ [⟨s, .boundary q.statementIndex p⟩]) = init ++ [q] := by
    simp [Reading.panels_concat, Role.panel?, hp]
  rw [Reading.sheathing, hpanels, List.map_append, hinit]
  simp [pushPanelPoint, extend, h.sheathing, Reading.sheathing, hp, Reading.points_concat,
    Role.point?]

theorem sharesFrame_place (h : b.model.SharesFrame es) (hc : b.context.Rooted es)
    (hb : Reading.Below es s.index) (hr : b.context.Plays s r) (hp : b.place r = .ok b') :
    b'.model.SharesFrame (es ++ [⟨s, r⟩]) := by
  have keep {p : Placed α} (hp : p.role.panel? = none) (hq : ∀ j, p.role.point? j = none) :
      b.model.sheathing = Reading.sheathing (es ++ [p]) :=
    h.sheathing.trans (Reading.sheathing_concat hp hq).symm
  cases hr with
  | wall _ first =>
    cases hp
    have hw : b.model.wall = none := by simpa [context] using first
    apply h.concat
    case hh => exact keep rfl fun _ => rfl
    all_goals simp [setWall, hw, Role.wall?, Role.module?, Role.member?, Role.nailRow?, Role.drilling?]
  | moduleBegin =>
    cases hp
    apply h.concat
    case hh => exact keep rfl fun _ => rfl
    all_goals simp [beginModule, Role.wall?, Role.module?, Role.member?, Role.nailRow?, Role.drilling?]
  | @member m =>
    cases hp
    cases hk : m.kind
    all_goals
      apply h.concat
      case hh => simpa only [pushMember, extend, hk] using keep rfl fun _ => rfl
      all_goals simp [pushMember, extend, hk, Role.wall?, Role.module?, Role.member?, Role.nailRow?,
        Role.drilling?]
  | panel _ _ entry =>
    cases hp
    apply h.concat
    case hh => exact sheathing_openPanel h hb (SheathingPanel.of_ofStatement? entry)
    all_goals simp [openPanel, extend, Role.wall?, Role.module?, Role.member?, Role.nailRow?,
      Role.drilling?]
  | boundary _ _ opened _ =>
    cases hp
    apply h.concat
    case hh => exact sheathing_pushPanelPoint h hc opened
    all_goals simp [pushPanelPoint, extend, Role.wall?, Role.module?, Role.member?, Role.nailRow?,
      Role.drilling?]
  | nailRow _ entry =>
    cases hp
    have hid := (NailRow.of_ofStatement? entry).2
    apply h.concat
    case hh => exact keep rfl fun _ => rfl
    all_goals simp [pushNailRow, extend, NailRow.anonymous, ← hid, Role.wall?, Role.module?, Role.member?,
      Role.nailRow?, Role.drilling?]
  | drilling _ entry =>
    cases hp
    have hid := (Drilling.of_ofStatement? entry).2
    apply h.concat
    case hh => exact keep rfl fun _ => rfl
    all_goals simp [pushDrilling, extend, Drilling.anonymous, ← hid, Role.wall?, Role.module?, Role.member?,
      Role.nailRow?, Role.drilling?]
  | circle =>
    obtain ⟨d, rfl, rfl⟩ := exists_of_place_circle hp
    exact sharesFrame_of_eq h rfl rfl rfl (fun _ => rfl) rfl (fun _ => rfl) rfl rfl
  | header =>
    cases hp
    exact sharesFrame_of_eq h (closeRouting_model b) rfl rfl (fun _ => rfl) rfl (fun _ => rfl) rfl rfl
  | foreign =>
    cases hp
    have h' : b.closeRouting.model.SharesFrame es := h.congr (closeRouting_model b)
    exact sharesFrame_of_eq h' rfl rfl rfl (fun _ => rfl) rfl (fun _ => rfl) rfl rfl
  | _ =>
    cases hp
    exact sharesFrame_of_eq h rfl rfl rfl (fun _ => rfl) rfl (fun _ => rfl) rfl rfl

end Builder

end WallPanel
