import WallPanel.Proofs.Attribution.Document
import WallPanel.Proofs.Reading.Rooted

/-!
# What statements inherit

Members, panels and drillings are placed relative to the module at their statement, a drilling goes
into the member at its statement, and nail rows and routings have the layer at theirs. Each of these
three is found by looking back from the statement (`Attribution.IsLatest`): it is what the last
statement gives that gives one, if no statement since takes it back. So what an entity inherits
hangs on the statements before it and on no state (`inherits_of_parseModel`).

* `Attribution.findSome?_before_eq_some`: a search backwards finds the last statement.
* `Attribution.isLatest_moduleAt`, `Attribution.isLatest_memberAt`, `Attribution.isLatest_layerAt`:
  the module, the member and the layer at a position.
* `Attribution.members_read`: the members that the reading of a document gathers.
* `Attribution.Stands.nailRow?_role`, `Attribution.Stands.drilling?_role`: the role of a statement
  that describes a nail row or a drilling.
-/

namespace WallPanel

open Attribution

variable {α : Type} [Scalar α]

namespace Statement

/-- The module that a statement begins. -/
def module? (s : Statement α) : Option (ModuleFrame α) :=
  match s.command.kind with
  | .moduleBegin => if s.isUsable then ModuleFrame.ofNumbers? s.numbers else none
  | _ => none

omit [Scalar α] in
/-- Whether a statement ends a module. -/
def endsModule (s : Statement α) : Bool := s.command.kind = .moduleEnd

/-- Whether a statement begins or ends a module. -/
def turnsModule (s : Statement α) : Bool := s.module?.isSome || s.endsModule

end Statement

namespace Attribution

variable {ss : List (Statement α)} {c : Context α} {s : Statement α} {i j k : Nat} {β : Type}
  {gives : Statement α → Option β} {ends : Statement α → Bool}

/-! ## Looking back -/

/-- The last statement before a position that gives something gives `b`, and no statement since
takes it back. -/
def Latest (ss : List (Statement α)) (gives : Statement α → Option β) (ends : Statement α → Bool)
    (i : Nat) (b : β) : Prop :=
  ∃ s ∈ ss, s.index < i ∧ gives s = some b ∧
    Between ss (fun t => (gives t).isNone && !ends t) s.index i

/-- What holds at a position is what was given last, and nothing if that does not exist. -/
def IsLatest (ss : List (Statement α)) (gives : Statement α → Option β)
    (ends : Statement α → Bool) (i : Nat) (b? : Option β) : Prop :=
  ∀ b, b? = some b ↔ Latest ss gives ends i b

omit [Scalar α] in
/-- A search backwards from a position finds the last statement that it looks for. -/
theorem findSome?_before_eq_some (hn : Numbered ss) {f : Statement α → Option β} {b : β} :
    (before ss i).reverse.findSome? f = some b ↔ ∃ s ∈ ss, s.index < i ∧ f s = some b ∧
      Between ss (fun t => (f t).isNone) s.index i := by
  have hmem : ∀ s, s ∈ before ss i ↔ s ∈ ss ∧ s.index < i := by simp [before]
  have hsorted : (before ss i).Pairwise (·.index < ·.index) :=
    (List.pairwise_map.mp hn.sorted).filter _
  constructor
  · intro h
    obtain ⟨post, s, pre, hsplit, hs, hpost⟩ := List.findSome?_eq_some_iff.mp h
    have hbefore : before ss i = pre.reverse ++ s :: post.reverse := by
      rw [← List.reverse_reverse (before ss i), hsplit]
      simp
    rw [hbefore, List.pairwise_append] at hsorted
    obtain ⟨hss, hi⟩ := (hmem s).mp (by simp [hbefore])
    refine ⟨s, hss, hi, hs, fun t ht hst hti => ?_⟩
    have htb := (hmem t).mpr ⟨ht, hti⟩
    rw [hbefore, List.mem_append, List.mem_cons] at htb
    rcases htb with htb | rfl | htb
    · exact absurd (hsorted.2.2 t htb s List.mem_cons_self) (Nat.lt_asymm hst)
    · exact absurd hst (Nat.lt_irrefl _)
    · exact Option.isNone_iff_eq_none.mpr (hpost t (List.mem_reverse.mp htb))
  · rintro ⟨s, hs, hi, hb, hbetween⟩
    obtain ⟨pre, post, hbefore⟩ := List.append_of_mem ((hmem s).mpr ⟨hs, hi⟩)
    refine List.findSome?_eq_some_iff.mpr ⟨post.reverse, s, pre.reverse, by simp [hbefore], hb,
      fun t ht => ?_⟩
    have ht := List.mem_reverse.mp ht
    rw [hbefore, List.pairwise_append, List.pairwise_cons] at hsorted
    obtain ⟨hts, hti⟩ := (hmem t).mp (by simp [hbefore, ht])
    exact Option.isNone_iff_eq_none.mp (hbetween t hts (hsorted.2.1.1 t ht) hti)

omit [Scalar α] in
/-- A search backwards that stops where something is taken back. -/
theorem isLatest_findSome? (hn : Numbered ss) {mark : Statement α → Option (Option β)}
    (hmark : ∀ s, mark s = if ends s then some none else (gives s).map some)
    (hends : ∀ s, ends s = true → gives s = none) (i : Nat) :
    IsLatest ss gives ends i ((before ss i).reverse.findSome? mark).join := by
  have hnone : (fun t => (mark t).isNone) = fun t => (gives t).isNone && !ends t := by
    funext t
    rw [hmark]
    cases ends t <;> simp
  have hsome : ∀ s b, mark s = some (some b) ↔ gives s = some b := by
    intro s b
    rw [hmark]
    cases he : ends s with
    | false => simp
    | true => simp [hends s he]
  intro b
  rw [Option.join_eq_some_iff, findSome?_before_eq_some hn, hnone]
  simp only [hsome, Latest]

theorem isLatest_moduleAt (hn : Numbered ss) (i : Nat) :
    IsLatest ss Statement.module? Statement.endsModule i (moduleAt ss i) := by
  refine isLatest_findSome? hn (fun s => ?_) (fun s hs => ?_) i
  · unfold Statement.moduleMark? Statement.endsModule Statement.module?
    cases s.command.kind <;> cases s.isUsable <;> rfl
  · have hk : s.command.kind = .moduleEnd := of_decide_eq_true hs
    simp [Statement.module?, hk]

theorem isSome_moduleMark? (s : Statement α) : s.moduleMark?.isSome = s.turnsModule := by
  unfold Statement.moduleMark? Statement.turnsModule Statement.endsModule Statement.module?
  cases s.command.kind <;> cases s.isUsable <;> simp

theorem isLatest_memberAt (hn : Numbered ss) (i : Nat) :
    IsLatest ss (member? ss) Statement.turnsModule i (memberAt ss i) := by
  refine isLatest_findSome? hn (fun s => ?_) (fun s hs => ?_) i
  · rw [memberMark?, isSome_moduleMark?]
  · refine member?_of_not_isMember (Bool.eq_false_iff.mpr fun hk => ?_)
    rw [← isSome_moduleMark?, moduleMark?_of_isMember hk] at hs
    cases hs

/-- The layer of a statement is that of the panel that it opens. -/
theorem layer?_eq (ss : List (Statement α)) (s : Statement α) :
    s.layer? = (panel? ss s).map (·.layer) := by
  have hpanel : (panel? ss s).map (·.layer) = (header? ss s).map (·.layer) := by
    rw [panel?, Option.map_map]
    rfl
  rw [hpanel, Statement.layer?, header?]
  cases hk : s.command.kind with
  | panel side =>
    by_cases hu : s.isUsable = true
    · have hlen := hu
      rw [Statement.isUsable_eq, hk, decide_eq_true_eq] at hlen
      obtain ⟨p, hp⟩ := Option.isSome_iff_exists.mp
        (SheathingPanel.isSome_ofStatement? hlen side (moduleAt ss s.index))
      simp [hu, hp, SheathingPanel.layer_of_ofStatement? hp]
    · simp [hu]
  | _ => rfl

theorem isLatest_layerAt (hn : Numbered ss) (i : Nat) :
    IsLatest ss (fun s => (panel? ss s).map (·.layer)) (fun _ => false) i (layerAt ss i) := by
  intro b
  simp only [layerAt, findSome?_before_eq_some hn, Latest, ← layer?_eq, Bool.not_false,
    Bool.and_true]

/-! ## Roles -/

namespace Stands

variable (h : Stands ss s c)
include h

theorem member?_role (kind : MemberKind) :
    ((c.settle s.command.kind).role s).member? kind = (member? ss s).filter (·.kind = kind) := by
  have hmodule : (c.settle s.command.kind).setting.module = moduleAt ss s.index := by
    rw [c.settle_setting, h.opened.module]
  cases hk : s.command.kind.isMember with
  | true =>
    rw [role_of_isMember hmodule hk]
    cases member? ss s with
    | none => rfl
    | some m => simp [Role.member?, Option.filter]
  | false =>
    rw [member?_of_not_isMember hk]
    have hplays := (c.settle s.command.kind).plays_role s
    generalize (c.settle s.command.kind).role s = r at hplays
    cases hplays with
    | member kind => exact absurd (hk.symm.trans kind) (by decide)
    | _ => rfl

theorem nailRow?_role : ((c.settle s.command.kind).role s).nailRow? = nailRow? ss s := by
  have hplays := (c.settle s.command.kind).plays_role s
  generalize hr : (c.settle s.command.kind).role s = r at hplays
  cases hplays with
  | nailRow kind entry usable =>
    rw [c.settle_setting, h.opened.layer] at entry
    simp [Role.nailRow?, nailRow?, kind, usable, entry]
  | unhandled known none =>
    refine (if_neg fun hif => ?_).symm
    obtain ⟨hk, hu⟩ := hif
    have := isUsable_of_unhandled_of_notMem (.unhandled known none) rfl (by simp [hk])
    exact absurd (hu.symm.trans this) (by decide)
  | member kind =>
    refine (if_neg fun hif => ?_).symm
    simp [hif.1, CommandKind.isMember] at kind
  | _ => simp_all [Role.nailRow?, nailRow?]

theorem drilling?_role : ((c.settle s.command.kind).role s).drilling? = drilling? ss s := by
  have hplays := (c.settle s.command.kind).plays_role s
  generalize hr : (c.settle s.command.kind).role s = r at hplays
  cases hplays with
  | drilling kind entry usable =>
    rw [c.settle_setting, h.opened.module, h.opened.member] at entry
    simp [Role.drilling?, drilling?, kind, usable, entry]
  | unhandled known none =>
    refine (if_neg fun hif => ?_).symm
    obtain ⟨hk, hu⟩ := hif
    have := isUsable_of_unhandled_of_notMem (.unhandled known none) rfl (by simp [hk])
    exact absurd (hu.symm.trans this) (by decide)
  | member kind =>
    refine (if_neg fun hif => ?_).symm
    simp [hif.1, CommandKind.isMember] at kind
  | _ => simp_all [Role.drilling?, drilling?]

omit h in
theorem module?_role_eq : ((c.settle s.command.kind).role s).module? = s.module? := by
  have hplays := (c.settle s.command.kind).plays_role s
  generalize hr : (c.settle s.command.kind).role s = r at hplays
  cases hplays with
  | unhandled known none =>
    unfold Statement.module?
    split
    · next hk =>
      have hu := isUsable_of_unhandled_of_notMem (.unhandled known none) rfl (by simp [hk])
      simp [hu, Role.module?]
    · rfl
  | member kind =>
    unfold Statement.module?
    split
    · next hk => simp [hk, CommandKind.isMember] at kind
    · rfl
  | _ => simp_all [Role.module?, Statement.module?]

end Stands

end Attribution

/-! ## Places -/

/-- A point lies where its coordinates relative to a module say, and without a module where they say
relative to the origin of the wall. -/
structure ModuleFrame.Places (module? : Option (ModuleFrame α)) (x y localX localY : α) : Prop where
  in_module : ∀ f, module? = some f → x = f.originX + localX ∧ y = f.originY + localY
  in_wall : module? = none → x = 0.0 + localX ∧ y = 0.0 + localY

theorem ModuleFrame.places_origin (module? : Option (ModuleFrame α)) (localX localY : α) :
    Places module? ((origin module?).x + localX) ((origin module?).y + localY) localX localY where
  in_module f hf := by
    subst hf
    exact ⟨rfl, rfl⟩
  in_wall hn := by
    subst hn
    exact ⟨rfl, rfl⟩

/-- A drilling goes into a member, if one is given, and lies where its coordinates say: along the
wall from the member, or else from the module, and in height from the module. -/
structure Drilling.Resolves (d : Drilling α) (module? : Option (ModuleFrame α))
    (member? : Option (FrameMember α)) : Prop where
  target : d.target = member?
  along_target : ∀ t, member? = some t → d.x = t.x + d.localX
  along_module : member? = none → ∀ f, module? = some f → d.x = f.originX + d.localX
  along_wall : member? = none → module? = none → d.x = d.localX
  height : d.z = (module?.map (·.originZ)).getD 0.0 + d.localZ

theorem FrameMember.places_of_ofStatement? {s : Statement α} {k : MemberKind} {o : Orientation}
    {module? : Option (ModuleFrame α)} {p : Option PlateRole} {m : FrameMember α}
    (h : FrameMember.ofStatement? s k o module? p = some m) :
    ModuleFrame.Places module? m.x m.y m.localX m.localY := by
  unfold ofStatement? ofNumbers? at h
  split at h
  · cases h; exact ModuleFrame.places_origin module? _ _
  · cases h

theorem SheathingPanel.places_of_ofStatement? {s : Statement α} {side : Side}
    {module? : Option (ModuleFrame α)} {p : SheathingPanel α}
    (h : SheathingPanel.ofStatement? s side module? = some p) :
    ModuleFrame.Places module? p.x p.y p.localX p.localY := by
  unfold SheathingPanel.ofStatement? at h
  dsimp only at h
  split at h
  · cases h; exact ModuleFrame.places_origin module? _ _
  · cases h

omit [Scalar α] in
theorem NailRow.layer_of_ofStatement? {s : Statement α} {layer : Option PanelLayer}
    {r : NailRow α} (h : NailRow.ofStatement? s layer = some r) : r.layer = layer := by
  unfold NailRow.ofStatement? at h
  split at h
  · cases h; rfl
  · cases h

theorem Drilling.resolves_of_ofStatement? {s : Statement α} {module? : Option (ModuleFrame α)}
    {member? : Option (FrameMember α)} {d : Drilling α}
    (h : Drilling.ofStatement? s module? member? = some d) : d.Resolves module? member? := by
  unfold Drilling.ofStatement? at h
  split at h
  · cases h
    refine ⟨rfl, fun t ht => ?_, fun hn f hf => ?_, fun hn hf => ?_, by cases module? <;> rfl⟩
    · subst ht; rfl
    · subst hn hf; rfl
    · subst hn hf; rfl
  · cases h

/-! ## A document -/

namespace Attribution

variable {ss : List (Statement α)} {s : Statement α} {m : WallModel α}

/-- What the entities of a model inherit from the statements before theirs. -/
structure Inherits (ss : List (Statement α)) (m : WallModel α) : Prop where
  /-- A module reaches up to its end, or to the next one. -/
  module : ∀ i, IsLatest ss Statement.module? Statement.endsModule i (moduleAt ss i)
  /-- A member is drilled until the next one, or until a module begins or ends. -/
  member : ∀ i, IsLatest ss (member? ss) Statement.turnsModule i (memberAt ss i)
  /-- A layer reaches up to the next panel. -/
  layer : ∀ i,
    IsLatest ss (fun s => (panel? ss s).map (·.layer)) (fun _ => false) i (layerAt ss i)
  modules : m.modules = ss.filterMap Statement.module?
  studs : m.studs = (ss.filterMap (member? ss)).filter (·.kind = .stud)
  blocking : m.blocking = (ss.filterMap (member? ss)).filter (·.kind = .blocking)
  plates : m.plates = (ss.filterMap (member? ss)).filter (·.kind = .plate)
  sheathing : m.sheathing = ss.filterMap (panel? ss)
  nailRows : m.nailRows.map NailRow.anonymous = ss.filterMap (nailRow? ss)
  drillings : m.drillings.map Drilling.anonymous = ss.filterMap (drilling? ss)
  routings : m.routings.map Routing.anonymous = ss.filterMap (routing? ss)
  member_placed : ∀ x ∈ m.studs ++ m.blocking,
    ModuleFrame.Places (moduleAt ss x.statementIndex) x.x x.y x.localX x.localY
  panel_placed : ∀ p ∈ m.sheathing,
    ModuleFrame.Places (moduleAt ss p.statementIndex) p.x p.y p.localX p.localY
  drilling_resolved : ∀ d ∈ m.drillings, d.Resolves (moduleAt ss d.statementIndex)
    (memberAt ss d.statementIndex)
  nailRow_layer : ∀ r ∈ m.nailRows, r.layer = layerAt ss r.statementIndex
  routing_layer : ∀ r ∈ m.routings, r.layer = layerAt ss r.statementIndex

section Read

variable (hn : Numbered ss)
include hn

theorem members_read (kind : MemberKind) :
    (Context.start.read ss).filterMap (·.role.member? kind) =
      (ss.filterMap (member? ss)).filter (·.kind = kind) := by
  rw [List.filter_filterMap]
  exact filterMap_read hn fun _ _ h => h.member?_role kind

end Read

/-- A member that is no plate is placed relative to the module at its statement. -/
theorem places_of_member? {x : FrameMember α} (h : member? ss s = some x) (hk : x.kind ≠ .plate) :
    ModuleFrame.Places (moduleAt ss x.statementIndex) x.x x.y x.localX x.localY := by
  obtain ⟨-, h⟩ := Option.ite_none_right_eq_some.mp h
  have hindex {k : MemberKind} {o : Orientation} {module? : Option (ModuleFrame α)}
      {p : Option PlateRole} (h : FrameMember.ofStatement? s k o module? p = some x) :
      x.statementIndex = s.index ∧ x.kind = k ∧
        ModuleFrame.Places module? x.x x.y x.localX x.localY :=
    ⟨(FrameMember.of_ofStatement? h).1, (FrameMember.of_ofStatement? h).2,
      FrameMember.places_of_ofStatement? h⟩
  unfold Statement.member? at h
  split at h
  · obtain ⟨hi, -, hp⟩ := hindex h; rwa [hi]
  · obtain ⟨hi, -, hp⟩ := hindex h; rwa [hi]
  · exact absurd (hindex h).2.1 hk
  · exact absurd (hindex h).2.1 hk
  · cases h

theorem places_of_panel? {p : SheathingPanel α} (h : panel? ss s = some p) :
    ModuleFrame.Places (moduleAt ss p.statementIndex) p.x p.y p.localX p.localY := by
  obtain ⟨q, hq, rfl⟩ := Option.map_eq_some_iff.mp h
  unfold header? at hq
  split at hq
  · obtain ⟨-, hq⟩ := Option.ite_none_right_eq_some.mp hq
    have hp := SheathingPanel.places_of_ofStatement? hq
    rw [← (SheathingPanel.of_ofStatement? hq).1] at hp
    exact hp
  · cases hq

theorem resolves_of_drilling? {d : Drilling α} (h : drilling? ss s = some d) :
    d.Resolves (moduleAt ss d.statementIndex) (memberAt ss d.statementIndex) := by
  obtain ⟨-, h⟩ := Option.ite_none_right_eq_some.mp h
  rw [(Drilling.of_ofStatement? h).1]
  exact Drilling.resolves_of_ofStatement? h

omit [Scalar α] in
theorem layer_of_nailRow? {r : NailRow α} (h : nailRow? ss s = some r) :
    r.layer = layerAt ss r.statementIndex := by
  obtain ⟨-, h⟩ := Option.ite_none_right_eq_some.mp h
  rw [(NailRow.of_ofStatement? h).1]
  exact NailRow.layer_of_ofStatement? h

theorem layer_of_routing? {r : Routing α} (h : routing? ss s = some r) :
    r.layer = layerAt ss r.statementIndex := by
  obtain ⟨-, he⟩ := Option.ite_none_right_eq_some.mp h
  cases he
  rfl

omit [Scalar α] in
/-- Each entity of a collection comes from a statement that gives it, whatever its id. -/
theorem exists_of_mem {γ : Type} {xs : List γ} {anonymous : γ → γ} {f : Statement α → Option γ}
    (h : xs.map anonymous = ss.filterMap f) {x : γ} (hx : x ∈ xs) :
    ∃ s ∈ ss, f s = some (anonymous x) :=
  List.mem_filterMap.mp (h ▸ List.mem_map_of_mem hx)

theorem inherits_of_reading (hn : Numbered ss) (h : m.Says (Context.start.read ss)) :
    Inherits ss m where
  module := isLatest_moduleAt hn
  member := isLatest_memberAt hn
  layer := isLatest_layerAt hn
  modules := by rw [h.frame.modules]; exact filterMap_read hn fun _ _ _ => Stands.module?_role_eq
  studs := by rw [h.frame.studs, members_read hn]
  blocking := by rw [h.frame.blocking, members_read hn]
  plates := by rw [h.frame.plates, members_read hn]
  sheathing := by rw [h.frame.sheathing, sheathing_read hn]
  nailRows := by rw [h.frame.nailRows]; exact filterMap_read hn fun _ _ h => h.nailRow?_role
  drillings := by rw [h.frame.drillings]; exact filterMap_read hn fun _ _ h => h.drilling?_role
  routings := by rw [h.routings, routings_read hn]
  member_placed x hx := by
    rw [h.frame.studs, h.frame.blocking, members_read hn, members_read hn, List.mem_append,
      List.mem_filter, List.mem_filter] at hx
    obtain ⟨s, -, hs⟩ := List.mem_filterMap.mp (hx.elim And.left And.left)
    refine places_of_member? hs ?_
    rcases hx with ⟨-, hk⟩ | ⟨-, hk⟩ <;> simp [of_decide_eq_true hk]
  panel_placed p hp := by
    rw [h.frame.sheathing, sheathing_read hn] at hp
    obtain ⟨s, -, hs⟩ := List.mem_filterMap.mp hp
    exact places_of_panel? hs
  drilling_resolved d hd := by
    obtain ⟨s, -, hs⟩ := exists_of_mem
      (h.frame.drillings.trans (filterMap_read hn fun _ _ h => h.drilling?_role)) hd
    obtain ⟨target, along, module, wall, height⟩ := resolves_of_drilling? hs
    exact ⟨target, along, module, wall, height⟩
  nailRow_layer r hr := by
    obtain ⟨s, -, hs⟩ := exists_of_mem
      (h.frame.nailRows.trans (filterMap_read hn fun _ _ h => h.nailRow?_role)) hr
    exact (layer_of_nailRow? hs : r.anonymous.layer = _)
  routing_layer r hr := by
    obtain ⟨s, -, hs⟩ := exists_of_mem (h.routings.trans (routings_read hn)) hr
    exact (layer_of_routing? hs : r.anonymous.layer = _)

end Attribution

/-- What the entities of a model that was read from a text inherit is found by looking back from
their statements: a stud, blocking, a panel and a drilling the last module that has begun and not
ended, a drilling the last member since a module began or ended, nail rows and routings the layer of
the last panel. Whatever else stands between, with enough numbers or without, does not count. -/
theorem inherits_of_parseModel {text : String} {k : Int} {m : WallModel α}
    (hm : parseModel text k = .ok m) :
    ∃ ss, Statement.readAll 0 (splitStatements text) = .ok ss ∧ Inherits ss m := by
  obtain ⟨⟨ss, hss, hsaid⟩, -⟩ := says_of_parseModel hm
  exact ⟨ss, hss, inherits_of_reading (numbered_of_readAll hss) hsaid⟩

set_option maxRecDepth 100000 in
/-- A drilling in a module and one behind its end, and a nail row behind a panel, with statements
between that have too few numbers. -/
theorem inherits_module_then_panel :
    ∃ (text : String) (m : WallModel Float),
      text =
        "MODUL 9,9,9,1,2;QS 5;BOY 1,2,3,4;PLI 9,9,1,0,0,1;ENDMODUL;PLA 1;BOY 1,2,3,4;NR 0,0,9,9" ∧
      parseModel text 1 = .ok m ∧ m.nailRows.map NailRow.layer = [some ⟨.inner, 1, "PLI"⟩] ∧
      m.drillings.map (fun d : Drilling Float => (d.x == 2.0, d.x == 1.0)) =
        [(true, false), (false, true)] ∧
      ∃ ss, Statement.readAll 0 (splitStatements text) = .ok ss ∧ Inherits ss m := by
  have heval : (do
      let m ← (parseModel (α := Float)
        "MODUL 9,9,9,1,2;QS 5;BOY 1,2,3,4;PLI 9,9,1,0,0,1;ENDMODUL;PLA 1;BOY 1,2,3,4;NR 0,0,9,9"
        1).toOption
      if m.nailRows.map NailRow.layer = [some (⟨.inner, 1, "PLI"⟩ : PanelLayer)] ∧
        m.drillings.map (fun d : Drilling Float => (d.x == 2.0, d.x == 1.0)) =
          [(true, false), (false, true)]
      then some m else none).isSome = true := by
    decide +kernel
  obtain ⟨m, h⟩ := Option.isSome_iff_exists.mp heval
  simp only [Option.bind_eq_bind, Option.bind_eq_some_iff, Option.ite_none_right_eq_some] at h
  obtain ⟨m, hm, ⟨hlayers, hplaces⟩, ⟨⟩⟩ := h
  have hm := eq_ok_of_toOption hm
  exact ⟨_, m, rfl, hm, hlayers, hplaces, inherits_of_parseModel hm⟩

end WallPanel
