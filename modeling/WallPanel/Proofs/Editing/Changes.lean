import Mathlib.Data.List.Find
import WallPanel.Proofs.Editing.Ownership

/-!
# Changes of single entities

An edit of several entities plans a change of each (`BatchEdit.plan`) and makes it
(`WallModel.make`). The change of an entity reads and writes what this entity owns. So a change of one
leaves the plan for another as it is (`BatchEdit.plan_make`), and two changes can be made in either
order (`WallModel.make_comm`).

* `Change`, `WallModel.make`: the change of an entity, and the model with it made.
* `BatchEdit`, `BatchEdit.change?`: what can be asked of several entities, and the change of one.
* `BatchEdit.step_make`: a change that is made is a step of a session.
* `BatchEdit.foldl_take_perm`: several changes can be made in any order.
-/

namespace WallPanel

/-! ## Lists of which parts are changed -/

section Lists

variable {β : Type} (id? : β → Option Int) {i j : Option Int} {b c : β}

theorem modifyFirst_comm (hij : i ≠ j) (hb : id? b = i) (hc : id? c = j) (l : List β) :
    modifyFirst (id? · == j) (fun _ => c) (modifyFirst (id? · == i) (fun _ => b) l) =
      modifyFirst (id? · == i) (fun _ => b) (modifyFirst (id? · == j) (fun _ => c) l) := by
  induction l with
  | nil => rfl
  | cons x l ih =>
    by_cases hi : id? x = i
    · simp [modifyFirst, hi, hij, hb]
    · by_cases hj : id? x = j
      · simp [modifyFirst, hj, hij.symm, hc]
      · simp [modifyFirst, hi, hj, ih]

theorem modifyFirst_eraseP (hij : i ≠ j) (hb : id? b = i) (l : List β) :
    modifyFirst (id? · == i) (fun _ => b) (l.eraseP (id? · == j)) =
      (modifyFirst (id? · == i) (fun _ => b) l).eraseP (id? · == j) := by
  induction l with
  | nil => rfl
  | cons x l ih =>
    by_cases hi : id? x = i
    · simp [modifyFirst, hi, hij, hb]
    · by_cases hj : id? x = j
      · simp [modifyFirst, hj, hij.symm]
      · simp [modifyFirst, hi, hj, ih]

theorem eraseP_id_comm (hij : i ≠ j) (l : List β) :
    (l.eraseP (id? · == i)).eraseP (id? · == j) = (l.eraseP (id? · == j)).eraseP (id? · == i) :=
  List.eraseP_comm fun x _ => by
    by_cases hi : id? x = i
    · exact .inr (by simp [hi, hij])
    · exact .inl (by simpa using hi)

theorem find?_modifyFirst_of_ne (hij : i ≠ j) (hb : id? b = i) (l : List β) :
    (modifyFirst (id? · == i) (fun _ => b) l).find? (id? · == j) = l.find? (id? · == j) := by
  induction l with
  | nil => rfl
  | cons x l ih =>
    by_cases hi : id? x = i
    · simp [modifyFirst, hi, hij, hb]
    · by_cases hj : id? x = j
      · simp [modifyFirst, hj, hij.symm]
      · simp [modifyFirst, hi, hj, ih]

theorem find?_eraseP_of_ne (hij : i ≠ j) (l : List β) :
    (l.eraseP (id? · == i)).find? (id? · == j) = l.find? (id? · == j) := by
  induction l with
  | nil => rfl
  | cons x l ih =>
    by_cases hi : id? x = i
    · simp [hi, hij]
    · by_cases hj : id? x = j
      · simp [hj, hij.symm]
      · simp [hi, hj, ih]

end Lists

/-- Statements with some of them written, and some taken out. -/
def writeAll (statements : List (Option String)) (writes : List (Nat × Option String)) :
    List (Option String) :=
  writes.foldl (fun ss w => ss.set w.1 w.2) statements

section Writes

variable {writes writes' : List (Nat × Option String)}

theorem getElem?_writeAll_of_notMem {i : Nat} (h : i ∉ writes.map (·.1))
    (statements : List (Option String)) : (writeAll statements writes)[i]? = statements[i]? := by
  induction writes generalizing statements with
  | nil => rfl
  | cons w writes ih =>
    rw [List.map_cons, List.mem_cons, not_or] at h
    exact (ih h.2 _).trans (List.getElem?_set_ne (Ne.symm h.1))

theorem writeAll_set {i : Nat} (h : i ∉ writes.map (·.1)) (t : Option String)
    (statements : List (Option String)) :
    writeAll (statements.set i t) writes = (writeAll statements writes).set i t := by
  induction writes generalizing statements with
  | nil => rfl
  | cons w writes ih =>
    rw [List.map_cons, List.mem_cons, not_or] at h
    simp only [writeAll, List.foldl_cons] at ih ⊢
    rw [List.set_comm _ _ h.1, ih h.2]

theorem writeAll_comm (h : ∀ i ∈ writes.map (·.1), i ∉ writes'.map (·.1))
    (statements : List (Option String)) :
    writeAll (writeAll statements writes) writes' =
      writeAll (writeAll statements writes') writes := by
  induction writes generalizing statements with
  | nil => rfl
  | cons w writes ih =>
    have hw : w.1 ∉ writes'.map (·.1) := h w.1 (by simp)
    have hwrites : ∀ i ∈ writes.map (·.1), i ∉ writes'.map (·.1) :=
      fun i hi => h i (List.mem_cons_of_mem _ hi)
    calc writeAll (writeAll (statements.set w.1 w.2) writes) writes'
        = writeAll (writeAll (statements.set w.1 w.2) writes') writes := ih hwrites _
      _ = writeAll ((writeAll statements writes').set w.1 w.2) writes := by rw [writeAll_set hw]

end Writes

variable {α : Type}

/-! ## Changes of one entity -/

/-- What an edit makes of one entity: what stands in its place, if anything does, and what becomes of
its statements. -/
structure Change (α : Type) where
  old : Entity α
  new : Option (Entity α)
  writes : List (Nat × Option String)

/-- An entity in place of another is of its kind and has its id, and only the statements of an entity
are written. -/
structure Change.Local (c : Change α) : Prop where
  kind : ∀ E ∈ c.new, E.kind = c.old.kind
  editorId : ∀ E ∈ c.new, E.editorId = c.old.editorId
  writes : ∀ i ∈ c.writes.map (·.1), i ∈ c.old.statementIndices

namespace WallModel

/-- The model with an entity changed. Its statements and the bounds are left as they are. -/
def alter (m : WallModel α) (c : Change α) : WallModel α :=
  match c.new with
  | some E => m.put E
  | none => m.remove c.old

/-- The model with other statements. -/
def written (m : WallModel α) (statements : List (Option String)) : WallModel α :=
  { m with statements }

/-- The model with other bounds. -/
def bounded (m : WallModel α) (bounds : Bounds α) : WallModel α :=
  { m with bounds }

/-- The model with a change made. The bounds are left as they are. -/
def make (m : WallModel α) (c : Change α) : WallModel α :=
  (m.alter c).written (writeAll m.statements c.writes)

variable {m : WallModel α} {E F : Entity α}

theorem put_comm (hne : E.kind = F.kind → E.editorId ≠ F.editorId) :
    (m.put E).put F = (m.put F).put E := by
  cases E <;> cases F <;> simp only [put, WallModel.mk.injEq, true_and, and_true]
  case nailRow.nailRow => exact modifyFirst_comm NailRow.editorId (hne rfl) rfl rfl _
  case drilling.drilling => exact modifyFirst_comm Drilling.editorId (hne rfl) rfl rfl _
  case routing.routing => exact modifyFirst_comm Routing.editorId (hne rfl) rfl rfl _

theorem remove_put (hne : E.kind = F.kind → E.editorId ≠ F.editorId) :
    (m.put E).remove F = (m.remove F).put E := by
  cases E <;> cases F <;> simp only [put, remove, WallModel.mk.injEq, true_and, and_true]
  case nailRow.nailRow => exact (modifyFirst_eraseP NailRow.editorId (hne rfl) rfl _).symm
  case drilling.drilling => exact (modifyFirst_eraseP Drilling.editorId (hne rfl) rfl _).symm
  case routing.routing => exact (modifyFirst_eraseP Routing.editorId (hne rfl) rfl _).symm

theorem remove_comm (hne : E.kind = F.kind → E.editorId ≠ F.editorId) :
    (m.remove E).remove F = (m.remove F).remove E := by
  cases E <;> cases F <;> simp only [remove, WallModel.mk.injEq, true_and, and_true]
  case nailRow.nailRow => exact eraseP_id_comm NailRow.editorId (hne rfl) _
  case drilling.drilling => exact eraseP_id_comm Drilling.editorId (hne rfl) _
  case routing.routing => exact eraseP_id_comm Routing.editorId (hne rfl) _

theorem find?_put {kind : EntityKind} {id : Int} (hne : E.kind = kind → E.editorId ≠ some id) :
    (m.put E).find? kind id = m.find? kind id := by
  cases E <;> cases kind <;> simp only [put, find?]
  case nailRow.nailRow =>
    exact congrArg (Option.map _) (find?_modifyFirst_of_ne NailRow.editorId (hne rfl) rfl _)
  case drilling.drilling =>
    exact congrArg (Option.map _) (find?_modifyFirst_of_ne Drilling.editorId (hne rfl) rfl _)
  case routing.routing =>
    exact congrArg (Option.map _) (find?_modifyFirst_of_ne Routing.editorId (hne rfl) rfl _)

theorem find?_remove {kind : EntityKind} {id : Int} (hne : E.kind = kind → E.editorId ≠ some id) :
    (m.remove E).find? kind id = m.find? kind id := by
  cases E <;> cases kind <;> simp only [remove, find?]
  case nailRow.nailRow =>
    exact congrArg (Option.map _) (find?_eraseP_of_ne NailRow.editorId (hne rfl) _)
  case drilling.drilling =>
    exact congrArg (Option.map _) (find?_eraseP_of_ne Drilling.editorId (hne rfl) _)
  case routing.routing =>
    exact congrArg (Option.map _) (find?_eraseP_of_ne Routing.editorId (hne rfl) _)

variable {c c' : Change α}

theorem alter_comm (hc : c.Local) (hc' : c'.Local)
    (hne : c.old.kind = c'.old.kind → c.old.editorId ≠ c'.old.editorId) :
    (m.alter c).alter c' = (m.alter c').alter c := by
  have hne' : c'.old.kind = c.old.kind → c'.old.editorId ≠ c.old.editorId :=
    fun hk => (hne hk.symm).symm
  unfold alter
  cases h : c.new with
  | none =>
    cases h' : c'.new with
    | none => exact remove_comm hne
    | some F =>
      refine (remove_put ?_).symm
      rw [hc'.kind F h', hc'.editorId F h']
      exact hne'
  | some E =>
    cases h' : c'.new with
    | none =>
      refine remove_put ?_
      rw [hc.kind E h, hc.editorId E h]
      exact hne
    | some F =>
      refine put_comm ?_
      rw [hc.kind E h, hc.editorId E h, hc'.kind F h', hc'.editorId F h']
      exact hne

theorem find?_alter (hc : c.Local) {kind : EntityKind} {id : Int}
    (hne : c.old.kind = kind → c.old.editorId ≠ some id) :
    (m.alter c).find? kind id = m.find? kind id := by
  unfold alter
  cases h : c.new with
  | none => exact find?_remove hne
  | some E =>
    refine find?_put ?_
    rw [hc.kind E h, hc.editorId E h]
    exact hne

theorem alter_written (m : WallModel α) (statements : List (Option String)) (c : Change α) :
    (m.written statements).alter c = (m.alter c).written statements := by
  unfold alter
  split
  · next E _ => cases E <;> rfl
  · cases c.old <;> rfl

theorem alter_bounded (m : WallModel α) (bounds : Bounds α) (c : Change α) :
    (m.bounded bounds).alter c = (m.alter c).bounded bounds := by
  unfold alter
  split
  · next E _ => cases E <;> rfl
  · cases c.old <;> rfl

/-- A change does not read the bounds. -/
theorem make_bounded (m : WallModel α) (bounds : Bounds α) (c : Change α) :
    (m.bounded bounds).make c = (m.make c).bounded bounds := by
  rw [make, alter_bounded]
  rfl

/-- Changes of different entities can be made in either order. -/
theorem make_comm (hc : c.Local) (hc' : c'.Local)
    (hne : c.old.kind = c'.old.kind → c.old.editorId ≠ c'.old.editorId)
    (hapart : ∀ i ∈ c.old.statementIndices, i ∉ c'.old.statementIndices) :
    (m.make c).make c' = (m.make c').make c := by
  have hmake (c c' : Change α) : (m.make c).make c' =
      ((m.alter c).alter c').written (writeAll (writeAll m.statements c.writes) c'.writes) := by
    rw [make, make, alter_written]
    rfl
  have hwrites : ∀ i ∈ c.writes.map (·.1), i ∉ c'.writes.map (·.1) :=
    fun i hi hi' => hapart i (hc.writes i hi) (hc'.writes i hi')
  rw [hmake, hmake, alter_comm hc hc' hne, writeAll_comm hwrites]

end WallModel

/-! ## Plans -/

/-- What is asked of several entities. -/
inductive BatchEdit (α : Type) where
  | translate (axisName : String) (distance : Option α)
  | delete

namespace BatchEdit

variable [Scalar α]

/-- The request for some entities. -/
def request (edit : BatchEdit α) (refs : List EntityRef) : EditRequest α :=
  match edit with
  | translate axisName distance => .translate refs axisName distance
  | delete => .delete refs

/-- What becomes of an entity, if it can be changed. -/
def change? (edit : BatchEdit α) (statements : List (Option String)) (E : Entity α) :
    Option (Change α) :=
  match edit with
  | translate axisName distance => do
    let d ← distance.filter fun d => Scalar.isFinite d && !(d == 0.0)
    let axis ← E.kind.axis? axisName
    let E' ← E.translate? axis d
    return ⟨E, some E', E.lines.map fun e =>
      (e.statementIndex, some (e.movedText statements (E.kind.positions axis) d))⟩
  | delete => some ⟨E, none, E.statementIndices.map fun i => (i, none)⟩

/-- The change of the entity that a request names, if it is there and can be changed. -/
def plan (edit : BatchEdit α) (m : WallModel α) (ref : EntityRef) : Option (Change α) :=
  (m.resolve ref).toOption.bind (edit.change? m.statements)

/-- Make the change of one entity, and count it. -/
def take (edit : BatchEdit α) (w : WallModel α × Nat) (ref : EntityRef) : WallModel α × Nat :=
  match edit.plan w.1 ref with
  | none => w
  | some c => (w.1.make c, w.2 + 1)

/-- Make the changes of several entities. -/
def takeAll (edit : BatchEdit α) (m : WallModel α) (refs : List EntityRef) : WallModel α × Nat :=
  refs.foldl edit.take (m, 0)

variable {edit : BatchEdit α} {m m' : WallModel α} {ref ref' : EntityRef} {E : Entity α}
  {statements statements' : List (Option String)} {c : Change α}

theorem local_of_change? (hE : ∀ e ∈ E.lines, e.statementIndex ∈ E.statementIndices)
    (h : edit.change? statements E = some c) : c.old = E ∧ c.Local := by
  cases edit with
  | translate axisName distance =>
    simp only [change?, Option.bind_eq_bind, Option.bind_eq_some_iff] at h
    obtain ⟨d, -, axis, -, E', hE', ⟨⟩⟩ := h
    have hmoves := Entity.movesTo_of_translate? hE'
    refine ⟨rfl, ?_, ?_, fun i hi => ?_⟩
    · rintro _ ⟨⟩
      exact hmoves.kind
    · rintro _ ⟨⟩
      exact hmoves.editorId
    · rw [List.map_map] at hi
      obtain ⟨e, he, rfl⟩ := List.mem_map.mp hi
      exact hE e he
  | delete =>
    obtain rfl := Option.some.inj h
    exact ⟨rfl, nofun, nofun, by simp [Function.comp_def]⟩

/-- The change of an entity depends on its own statements only. -/
theorem change?_congr (hE : ∀ e ∈ E.lines, e.statementIndex ∈ E.statementIndices)
    (h : ∀ i ∈ E.statementIndices, statements'[i]? = statements[i]?) :
    edit.change? statements' E = edit.change? statements E := by
  cases edit with
  | translate axisName distance =>
    have hwrites (axis : Axis) (d : α) : (E.lines.map fun e =>
          (e.statementIndex, some (e.movedText statements' (E.kind.positions axis) d))) =
        E.lines.map fun e =>
          (e.statementIndex, some (e.movedText statements (E.kind.positions axis) d)) :=
      List.map_congr_left fun e he => by
        rw [SourceEntry.movedText, movedStatement, h _ (hE e he), SourceEntry.movedText,
          movedStatement]
    simp only [change?, hwrites]
  | delete => rfl

theorem exists_of_plan (hm : m.Ownership) (h : edit.plan m ref = some c) :
    m.resolve ref = .ok c.old ∧ c.old ∈ m.entities ∧ c.old.kind.name = ref.kind ∧
      c.old.editorId = some ref.id ∧ edit.change? m.statements c.old = some c ∧ c.Local := by
  obtain ⟨E, hE, hchange⟩ := Option.bind_eq_some_iff.mp h
  have hresolve := eq_ok_of_toOption hE
  obtain ⟨hname, hfind, -⟩ := WallModel.resolve_eq_ok hresolve
  obtain ⟨-, hid, init, rest, hsplit, -⟩ := WallModel.exists_split hfind
  have hmem : E ∈ m.entities := by simp [hsplit]
  obtain ⟨rfl, hlocal⟩ := local_of_change? (fun e he => ((hm.owns E hmem).lines e he).1) hchange
  exact ⟨hresolve, hmem, hname.symm, hid, hchange, hlocal⟩

end BatchEdit

namespace WallModel

variable [Scalar α] {m m' : WallModel α} {ref : EntityRef} {E F : Entity α} {c : Change α}

omit [Scalar α] in
/-- A request finds the same entity where the one that it names and the statements of this one are
the same. -/
theorem resolve_congr
    (hfind : ∀ kind : EntityKind, kind.name = ref.kind →
      m'.find? kind ref.id = m.find? kind ref.id)
    (hlive : ∀ kind F, m.find? kind ref.id = some F → kind.name = ref.kind →
      ∀ i ∈ F.statementIndices, m'.isLive i = m.isLive i) :
    m'.resolve ref = m.resolve ref := by
  unfold resolve
  cases hk : EntityKind.ofName? ref.kind with
  | none => rfl
  | some kind =>
    have hname : kind.name = ref.kind := by simpa using List.find?_some hk
    rw [Option.bind_some, Option.bind_some, hfind kind hname]
    cases hF : m.find? kind ref.id with
    | none => rfl
    | some F =>
      have hgone : F.statementIndices.find? (fun i => !m'.isLive i) =
          F.statementIndices.find? fun i => !m.isLive i :=
        List.find?_congr fun i hi => by rw [hlive kind F hF hname i hi]
      simp only [hgone]

omit [Scalar α] in
/-- An entity has no statement of another one. -/
theorem Apart.disjoint_of_ne (h : m.Apart) (hE : E ∈ m.entities) (hF : F ∈ m.entities)
    (hne : E.kind = F.kind → E.editorId ≠ F.editorId) :
    ∀ i ∈ E.statementIndices, i ∉ F.statementIndices := by
  intro i hi hi'
  obtain ⟨init, rest, hsplit⟩ := List.append_of_mem hE
  have hmem : F ∈ init ++ rest := by
    have hEF : F ≠ E := by rintro rfl; exact hne rfl rfl
    simpa [hsplit, hEF] using hF
  exact h.disjoint hsplit hmem hi' hi

end WallModel

namespace BatchEdit

variable [Scalar α] {edit : BatchEdit α} {m m' : WallModel α} {ref ref' : EntityRef}
  {c c' : Change α}

omit [Scalar α] in
theorem ne_of_refs_ne (hne : ref ≠ ref') {E F : Entity α} (hE : E.kind.name = ref.kind)
    (hid : E.editorId = some ref.id) (hF : F.kind.name = ref'.kind)
    (hid' : F.editorId = some ref'.id) : E.kind = F.kind → E.editorId ≠ F.editorId := by
  intro hk he
  rw [hid, hid'] at he
  cases ref; cases ref'
  simp_all

/-- The change of an entity leaves the plan for another one as it is. -/
theorem plan_make (hm : m.Ownership) (hne : ref ≠ ref') (hc : edit.plan m ref = some c) :
    edit.plan (m.make c) ref' = edit.plan m ref' := by
  obtain ⟨-, hmem, hname, hid, -, hlocal⟩ := exists_of_plan hm hc
  have hstatements {F : Entity α} (hF : F ∈ m.entities) (hname' : F.kind.name = ref'.kind)
      (hid' : F.editorId = some ref'.id) :
      ∀ i ∈ F.statementIndices, (m.make c).statements[i]? = m.statements[i]? := by
    have hapart := hm.apart.disjoint_of_ne hmem hF (ne_of_refs_ne hne hname hid hname' hid')
    exact fun i hi => getElem?_writeAll_of_notMem
      (fun hw => hapart i (hlocal.writes i hw) hi) m.statements
  have hfound {kind : EntityKind} {F : Entity α} (h : m.find? kind ref'.id = some F) :
      F.kind = kind ∧ F.editorId = some ref'.id ∧ F ∈ m.entities := by
    obtain ⟨hk, hid', init, rest, hsplit, -⟩ := WallModel.exists_split h
    exact ⟨hk, hid', by simp [hsplit]⟩
  have hresolve : (m.make c).resolve ref' = m.resolve ref' := by
    refine WallModel.resolve_congr (fun kind hkind => ?_) fun kind F h hkind i hi => ?_
    · refine WallModel.find?_alter hlocal fun hk he => hne ?_
      cases ref; cases ref'
      simp_all
    · obtain ⟨rfl, hid', hF⟩ := hfound h
      rw [WallModel.isLive, hstatements hF hkind hid' i hi, WallModel.isLive]
  rw [plan, plan, hresolve]
  cases h : m.resolve ref' with
  | error => rfl
  | ok F =>
    obtain ⟨hname', hfind, -⟩ := WallModel.resolve_eq_ok h
    obtain ⟨-, hid', hF⟩ := hfound hfind
    exact change?_congr (fun e he => ((hm.owns F hF).lines e he).1)
      (hstatements hF hname'.symm hid')

/-! ## Making the changes -/

/-- The changes of two entities can be made in either order. -/
theorem take_comm (hm : m.Ownership) (n : Nat) (ref ref' : EntityRef) :
    edit.take (edit.take (m, n) ref) ref' = edit.take (edit.take (m, n) ref') ref := by
  by_cases hne : ref = ref'
  · rw [hne]
  · cases hc : edit.plan m ref with
    | none =>
      cases hc' : edit.plan m ref' with
      | none => simp [take, hc, hc']
      | some c' => simp [take, hc, hc', plan_make hm (Ne.symm hne) hc']
    | some c =>
      cases hc' : edit.plan m ref' with
      | none => simp [take, hc, hc', plan_make hm hne hc]
      | some c' =>
        obtain ⟨-, hmem, hname, hid, -, hlocal⟩ := exists_of_plan hm hc
        obtain ⟨-, hmem', hname', hid', -, hlocal'⟩ := exists_of_plan hm hc'
        have hdistinct := ne_of_refs_ne hne hname hid hname' hid'
        have hcomm : (m.make c).make c' = (m.make c').make c :=
          WallModel.make_comm hlocal hlocal' hdistinct
            (hm.apart.disjoint_of_ne hmem hmem' hdistinct)
        simp [take, hc, hc', plan_make hm hne hc, plan_make hm (Ne.symm hne) hc', hcomm]

/-- Moving an entity is making a change of it. -/
theorem translateEntity?_eq (m : WallModel α) (E : Entity α) (axis : Axis) (d : α) :
    m.translateEntity? E axis d = (E.translate? axis d).map fun E' => m.make ⟨E, some E',
      E.lines.map fun e =>
        (e.statementIndex, some (e.movedText m.statements (E.kind.positions axis) d))⟩ := by
  cases h : m.translateEntity? E axis d with
  | none =>
    have hnone : E.translate? axis d = none := by
      cases E <;> exact Option.map_eq_none_iff.mpr (Option.eq_none_iff_forall_ne_some.mpr
        (by simpa [WallModel.translateEntity?] using h))
    rw [hnone, Option.map_none]
  | some m' =>
    obtain ⟨E', hE', rfl⟩ := WallModel.translateEntity?_eq_some h
    rw [hE', Option.map_some, WallModel.make, writeAll, List.foldl_map, setStatements,
      List.foldl_map]
    rfl

omit [Scalar α] in
/-- Deleting an entity is making a change of it. -/
theorem deleteEntity_eq (m : WallModel α) (E : Entity α) :
    m.deleteEntity E = m.make ⟨E, none, E.statementIndices.map fun i => (i, none)⟩ := by
  rw [WallModel.deleteEntity_eq, WallModel.make, writeAll, List.foldl_map]
  rfl

/-- A change that is made is a step. -/
theorem step_make (hm : m.Ownership) (hc : edit.plan m ref = some c) : m.Step (m.make c) := by
  obtain ⟨hresolve, -, -, -, hchange, -⟩ := exists_of_plan hm hc
  cases edit with
  | translate axisName distance =>
    simp only [change?, Option.bind_eq_bind, Option.bind_eq_some_iff] at hchange
    obtain ⟨d, -, axis, -, E', hE', he⟩ := hchange
    have hmoved : m.translateEntity? c.old axis d = some (m.make c) := by
      rw [translateEntity?_eq, hE', Option.map_some]
      exact congrArg (fun c => some (m.make c)) (Option.some.inj he)
    exact .move hresolve hmoved
  | delete =>
    have he : c = ⟨c.old, none, c.old.statementIndices.map fun i => (i, none)⟩ :=
      (Option.some.inj hchange).symm
    rw [he, ← deleteEntity_eq]
    exact .erase hresolve

theorem ownership_take (hm : m.Ownership) (n : Nat) (ref : EntityRef) :
    (edit.take (m, n) ref).1.Ownership := by
  unfold take
  split
  · exact hm
  · next c hc => exact (step_make hm hc).ownership hm

/-- The changes of several entities can be made in any order. -/
theorem foldl_take_perm {refs refs' : List EntityRef} (h : refs.Perm refs') (hm : m.Ownership)
    (n : Nat) : refs.foldl edit.take (m, n) = refs'.foldl edit.take (m, n) := by
  induction h generalizing m n with
  | nil => rfl
  | cons ref _ ih => exact ih (ownership_take hm n ref) _
  | swap ref ref' refs =>
    rw [List.foldl_cons, List.foldl_cons, take_comm hm, List.foldl_cons, List.foldl_cons]
  | trans _ _ ih ih' => exact (ih hm n).trans (ih' hm n)

end BatchEdit

end WallPanel
