import Mathlib.Logic.Relation
import WallPanel.Editing.Session
import WallPanel.Proofs.Editing.Deletion
import WallPanel.Proofs.Editing.Translation

/-!
# The steps of a session

Whatever an editor is asked, the model that it holds changes by steps of four kinds
(`WallModel.Step`): an entity that is found is moved or deleted, the bounds are recomputed, or the
document is read again. So what every step keeps a session keeps (`WallModel.session_induction`).

* `WallModel.exists_split`: where an entity stands that is found, and what comes of its collection
  when it is moved or deleted.
* `WallModel.translateEntity?_eq_some`: a model with an entity moved.
* `WallModel.reaches_after`: the steps that a request takes.
* `WallModel.translate_one`, `WallModel.delete_one`: what a request for one entity comes to.
-/

namespace WallPanel

/-! ## The first with an id -/

section Lists

variable {β : Type} {p : β → Bool} {f : β → β} {init rest : List β} {b : β}

theorem modifyFirst_append (hi : ∀ x ∈ init, ¬p x = true) (hb : p b = true) :
    modifyFirst p f (init ++ b :: rest) = init ++ f b :: rest := by
  induction init with
  | nil => simp [modifyFirst, hb]
  | cons x init ih =>
    have hx : p x = false := Bool.eq_false_iff.mpr (hi x List.mem_cons_self)
    simp [modifyFirst, hx, ih fun y hy => hi y (List.mem_cons_of_mem _ hy)]

/-- What is found by an id stands alone: to take it out, or to put something in its place, leaves
all else of the list. -/
theorem exists_split_of_find? {id? : β → Option Int} {l : List β} {id : Int}
    (h : l.find? (id? · == some id) = some b) :
    id? b = some id ∧ ∃ init rest, l = init ++ b :: rest ∧
      l.eraseP (id? · == id? b) = init ++ rest ∧
      ∀ b', id? b' = id? b → modifyFirst (id? · == id? b') (fun _ => b') l = init ++ b' :: rest := by
  obtain ⟨hb, init, rest, rfl, hinit⟩ := List.find?_eq_some_iff_append.mp h
  have hid : id? b = some id := by simpa using hb
  rw [hid]
  have hnot : ∀ x ∈ init, ¬(id? x == some id) = true := fun x hx => by simpa using hinit x hx
  refine ⟨rfl, init, rest, rfl, ?_, fun b' hb' => ?_⟩
  · rw [List.eraseP_append_right _ hnot, List.eraseP_cons_of_pos (by simp [hid])]
  · rw [hb', modifyFirst_append hnot (by simp [hid])]

end Lists

variable {α : Type}

/-! ## The parts of a model -/

/-- All but the entities, the statements and the bounds of a model is that of another. -/
structure WallModel.KeepsRest (m m' : WallModel α) : Prop where
  wall : m'.wall = m.wall
  modules : m'.modules = m.modules
  studs : m'.studs = m.studs
  blocking : m'.blocking = m.blocking
  plates : m'.plates = m.plates
  sheathing : m'.sheathing = m.sheathing
  unhandled : m'.unhandled = m.unhandled
  source : m'.source = m.source
  nextEditorId : m'.nextEditorId = m.nextEditorId

namespace WallModel

/-- The model with an entity in place of the first of its kind with its id. -/
def put (m : WallModel α) : Entity α → WallModel α
  | .nailRow r =>
    { m with nailRows := modifyFirst (·.editorId == r.editorId) (fun _ => r) m.nailRows }
  | .drilling d =>
    { m with drillings := modifyFirst (·.editorId == d.editorId) (fun _ => d) m.drillings }
  | .routing r =>
    { m with routings := modifyFirst (·.editorId == r.editorId) (fun _ => r) m.routings }

/-- The model without the first entity of a kind with an id. -/
def remove (m : WallModel α) : Entity α → WallModel α
  | .nailRow r => { m with nailRows := m.nailRows.eraseP (·.editorId == r.editorId) }
  | .drilling d => { m with drillings := m.drillings.eraseP (·.editorId == d.editorId) }
  | .routing r => { m with routings := m.routings.eraseP (·.editorId == r.editorId) }

variable {m : WallModel α} {E E' : Entity α}

theorem keepsRest_put (m : WallModel α) (E : Entity α) (statements : List (Option String)) :
    m.KeepsRest { m.put E with statements } := by
  cases E <;> exact ⟨rfl, rfl, rfl, rfl, rfl, rfl, rfl, rfl, rfl⟩

theorem keepsRest_remove (m : WallModel α) (E : Entity α) (statements : List (Option String)) :
    m.KeepsRest { m.remove E with statements } := by
  cases E <;> exact ⟨rfl, rfl, rfl, rfl, rfl, rfl, rfl, rfl, rfl⟩

/-- An entity that is found stands alone among the entities. -/
theorem exists_split {kind : EntityKind} {id : Int} (h : m.find? kind id = some E) :
    E.kind = kind ∧ E.editorId = some id ∧ ∃ init rest, m.entities = init ++ E :: rest ∧
      (m.remove E).entities = init ++ rest ∧
      ∀ E', E'.kind = E.kind → E'.editorId = E.editorId →
        (m.put E').entities = init ++ E' :: rest := by
  cases kind with
  | nailRow =>
    obtain ⟨r, hr, rfl⟩ := Option.map_eq_some_iff.mp h
    obtain ⟨hid, init, rest, hl, herase, hput⟩ := exists_split_of_find? hr
    refine ⟨rfl, hid, init.map .nailRow,
      rest.map .nailRow ++ m.drillings.map .drilling ++ m.routings.map .routing, ?_, ?_,
      fun E' hk hid' => ?_⟩
    · simp [entities, hl]
    · simp [entities, remove, herase]
    · cases E' <;> simp only [Entity.kind, reduceCtorEq] at hk
      simp [entities, put, hput _ hid']
  | drilling =>
    obtain ⟨b, hb, rfl⟩ := Option.map_eq_some_iff.mp h
    obtain ⟨hid, init, rest, hl, herase, hput⟩ := exists_split_of_find? hb
    refine ⟨rfl, hid, m.nailRows.map .nailRow ++ init.map .drilling,
      rest.map .drilling ++ m.routings.map .routing, ?_, ?_, fun E' hk hid' => ?_⟩
    · simp [entities, hl]
    · simp [entities, remove, herase]
    · cases E' <;> simp only [Entity.kind, reduceCtorEq] at hk
      simp [entities, put, hput _ hid']
  | routing =>
    obtain ⟨r, hr, rfl⟩ := Option.map_eq_some_iff.mp h
    obtain ⟨hid, init, rest, hl, herase, hput⟩ := exists_split_of_find? hr
    refine ⟨rfl, hid, m.nailRows.map .nailRow ++ m.drillings.map .drilling ++ init.map .routing,
      rest.map .routing, ?_, ?_, fun E' hk hid' => ?_⟩
    · simp [entities, hl]
    · simp [entities, remove, herase]
    · cases E' <;> simp only [Entity.kind, reduceCtorEq] at hk
      simp [entities, put, hput _ hid']

/-- An entity that a request finds has its kind and its id, and its statements are there. -/
theorem resolve_eq_ok {ref : EntityRef} (h : m.resolve ref = .ok E) :
    ref.kind = E.kind.name ∧ m.find? E.kind ref.id = some E ∧
      ∀ i ∈ E.statementIndices, m.isLive i = true := by
  unfold resolve at h
  split at h
  · cases h
  · next F hF =>
    split at h
    · cases h
    · next hlive =>
      obtain rfl : F = E := Except.ok.inj h
      obtain ⟨kind, hk, hfind⟩ := Option.bind_eq_some_iff.mp hF
      have hname : kind.name = ref.kind := by simpa using List.find?_some hk
      obtain ⟨rfl, -⟩ := exists_split hfind
      exact ⟨hname.symm, hfind, by simpa using hlive⟩

end WallModel

/-! ## Moving -/

variable [Scalar α]

namespace Entity

variable {E E' : Entity α} {axis : Axis} {d : α}

/-- An entity moved. -/
def translate? (E : Entity α) (axis : Axis) (d : α) : Option (Entity α) :=
  match E with
  | nailRow r => (r.translate? axis d).map nailRow
  | drilling b => (b.translate? axis d).map drilling
  | routing r => (r.translate? axis d).map routing

/-- What an entity keeps when it is moved, and the lines that it has then. -/
structure MovesTo (E : Entity α) (axis : Axis) (d : α) (E' : Entity α) : Prop where
  kind : E'.kind = E.kind
  editorId : E'.editorId = E.editorId
  statementIndex : E'.statementIndex = E.statementIndex
  statementIndices : E'.statementIndices = E.statementIndices
  lines : E'.lines = E.lines.map (·.shift (E.kind.positions axis) d)

theorem movesTo_of_translate? (h : E.translate? axis d = some E') : E.MovesTo axis d E' := by
  cases E with
  | nailRow r =>
    obtain ⟨r', hr, rfl⟩ := Option.map_eq_some_iff.mp h
    unfold NailRow.translate? at hr
    split at hr
    · cases hr
    · cases hr; exact ⟨rfl, rfl, rfl, rfl, rfl⟩
  | drilling b =>
    obtain ⟨b', hb, rfl⟩ := Option.map_eq_some_iff.mp h
    unfold Drilling.translate? at hb
    split at hb
    · cases hb
    · cases axis <;> cases hb <;> exact ⟨rfl, rfl, rfl, rfl, rfl⟩
  | routing r =>
    obtain ⟨r', hr, rfl⟩ := Option.map_eq_some_iff.mp h
    unfold Routing.translate? at hr
    split at hr
    · cases hr
    · cases hr
      refine ⟨rfl, rfl, rfl, rfl, ?_⟩
      simp only [lines, Entity.kind, EntityKind.positions, List.flatMap_map,
        RoutingSegment.lines_translate, List.map_flatMap]

end Entity

namespace WallModel

variable {m m' : WallModel α} {E : Entity α} {axis : Axis} {d : α} {ref : EntityRef}

/-- Moving an entity puts the moved one in its place, and writes its lines. -/
theorem translateEntity?_eq_some (h : m.translateEntity? E axis d = some m') :
    ∃ E', E.translate? axis d = some E' ∧ m' = { m.put E' with
      statements := setStatements m.statements (E.lines.map fun e =>
        (e.statementIndex, e.movedText m.statements (E.kind.positions axis) d)) } := by
  cases E with
  | nailRow r =>
    obtain ⟨r', hr, he⟩ := Option.bind_eq_some_iff.mp h
    have hE : Entity.translate? (.nailRow r) axis d = some (.nailRow r') :=
      congrArg (Option.map Entity.nailRow) hr
    refine ⟨_, hE, ?_⟩
    have hlines := (Entity.movesTo_of_translate? hE).lines
    simp only [Entity.lines, List.map_cons, List.map_nil, List.cons.injEq, and_true,
      SourceEntry.shift, SourceEntry.mk.injEq, true_and] at hlines
    obtain rfl := Option.some.inj he
    simp [Entity.lines, SourceEntry.movedText, SourceEntry.shift, SourceEntry.statement,
      EntityKind.positions, Entity.kind, hlines, NailRow.word, put]
  | drilling b =>
    obtain ⟨b', hb, he⟩ := Option.bind_eq_some_iff.mp h
    have hE : Entity.translate? (.drilling b) axis d = some (.drilling b') :=
      congrArg (Option.map Entity.drilling) hb
    refine ⟨_, hE, ?_⟩
    have hlines := (Entity.movesTo_of_translate? hE).lines
    simp only [Entity.lines, List.map_cons, List.map_nil, List.cons.injEq, and_true,
      SourceEntry.shift, SourceEntry.mk.injEq, true_and] at hlines
    obtain rfl := Option.some.inj he
    simp [Entity.lines, SourceEntry.movedText, SourceEntry.shift, SourceEntry.statement,
      EntityKind.positions, Entity.kind, hlines, Drilling.word, put]
  | routing r =>
    obtain ⟨r', hr, he⟩ := Option.bind_eq_some_iff.mp h
    have hE : Entity.translate? (.routing r) axis d = some (.routing r') :=
      congrArg (Option.map Entity.routing) hr
    refine ⟨_, hE, ?_⟩
    have hsegments : r'.segments = r.segments.map (RoutingSegment.translate axis d) := by
      unfold Routing.translate? at hr
      split at hr
      · cases hr
      · cases hr; rfl
    obtain rfl := Option.some.inj he
    simp only [Entity.lines, Entity.kind, EntityKind.positions, hsegments, List.flatMap_map,
      RoutingSegment.movedStatements_translate, List.map_flatMap, put]

omit [Scalar α] in
/-- Deleting an entity takes it out, and its statements. -/
theorem deleteEntity_eq (m : WallModel α) (E : Entity α) : m.deleteEntity E = { m.remove E with
    statements := E.statementIndices.foldl (fun ss i => ss.set i none) m.statements } := by
  cases E <;> rfl

/-- What a move makes of a model: the moved entity stands in the place of the one that was found, and
its lines are written. -/
structure Moved (m : WallModel α) (E : Entity α) (axis : Axis) (d : α) (m' : WallModel α)
    (E' : Entity α) : Prop where
  rest : m.KeepsRest m'
  bounds : m'.bounds = m.bounds
  moves : E.MovesTo axis d E'
  entities : ∃ init rest, m.entities = init ++ E :: rest ∧ m'.entities = init ++ E' :: rest
  statements : m'.statements = setStatements m.statements (E.lines.map fun e =>
    (e.statementIndex, e.movedText m.statements (E.kind.positions axis) d))

theorem Moved.mem (h : m.Moved E axis d m' E') : E ∈ m.entities := by
  obtain ⟨init, rest, hE, -⟩ := h.entities
  simp [hE]

/-- After a move an entity is the moved one, or one that was there. -/
theorem Moved.eq_or_mem (h : m.Moved E axis d m' E') {F : Entity α} (hF : F ∈ m'.entities) :
    F = E' ∨ F ∈ m.entities := by
  obtain ⟨init, rest, hE, hE'⟩ := h.entities
  rw [hE'] at hF
  rw [hE]
  grind

theorem exists_translated (hr : m.resolve ref = .ok E)
    (ht : m.translateEntity? E axis d = some m') :
    ∃ E', E.translate? axis d = some E' ∧ m.Moved E axis d m' E' := by
  obtain ⟨-, hfind, -⟩ := resolve_eq_ok hr
  obtain ⟨-, -, init, rest, hE, -, hput⟩ := exists_split hfind
  obtain ⟨E', hE', rfl⟩ := translateEntity?_eq_some ht
  have hmoves := Entity.movesTo_of_translate? hE'
  exact ⟨E', hE', keepsRest_put m E' _, by cases E' <;> rfl, hmoves,
    ⟨init, rest, hE, hput E' hmoves.kind hmoves.editorId⟩, rfl⟩

theorem exists_moved (hr : m.resolve ref = .ok E) (ht : m.translateEntity? E axis d = some m') :
    ∃ E', m.Moved E axis d m' E' :=
  (exists_translated hr ht).imp fun _ h => h.2

/-- What a deletion makes of a model: the entity that was found is taken out, and its statements are
gone. -/
structure Erased (m : WallModel α) (E : Entity α) (m' : WallModel α) : Prop where
  rest : m.KeepsRest m'
  entities : ∃ init rest, m.entities = init ++ E :: rest ∧ m'.entities = init ++ rest
  statements : ∀ i : Nat, m'.statements[i]? =
    (m.statements[i]?).map fun t => if i ∈ E.statementIndices then none else t

omit [Scalar α] in
theorem Erased.mem (h : m.Erased E m') : E ∈ m.entities := by
  obtain ⟨init, rest, hE, -⟩ := h.entities
  simp [hE]

omit [Scalar α] in
theorem Erased.sublist (h : m.Erased E m') : m'.entities.Sublist m.entities := by
  obtain ⟨init, rest, hE, hE'⟩ := h.entities
  rw [hE, hE']
  exact (List.sublist_cons_self ..).append_left _

omit [Scalar α] in
theorem erased_of_resolve (hr : m.resolve ref = .ok E) : m.Erased E (m.deleteEntity E) := by
  obtain ⟨-, hfind, -⟩ := resolve_eq_ok hr
  obtain ⟨-, -, init, rest, hE, hremove, -⟩ := exists_split hfind
  rw [deleteEntity_eq]
  exact ⟨keepsRest_remove m E _, ⟨init, rest, hE, hremove⟩,
    fun i => getElem?_foldl_set _ _ i⟩

/-! ## Steps -/

/-- A step of a session. -/
inductive Step : WallModel α → WallModel α → Prop
  | move {m m' : WallModel α} {ref : EntityRef} {E : Entity α} {axis : Axis} {d : α}
      (found : m.resolve ref = .ok E) (moved : m.translateEntity? E axis d = some m') : Step m m'
  | erase {m : WallModel α} {ref : EntityRef} {E : Entity α} (found : m.resolve ref = .ok E) :
      Step m (m.deleteEntity E)
  | rebound (m : WallModel α) : Step m m.withBounds
  | reread {m m' : WallModel α} {text : String}
      (read : parseModel text m.nextEditorId = .ok m') : Step m m'

/-- What every entity of a model that is read has, and keeps when it is moved, a step keeps. -/
theorem Step.forall_entities {P : Entity α → Prop} (h : m.Step m')
    (hread : ∀ {text k m}, parseModel text k = .ok m → ∀ E ∈ m.entities, P E)
    (hmove : ∀ {E E' : Entity α} {axis d}, P E → E.translate? axis d = some E' → P E')
    (hm : ∀ E ∈ m.entities, P E) : ∀ E ∈ m'.entities, P E := by
  cases h with
  | rebound => exact hm
  | reread read => exact hread read
  | erase found => exact fun F hF => hm F ((erased_of_resolve found).sublist.subset hF)
  | @move _ _ E _ _ found moved =>
    obtain ⟨E', hE', hmoved⟩ := exists_translated found moved
    intro F hF
    rcases hmoved.eq_or_mem hF with rfl | hF
    · exact hmove (hm E hmoved.mem) hE'
    · exact hm F hF

/-- Steps lead from a model to another. -/
abbrev Reaches : WallModel α → WallModel α → Prop := Relation.ReflTransGen Step

end WallModel

/-- Whether a warning is that a statement is gone. -/
def Warning.isGone {α : Type} : Warning α → Bool
  | statementGone .. => true
  | _ => false

/-- What one entity of a request makes of the copy that is worked on. It is said that a statement is
gone only where one is. -/
inductive Working.Turn : Working α → Working α → Prop
  | skip (w : Working α) : Turn w w
  | warn {w : Working α} {warning : Warning α}
      (gone : warning.isGone = true → ∃ ref, w.model.resolve ref = .error warning) :
      Turn w (w.warn warning)
  | advance {w : Working α} {m : WallModel α} (step : w.model.Step m) : Turn w (w.advance m)

/-- What a request comes to: it is declined, or its entities are taken one after the other, or the
document is read again. -/
inductive WallModel.Answers (m : WallModel α) : Edit α → Prop
  | declined {warning : Warning α}
      (gone : warning.isGone = true → ∃ ref, m.resolve ref = .error warning) :
      Answers m (.declined warning)
  | batch {w : Working α} (turns : Relation.ReflTransGen Working.Turn ⟨m, 0, []⟩ w) :
      Answers m w.toEdit
  | reread {text : String} {m' : WallModel α} (read : parseModel text m.nextEditorId = .ok m') :
      Answers m ⟨some m', 1, []⟩

namespace WallModel

variable {m m' : WallModel α} {ref : EntityRef} {e : Edit α} {q : EditRequest α}

theorem turn_translateStep (axisName : String) (d : α) (w : Working α) (ref : EntityRef) :
    w.Turn (translateStep axisName d w ref) := by
  unfold translateStep
  split
  · exact .warn nofun
  · split
    · next warning hr => exact .warn fun _ => ⟨ref, hr⟩
    · next E hr =>
      split
      · exact .skip w
      · next m' hm => exact .advance (.move hr hm)

theorem turn_deleteStep (w : Working α) (ref : EntityRef) : w.Turn (deleteStep w ref) := by
  unfold deleteStep
  split
  · next warning hr => exact .warn fun _ => ⟨ref, hr⟩
  · next E hr => exact .advance (.erase hr)

theorem turns_foldl {f : Working α → EntityRef → Working α}
    (hf : ∀ (w : Working α) ref, w.Turn (f w ref))
    (refs : List EntityRef) (w : Working α) :
    Relation.ReflTransGen Working.Turn w (refs.foldl f w) := by
  induction refs generalizing w with
  | nil => exact .refl
  | cons ref refs ih => exact .head (hf w ref) (ih (f w ref))

/-- Statements are replaced by a reading of the document, or the request is declined. -/
theorem replaceStatements_cases {indices : List (Option Int)} {new : List String}
    (h : m.replaceStatements indices new = .ok e) :
    (∃ warning, warning.isGone = false ∧ e = .declined warning) ∨
      ∃ text m', parseModel text m.nextEditorId = .ok m' ∧ e = ⟨some m', 1, []⟩ := by
  unfold replaceStatements at h
  split at h
  · cases h; exact .inl ⟨_, rfl, rfl⟩
  · split at h
    · cases h; exact .inl ⟨_, rfl, rfl⟩
    · next text _ =>
      split at h
      · next m' hm => cases h; exact .inr ⟨text, m', hm, rfl⟩
      · cases h; exact .inl ⟨_, rfl, rfl⟩
      · cases h

theorem replaceEntity_cases {new : List String} (h : m.replaceEntity ref new = .ok e) :
    (∃ warning, m.resolve ref = .error warning ∧ e = .declined warning) ∨
      ∃ indices, m.replaceStatements indices new = .ok e := by
  unfold replaceEntity at h
  split at h
  · next warning hr => cases h; exact .inl ⟨warning, hr, rfl⟩
  · exact .inr ⟨_, h⟩

theorem reparse_eq_ok (h : m.reparse = .ok m') :
    ∃ text, parseModel text m.nextEditorId = .ok m' := by
  unfold reparse at h
  split at h
  · cases h
  · exact ⟨_, h⟩

theorem answers_of_replaceStatements {indices : List (Option Int)} {new : List String}
    (h : m.replaceStatements indices new = .ok e) : m.Answers e := by
  obtain ⟨warning, hw, rfl⟩ | ⟨text, m', hm, rfl⟩ := replaceStatements_cases h
  · exact .declined fun hg => absurd hg (by simp [hw])
  · exact .reread hm

theorem answers (h : m.answer q = .ok e) : m.Answers e := by
  cases q with
  | translate refs axisName distance =>
    cases h
    unfold translate
    split
    · exact .declined nofun
    · split
      · exact .batch (turns_foldl (turn_translateStep axisName _) refs _)
      · exact .declined nofun
  | delete refs =>
    cases h
    exact .batch (turns_foldl turn_deleteStep refs _)
  | replaceStatements indices new => exact answers_of_replaceStatements h
  | replaceEntity ref new =>
    obtain ⟨warning, hr, rfl⟩ | ⟨indices, h⟩ := replaceEntity_cases h
    · exact .declined fun _ => ⟨ref, hr⟩
    · exact answers_of_replaceStatements h
  | reparse =>
    rw [answer] at h
    cases hm : m.reparse with
    | error => rw [hm] at h; cases h
    | ok m' =>
      rw [hm] at h
      cases h
      obtain ⟨text, hm⟩ := reparse_eq_ok hm
      exact .reread hm

/-! ## What a request reaches -/

theorem reaches_of_turns {w w' : Working α} (h : Relation.ReflTransGen Working.Turn w w') :
    w.model.Reaches w'.model := by
  induction h with
  | refl => exact .refl
  | tail _ hturn ih =>
    cases hturn with
    | skip => exact ih
    | warn => exact ih
    | advance hstep => exact ih.tail hstep

/-- A request hands over a model that is reached by steps. -/
theorem Answers.reaches (h : m.Answers e) : m.Reaches (e.model.getD m) := by
  cases h with
  | declined => exact .refl
  | @batch w turns =>
    rw [Working.toEdit]
    split
    · exact .refl
    · exact (reaches_of_turns turns).tail (.rebound w.model)
  | reread read => exact .single (.reread read)

/-- A request that changes no entity hands over no model. -/
theorem Answers.model_eq_none (h : m.Answers e) (hc : e.count = 0) : e.model = none := by
  cases h with
  | declined => rfl
  | batch turns => exact if_pos hc
  | reread => cases hc

theorem after_eq_ok (h : m.answer q = .ok e) : m.after q = e.model.getD m := by
  rw [after, h]

theorem after_eq_error {fault : Fault} (h : m.answer q = .error fault) : m.after q = m := by
  rw [after, h]

/-- The model after a request is reached by steps. -/
theorem reaches_after (m : WallModel α) (q : EditRequest α) : m.Reaches (m.after q) := by
  cases h : m.answer q with
  | error => rw [after_eq_error h]
  | ok e => rw [after_eq_ok h]; exact (answers h).reaches

/-- What every step keeps is kept by steps. -/
theorem Reaches.induction {P : WallModel α → Prop} (hr : m.Reaches m')
    (hstep : ∀ m m', P m → m.Step m' → P m') (h : P m) : P m' := by
  induction hr with
  | refl => exact h
  | tail _ hs ih => exact hstep _ _ ih hs

/-- What every step keeps a session keeps. -/
theorem session_induction {P : WallModel α → Prop} (hstep : ∀ m m', P m → m.Step m' → P m')
    (h : P m) (qs : List (EditRequest α)) : P (m.session qs) := by
  induction qs generalizing m with
  | nil => exact h
  | cons q qs ih => exact ih ((m.reaches_after q).induction hstep h)

/-- Where no statement of an entity is ever gone, no request is declined because of one. -/
theorem Answers.not_isGone {P : WallModel α → Prop} (h : m.Answers e)
    (hstep : ∀ m m', P m → m.Step m' → P m')
    (hlive : ∀ m, P m → ∀ ref warning, m.resolve ref = .error warning → warning.isGone = false)
    (hm : P m) : ∀ warning ∈ e.warnings, warning.isGone = false := by
  have hgone {m : WallModel α} (hm : P m) {warning : Warning α}
      (hg : warning.isGone = true → ∃ ref, m.resolve ref = .error warning) :
      warning.isGone = false := by
    by_contra hne
    obtain ⟨ref, hr⟩ := hg (by simpa using hne)
    exact hne (hlive m hm ref warning hr)
  cases h with
  | declined gone => exact fun warning hw => List.mem_singleton.mp hw ▸ hgone hm gone
  | reread => exact nofun
  | @batch w turns =>
    -- along the turns both the model and the warnings are as they should be
    suffices h : P w.model ∧ ∀ warning ∈ w.warnings, warning.isGone = false from h.2
    induction turns with
    | refl => exact ⟨hm, nofun⟩
    | tail _ hturn ih =>
      cases hturn with
      | skip => exact ih
      | advance step => exact ⟨hstep _ _ ih.1 step, ih.2⟩
      | warn gone =>
        refine ⟨ih.1, fun warning hw => ?_⟩
        rcases List.mem_append.mp hw with hw | hw
        · exact ih.2 warning hw
        · exact List.mem_singleton.mp hw ▸ hgone ih.1 gone

/-! ## One entity -/

/-- Moving one entity that can be found and moved, or else nothing. -/
theorem translate_one {axisName : String} {distance : Option α}
    (h : (m.translate [ref] axisName distance).count ≠ 0) :
    ∃ E axis d m', m.resolve ref = .ok E ∧ m.translateEntity? E axis d = some m' ∧
      m.translate [ref] axisName distance = ⟨some m'.withBounds, 1, []⟩ := by
  unfold translate at h ⊢
  split at h
  · exact absurd rfl h
  · next d =>
    split at h
    · next hd =>
      simp only [hd, List.foldl_cons, List.foldl_nil, translateStep] at h ⊢
      split at h
      · exact absurd rfl h
      · next axis _ =>
        split at h
        · exact absurd rfl h
        · next E hr =>
          split at h
          · exact absurd rfl h
          · next m' hm =>
            refine ⟨E, axis, d, m', hr, hm, ?_⟩
            simp [Working.advance, Working.toEdit]
    · exact absurd rfl h

/-- Deleting one entity that can be found, or else nothing. -/
theorem delete_one (h : (m.delete [ref]).count ≠ 0) : ∃ E, m.resolve ref = .ok E ∧
    m.delete [ref] = ⟨some (m.deleteEntity E).withBounds, 1, []⟩ := by
  cases hr : m.resolve ref with
  | error =>
    refine absurd ?_ h
    simp [delete, deleteStep, hr, Working.warn, Working.toEdit]
  | ok E => exact ⟨E, rfl, delete_eq hr⟩

end WallModel

end WallPanel
