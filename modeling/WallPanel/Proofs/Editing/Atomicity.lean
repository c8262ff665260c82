import WallPanel.Proofs.Editing.Ownership

/-!
# What an edit leaves alone

A request that is declined or fails leaves the model that an editor holds, and so does one that
changes no entity. One that moves an entity changes this entity, the texts of its lines and the
bounds (`WallModel.Relocates`); one that deletes it takes out the entity and its statements
(`WallModel.Erased`). Nothing else of the model changes, and what was deleted stays deleted.

* `WallModel.Moved.relocates`, `WallModel.spent_of_erased`: the model after a move and after a
  deletion.
* `WallModel.EditsAtomically`: what holds of every request in a model.
* `WallModel.atomic_of_session`: it holds in every model that an editor holds.
-/

namespace WallPanel

variable {α : Type}

theorem length_setStatements (changes : List (Nat × String)) (statements : List (Option String)) :
    (setStatements statements changes).length = statements.length := by
  induction changes generalizing statements with
  | nil => rfl
  | cons c changes ih => exact (ih _).trans List.length_set

variable [Scalar α]

namespace WallModel

variable {m m' : WallModel α} {E E' : Entity α} {ref : EntityRef} {axis : Axis} {d : α}
  {q : EditRequest α} {e : Edit α}

/-! ## Requests that change nothing -/

theorem after_eq_self_of_count (h : m.answer q = .ok e) (hc : e.count = 0) : m.after q = m := by
  rw [after_eq_ok h, (answers h).model_eq_none hc]
  rfl

theorem KeepsRest.withBounds (h : m.KeepsRest m') : m.KeepsRest m'.withBounds :=
  ⟨h.wall, h.modules, h.studs, h.blocking, h.plates, h.sheathing, h.unhandled, h.source,
    h.nextEditorId⟩

/-! ## Moves -/

/-- What a move makes of a model. The entity stays in its place, with its id and its statements, and
only texts of its statements change, never that of a header of a routing. -/
structure Relocates (m : WallModel α) (E : Entity α) (m' : WallModel α) : Prop where
  rest : m.KeepsRest m'
  entities : ∃ init rest E', m.entities = init ++ E :: rest ∧ m'.entities = init ++ E' :: rest ∧
    E'.kind = E.kind ∧ E'.editorId = E.editorId ∧ E'.statementIndices = E.statementIndices
  /-- Every kind has as many entities as before, with the same ids in the same order. -/
  ids : ∀ kind, (m'.entities.filter (·.kind = kind)).map Entity.editorId =
    (m.entities.filter (·.kind = kind)).map Entity.editorId
  length : m'.statements.length = m.statements.length
  /-- No statement goes, and none comes back. -/
  live : ∀ i, m'.isLive i = m.isLive i
  statements : ∀ i, m'.statements[i]? ≠ m.statements[i]? →
    i ∈ E.statementIndices ∧ m.kindAt i ≠ some .routing

theorem Moved.relocates (h : m.Moved E axis d m' E') (hE : m.Owns E) : m.Relocates E m' := by
  obtain ⟨init, rest, hm, hm'⟩ := h.entities
  refine ⟨h.rest, ⟨init, rest, E', hm, hm', h.moves.kind, h.moves.editorId,
    h.moves.statementIndices⟩, fun kind => ?_, ?_, fun i => ?_, fun i hi => ?_⟩
  · by_cases hk : E.kind = kind <;>
      simp [hm, hm', h.moves.kind, h.moves.editorId, hk]
  · rw [h.statements, length_setStatements]
  · rw [Bool.eq_iff_iff, isLive_iff, isLive_iff, h.wordAt_eq hE]
  · rw [h.statements] at hi
    by_cases hline : ∃ e ∈ E.lines, e.statementIndex = i
    · obtain ⟨e, he, rfl⟩ := hline
      obtain ⟨hmem, -, kind, hcommand, hkind⟩ := hE.lines e he
      have hnot : ∀ p ∈ lineCommands, p.2 ≠ .routing := by decide
      exact ⟨hmem, fun hr => hnot _ hcommand (Option.some.inj (hkind.symm.trans hr))⟩
    · exact absurd (getElem?_setStatements_of_ne fun e he hi => hline ⟨e, he, hi⟩) hi

/-- Moving an entity that is found, by a request for it alone. -/
theorem exists_relocates {axisName : String} {distance : Option α} (hm : m.Ownership)
    (h : (m.translate [ref] axisName distance).count ≠ 0) :
    (m.translate [ref] axisName distance).count = 1 ∧ ∃ E, E.kind.name = ref.kind ∧
      E.editorId = some ref.id ∧ m.Relocates E (m.after (.translate [ref] axisName distance)) := by
  obtain ⟨E, axis, d, m', hr, ht, he⟩ := translate_one h
  obtain ⟨E', hmoved⟩ := exists_moved hr ht
  obtain ⟨hname, hfind, -⟩ := resolve_eq_ok hr
  obtain ⟨-, hid, init, rest, hE, -⟩ := exists_split hfind
  have hafter : m.after (.translate [ref] axisName distance) = m'.withBounds := by
    rw [after_eq_ok rfl, he]
    rfl
  have hrel := hmoved.relocates (hm.owns E (by simp [hE]))
  refine ⟨by rw [he], E, hname.symm, hid, ?_⟩
  rw [hafter]
  exact ⟨hrel.rest.withBounds, hrel.entities, hrel.ids, hrel.length, hrel.live, hrel.statements⟩

/-! ## Deletions -/

/-- Deleting an entity that is found, by a request for it alone. -/
theorem exists_erased (h : (m.delete [ref]).count ≠ 0) :
    (m.delete [ref]).count = 1 ∧ ∃ E, E.kind.name = ref.kind ∧ E.editorId = some ref.id ∧
      m.Erased E (m.after (.delete [ref])) := by
  obtain ⟨E, hr, he⟩ := delete_one h
  obtain ⟨hname, hfind, -⟩ := resolve_eq_ok hr
  obtain ⟨-, hid, -⟩ := exists_split hfind
  have hafter : m.after (.delete [ref]) = (m.deleteEntity E).withBounds := by
    rw [after_eq_ok rfl, he]
    rfl
  have herased := erased_of_resolve hr
  refine ⟨by rw [he], E, hname.symm, hid, ?_⟩
  rw [hafter]
  exact ⟨herased.rest.withBounds, herased.entities, herased.statements⟩

omit [Scalar α] in
/-- The id of an entity that was taken out is spent. -/
theorem spent_of_erased (hm : m.Identifies) (h : m.Erased E m') {id : Int}
    (hid : E.editorId = some id) : m'.Spent id := by
  obtain ⟨init, rest, hE, hE'⟩ := h.entities
  have hids : m.ids = init.map Entity.editorId ++ some id :: rest.map Entity.editorId := by
    simp [ids, hE, hid]
  have hids' : m'.ids = init.map Entity.editorId ++ rest.map Entity.editorId := by
    simp [ids, hE']
  refine ⟨?_, ?_⟩
  · rw [h.rest.nextEditorId]
    exact hm.lt_nextEditorId (by simp [hids])
  · have hnodup := hm.nodup
    rw [hids, List.nodup_middle, List.nodup_cons] at hnodup
    rw [hids']
    exact hnodup.1

/-- An entity whose id is spent cannot be deleted. -/
theorem count_delete_of_spent (h : m.Spent ref.id) : (m.delete [ref]).count = 0 := by
  by_contra hcount
  obtain ⟨E, hr, -⟩ := delete_one hcount
  obtain ⟨-, hfind, -⟩ := resolve_eq_ok hr
  obtain ⟨-, hid, init, rest, hE, -⟩ := exists_split hfind
  exact h.gone (List.mem_map.mpr ⟨E, by simp [hE], hid⟩)

/-! ## Sessions -/

/-- What holds of every request in a model. -/
structure EditsAtomically (m : WallModel α) : Prop where
  /-- A request that fails changes nothing. -/
  failed : ∀ q fault, m.answer q = .error fault → m.after q = m
  /-- Nor does one that changes no entity. -/
  declined : ∀ q e, m.answer q = .ok e → e.count = 0 → m.after q = m
  translate : ∀ ref axisName distance, (m.translate [ref] axisName distance).count ≠ 0 →
    (m.translate [ref] axisName distance).count = 1 ∧ ∃ E, E.kind.name = ref.kind ∧
      E.editorId = some ref.id ∧ m.Relocates E (m.after (.translate [ref] axisName distance))
  delete : ∀ ref, (m.delete [ref]).count ≠ 0 →
    (m.delete [ref]).count = 1 ∧ ∃ E, E.kind.name = ref.kind ∧ E.editorId = some ref.id ∧
      m.Erased E (m.after (.delete [ref]))
  /-- What was deleted cannot be deleted again, whatever has been asked since. -/
  deleted : ∀ ref, (m.delete [ref]).count ≠ 0 →
    ∀ qs, (((m.after (.delete [ref])).session qs).delete [ref]).count = 0

/-- In every model that an editor holds a request changes its target or nothing. -/
theorem atomic_of_session {text : String} {k : Int} (hm : parseModel text k = .ok m)
    (qs : List (EditRequest α)) : (m.withIds.session qs).EditsAtomically := by
  obtain ⟨-, hids, -⟩ := says_of_parseModel hm
  rw [withIds_eq hids]
  have hown : (m.session qs).Ownership :=
    session_induction (fun _ _ hm hs => hs.ownership hm) (ownership_of_parseModel hm) qs
  have hidentifies : (m.session qs).Identifies :=
    session_induction (fun _ _ hm hs => hs.identifies hm) (identifies_of_parseModel hm) qs
  refine ⟨fun q fault => after_eq_error, fun q e => after_eq_self_of_count,
    fun ref axisName distance => exists_relocates hown, fun ref => exists_erased, fun ref h qs' => ?_⟩
  obtain ⟨-, E, -, hid, herased⟩ := exists_erased h
  exact count_delete_of_spent (session_induction (fun _ _ hm hs => hs.spent hm)
    (spent_of_erased hidentifies herased hid) qs')

set_option maxRecDepth 100000 in
/-- A drilling moved, a nail row deleted, and a request for one that is not there. -/
theorem atomic_of_session_of_three :
    ∃ (text : String) (m : WallModel Float) (qs : List (EditRequest Float)),
      text = "NR 0,0,9,9;PAF;PP 0,0;PP 5,5;BOY 1,2,3,4" ∧ parseModel text 1 = .ok m ∧
      qs = [.translate [⟨"boy", 2⟩] "z" (some 1.0), .delete [⟨"nail_row", 1⟩, ⟨"paf", 9⟩]] ∧
      (m.withIds.session qs).EditsAtomically := by
  have heval : (parseModel (α := Float) "NR 0,0,9,9;PAF;PP 0,0;PP 5,5;BOY 1,2,3,4"
      1).toOption.isSome = true := by
    decide +kernel
  obtain ⟨m, hm⟩ := Option.isSome_iff_exists.mp heval
  have hm := eq_ok_of_toOption hm
  exact ⟨_, m, _, rfl, hm, rfl, atomic_of_session hm _⟩

end WallModel

end WallPanel
