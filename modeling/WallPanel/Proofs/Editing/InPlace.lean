import WallPanel.Proofs.Editing.Atomicity

/-!
# Edits in place

A request to move or to delete entities works on the model that the editor holds: what it makes of
the model it makes by moves and deletions, and the bounds are computed anew at the end
(`WallModel.edits_after`). So a session of such requests keeps what each of these steps keeps
(`WallModel.edits_induction`), above all the parts of the model that are no entities, statements or
bounds (`WallModel.keepsRest_session`).
-/

namespace WallPanel

variable {α : Type} [Scalar α]

namespace WallModel

/-! ## Steps -/

/-- A step of a session that does not read the document. -/
inductive Edits : WallModel α → WallModel α → Prop
  | move {m m' : WallModel α} {ref : EntityRef} {E : Entity α} {axis : Axis} {d : α}
      (found : m.resolve ref = .ok E) (moved : m.translateEntity? E axis d = some m') : Edits m m'
  | erase {m : WallModel α} {ref : EntityRef} {E : Entity α} (found : m.resolve ref = .ok E) :
      Edits m (m.deleteEntity E)
  | rebound (m : WallModel α) : Edits m m.withBounds

variable {m m' : WallModel α} {q : EditRequest α}

theorem Edits.step (h : m.Edits m') : m.Step m' := by
  cases h with
  | move found moved => exact .move found moved
  | erase found => exact .erase found
  | rebound => exact .rebound m

theorem edits_translateStep (axisName : String) (d : α) (w : Working α) (ref : EntityRef) :
    Relation.ReflTransGen Edits w.model (translateStep axisName d w ref).model := by
  unfold translateStep
  split
  · exact .refl
  · split
    · exact .refl
    · next found =>
      split
      · exact .refl
      · next moved => exact .single (.move found moved)

theorem edits_deleteStep (w : Working α) (ref : EntityRef) :
    Relation.ReflTransGen Edits w.model (deleteStep w ref).model := by
  unfold deleteStep
  split
  · exact .refl
  · next found => exact .single (.erase found)

theorem edits_foldl {step : Working α → EntityRef → Working α}
    (hstep : ∀ (w : Working α) ref, Relation.ReflTransGen Edits w.model (step w ref).model)
    (refs : List EntityRef) (w : Working α) :
    Relation.ReflTransGen Edits w.model (refs.foldl step w).model := by
  induction refs generalizing w with
  | nil => exact .refl
  | cons ref refs ih => exact (hstep w ref).trans (ih (step w ref))

/-- A request that does not read the document again leads to its model by edits in place. -/
theorem edits_after (hq : q.rereads = false) : Relation.ReflTransGen Edits m (m.after q) := by
  have hedit {step : Working α → EntityRef → Working α}
      (hstep : ∀ (w : Working α) ref, Relation.ReflTransGen Edits w.model (step w ref).model)
      (refs : List EntityRef) :
      Relation.ReflTransGen Edits m ((refs.foldl step ⟨m, 0, []⟩).toEdit.model.getD m) := by
    rw [Working.toEdit]
    split
    · exact .refl
    · exact (edits_foldl hstep refs ⟨m, 0, []⟩).tail (.rebound _)
  cases q with
  | translate refs axisName distance =>
    rw [after_eq_ok rfl]
    unfold translate
    split
    · exact .refl
    · split
      · exact hedit (edits_translateStep axisName _) refs
      · exact .refl
  | delete refs =>
    rw [after_eq_ok rfl]
    exact hedit edits_deleteStep refs
  | _ => cases hq

theorem edits_session {qs : List (EditRequest α)} (hq : ∀ q ∈ qs, q.rereads = false) :
    Relation.ReflTransGen Edits m (m.session qs) := by
  induction qs generalizing m with
  | nil => exact .refl
  | cons q qs ih =>
    exact (edits_after (hq q List.mem_cons_self)).trans
      (ih fun q' hq' => hq q' (List.mem_cons_of_mem _ hq'))

/-! ## What an edit in place keeps -/

omit [Scalar α] in
theorem KeepsRest.refl (m : WallModel α) : m.KeepsRest m :=
  ⟨rfl, rfl, rfl, rfl, rfl, rfl, rfl, rfl, rfl⟩

omit [Scalar α] in
theorem KeepsRest.trans {m'' : WallModel α} (h : m.KeepsRest m') (h' : m'.KeepsRest m'') :
    m.KeepsRest m'' :=
  ⟨h'.wall.trans h.wall, h'.modules.trans h.modules, h'.studs.trans h.studs,
    h'.blocking.trans h.blocking, h'.plates.trans h.plates, h'.sheathing.trans h.sheathing,
    h'.unhandled.trans h.unhandled, h'.source.trans h.source,
    h'.nextEditorId.trans h.nextEditorId⟩

/-- An edit in place changes the entities, the statements and the bounds only. -/
theorem Edits.keepsRest (h : m.Edits m') : m.KeepsRest m' := by
  cases h with
  | move found moved =>
    obtain ⟨E', h⟩ := exists_moved found moved
    exact h.rest
  | erase found => exact (erased_of_resolve found).rest
  | rebound => exact .withBounds (.refl m)

/-- What every edit in place keeps is kept by moves and deletions. -/
theorem edits_induction {P : WallModel α → Prop} {qs : List (EditRequest α)}
    (hq : ∀ q ∈ qs, q.rereads = false) (hstep : ∀ m m', P m → m.Edits m' → P m') (h : P m) :
    P (m.session qs) := by
  have hedits := edits_session (m := m) hq
  generalize m.session qs = m' at hedits
  induction hedits with
  | refl => exact h
  | tail _ hs ih => exact hstep _ _ ih hs

theorem keepsRest_session {qs : List (EditRequest α)} (hq : ∀ q ∈ qs, q.rereads = false) :
    m.KeepsRest (m.session qs) :=
  edits_induction hq (fun _ _ h hs => h.trans hs.keepsRest) (.refl m)

end WallModel

end WallPanel
