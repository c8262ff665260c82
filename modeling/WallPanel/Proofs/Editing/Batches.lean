import WallPanel.Proofs.Editing.Changes

/-!
# Edits of several entities

A request for several entities makes the change of each that can be changed, and recomputes the
bounds once (`BatchEdit.answer_request`). No change reads the bounds. So the request comes to the
requests for each entity, one after the other in any order, and it counts those that are granted.

* `WallModel.changes`, `WallModel.granted`: how many entities a request changes, and how many of
  several requests are granted.
* `BatchEdit.session_singles`, `BatchEdit.request_perm`: one after the other, and in any order.
* `WallModel.batches_of_session`: both hold in every model that an editor holds.
-/

namespace WallPanel

variable {α : Type} [Scalar α]

namespace BatchEdit

variable {edit : BatchEdit α} {m : WallModel α}

/-! ## Requests -/

/-- The model and the count of a copy that is worked on. -/
def progress (w : Working α) : WallModel α × Nat := (w.model, w.count)

theorem change?_translate {axisName : String} {d : α}
    (hd : (Scalar.isFinite d && !(d == 0.0)) = true) (statements : List (Option String))
    (E : Entity α) : (translate axisName (some d)).change? statements E =
      (E.kind.axis? axisName).bind fun axis => (E.translate? axis d).map fun E' =>
        ⟨E, some E', E.lines.map fun e =>
          (e.statementIndex, some (e.movedText statements (E.kind.positions axis) d))⟩ := by
  have hfilter : (some d).filter (fun d => Scalar.isFinite d && !(d == 0.0)) = some d :=
    Option.filter_some_pos hd
  simp only [change?, hfilter, Option.bind_eq_bind, Option.bind_some, Option.pure_def,
    Option.map_eq_bind, Function.comp_def]

theorem progress_translateStep (axisName : String) {d : α}
    (hd : (Scalar.isFinite d && !(d == 0.0)) = true) (w : Working α) (ref : EntityRef) :
    (translate axisName (some d)).take (progress w) ref =
      progress (WallModel.translateStep axisName d w ref) := by
  cases hr : w.model.resolve ref with
  | error warning =>
    have hstep : progress (WallModel.translateStep axisName d w ref) = progress w := by
      unfold WallModel.translateStep
      split <;> simp [hr, progress, Working.warn]
    rw [hstep]
    simp [take, plan, progress, hr, Except.toOption]
  | ok E =>
    have hk : EntityKind.ofName? ref.kind = some E.kind := by
      rw [(WallModel.resolve_eq_ok hr).1]
      cases E.kind <;> rfl
    cases haxis : E.kind.axis? axisName with
    | none =>
      simp [take, plan, progress, hr, Except.toOption, change?_translate hd, haxis,
        WallModel.translateStep, hk, Working.warn]
    | some axis =>
      cases hE' : E.translate? axis d with
      | none =>
        simp [take, plan, progress, hr, Except.toOption, change?_translate hd, haxis, hE',
          WallModel.translateStep, hk, translateEntity?_eq]
      | some E' =>
        simp [take, plan, progress, hr, Except.toOption, change?_translate hd, haxis, hE',
          WallModel.translateStep, hk, translateEntity?_eq, Working.advance]

theorem progress_deleteStep (w : Working α) (ref : EntityRef) :
    delete.take (progress w) ref = progress (WallModel.deleteStep w ref) := by
  cases hr : w.model.resolve ref with
  | error warning =>
    simp [take, plan, progress, WallModel.deleteStep, hr, Working.warn, Except.toOption]
  | ok E =>
    simp [take, plan, change?, progress, WallModel.deleteStep, hr, Working.advance,
      deleteEntity_eq, Except.toOption]

/-- An edit that plans nothing for any entity changes nothing. -/
theorem takeAll_of_plan_eq_none (h : ∀ m ref, edit.plan m ref = none) (m : WallModel α)
    (refs : List EntityRef) : edit.takeAll m refs = (m, 0) := by
  induction refs with
  | nil => rfl
  | cons ref refs ih =>
    rw [takeAll, List.foldl_cons, take, h]
    exact ih

/-- What a request comes to: with any entity changed, the model with the changes made and new
bounds. -/
theorem answer_request (edit : BatchEdit α) (m : WallModel α) (refs : List EntityRef) :
    ∃ e, m.answer (edit.request refs) = .ok e ∧ e.count = (edit.takeAll m refs).2 ∧
      e.model = if e.count = 0 then none else some (edit.takeAll m refs).1.withBounds := by
  have hedit {step : Working α → EntityRef → Working α}
      (hstep : ∀ w ref, edit.take (progress w) ref = progress (step w ref)) :
      edit.takeAll m refs = progress (refs.foldl step ⟨m, 0, []⟩) :=
    show refs.foldl edit.take (progress ⟨m, 0, []⟩) = _ from List.foldl_hom progress hstep
  cases edit with
  | delete =>
    refine ⟨_, rfl, ?_⟩
    rw [hedit progress_deleteStep]
    exact ⟨rfl, rfl⟩
  | translate axisName distance =>
    refine ⟨_, rfl, ?_⟩
    by_cases hd : ∃ d ∈ distance, (Scalar.isFinite d && !(d == 0.0)) = true
    · obtain ⟨d, rfl, hd⟩ := hd
      rw [hedit (progress_translateStep axisName hd), WallModel.translate]
      simp only [hd, if_true]
      exact ⟨rfl, rfl⟩
    · have hnone : distance.filter (fun d => Scalar.isFinite d && !(d == 0.0)) = none := by
        simpa [Option.filter_eq_none_iff] using hd
      rw [takeAll_of_plan_eq_none fun m ref => by simp [plan, change?, hnone]]
      unfold WallModel.translate
      split
      · exact ⟨rfl, rfl⟩
      · split
        · next d hd' => exact absurd ⟨d, rfl, hd'⟩ hd
        · exact ⟨rfl, rfl⟩

end BatchEdit

/-! ## One after the other -/

namespace WallModel

/-- How many entities a request changes. -/
def changes (m : WallModel α) (q : EditRequest α) : Nat :=
  match m.answer q with
  | .ok e => e.count
  | .error _ => 0

/-- How many of several requests, one after the other, are granted: they change one entity. -/
def granted (m : WallModel α) : List (EditRequest α) → Nat
  | [] => 0
  | q :: qs => (if m.changes q = 1 then 1 else 0) + (m.after q).granted qs

end WallModel

namespace BatchEdit

variable {edit : BatchEdit α} {m : WallModel α} {ref : EntityRef}

theorem changes_request (edit : BatchEdit α) (m : WallModel α) (refs : List EntityRef) :
    m.changes (edit.request refs) = (edit.takeAll m refs).2 := by
  obtain ⟨e, he, hcount, -⟩ := edit.answer_request m refs
  rw [WallModel.changes, he]
  exact hcount

theorem after_request (edit : BatchEdit α) (m : WallModel α) (refs : List EntityRef) :
    m.after (edit.request refs) =
      if (edit.takeAll m refs).2 = 0 then m else (edit.takeAll m refs).1.withBounds := by
  obtain ⟨e, he, hcount, hmodel⟩ := edit.answer_request m refs
  rw [WallModel.after_eq_ok he, hmodel, hcount]
  split <;> rfl

/-- The bounds play no part in a plan. -/
theorem plan_bounded (edit : BatchEdit α) (m : WallModel α) (bounds : Bounds α)
    (ref : EntityRef) : edit.plan (m.bounded bounds) ref = edit.plan m ref := rfl

/-- What plans and changes are blind to makes no difference to several of them. -/
theorem foldl_take_map {f : WallModel α → WallModel α}
    (hplan : ∀ m ref, edit.plan (f m) ref = edit.plan m ref)
    (hmake : ∀ m c, (f m).make c = f (m.make c)) (n : Nat) (refs : List EntityRef)
    (m : WallModel α) : refs.foldl edit.take (f m, n) =
      (f (edit.takeAll m refs).1, (edit.takeAll m refs).2 + n) := by
  have htake (w : WallModel α × Nat) (ref : EntityRef) :
      edit.take (f w.1, w.2 + n) ref = (f (edit.take w ref).1, (edit.take w ref).2 + n) := by
    rw [take, hplan, take]
    cases edit.plan w.1 ref with
    | none => rfl
    | some c => simp only [hmake, Nat.add_right_comm]
  calc refs.foldl edit.take (f m, n)
      = refs.foldl edit.take (f m, 0 + n) := by rw [Nat.zero_add]
    _ = _ := @List.foldl_hom _ _ _ (fun w : WallModel α × Nat => (f w.1, w.2 + n)) _ _ refs (m, 0)
      htake

theorem takeAll_cons_of_none {refs : List EntityRef} (h : edit.plan m ref = none) :
    edit.takeAll m (ref :: refs) = edit.takeAll m refs := by
  simp [takeAll, take, h]

theorem takeAll_cons_of_some {refs : List EntityRef} {c : Change α}
    (h : edit.plan m ref = some c) : edit.takeAll m (ref :: refs) =
      ((edit.takeAll (m.make c) refs).1, (edit.takeAll (m.make c) refs).2 + 1) := by
  rw [takeAll, List.foldl_cons, take, h]
  exact foldl_take_map (f := id) (fun _ _ => rfl) (fun _ _ => rfl) 1 refs (m.make c)

theorem fst_takeAll_of_count {refs : List EntityRef} (h : (edit.takeAll m refs).2 = 0) :
    (edit.takeAll m refs).1 = m := by
  induction refs with
  | nil => rfl
  | cons ref refs ih =>
    cases hc : edit.plan m ref with
    | none =>
      rw [takeAll_cons_of_none hc] at h ⊢
      exact ih h
    | some c =>
      rw [takeAll_cons_of_some hc] at h
      cases h

/-- Requests for entities one after the other end where the request for all of them ends, and as many
of them are granted as this one counts. -/
theorem session_singles (edit : BatchEdit α) (m : WallModel α) (refs : List EntityRef) :
    m.session (refs.map fun ref => edit.request [ref]) = m.after (edit.request refs) ∧
      m.granted (refs.map fun ref => edit.request [ref]) = m.changes (edit.request refs) := by
  induction refs generalizing m with
  | nil =>
    rw [after_request, changes_request]
    exact ⟨rfl, rfl⟩
  | cons ref refs ih =>
    obtain ⟨hsession, hgranted⟩ := ih (m.after (edit.request [ref]))
    rw [List.map_cons, WallModel.session, List.foldl_cons, WallModel.granted]
    rw [WallModel.session] at hsession
    rw [hsession, hgranted]
    simp only [after_request, changes_request]
    cases hc : edit.plan m ref with
    | none =>
      have hone : edit.takeAll m [ref] = (m, 0) := takeAll_cons_of_none hc
      rw [hone, takeAll_cons_of_none hc]
      simp
    | some c =>
      have hone : edit.takeAll m [ref] = (m.make c, 1) := takeAll_cons_of_some hc
      have hrest : edit.takeAll (m.make c).withBounds refs =
          ((edit.takeAll (m.make c) refs).1.bounded (m.make c).withBounds.bounds,
            (edit.takeAll (m.make c) refs).2) :=
        foldl_take_map (edit.plan_bounded · _) (WallModel.make_bounded · _) 0 refs (m.make c)
      rw [hone, takeAll_cons_of_some hc]
      simp only [Nat.succ_ne_zero, if_false]
      rw [hrest]
      refine ⟨?_, Nat.add_comm ..⟩
      dsimp only
      split
      · next hcount => rw [fst_takeAll_of_count hcount]
      · rfl

/-- A request for several entities ends in the same model, and changes as many, in any order. -/
theorem request_perm (edit : BatchEdit α) (hm : m.Ownership) {refs refs' : List EntityRef}
    (h : refs.Perm refs') : m.after (edit.request refs) = m.after (edit.request refs') ∧
      m.changes (edit.request refs) = m.changes (edit.request refs') := by
  have htake : edit.takeAll m refs = edit.takeAll m refs' := foldl_take_perm h hm 0
  simp only [after_request, changes_request, htake, and_self]

end BatchEdit

/-! ## Sessions -/

namespace WallModel

variable {m : WallModel α}

/-- What is asked of several entities comes to what is asked of each, in any order. -/
structure BatchesLikeSingles (m : WallModel α) : Prop where
  /-- The request for all ends in the same model as those for each, one after the other. -/
  model : ∀ (edit : BatchEdit α) refs,
    m.after (edit.request refs) = m.session (refs.map fun ref => edit.request [ref])
  /-- It counts those of them that are granted. -/
  count : ∀ (edit : BatchEdit α) refs,
    m.changes (edit.request refs) = m.granted (refs.map fun ref => edit.request [ref])
  /-- The order makes no difference. -/
  order : ∀ (edit : BatchEdit α) refs refs', refs.Perm refs' →
    m.after (edit.request refs) = m.after (edit.request refs') ∧
      m.changes (edit.request refs) = m.changes (edit.request refs')

/-- In every model that an editor holds, edits of several entities are edits of each, in any order,
whatever is named: entities that are not there, and entities that are named more than once. -/
theorem batches_of_session {text : String} {k : Int} (hm : parseModel text k = .ok m)
    (qs : List (EditRequest α)) : (m.withIds.session qs).BatchesLikeSingles := by
  obtain ⟨-, hids, -⟩ := says_of_parseModel hm
  rw [withIds_eq hids]
  have hown : (m.session qs).Ownership :=
    session_induction (fun _ _ hm hs => hs.ownership hm) (ownership_of_parseModel hm) qs
  exact ⟨fun edit refs => (edit.session_singles _ refs).1.symm,
    fun edit refs => (edit.session_singles _ refs).2.symm,
    fun edit _ _ h => edit.request_perm hown h⟩

set_option maxRecDepth 100000 in
/-- A routing that is named twice and one that is not there, beside a nail row: three changes. -/
theorem batches_of_session_of_three :
    ∃ (text : String) (m : WallModel Float) (refs : List EntityRef),
      text = "NR 0,0,9,9;PAF;PP 0,0;PP 5,5;BOY 1,2,3,4" ∧ parseModel text 1 = .ok m ∧
      refs = [⟨"paf", 3⟩, ⟨"nail_row", 1⟩, ⟨"paf", 9⟩, ⟨"paf", 3⟩] ∧
      (m.withIds.translate refs "x" (some 1.0)).count = 3 ∧
      (m.withIds.session []).BatchesLikeSingles := by
  have heval : (do
      let m ← (parseModel (α := Float) "NR 0,0,9,9;PAF;PP 0,0;PP 5,5;BOY 1,2,3,4" 1).toOption
      if (m.withIds.translate [⟨"paf", 3⟩, ⟨"nail_row", 1⟩, ⟨"paf", 9⟩, ⟨"paf", 3⟩] "x"
        (some 1.0)).count = 3 then some m else none).isSome = true := by
    decide +kernel
  obtain ⟨m, h⟩ := Option.isSome_iff_exists.mp heval
  simp only [Option.bind_eq_bind, Option.bind_eq_some_iff, Option.ite_none_right_eq_some] at h
  obtain ⟨m, hm, hcount, ⟨⟩⟩ := h
  have hm := eq_ok_of_toOption hm
  exact ⟨_, m, _, rfl, hm, rfl, hcount, batches_of_session hm []⟩

end WallModel

end WallPanel
