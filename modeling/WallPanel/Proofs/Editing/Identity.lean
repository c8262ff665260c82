import WallPanel.Proofs.Editing.Steps

/-!
# The ids of a session

A pass over a document gives out ids one after the other, each to one entity (`Builder.Counts`), and
an edit takes ids away but gives out none. So no two entities of a session have one id, and an id
that is gone stays away: it is below the next id, and from there on ids are given out
(`WallModel.Spent`).

* `idsFrom_of_parseModel`: the ids of a model that was read.
* `WallModel.ids_of_session`: the ids of a model that an editor holds.
-/

namespace WallPanel

variable {α : Type}

namespace WallModel

/-- The ids of the entities, kind by kind. -/
def ids (m : WallModel α) : List (Option Int) := m.entities.map Entity.editorId

theorem ids_eq (m : WallModel α) : m.ids = m.nailRows.map (·.editorId) ++
    m.drillings.map (·.editorId) ++ m.routings.map (·.editorId) := by
  simp only [ids, entities, List.map_append, List.map_map]
  rfl

end WallModel

/-! ## Reading -/

/-- So many ids from one on. -/
def idsFrom (k : Int) (n : Nat) : List (Option Int) :=
  (List.range n).map fun i : Nat => some (k + (i : Int))

theorem nodup_idsFrom (k : Int) (n : Nat) : (idsFrom k n).Nodup :=
  List.nodup_range.map fun i j h => by simpa using h

theorem mem_idsFrom {k : Int} {n : Nat} {id? : Option Int} :
    id? ∈ idsFrom k n ↔ ∃ id, id? = some id ∧ k ≤ id ∧ id < k + n := by
  simp only [idsFrom, List.mem_map, List.mem_range]
  constructor
  · rintro ⟨i, hi, rfl⟩
    exact ⟨_, rfl, by omega, by omega⟩
  · rintro ⟨id, rfl, hk, hid⟩
    exact ⟨(id - k).toNat, by omega, by simp; omega⟩

variable [Scalar α]

namespace Builder

variable {b b' : Builder α} {k : Int} {r : Role α}

/-- The entities have the ids that have been given out, one each. -/
def Counts (b : Builder α) (k : Int) : Prop :=
  ∃ n : Nat, b.nextId = k + n ∧ b.model.ids.Perm (idsFrom k n)

/-- No id is given out, or the next one to a new entity. -/
def HandsOut (b b' : Builder α) : Prop :=
  b'.nextId = b.nextId ∧ b'.model.ids = b.model.ids ∨
    b'.nextId = b.nextId + 1 ∧ b'.model.ids.Perm (b.model.ids ++ [some b.nextId])

omit [Scalar α] in
theorem Counts.handsOut (h : b.Counts k) (hb : b.HandsOut b') : b'.Counts k := by
  obtain ⟨n, hn, hids⟩ := h
  rcases hb with ⟨hn', hids'⟩ | ⟨hn', hids'⟩
  · exact ⟨n, hn'.trans hn, hids' ▸ hids⟩
  · refine ⟨n + 1, by omega, hids'.trans ?_⟩
    have hsucc : idsFrom k (n + 1) = idsFrom k n ++ [some b.nextId] := by
      simp [idsFrom, List.range_succ, hn]
    exact hsucc ▸ hids.append_right _

omit [Scalar α] in
theorem handsOut_closeRouting (b : Builder α) : b.HandsOut b.closeRouting := by
  obtain ⟨-, h⟩ | ⟨_, -, ⟨-, h⟩ | ⟨-, h⟩⟩ := closeRouting_cases b <;> rw [h]
  · exact .inl ⟨rfl, rfl⟩
  · exact .inl ⟨rfl, rfl⟩
  · exact .inr ⟨rfl, by simp [WallModel.ids_eq]⟩

theorem handsOut_endPath (h : b.endPath = .ok b') : b.HandsOut b' := by
  obtain ⟨-, rfl⟩ | ⟨run, -, ⟨_, _, -, -, rfl⟩ | ⟨-, rfl⟩⟩ := endPath_cases h <;>
    exact .inl ⟨rfl, rfl⟩

theorem handsOut_place (h : b.place r = .ok b') : b.HandsOut b' := by
  cases r with
  | nailRow row =>
    cases h
    refine .inr ⟨rfl, ?_⟩
    simp only [pushNailRow, extend, WallModel.ids_eq, List.map_append, List.map_cons,
      List.map_nil, List.append_assoc]
    exact List.perm_append_comm.append_left _ |>.trans (by simp)
  | drilling d =>
    cases h
    refine .inr ⟨rfl, ?_⟩
    simp only [pushDrilling, extend, WallModel.ids_eq, List.map_append, List.map_cons,
      List.map_nil, List.append_assoc]
    exact (List.perm_append_comm.append_left _).append_left _
  | header w =>
    cases h
    exact handsOut_closeRouting b
  | foreign u =>
    cases h
    exact handsOut_closeRouting b
  | circle j d =>
    obtain ⟨d, rfl, rfl⟩ := exists_of_place_circle h
    exact .inl ⟨rfl, rfl⟩
  | member m =>
    cases h
    cases hk : m.kind <;>
      exact .inl ⟨by simp [pushMember, extend, hk], by simp [pushMember, extend, hk, WallModel.ids_eq]⟩
  | _ =>
    cases h
    exact .inl ⟨rfl, rfl⟩

theorem counts_invariant (k : Int) : Invariant fun b : Builder α => b.Counts k where
  panel _ h := h
  endPath _ _ h he := h.handsOut (handsOut_endPath he)
  place _ _ _ h hp := h.handsOut (handsOut_place hp)
  closeRouting b h := h.handsOut (handsOut_closeRouting b)

end Builder

variable {text : String} {k : Int} {m m' : WallModel α}

/-- The ids of a model that was read are those from the first one up to the next one. -/
theorem idsFrom_of_parseModel (hm : parseModel text k = .ok m) :
    ∃ n : Nat, m.nextEditorId = k + n ∧ m.ids.Perm (idsFrom k n) := by
  obtain ⟨b, hb, rfl⟩ := buildAll_of_parseModel hm
  exact (Builder.counts_invariant k).buildAll ⟨0, (Int.add_zero k).symm, .refl _⟩ hb

/-! ## Sessions -/

/-- The entities of a model have ids, each its own and below the next one. -/
structure WallModel.Identifies (m : WallModel α) : Prop where
  issued : ∀ E ∈ m.entities, ∃ id, E.editorId = some id ∧ id < m.nextEditorId
  nodup : m.ids.Nodup

/-- An id has been given out, and no entity has it. -/
structure WallModel.Spent (id : Int) (m : WallModel α) : Prop where
  issued : id < m.nextEditorId
  gone : some id ∉ m.ids

namespace WallModel

theorem identifies_of_parseModel (hm : parseModel text k = .ok m) : m.Identifies := by
  obtain ⟨n, hn, hids⟩ := idsFrom_of_parseModel hm
  refine ⟨fun E hE => ?_, hids.nodup_iff.mpr (nodup_idsFrom k n)⟩
  obtain ⟨id, hid, -, hlt⟩ := mem_idsFrom.mp (hids.mem_iff.mp (List.mem_map_of_mem hE))
  exact ⟨id, hid, hn ▸ hlt⟩

/-- A model that was read again has none of the ids that were given out before. -/
theorem notMem_ids_of_parseModel (hm : parseModel text k = .ok m) {id : Int} (h : id < k) :
    some id ∉ m.ids := by
  obtain ⟨n, -, hids⟩ := idsFrom_of_parseModel hm
  intro hmem
  obtain ⟨_, ⟨⟩, hk, -⟩ := mem_idsFrom.mp (hids.mem_iff.mp hmem)
  omega

theorem le_nextEditorId_of_parseModel (hm : parseModel text k = .ok m) : k ≤ m.nextEditorId := by
  obtain ⟨n, hn, -⟩ := idsFrom_of_parseModel hm
  omega

/-- A step takes entities away or keeps their ids, or else all of them are new. -/
theorem Step.ids (h : m.Step m') : (m'.ids.Sublist m.ids ∧ m'.nextEditorId = m.nextEditorId) ∨
    ∃ text, parseModel text m.nextEditorId = .ok m' := by
  cases h with
  | move found moved =>
    obtain ⟨E', hmoved⟩ := exists_moved found moved
    obtain ⟨init, rest, hE, hE'⟩ := hmoved.entities
    refine .inl ⟨?_, hmoved.rest.nextEditorId⟩
    simp [WallModel.ids, hE, hE', hmoved.moves.editorId]
  | erase found =>
    have herased := erased_of_resolve found
    obtain ⟨init, rest, hE, hE'⟩ := herased.entities
    refine .inl ⟨?_, herased.rest.nextEditorId⟩
    rw [WallModel.ids, WallModel.ids, hE, hE']
    exact ((List.sublist_cons_self _ rest).append_left init).map _
  | rebound => exact .inl ⟨.refl _, rfl⟩
  | reread read => exact .inr ⟨_, read⟩

theorem Step.identifies (h : m.Step m') (hm : m.Identifies) : m'.Identifies := by
  rcases h.ids with ⟨hsub, hnext⟩ | ⟨text, hread⟩
  · refine ⟨fun E hE => ?_, hm.nodup.sublist hsub⟩
    obtain ⟨F, hF, he⟩ := List.mem_map.mp (hsub.subset (List.mem_map_of_mem hE))
    obtain ⟨id, hid, hlt⟩ := hm.issued F hF
    exact ⟨id, he ▸ hid, hnext ▸ hlt⟩
  · exact identifies_of_parseModel hread

theorem Step.le_nextEditorId (h : m.Step m') : m.nextEditorId ≤ m'.nextEditorId := by
  rcases h.ids with ⟨-, hnext⟩ | ⟨text, hread⟩
  · exact Int.le_of_eq hnext.symm
  · exact le_nextEditorId_of_parseModel hread

/-- An id that is gone stays away. -/
theorem Step.spent {id : Int} (h : m.Step m') (hm : m.Spent id) : m'.Spent id := by
  refine ⟨Int.lt_of_lt_of_le hm.issued h.le_nextEditorId, ?_⟩
  rcases h.ids with ⟨hsub, -⟩ | ⟨text, hread⟩
  · exact fun hmem => hm.gone (hsub.subset hmem)
  · exact notMem_ids_of_parseModel hread hm.issued

omit [Scalar α] in
theorem Identifies.lt_nextEditorId (h : m.Identifies) {id : Int} (hid : some id ∈ m.ids) :
    id < m.nextEditorId := by
  obtain ⟨E, hE, he⟩ := List.mem_map.mp hid
  obtain ⟨_, hid, hlt⟩ := h.issued E hE
  obtain rfl := Option.some.inj (he.symm.trans hid)
  exact hlt

end WallModel

/-! ## Requests -/

/-- Whether a request reads the document again. -/
def EditRequest.rereads {α : Type} : EditRequest α → Bool
  | replaceStatements .. | replaceEntity .. | reparse => true
  | translate .. | delete .. => false

namespace WallModel

variable {q : EditRequest α} {e : Edit α}

theorem exists_parseModel_of_rereads (hq : q.rereads = true) (h : m.answer q = .ok e)
    (hm : e.model = some m') : ∃ text, parseModel text m.nextEditorId = .ok m' := by
  have hreplace {indices new} (h : m.replaceStatements indices new = .ok e) :
      ∃ text, parseModel text m.nextEditorId = .ok m' := by
    obtain ⟨warning, -, rfl⟩ | ⟨text, m₁, hread, rfl⟩ := replaceStatements_cases h
    · cases hm
    · cases hm; exact ⟨text, hread⟩
  cases q with
  | translate => cases hq
  | delete => cases hq
  | replaceStatements indices new => exact hreplace h
  | replaceEntity ref new =>
    obtain ⟨warning, -, rfl⟩ | ⟨indices, h⟩ := replaceEntity_cases h
    · cases hm
    · exact hreplace h
  | reparse =>
    rw [answer] at h
    cases hread : m.reparse with
    | error => rw [hread] at h; cases h
    | ok m₁ =>
      rw [hread] at h
      cases h
      cases hm
      exact reparse_eq_ok hread

/-- A request retires an id that an entity had: no entity has it any more, or the document has been
read again. -/
def Retires (m : WallModel α) (q : EditRequest α) (id : Int) : Prop :=
  some id ∈ m.ids ∧ (some id ∉ (m.after q).ids ∨
    q.rereads = true ∧ ∃ e m', m.answer q = .ok e ∧ e.model = some m')

theorem spent_of_retires {id : Int} (hm : m.Identifies) (h : m.Retires q id) :
    (m.after q).Spent id := by
  obtain ⟨hid, h⟩ := h
  have hlt := hm.lt_nextEditorId hid
  have hle : m.nextEditorId ≤ (m.after q).nextEditorId :=
    (m.reaches_after q).induction (P := fun m' => m.nextEditorId ≤ m'.nextEditorId)
      (fun _ _ hle hs => Int.le_trans hle hs.le_nextEditorId) (Int.le_refl _)
  refine ⟨Int.lt_of_lt_of_le hlt hle, ?_⟩
  rcases h with hgone | ⟨hq, e, m', hanswer, hmodel⟩
  · exact hgone
  · obtain ⟨text, hread⟩ := exists_parseModel_of_rereads hq hanswer hmodel
    rw [after_eq_ok hanswer, hmodel]
    exact notMem_ids_of_parseModel hread hlt

/-- A model that is read has the ids from the first one up to the next one, one for each entity, and
they grow along each collection. Whatever an editor is asked then, the entities of its model have
ids of their own below the next one, the next one never falls, and an id that a request retires is
never that of an entity again. -/
theorem ids_of_session (hm : parseModel text k = .ok m) :
    (∃ n : Nat, m.nextEditorId = k + n ∧ m.ids.Perm (idsFrom k n)) ∧ m.HasIds m.nextEditorId ∧
      ∀ qs, (m.withIds.session qs).Identifies ∧
        ∀ q, (m.withIds.session qs).nextEditorId ≤
            ((m.withIds.session qs).after q).nextEditorId ∧
          ∀ id, (m.withIds.session qs).Retires q id →
            ∀ qs', some id ∉ (((m.withIds.session qs).after q).session qs').ids := by
  obtain ⟨-, hids, -⟩ := says_of_parseModel hm
  refine ⟨idsFrom_of_parseModel hm, hids, fun qs => ?_⟩
  rw [withIds_eq hids]
  have hstate : (m.session qs).Identifies :=
    session_induction (fun _ _ hm hs => hs.identifies hm) (identifies_of_parseModel hm) qs
  refine ⟨hstate, fun q => ⟨?_, fun id hid qs' => ?_⟩⟩
  · exact (reaches_after _ q).induction
      (P := fun m' => (m.session qs).nextEditorId ≤ m'.nextEditorId)
      (fun _ _ hle hs => Int.le_trans hle hs.le_nextEditorId) (Int.le_refl _)
  · exact (session_induction (fun _ _ hm hs => hs.spent hm) (spent_of_retires hstate hid) qs').gone

set_option maxRecDepth 100000 in
/-- A nail row, a routing and a drilling: the routing gets its id last. -/
theorem ids_of_session_of_three :
    ∃ (text : String) (m : WallModel Float),
      text = "NR 0,0,9,9;PAF;PP 0,0;PP 5,5;BOY 1,2,3,4" ∧ parseModel text 3 = .ok m ∧
      m.ids = [some 3, some 4, some 5] ∧
      (∃ n : Nat, m.nextEditorId = 3 + n ∧ m.ids.Perm (idsFrom 3 n)) ∧ m.HasIds m.nextEditorId ∧
      ∀ qs, (m.withIds.session qs).Identifies ∧
        ∀ q, (m.withIds.session qs).nextEditorId ≤
            ((m.withIds.session qs).after q).nextEditorId ∧
          ∀ id, (m.withIds.session qs).Retires q id →
            ∀ qs', some id ∉ (((m.withIds.session qs).after q).session qs').ids := by
  have heval : (do
      let m ← (parseModel (α := Float) "NR 0,0,9,9;PAF;PP 0,0;PP 5,5;BOY 1,2,3,4" 3).toOption
      if m.ids = [some 3, some 4, some 5] then some m else none).isSome = true := by
    decide +kernel
  obtain ⟨m, h⟩ := Option.isSome_iff_exists.mp heval
  simp only [Option.bind_eq_bind, Option.bind_eq_some_iff, Option.ite_none_right_eq_some] at h
  obtain ⟨m, hm, hids, ⟨⟩⟩ := h
  have hm := eq_ok_of_toOption hm
  exact ⟨_, m, rfl, hm, hids, ids_of_session hm⟩

end WallModel

end WallPanel
