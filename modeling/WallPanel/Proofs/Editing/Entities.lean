import WallPanel.Editing.Editor
import WallPanel.Proofs.Building.Pass
import WallPanel.Proofs.Reading.Removal

/-!
# The entities of a model that was read

An entity of a model that was read has an id that no other one of its kind has, and its statements
are there: an edit finds it (`WallModel.resolve_of_parseModel`). The statement of a nail row and of a
drilling, and the header of a routing, are in the document (`WallModel.Says.exists_nailRow`,
`WallModel.Says.exists_drilling`, `WallModel.Says.exists_header`).
-/

namespace WallPanel

open Reading

/-! ## Ids -/

section Ids

variable {β : Type} {id? : β → Option Int} {bs : List β} {b : β} {next : Int}

theorem Issued.isSome (h : Issued (bs.map id?) next) (hb : b ∈ bs) : ∃ id, id? b = some id := by
  obtain ⟨ns, he, -, -⟩ := h
  have hmem : id? b ∈ ns.map some := he ▸ List.mem_map_of_mem hb
  obtain ⟨id, -, hid⟩ := List.mem_map.mp hmem
  exact ⟨id, hid.symm⟩

theorem Issued.nodup (h : Issued (bs.map id?) next) : (bs.map id?).Nodup := by
  obtain ⟨ns, he, hp, -⟩ := h
  rw [he]
  exact List.Nodup.map (fun _ _ he => Option.some.inj he) (hp.imp fun hlt => Int.ne_of_lt hlt)

/-- Ids that have been given out are kept. -/
theorem Issued.assignIds_eq (h : Issued (bs.map id?) next) (setId : β → Int → β) (n : Int) :
    assignIds id? setId n bs = (bs, n) := by
  have hall : ∀ b ∈ bs, ∃ id, id? b = some id := fun b hb => h.isSome hb
  clear h
  induction bs with
  | nil => rfl
  | cons b bs ih =>
    obtain ⟨id, hid⟩ := hall b List.mem_cons_self
    simp [assignIds, hid, ih fun b hb => hall b (List.mem_cons_of_mem _ hb)]

/-- Where no two ids are the same, an id finds its entity. -/
theorem find?_of_nodup (h : (bs.map id?).Nodup) (hb : b ∈ bs) :
    bs.find? (id? · == id? b) = some b := by
  obtain ⟨c, hc⟩ : ∃ c, bs.find? (id? · == id? b) = some c :=
    Option.isSome_iff_exists.mp (List.find?_isSome.mpr ⟨b, hb, by simp⟩)
  have hid : id? c = id? b := by simpa using List.find?_some hc
  rw [hc, List.inj_on_of_nodup_map h (List.mem_of_find?_eq_some hc) hb hid]

/-- What is taken out by an id is its entity. -/
theorem Issued.split (h : Issued (bs.map id?) next) (hb : b ∈ bs) :
    ∃ init rest, bs = init ++ b :: rest ∧ bs.eraseP (id? · == id? b) = init ++ rest := by
  obtain ⟨init, rest, rfl⟩ := List.append_of_mem hb
  have hnot : ∀ x ∈ init, ¬(id? x == id? b) = true := by
    intro x hx he
    have hn := h.nodup
    rw [List.map_append, List.nodup_append] at hn
    exact hn.2.2 (id? x) (List.mem_map_of_mem hx) (id? b) (by simp) (by simpa using he)
  refine ⟨init, rest, rfl, ?_⟩
  rw [List.eraseP_append_right _ hnot]
  simp

/-- What is taken out by an id is all that is at the position of the entity. -/
theorem Issued.eraseP_eq_filter {key : β → Nat} (h : Issued (bs.map id?) next)
    (hk : (bs.map key).Pairwise (· < ·)) (hb : b ∈ bs) :
    bs.eraseP (id? · == id? b) = bs.filter (key · ≠ key b) := by
  obtain ⟨init, rest, rfl, herase⟩ := h.split hb
  rw [List.map_append, List.map_cons, List.pairwise_append, List.pairwise_cons] at hk
  obtain ⟨-, ⟨hrest, -⟩, hinit⟩ := hk
  have hi : init.filter (key · ≠ key b) = init := List.filter_eq_self.mpr fun x hx => by
    simpa using Nat.ne_of_lt (hinit _ (List.mem_map_of_mem hx) _ List.mem_cons_self)
  have hr : rest.filter (key · ≠ key b) = rest := List.filter_eq_self.mpr fun x hx => by
    simpa using Nat.ne_of_gt (hrest _ (List.mem_map_of_mem hx))
  rw [herase, List.filter_append, List.filter_cons_of_neg (by simp), hi, hr]

end Ids

/-! ## Entities -/

namespace Entity

variable {α : Type}

def kind : Entity α → EntityKind
  | nailRow _ => .nailRow
  | drilling _ => .drilling
  | routing _ => .routing

def editorId : Entity α → Option Int
  | nailRow r => r.editorId
  | drilling d => d.editorId
  | routing r => r.editorId

end Entity

/-- The entities of a model, kind by kind. -/
def WallModel.entities {α : Type} (m : WallModel α) : List (Entity α) :=
  m.nailRows.map .nailRow ++ m.drillings.map .drilling ++ m.routings.map .routing

namespace WallModel

variable {α : Type} [Scalar α] {m : WallModel α}

omit [Scalar α] in
/-- A model with ids is taken into an editor as it is. -/
theorem withIds_eq (h : m.HasIds m.nextEditorId) : m.withIds = m := by
  simp [withIds, h.nailRows.assignIds_eq, h.drillings.assignIds_eq, h.routings.assignIds_eq]

omit [Scalar α] in
/-- The statements of a model that was read are there. -/
theorem isLive_of_lt {texts : List String} (h : m.statements = texts.map some) {i : Nat}
    (hi : i < texts.length) : m.isLive i = true := by
  simp [isLive, h, hi]

/-! ## The statements of an entity -/

variable {es : List (Placed α)} {r : Routing α} {E : Entity α}

theorem Says.exists_nailRow (h : m.Says es) (hs : Sound es) {r : NailRow α}
    (hr : r ∈ m.nailRows) :
    ∃ p ∈ es, p.statement.index = r.statementIndex ∧ p.role = .nailRow r.anonymous := by
  have hmem := List.mem_map_of_mem (f := NailRow.anonymous) hr
  rw [h.frame.nailRows] at hmem
  obtain ⟨p, hp, hrole⟩ := List.mem_filterMap.mp hmem
  refine ⟨p, hp, (hs.nailRow_index hp hrole).symm, ?_⟩
  cases hr : p.role <;> simp_all [Role.nailRow?]

theorem Says.exists_drilling (h : m.Says es) (hs : Sound es) {d : Drilling α}
    (hd : d ∈ m.drillings) :
    ∃ p ∈ es, p.statement.index = d.statementIndex ∧ p.role = .drilling d.anonymous := by
  have hmem := List.mem_map_of_mem (f := Drilling.anonymous) hd
  rw [h.frame.drillings] at hmem
  obtain ⟨p, hp, hrole⟩ := List.mem_filterMap.mp hmem
  refine ⟨p, hp, (hs.drilling_index hp hrole).symm, ?_⟩
  cases hr : p.role <;> simp_all [Role.drilling?]

/-- A routing of a model is that of a header, with the cuts and the statements that the reading
gives it. It has cuts. -/
theorem Says.exists_header (h : m.Says es) (hr : r ∈ m.routings) : ∃ w ∈ headers es,
    r.anonymous = filled es none w ∧ cuts es none w.statementIndex ≠ [] := by
  have hmem := List.mem_map_of_mem (f := Routing.anonymous) hr
  rw [h.routings] at hmem
  obtain ⟨w, hw, hcuts, he⟩ := mem_routings.mp hmem
  exact ⟨w, hw, he.symm, hcuts⟩

theorem Says.statementIndices_eq (h : m.Says es) (hr : r ∈ m.routings) :
    r.statementIndices = indices es r.statementIndex := by
  obtain ⟨w, -, he, -⟩ := h.exists_header hr
  have hi := congrArg Routing.statementIndices he
  have hj := congrArg Routing.statementIndex he
  simp only [Routing.anonymous, filled] at hi hj
  rw [hi, hj]

omit [Scalar α] in
/-- An entity belongs to one of the three collections. -/
theorem entity_cases (hE : E ∈ m.entities) : (∃ r ∈ m.nailRows, E = .nailRow r) ∨
    (∃ d ∈ m.drillings, E = .drilling d) ∨ ∃ r ∈ m.routings, E = .routing r := by
  simpa [entities, eq_comm, or_assoc] using hE

omit [Scalar α] in
/-- An entity is found by its id if no other one of its kind has the id. -/
theorem find?_of_nodup_ids {id : Int} (hrows : (m.nailRows.map (·.editorId)).Nodup)
    (hdrillings : (m.drillings.map (·.editorId)).Nodup)
    (hroutings : (m.routings.map (·.editorId)).Nodup) (hE : E ∈ m.entities)
    (hid : E.editorId = some id) : m.find? E.kind id = some E := by
  obtain ⟨r, hr, rfl⟩ | ⟨d, hd, rfl⟩ | ⟨r, hr, rfl⟩ := entity_cases hE
  · simp [WallModel.find?, Entity.kind, ← hid, Entity.editorId, find?_of_nodup hrows hr]
  · simp [WallModel.find?, Entity.kind, ← hid, Entity.editorId, find?_of_nodup hdrillings hd]
  · simp [WallModel.find?, Entity.kind, ← hid, Entity.editorId, find?_of_nodup hroutings hr]

omit [Scalar α] in
theorem HasIds.find? {next : Int} (hids : m.HasIds next) (hE : E ∈ m.entities) :
    ∃ id, E.editorId = some id ∧ m.find? E.kind id = some E := by
  obtain ⟨id, hid⟩ : ∃ id, E.editorId = some id := by
    obtain ⟨r, hr, rfl⟩ | ⟨d, hd, rfl⟩ | ⟨r, hr, rfl⟩ := entity_cases hE
    · exact hids.nailRows.isSome hr
    · exact hids.drillings.isSome hd
    · exact hids.routings.isSome hr
  exact ⟨id, hid, find?_of_nodup_ids hids.nailRows.nodup hids.drillings.nodup hids.routings.nodup
    hE hid⟩

/-- The statements of an entity are statements of the document. -/
theorem Says.exists_statement (h : m.Says es) (hs : Sound es) (hE : E ∈ m.entities) {i : Nat}
    (hi : i ∈ E.statementIndices) : ∃ p ∈ es, p.statement.index = i := by
  obtain ⟨r, hr, rfl⟩ | ⟨d, hd, rfl⟩ | ⟨r, hr, rfl⟩ := entity_cases hE
  · obtain ⟨p, hp, hpi, -⟩ := h.exists_nailRow hs hr
    exact ⟨p, hp, hpi.trans (List.mem_singleton.mp hi).symm⟩
  · obtain ⟨p, hp, hpi, -⟩ := h.exists_drilling hs hd
    exact ⟨p, hp, hpi.trans (List.mem_singleton.mp hi).symm⟩
  · rw [show (Entity.routing r).statementIndices = r.statementIndices from rfl,
      h.statementIndices_eq hr] at hi
    obtain ⟨p, hp, -, rfl⟩ := mem_indices.mp hi
    exact ⟨p, hp, rfl⟩

omit [Scalar α] in
/-- An entity that is found is resolved if its statements are there. -/
theorem resolve_of_isLive {id : Int} (hfind : m.find? E.kind id = some E)
    (hlive : ∀ i ∈ E.statementIndices, m.isLive i = true) :
    m.resolve ⟨E.kind.name, id⟩ = .ok E := by
  have hk : EntityKind.ofName? E.kind.name = some E.kind := by cases E.kind <;> rfl
  have hgone : E.statementIndices.find? (fun i => !m.isLive i) = none :=
    List.find?_eq_none.mpr fun i hi => by simp [hlive i hi]
  simp [resolve, hk, hfind, hgone]

/-- An edit finds an entity of a model that was read. -/
theorem resolve_of_parseModel {text : String} {k : Int} (hm : parseModel text k = .ok m)
    (hE : E ∈ m.entities) : ∃ id, E.editorId = some id ∧ m.withIds = m ∧
      m.find? E.kind id = some E ∧ m.resolve ⟨E.kind.name, id⟩ = .ok E := by
  obtain ⟨⟨ss, hss, hsaid⟩, hids, hst⟩ := says_of_parseModel hm
  have hsound := Context.sound_read (Statement.sorted_readAll hss)
  obtain ⟨id, hid, hfind⟩ := hids.find? hE
  refine ⟨id, hid, withIds_eq hids, hfind, resolve_of_isLive hfind fun i hi => isLive_of_lt hst ?_⟩
  obtain ⟨p, hp, rfl⟩ := hsaid.exists_statement hsound hE hi
  rw [← Statement.length_readAll hss]
  exact Statement.index_lt_of_readAll hss (Context.statement_mem hp)

end WallModel

end WallPanel
