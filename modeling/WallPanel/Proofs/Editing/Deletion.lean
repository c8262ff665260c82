import WallPanel.Proofs.Editing.Entities
import WallPanel.Proofs.Reading.Removal

/-!
# Deleting an entity

Deleting an entity takes its statements out of the document, and the document that is written says
what the statements say that are left (`WallModel.says_of_reparse`). Two models say the same, but for
the positions of their statements, if their readings do (`WallModel.renumbered_of_reading`).
-/

namespace WallPanel

namespace WallModel

variable {α : Type} [Scalar α] {m : WallModel α}

/-! ## Statements -/

omit [Scalar α] in
theorem getElem?_foldl_set (indices : List Nat) (statements : List (Option String)) (n : Nat) :
    (indices.foldl (fun ss i => ss.set i none) statements)[n]? =
      (statements[n]?).map fun t => if n ∈ indices then none else t := by
  induction indices generalizing statements with
  | nil => simp
  | cons i indices ih =>
    rw [List.foldl_cons, ih]
    by_cases hi : i = n
    · subst hi
      by_cases hn : i < statements.length <;> simp [hn]
    · simp [List.getElem?_set_ne hi, Ne.symm hi]

omit [Scalar α] in
/-- The statements that are left of texts. -/
theorem statements_eq {texts : List String} {indices : List Nat}
    (h : m.statements = indices.foldl (fun ss i => ss.set i none) (texts.map some)) :
    m.statements = texts.zipIdx.map (fun (t, n) => if m.isLive n then some t else none) ∧
      ∀ n < texts.length, m.isLive n = decide (n ∉ indices) := by
  have hget (n : Nat) : m.statements[n]? =
      (texts[n]?).map fun t => if n ∈ indices then none else some t := by
    rw [h, getElem?_foldl_set, List.getElem?_map, Option.map_map]
    rfl
  have hlive (n : Nat) (hn : n < texts.length) : m.isLive n = decide (n ∉ indices) := by
    rw [isLive, hget, List.getElem?_eq_getElem hn]
    by_cases hi : n ∈ indices <;> simp [hi]
  refine ⟨List.ext_getElem? fun n => ?_, hlive⟩
  rw [hget, List.getElem?_map, List.getElem?_zipIdx, Option.map_map]
  by_cases hn : n < texts.length
  · simp [List.getElem?_eq_getElem hn, hlive n hn]
  · simp [List.getElem?_eq_none (Nat.le_of_not_lt hn)]

/-! ## Deleting -/

/-- An entity that is found is deleted. -/
theorem delete_eq {ref : EntityRef} {E : Entity α} (h : m.resolve ref = .ok E) :
    m.delete [ref] = ⟨some (m.deleteEntity E).withBounds, 1, []⟩ := by
  simp [delete, deleteStep, h, Working.advance, Working.toEdit]

end WallModel

/-! ## Models that say the same -/

namespace WallModel

variable {α : Type}

/-- The second model says of the wall what the first says, in the order of its collections, with
other positions of the statements and whatever the ids. -/
structure Renumbered (f : Nat → Nat) (m m' : WallModel α) : Prop where
  wall : m'.wall = m.wall
  modules : m'.modules = m.modules
  studs : m'.studs = m.studs.map (·.renumber f)
  blocking : m'.blocking = m.blocking.map (·.renumber f)
  plates : m'.plates = m.plates.map (·.renumber f)
  sheathing : m'.sheathing = m.sheathing.map (·.renumber f)
  nailRows : m'.nailRows.map NailRow.anonymous = (m.nailRows.map NailRow.anonymous).map (·.renumber f)
  drillings : m'.drillings.map Drilling.anonymous = (m.drillings.map Drilling.anonymous).map (·.renumber f)
  routings : m'.routings.map Routing.anonymous = (m.routings.map Routing.anonymous).map (·.renumber f)

variable [Scalar α] {m m' : WallModel α} {es : List (Placed α)} {f : Nat → Nat}

theorem renumbered_of_reading (h : m.SharesFrame es) (h' : m'.Says (es.map (·.renumber f)))
    (hd : Reading.Distinct f es)
    (hr : m.routings.map Routing.anonymous = Reading.routings es none) :
    m.Renumbered f m' where
  wall := by
    rw [h'.frame.wall, h.wall, List.findSome?_map]
    congr 1
    funext p
    cases hp : p.role <;> simp [Placed.renumber, hp, Role.renumber, Role.wall?]
  modules := by
    rw [h'.frame.modules, h.modules, List.filterMap_map]
    congr 1
    funext p
    cases hp : p.role <;> simp [Placed.renumber, hp, Role.renumber, Role.module?]
  studs := by
    rw [h'.frame.studs, h.studs, List.filterMap_map, List.map_filterMap]
    exact List.filterMap_congr fun p _ => Reading.member?_renumber p.role _
  blocking := by
    rw [h'.frame.blocking, h.blocking, List.filterMap_map, List.map_filterMap]
    exact List.filterMap_congr fun p _ => Reading.member?_renumber p.role _
  plates := by
    rw [h'.frame.plates, h.plates, List.filterMap_map, List.map_filterMap]
    exact List.filterMap_congr fun p _ => Reading.member?_renumber p.role _
  sheathing := by rw [h'.frame.sheathing, h.sheathing, Reading.sheathing_renumber hd]
  nailRows := by
    rw [h'.frame.nailRows, h.nailRows, List.filterMap_map, List.map_filterMap]
    exact List.filterMap_congr fun p _ => Reading.nailRow?_renumber p.role
  drillings := by
    rw [h'.frame.drillings, h.drillings, List.filterMap_map, List.map_filterMap]
    exact List.filterMap_congr fun p _ => Reading.drilling?_renumber p.role
  routings := by
    rw [h'.routings, Reading.routings_renumber hd, ← hr]

section Reparse

variable {text : String} {ss : List (Statement α)} {indices : List Nat}
  (hss : Statement.readAll 0 (splitStatements text) = .ok ss)
  (hm : m.statements =
    indices.foldl (fun sts i => sts.set i none) ((splitStatements text).map some))
include hss hm

/-- The statements that are left. -/
theorem filter_isLive :
    ss.filter (m.isLive ·.index) = ss.filter (·.index ∉ indices) := by
  obtain ⟨-, hlive⟩ := statements_eq hm
  refine List.filter_congr fun s hs => hlive _ ?_
  rw [← Statement.length_readAll hss]
  exact Statement.index_lt_of_readAll hss hs

/-- The positions of the statements that are left stay different. -/
theorem distinct_rank :
    Reading.Distinct (rank m.isLive) (Context.start.read (ss.filter (·.index ∉ indices))) := by
  have hsorted : ((ss.filter (·.index ∉ indices)).map (·.index)).Pairwise (· < ·) :=
    (Statement.sorted_readAll hss).sublist (List.filter_sublist.map _)
  have hsound := Context.sound_read hsorted
  have hlive : ∀ j, Reading.Names (Context.start.read (ss.filter (·.index ∉ indices))) j →
      m.isLive j = true := by
    intro j hj
    obtain ⟨p, hp, rfl⟩ := hsound.names j hj
    have := Context.statement_mem hp
    rw [← filter_isLive hss hm] at this
    exact (List.mem_filter.mp this).2
  exact fun p hp i hi q hq j hj => rank_injective (hlive i ⟨p, hp, hi⟩) (hlive j ⟨q, hq, hj⟩)

/-- The document of a model is read again: it says what the statements that are left say. -/
theorem says_of_reparse {written : String} {m' : WallModel α} {k : Int}
    (hw : serialize m.statements none = some written) (hp : parseModel written k = .ok m') :
    m'.Says ((Context.start.read (ss.filter (·.index ∉ indices))).map
      (·.renumber (rank m.isLive))) := by
  obtain ⟨hst, -⟩ := statements_eq hm
  obtain ⟨⟨ss', hss', hsaid⟩, -⟩ := says_of_parseModel hp
  rw [Statement.readAll_serialize hss hst hw, filter_isLive hss hm] at hss'
  cases hss'
  have hread := Context.read_renumber (rank m.isLive) Context.start
    (ss.filter (·.index ∉ indices))
  rw [← hread]
  exact hsaid

end Reparse

end WallModel
end WallPanel
