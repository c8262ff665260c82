import WallPanel.Number.Binary64
import WallPanel.Proofs.Editing.Deletion

/-!
# Deleting a routing

Without the statements of a routing the others of a document say what they said before: what is read
from the document after a routing was deleted is what is left of the model
(`WallModel.reparse_deleteRouting`).
-/

namespace WallPanel

open Reading

variable {α : Type} [Scalar α]

namespace WallModel

variable {m : WallModel α} {es : List (Placed α)} {r : Routing α}

omit [Scalar α] in
/-- The statements of a routing say nothing of the frame. -/
theorem SharesFrame.without (h : m.SharesFrame es) (j : Nat) :
    m.SharesFrame (Reading.without j es) where
  wall := by
    rw [h.wall, ← List.head?_filterMap, ← List.head?_filterMap]
    rw [filterMap_without fun r hr => by cases r <;> first | rfl | cases hr]
  modules := by
    rw [h.modules, filterMap_without fun r hr => by cases r <;> first | rfl | cases hr]
  studs := by
    rw [h.studs, filterMap_without fun r hr => by cases r <;> first | rfl | cases hr]
  blocking := by
    rw [h.blocking, filterMap_without fun r hr => by cases r <;> first | rfl | cases hr]
  plates := by
    rw [h.plates, filterMap_without fun r hr => by cases r <;> first | rfl | cases hr]
  sheathing := by
    rw [h.sheathing, Reading.sheathing, Reading.sheathing, panels_without]
    simp only [points_without]
  nailRows := by
    rw [h.nailRows, filterMap_without fun r hr => by cases r <;> first | rfl | cases hr]
  drillings := by
    rw [h.drillings, filterMap_without fun r hr => by cases r <;> first | rfl | cases hr]

/-- The routings stand in the order of their headers. -/
theorem Says.sorted_routings (h : m.Says es) (hs : Sound es) :
    (m.routings.map (·.statementIndex)).Pairwise (· < ·) := by
  have hanon : m.routings.map (·.statementIndex) =
      (Reading.routings es none).map (·.statementIndex) := by
    rw [← h.routings, List.map_map]
    rfl
  rw [hanon, Reading.routings, headers, List.filterMap_filterMap]
  refine hs.sorted_filterMap fun p hp r hr => ?_
  obtain ⟨w, hw, he⟩ := Option.bind_eq_some_iff.mp hr
  obtain ⟨-, rfl⟩ := emitted?_none_eq_some.mp he
  exact hs.header_index hp (w := w) hw

/-- The position of a routing is among those of another only if it is the same. -/
theorem Says.index_mem_iff (h : m.Says es) (hs : Sound es) (hr : r ∈ m.routings) {j : Nat} :
    r.statementIndex ∈ indices es j ↔ r.statementIndex = j := by
  obtain ⟨w, hw, he, -⟩ := h.exists_header hr
  have hi : r.anonymous.statementIndex = w.statementIndex := by rw [he]; rfl
  rw [show r.statementIndex = w.statementIndex from hi, hs.header_index_mem hw]

/-- What is left of the routings when one of them is taken out. -/
theorem Says.routings_erase (h : m.Says es) (hs : Sound es) {next : Int} (hids : m.HasIds next)
    (hr : r ∈ m.routings) :
    (m.routings.eraseP (·.editorId == r.editorId)).map Routing.anonymous =
      Reading.routings (Reading.without r.statementIndex es) none := by
  rw [hids.routings.eraseP_eq_filter (h.sorted_routings hs) hr, hs.routings_without, ← h.routings,
    List.filter_map]
  congr 1
  refine List.filter_congr fun x hx => ?_
  have hi := h.index_mem_iff hs hx (j := r.statementIndex)
  simp [Routing.anonymous, hi]

/-- The statements that do not belong to a routing. -/
theorem filter_notMem_indices {ss : List (Statement α)} (j : Nat) (hs : Sound es)
    (hss : es.map (·.statement) = ss) :
    ss.filter (·.index ∉ indices es j) = (Reading.without j es).map (·.statement) := by
  rw [← hss, List.filter_map, Reading.without]
  congr 1
  refine List.filter_congr fun p hp => ?_
  cases h : p.role.isOf j <;> simp [hs.mem_indices_iff hp, h]

/-- What is read from the document after a routing was deleted is what is left of the model, and
what has no place are the records whose statements are left. -/
theorem reparse_deleteRouting {text : String} {k : Int} (hm : parseModel text k = .ok m)
    (hr : r ∈ m.routings) :
    ∃ id m', r.editorId = some id ∧ m.withIds.delete [⟨"paf", id⟩] = ⟨some m', 1, []⟩ ∧
      ∀ written k' p, serialize m'.statements none = some written →
        parseModel written k' = .ok p →
        m'.Renumbered (rank m'.isLive) p ∧
          p.unhandled.Perm ((m'.unhandled.filter
            (·.statementIndex ∉ r.statementIndices)).map (·.renumber (rank m'.isLive))) := by
  obtain ⟨⟨ss, hss, hsaid⟩, hids, hst⟩ := says_of_parseModel hm
  have hsound := Context.sound_read (Statement.sorted_readAll hss)
  have hindices := hsaid.statementIndices_eq hr
  obtain ⟨id, hid, hids', -, hresolve⟩ := resolve_of_parseModel hm (E := .routing r)
    (List.mem_append_right _ (List.mem_map_of_mem hr))
  have hdelete : m.withIds.delete [⟨"paf", id⟩] =
      ⟨some (m.deleteEntity (.routing r)).withBounds, 1, []⟩ := by
    rw [hids']
    exact delete_eq hresolve
  refine ⟨id, _, hid, hdelete, fun written k' p hw hp => ?_⟩
  have hst' : (m.deleteEntity (.routing r)).withBounds.statements =
      (indices (Context.start.read ss) r.statementIndex).foldl (fun ss i => ss.set i none)
        ((splitStatements text).map some) := by
    rw [← hindices, ← hst]
    rfl
  have hread := Context.read_without (c := .start) (.refl (j := r.statementIndex)) ss
  have hkept := filter_notMem_indices r.statementIndex hsound (Context.statement_read _ ss)
  have hsaid' := says_of_reparse hss hst' hw hp
  have hdistinct := distinct_rank hss hst'
  rw [hkept, Reading.without, hread] at hsaid' hdistinct
  have hframe := hsaid.frame.without r.statementIndex
  refine ⟨renumbered_of_reading ⟨hframe.wall, hframe.modules, hframe.studs, hframe.blocking,
      hframe.plates, hframe.sheathing, hframe.nailRows, hframe.drillings⟩ hsaid' hdistinct
      (hsaid.routings_erase hsound hids hr), hsaid'.unhandled.trans ?_⟩
  rw [Reading.unhandled_renumber hdistinct, ← Reading.without, hsound.unhandled_without, hindices]
  exact ((hsaid.unhandled.filter _).map _).symm

set_option maxRecDepth 100000 in
/-- A routing between a panel and another routing. -/
theorem reparse_deleteRouting_between :
    ∃ (m : WallModel Float) (r : Routing Float) (id : Int) (m' p : WallModel Float)
      (written : String),
      parseModel "PLI1 9,9,1,0,0,1,A;PP 1,1;PAF;MP 1,1,2;PP 7;PP 7,7;PAF;MP 2,2,1" 1 = .ok m ∧
      r ∈ m.routings ∧ r.editorId = some id ∧
      m.withIds.delete [⟨"paf", id⟩] = ⟨some m', 1, []⟩ ∧
      serialize m'.statements none = some written ∧ parseModel written 1 = .ok p ∧
      m'.Renumbered (rank m'.isLive) p ∧
      p.unhandled.Perm ((m'.unhandled.filter
        (·.statementIndex ∉ r.statementIndices)).map (·.renumber (rank m'.isLive))) := by
  have heval : (do
      let m ← (parseModel (α := Float)
        "PLI1 9,9,1,0,0,1,A;PP 1,1;PAF;MP 1,1,2;PP 7;PP 7,7;PAF;MP 2,2,1" 1).toOption
      let r ← m.routings.head?
      let m' ← (m.withIds.delete [⟨"paf", (← r.editorId)⟩]).model
      (parseModel (α := Float) (← serialize m'.statements none) 1).toOption).isSome = true := by
    decide +kernel
  obtain ⟨p, h⟩ := Option.isSome_iff_exists.mp heval
  simp only [Option.bind_eq_bind, Option.bind_eq_some_iff] at h
  obtain ⟨m, hm, r, hr, id, hid, m', hm', written, hw, hp⟩ := h
  have hm := eq_ok_of_toOption hm
  have hr := List.mem_of_head? hr
  obtain ⟨id', m'', hid', hdelete, hall⟩ := reparse_deleteRouting hm hr
  obtain rfl : id' = id := Option.some.inj (hid'.symm.trans hid)
  obtain rfl : m'' = m' := by simpa [hdelete] using hm'
  have hp := eq_ok_of_toOption hp
  exact ⟨m, r, id', m'', p, written, hm, hr, hid, hdelete, hw, hp, hall _ _ _ hw hp⟩

end WallModel
end WallPanel
