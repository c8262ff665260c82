import WallPanel.Proofs.Editing.InPlace

/-!
# Records of what is unhandled

Moves and deletions leave the records of what is unhandled as they were read. A record names the
statement that it stands for, and the statement keeps its command word in every move; but it may be
among those of a routing, as the first vertex of a path that the routing discards
(`Attribution.beginsShortRun_of_owned`), and it is gone then with the routing.

* `WallModel.Lost`, `WallModel.Leaves`: what moves and deletions leave of the statements of a model.
* `WallModel.leaves_session`: every step keeps it.
* `WallModel.records_of_session`: which records name a statement that is there.
-/

namespace WallPanel

open Attribution

variable {α : Type}

namespace WallModel

/-! ## The statements that are left -/

/-- A statement of a model has gone with an entity that it was of: the entity is not in `s`. -/
def Lost (m s : WallModel α) (i : Nat) : Prop :=
  ∃ E ∈ m.entities, E.editorId ∉ s.ids ∧ i ∈ E.statementIndices

/-- What moves and deletions leave of a model: entities that it had, with their statements, and the
command words of all statements but those that are lost. -/
structure Leaves (m s : WallModel α) : Prop where
  length : s.statements.length = m.statements.length
  entities : ∀ F ∈ s.entities, ∃ E ∈ m.entities, E.editorId = F.editorId ∧
    E.statementIndices = F.statementIndices
  lost : ∀ i, m.Lost s i → wordAt s.statements i = none
  kept : ∀ i, ¬m.Lost s i → wordAt s.statements i = wordAt m.statements i

variable {m s s' : WallModel α} {E E' : Entity α} {axis : Axis} {i : Nat}

theorem Leaves.refl (m : WallModel α) : m.Leaves m where
  length := rfl
  entities F hF := ⟨F, hF, rfl, rfl⟩
  lost _ := by
    rintro ⟨E, hE, hid, -⟩
    exact absurd (List.mem_map_of_mem hE) hid
  kept _ _ := rfl

variable [Scalar α] {d : α}

/-- A move takes no statement away and keeps the command words. -/
theorem Moved.leaves (h : s.Moved E axis d s' E') (hE : s.Owns E) (hs : m.Leaves s) :
    m.Leaves s' := by
  obtain ⟨init, rest, hsplit, hsplit'⟩ := h.entities
  have hids : s'.ids = s.ids := by simp [ids, hsplit, hsplit', h.moves.editorId]
  have hlost (i : Nat) : m.Lost s' i ↔ m.Lost s i := by simp only [Lost, hids]
  refine ⟨?_, fun F hF => ?_, fun i hi => ?_, fun i hi => ?_⟩
  · rw [h.statements, length_setStatements, hs.length]
  · rcases h.eq_or_mem hF with rfl | hF
    · obtain ⟨E₀, hE₀, hid, hindices⟩ := hs.entities E h.mem
      exact ⟨E₀, hE₀, hid.trans h.moves.editorId.symm, hindices.trans h.moves.statementIndices.symm⟩
    · exact hs.entities F hF
  · rw [h.wordAt_eq hE, hs.lost i ((hlost i).mp hi)]
  · rw [h.wordAt_eq hE, hs.kept i (mt (hlost i).mpr hi)]

omit [Scalar α] in
theorem Erased.length (h : s.Erased E s') : s'.statements.length = s.statements.length := by
  have hiff (i : Nat) : s'.statements.length ≤ i ↔ s.statements.length ≤ i := by
    rw [← List.getElem?_eq_none_iff, h.statements i, Option.map_eq_none_iff,
      List.getElem?_eq_none_iff]
  exact Nat.le_antisymm ((hiff _).mpr (Nat.le_refl _)) ((hiff _).mp (Nat.le_refl _))

omit [Scalar α] in
/-- A deletion takes the statements of its entity away and no other. -/
theorem Erased.leaves (h : s.Erased E s') (hm : m.Identifies) (hs' : s.Identifies)
    (hs : m.Leaves s) : m.Leaves s' := by
  obtain ⟨init, rest, hsplit, hsplit'⟩ := h.entities
  obtain ⟨E₀, hE₀, hid, hindices⟩ := hs.entities E h.mem
  have hids {id : Option Int} : id ∈ s.ids ↔ id = E.editorId ∨ id ∈ s'.ids := by
    simp [ids, hsplit, hsplit', or_left_comm]
  have hgone : E.editorId ∉ s'.ids := by
    obtain ⟨id, he, -⟩ := hs'.issued E h.mem
    exact he ▸ (spent_of_erased hs' h he).gone
  -- what is lost now and was not before is of the entity of `m` that has the id of `E`
  have hlost (i : Nat) : m.Lost s' i ↔ m.Lost s i ∨ i ∈ E.statementIndices := by
    constructor
    · rintro ⟨F, hF, hFid, hi⟩
      by_cases hmem : F.editorId ∈ s.ids
      · have he : F.editorId = E₀.editorId := ((hids.mp hmem).resolve_right hFid).trans hid.symm
        obtain rfl := List.inj_on_of_nodup_map hm.nodup hF hE₀ he
        exact .inr (hindices ▸ hi)
      · exact .inl ⟨F, hF, hmem, hi⟩
    · rintro (⟨F, hF, hFid, hi⟩ | hi)
      · exact ⟨F, hF, fun hmem => hFid (hids.mpr (.inr hmem)), hi⟩
      · exact ⟨E₀, hE₀, hid ▸ hgone, hindices ▸ hi⟩
  have hword (i : Nat) : wordAt s'.statements i =
      if i ∈ E.statementIndices then none else wordAt s.statements i := by
    rw [wordAt, h.statements i, wordAt]
    split <;> cases s.statements[i]? <;> simp_all
  refine ⟨h.length.trans hs.length, fun F hF => hs.entities F (h.sublist.subset hF),
    fun i hi => ?_, fun i hi => ?_⟩
  · rw [hword]
    split
    · rfl
    · next hne => exact hs.lost i (((hlost i).mp hi).resolve_right hne)
  · rw [hlost, not_or] at hi
    rw [hword, if_neg hi.2, hs.kept i hi.1]

/-- Moves and deletions leave of a model what every step leaves. The induction carries along that
the entities own their statements and have ids of their own. -/
theorem leaves_session (hown : m.Ownership) (hm : m.Identifies) {qs : List (EditRequest α)}
    (hq : ∀ q ∈ qs, q.rereads = false) : m.Leaves (m.session qs) := by
  have hall : m.Leaves (m.session qs) ∧ (m.session qs).Ownership ∧ (m.session qs).Identifies := by
    refine edits_induction (P := fun s => m.Leaves s ∧ s.Ownership ∧ s.Identifies) hq ?_
      ⟨.refl m, hown, hm⟩
    intro s s' ⟨hs, hown, hids⟩ hedit
    refine ⟨?_, hedit.step.ownership hown, hedit.step.identifies hids⟩
    cases hedit with
    | move found moved =>
      obtain ⟨E', h⟩ := exists_moved found moved
      exact h.leaves (hown.owns _ h.mem) hs
    | erase found => exact (erased_of_resolve found).leaves hm hids hs
    | rebound => exact ⟨hs.length, hs.entities, hs.lost, hs.kept⟩
  exact hall.1

end WallModel

/-! ## Records and entities -/

namespace Attribution

variable [Scalar α] {ss : List (Statement α)} {m : WallModel α} {u : Unhandled α} {r : Routing α}
  {s : Statement α} {j : Nat}

omit [Scalar α] in
theorem isPlaced_of_circleOf (h : CircleOf ss j s) : IsPlaced ss s := by
  obtain ⟨hk, hu, hj⟩ := h
  exact ⟨hu, by simpa only [hk] using ⟨j, hj.1, hj⟩⟩

omit [Scalar α] in
theorem isPlaced_of_vertexOf (h : VertexOf ss j s) : IsPlaced ss s := by
  obtain ⟨hlike, hj, -⟩ := h
  have hon : OnRouting ss s.index := ⟨j, hj.1, hj⟩
  have hkind := isPathPart_of_isVertexLike hlike
  simp only [Statement.isPathPart, Bool.or_eq_true, decide_eq_true_eq] at hkind
  refine ⟨(Bool.and_eq_true_iff.mp hlike).1, ?_⟩
  rcases hkind with hk | hk
  · simpa only [hk] using .inr hon
  · simpa only [hk] using ⟨hlike, hon⟩

/-- The statements of a routing, as the document has them. -/
theorem Describes.exists_header (hd : Describes ss m) (hr : r ∈ m.routings) :
    ∃ t ∈ ss, t.command.kind = .routing ∧ cuts ss t.index ≠ [] ∧
      r.statementIndices = members ss t.index := by
  have hmem : r.anonymous ∈ ss.filterMap (routing? ss) := hd.routings ▸ List.mem_map_of_mem hr
  obtain ⟨t, ht, hrouting⟩ := List.mem_filterMap.mp hmem
  obtain ⟨⟨hk, hcuts⟩, he⟩ := Option.ite_none_right_eq_some.mp hrouting
  have hindices : members ss t.index = r.statementIndices :=
    congrArg Routing.statementIndices (Option.some.inj he)
  exact ⟨t, ht, hk, by simpa using hcuts, hindices.symm⟩

/-- A record of what is unhandled that stands for a statement of a routing is that of the first
vertex of a path that the routing discards. -/
theorem beginsShortRun_of_owned (hn : Numbered ss) (hd : Describes ss m) (hu : u ∈ m.unhandled)
    (hr : r ∈ m.routings) (hi : u.statementIndex ∈ r.statementIndices) :
    ∃ s ∈ ss, u = .ofStatement s ∧ BeginsShortRun ss s := by
  obtain ⟨t, ht, hk, hcuts, hindices⟩ := hd.exists_header hr
  -- a statement of the routing is its header, or it has a place as a circle or a vertex
  have howned : ∀ s ∈ ss, s.index = u.statementIndex →
      s = t ∨ IsPlaced ss s ∧ s.command.kind ≠ .routing := by
    intro s hs he
    rw [hindices] at hi
    obtain ⟨s', hs', hi⟩ := List.mem_map.mp hi
    obtain ⟨hs', hof⟩ := List.mem_filter.mp hs'
    obtain rfl := hn.eq_of_index hs hs' (hi.trans he.symm)
    rcases of_decide_eq_true hof with hi | hcircle | hvertex
    · exact .inl (hn.eq_of_index ht hs hi)
    · exact .inr ⟨isPlaced_of_circleOf hcircle, by simp [hcircle.1]⟩
    · have hpath := isPathPart_of_isVertexLike hvertex.1
      exact .inr ⟨isPlaced_of_vertexOf hvertex,
        fun hk => by simp [Statement.isPathPart, hk] at hpath⟩
  rw [hd.unhandled.mem_iff, unhandled, List.mem_append, List.mem_append] at hu
  rcases hu with (hu | hu) | hu
  · obtain ⟨s, hs, rfl⟩ := List.mem_map.mp hu
    obtain ⟨hs, hplaced⟩ := List.mem_filter.mp hs
    rcases howned s hs rfl with rfl | ⟨hs', -⟩
    · simp [IsPlaced, Statement.isUsable, hk, CommandKind.minNumbers] at hplaced
    · exact absurd hs' (of_decide_eq_true hplaced)
  · obtain ⟨s, hs, rfl⟩ := List.mem_map.mp hu
    obtain ⟨hs, hshort⟩ := List.mem_filter.mp hs
    exact ⟨s, hs, rfl, of_decide_eq_true hshort⟩
  · obtain ⟨s, hs, rfl⟩ := List.mem_map.mp hu
    obtain ⟨hs, hheader⟩ := List.mem_filter.mp hs
    obtain ⟨hk', hempty⟩ := of_decide_eq_true hheader
    rcases howned s hs rfl with rfl | ⟨-, hne⟩
    · exact absurd (List.isEmpty_iff.mp hempty) hcuts
    · exact absurd hk' hne

/-- No nail row and no drilling is of a statement that is unhandled. -/
theorem eq_routing_of_owned (ha : Accounts ss m) (hu : u ∈ m.unhandled) {E : Entity α}
    (hE : E ∈ m.entities) (hi : u.statementIndex ∈ E.statementIndices) :
    ∃ r ∈ m.routings, E = .routing r := by
  have hpos : u.statementIndex ∈ positions ss m .unhandled := List.mem_map_of_mem hu
  obtain ⟨f, -, honly⟩ := ha.fate _ (ha.bounded _ _ hpos)
  obtain ⟨r, hr, rfl⟩ | ⟨d, hd, rfl⟩ | ⟨r, hr, rfl⟩ := WallModel.entity_cases hE
  · have hrow : u.statementIndex ∈ positions ss m .nailRow :=
      List.mem_singleton.mp hi ▸ List.mem_map_of_mem hr
    cases (honly _ hpos).trans (honly _ hrow).symm
  · have hdrilling : u.statementIndex ∈ positions ss m .drilling :=
      List.mem_singleton.mp hi ▸ List.mem_map_of_mem hd
    cases (honly _ hpos).trans (honly _ hdrilling).symm
  · exact ⟨r, hr, rfl⟩

end Attribution

/-! ## Sessions -/

namespace WallModel

variable [Scalar α] {text : String} {k : Int} {m : WallModel α}

/-- A record of `m` names a statement that is gone in `s`: that of the first vertex of a path that a
routing discards, and the routing has been deleted. -/
structure Stale (m s : WallModel α) (ss : List (Statement α)) (u : Unhandled α) : Prop where
  gone : s.statements[u.statementIndex]? = some none
  routing : ∃ r ∈ m.routings, u.statementIndex ∈ r.statementIndices ∧ r.editorId ∉ s.ids
  first : ∃ t ∈ ss, u = .ofStatement t ∧ BeginsShortRun ss t

/-- Whatever an editor moves and deletes, the records of what is unhandled are those that were read.
Each names a statement that is there and has its command word, unless the statement is one of a
routing that has been deleted: then the record is of a path that the routing discarded. -/
theorem records_of_session (hm : parseModel text k = .ok m) {qs : List (EditRequest α)}
    (hq : ∀ q ∈ qs, q.rereads = false) :
    (m.withIds.session qs).unhandled = m.unhandled ∧
      ∃ ss, Statement.readAll 0 (splitStatements text) = .ok ss ∧
        ∀ u ∈ (m.withIds.session qs).unhandled,
          (wordAt (m.withIds.session qs).statements u.statementIndex = some u.command ∧
            ∀ r ∈ m.routings, u.statementIndex ∈ r.statementIndices →
              r.editorId ∈ (m.withIds.session qs).ids) ∨
          m.Stale (m.withIds.session qs) ss u := by
  obtain ⟨⟨ss, hss, hsaid⟩, hids, hst⟩ := says_of_parseModel hm
  have hn := numbered_of_readAll hss
  have hd := describes_of_reading hn hsaid
  obtain ⟨ss', hss', ha⟩ := accounts_of_parseModel hm
  obtain rfl : ss' = ss := Except.ok.inj (hss'.symm.trans hss)
  rw [withIds_eq hids]
  have hleaves := leaves_session (ownership_of_parseModel hm) (identifies_of_parseModel hm) hq
  have hunhandled := (keepsRest_session (m := m) hq).unhandled
  refine ⟨hunhandled, ss', hss, fun u hu => ?_⟩
  rw [hunhandled] at hu
  obtain ⟨t, ht, rfl⟩ := ha.records u hu
  obtain ⟨-, hword, -⟩ := word_of_mem hss hst ht
  by_cases hlost : m.Lost (m.session qs) t.index
  · right
    obtain ⟨E, hE, hid, hi⟩ := id hlost
    obtain ⟨r, hr, rfl⟩ := eq_routing_of_owned ha hu hE hi
    refine ⟨?_, ⟨r, hr, hi, hid⟩, beginsShortRun_of_owned hn hd hu hr hi⟩
    have hlt : t.index < (m.session qs).statements.length := by
      rw [hleaves.length]
      by_contra hle
      simp [wordAt, List.getElem?_eq_none (Nat.le_of_not_lt hle)] at hword
    have hnone := hleaves.lost _ hlost
    simp only [wordAt, List.getElem?_eq_getElem hlt, Option.join_some, Option.map_eq_none_iff]
      at hnone
    exact (List.getElem?_eq_getElem hlt).trans (congrArg some hnone)
  · refine .inl ⟨(hleaves.kept _ hlost).trans hword, fun r hr hi => ?_⟩
    by_contra hid
    exact hlost ⟨.routing r, by simp [entities, hr], hid, hi⟩

set_option maxRecDepth 100000 in
/-- A routing with a point that it discards is moved, and the drilling beside it deleted. -/
theorem records_of_session_of_two :
    ∃ (text : String) (m : WallModel Float) (qs : List (EditRequest Float)),
      text = "XX 5;PAF;PP 7,7;MP 1,2,3;BOY 1,2,3,4" ∧ parseModel text 1 = .ok m ∧
      qs = [.translate [⟨"paf", 2⟩] "x" (some 1.0), .delete [⟨"boy", 1⟩]] ∧
      (∀ q ∈ qs, q.rereads = false) ∧
      m.unhandled.map Unhandled.statementIndex = [0, 2] ∧
      (m.withIds.session qs).statements =
        [some "XX 5", some "PAF", some "PP 7,7", some "MP 2,2,3", none] ∧
      (m.withIds.session qs).unhandled = m.unhandled ∧
      ∃ ss, Statement.readAll 0 (splitStatements text) = .ok ss ∧
        ∀ u ∈ (m.withIds.session qs).unhandled,
          (wordAt (m.withIds.session qs).statements u.statementIndex = some u.command ∧
            ∀ r ∈ m.routings, u.statementIndex ∈ r.statementIndices →
              r.editorId ∈ (m.withIds.session qs).ids) ∨
          m.Stale (m.withIds.session qs) ss u := by
  have heval : (do
      let m ← (parseModel (α := Float) "XX 5;PAF;PP 7,7;MP 1,2,3;BOY 1,2,3,4" 1).toOption
      let s := m.withIds.session
        [.translate [⟨"paf", 2⟩] "x" (some 1.0), .delete [⟨"boy", 1⟩]]
      if m.unhandled.map Unhandled.statementIndex = [0, 2] ∧
        s.statements = [some "XX 5", some "PAF", some "PP 7,7", some "MP 2,2,3", none]
      then some m else none).isSome = true := by
    decide +kernel
  obtain ⟨m, h⟩ := Option.isSome_iff_exists.mp heval
  simp only [Option.bind_eq_bind, Option.bind_eq_some_iff, Option.ite_none_right_eq_some] at h
  obtain ⟨m, hm, ⟨hindices, hstatements⟩, ⟨⟩⟩ := h
  have hm := eq_ok_of_toOption hm
  have hq : ∀ q ∈ ([.translate [⟨"paf", 2⟩] "x" (some 1.0), .delete [⟨"boy", 1⟩]] :
      List (EditRequest Float)), q.rereads = false := by
    simp [EditRequest.rereads]
  exact ⟨_, m, _, rfl, hm, rfl, hq, hindices, hstatements, records_of_session hm hq⟩

set_option maxRecDepth 100000 in
/-- A routing is deleted, and the record of the point that it discarded stays. -/
theorem unhandled_of_deleted_routing :
    ∃ (m s : WallModel Float) (u : Unhandled Float),
      parseModel "PAF;PP 7,7;MP 1,2,3" 1 = .ok m ∧
      s = m.withIds.session [.delete [⟨"paf", 1⟩]] ∧ u ∈ s.unhandled ∧ u.command = "PP" ∧
      s.statements[u.statementIndex]? = some none ∧
      wordAt s.statements u.statementIndex = none := by
  have heval : (do
      let m ← (parseModel (α := Float) "PAF;PP 7,7;MP 1,2,3" 1).toOption
      let s := m.withIds.session [.delete [⟨"paf", 1⟩]]
      let u ← s.unhandled.head?
      if u.command = "PP" ∧ s.statements[u.statementIndex]? = some none
      then some (m, u) else none).isSome = true := by
    decide +kernel
  obtain ⟨x, h⟩ := Option.isSome_iff_exists.mp heval
  simp only [Option.bind_eq_bind, Option.bind_eq_some_iff, Option.ite_none_right_eq_some] at h
  obtain ⟨m, hm, u, hu, ⟨hcommand, hgone⟩, -⟩ := h
  exact ⟨m, _, u, eq_ok_of_toOption hm, rfl, List.mem_of_head? hu, hcommand, hgone,
    by simp [wordAt, hgone]⟩

end WallModel

end WallPanel
