import WallPanel.Model.Check
import WallPanel.Proofs.Attribution.Extent
import WallPanel.Proofs.Editing.Saving
import WallPanel.Proofs.Number.Widening

/-!
# Entities within the bounds

The model that an editor holds is the one it began with, one that was just read, or one with new
bounds (`WallModel.session_cases`), so its bounds hold the points of all its entities
(`WallModel.Encloses`). The check looks at other points for drillings alone: at the centre of each,
where the bounds take in both its sides. The centre lies between them, because a diameter is a
magnitude, and stays one when a drilling is moved (`WallModel.Step.magnitudes`). So no entity with
finite points is ever found outside (`WallModel.issues_of_session`).
-/

namespace WallPanel

variable {α : Type} [Scalar α]

/-! ## Points within bounds -/

/-- Whether all sides of bounds are finite, if there are any. -/
def Bounds.HasFiniteSides : Bounds α → Prop
  | empty => True
  | box b => b.IsFinite

section Points

variable [Scalar.Ordered α] [Scalar.Widening α] {b : Bounds α} {p : Point α} {x z r : α}

omit [Scalar.Ordered α] in
/-- The tolerance does not leave out a point that lies in bounds. -/
theorem Bounds.contains_of_holds (hb : b.HasFiniteSides) (hp : p.isFinite = true)
    (h : b.Holds p) : b.contains Bounds.containsTolerance p = true := by
  cases b with
  | empty => cases h
  | box b =>
    obtain ⟨hleft, hright, hbottom, htop⟩ := hb
    have htolerance : Scalar.isFinite (1e-6 : α) = true := Scalar.Widening.isFinite_tolerance
    have hzero : 0.0 ≤ (1e-6 : α) := Scalar.Widening.zero_le_tolerance
    simp only [Point.isFinite, Bool.and_eq_true] at hp
    simp only [Bounds.contains, Bounds.containsTolerance, Bool.and_eq_true]
    exact ⟨⟨⟨decide_eq_true (Scalar.Widening.sub_le hleft hp.1 htolerance hzero h.left),
      decide_eq_true (Scalar.Widening.le_add hp.1 hright htolerance hzero h.right)⟩,
      decide_eq_true (Scalar.Widening.sub_le hbottom hp.2 htolerance hzero h.bottom)⟩,
      decide_eq_true (Scalar.Widening.le_add hp.2 htop htolerance hzero h.top)⟩

/-- Bounds that hold both sides of a drilling hold its centre. -/
theorem Bounds.holds_centre (hb : b.HasFiniteSides)
    (hsides : ∀ p ∈ Drilling.sides x z r, p.isFinite = true ∧ b.Holds p) (hr : 0.0 ≤ r) :
    (⟨x, z⟩ : Point α).isFinite = true ∧ b.Holds ⟨x, z⟩ := by
  obtain ⟨hfinite, hleft⟩ := hsides ⟨x - r, z⟩ List.mem_cons_self
  obtain ⟨hfinite', hright⟩ := hsides ⟨x + r, z⟩ (List.mem_cons_of_mem _ List.mem_cons_self)
  simp only [Point.isFinite, Bool.and_eq_true] at hfinite hfinite' ⊢
  obtain ⟨hx, hradius⟩ := Scalar.Widening.isFinite_of_sub hfinite.1
  refine ⟨⟨hx, hfinite.2⟩, ?_⟩
  cases b with
  | empty => cases hleft
  | box b =>
    have hself : x ≤ x := Scalar.le_self hx
    exact ⟨Scalar.le_trans hb.left hfinite.1 hx hleft.left
        (Scalar.Widening.sub_le hx hx hradius hr hself),
      Scalar.le_trans hx hfinite'.1 hb.right (Scalar.Widening.le_add hx hx hradius hr hself)
        hright.right,
      hleft.bottom, hleft.top⟩

end Points

/-! ## Diameters -/

/-- The diameter of an entity that has one. -/
def Entity.diameter? : Entity α → Option α
  | drilling d => some d.diameter
  | nailRow _ | routing _ => none

theorem Entity.diameter?_of_translate? {E E' : Entity α} {axis : Axis} {d : α}
    (h : E.translate? axis d = some E') : E'.diameter? = E.diameter? := by
  cases E with
  | nailRow r =>
    obtain ⟨r', -, rfl⟩ := Option.map_eq_some_iff.mp h
    rfl
  | drilling b =>
    obtain ⟨b', hb, rfl⟩ := Option.map_eq_some_iff.mp h
    unfold Drilling.translate? at hb
    split at hb
    · cases hb
    · cases axis <;> cases hb <;> rfl
  | routing r =>
    obtain ⟨r', -, rfl⟩ := Option.map_eq_some_iff.mp h
    rfl

theorem Drilling.diameter_of_ofStatement? {s : Statement α} {d : Drilling α}
    {module? : Option (ModuleFrame α)} {member? : Option (FrameMember α)}
    (h : ofStatement? s module? member? = some d) : ∃ v, d.diameter = Scalar.abs v := by
  unfold ofStatement? at h
  split at h
  · cases h
    exact ⟨_, rfl⟩
  · cases h

namespace WallModel

variable {m m' : WallModel α} {text : String} {k : Int}

/-- All diameters of a model are magnitudes. -/
def Magnitudes (m : WallModel α) : Prop :=
  ∀ E ∈ m.entities, ∀ x, E.diameter? = some x → ∃ v, x = Scalar.abs v

theorem magnitudes_of_parseModel (hm : parseModel text k = .ok m) : m.Magnitudes := by
  obtain ⟨⟨ss, hss, hsaid⟩, -, -⟩ := says_of_parseModel hm
  have hsound := Context.sound_read (Statement.sorted_readAll hss)
  intro E hE x hx
  obtain ⟨r, -, rfl⟩ | ⟨d, hd, rfl⟩ | ⟨r, -, rfl⟩ := entity_cases hE
  · cases hx
  · obtain rfl : d.diameter = x := Option.some.inj hx
    obtain ⟨p, hp, -, hrole⟩ := hsaid.exists_drilling hsound hd
    obtain ⟨c, hplays⟩ := hsound.plays p hp
    rw [hrole] at hplays
    cases hplays with
    | drilling _ entry =>
      obtain ⟨v, hv⟩ := Drilling.diameter_of_ofStatement? entry
      exact ⟨v, hv⟩
  · cases hx

theorem Step.magnitudes (h : m.Step m') (hm : m.Magnitudes) : m'.Magnitudes :=
  h.forall_entities (fun hread => magnitudes_of_parseModel hread)
    (fun hE hE' => by rwa [Entity.diameter?_of_translate? hE']) hm

/-! ## Bounds -/

/-- The bounds of a model hold the finite points of its entities. -/
structure Encloses (m : WallModel α) : Prop where
  sides : m.bounds.HasFiniteSides
  holds : ∀ p ∈ m.extent, p.isFinite = true → m.bounds.Holds p

theorem encloses_of_parseModel [Scalar.Ordered α] (hm : parseModel text k = .ok m) :
    m.Encloses := by
  obtain ⟨ss, -, hbox, haround⟩ := around_of_parseModel hm
  cases hb : m.bounds with
  | empty =>
    rw [hb] at hbox
    cases hbox
  | box b =>
    rw [hb] at haround
    refine ⟨?_, fun p hp hfinite => ?_⟩
    · rw [hb]
      exact Box.Around.isFinite haround fun p hp => hp.2
    · rw [hb]
      exact Box.Around.holds haround ⟨List.mem_append_left _ hp, hfinite⟩

theorem encloses_withBounds [Scalar.Ordered α] (m : WallModel α) : m.withBounds.Encloses := by
  refine ⟨?_, fun p hp => withBounds_holds hp⟩
  have haround := m.around_extent
  unfold withBounds
  cases hb : Bounds.empty.extendAll m.extent with
  | empty => exact Box.isFinite_origin
  | box b =>
    rw [hb] at haround
    exact Box.Around.isFinite haround fun p hp => hp.2

/-! ## The model of an editor -/

/-- After a request an editor holds the model that it had, one with new bounds, or one that was
just read. -/
theorem after_cases (m : WallModel α) (q : EditRequest α) : m.after q = m ∨
    (∃ w, m.after q = withBounds w) ∨ ∃ text k, parseModel text k = .ok (m.after q) := by
  cases h : m.answer q with
  | error => exact .inl (after_eq_error h)
  | ok e =>
    rw [after_eq_ok h]
    cases answers h with
    | declined => exact .inl rfl
    | @batch w =>
      rw [Working.toEdit]
      split
      · exact .inl rfl
      · exact .inr (.inl ⟨w.model, rfl⟩)
    | reread read => exact .inr (.inr ⟨_, _, read⟩)

theorem session_cases (m : WallModel α) (qs : List (EditRequest α)) : m.session qs = m ∨
    (∃ w, m.session qs = withBounds w) ∨ ∃ text k, parseModel text k = .ok (m.session qs) := by
  induction qs generalizing m with
  | nil => exact .inl rfl
  | cons q qs ih =>
    rcases ih (m.after q) with h | h
    · have hsession : m.session (q :: qs) = m.after q := h
      rw [hsession]
      exact m.after_cases q
    · exact .inr h

section Checks

variable [Scalar.Ordered α]

theorem encloses_of_session (hm : parseModel text k = .ok m) (qs : List (EditRequest α)) :
    (m.session qs).Encloses := by
  obtain h | ⟨w, h⟩ | ⟨text', k', h⟩ := m.session_cases qs
  · rw [h]
    exact encloses_of_parseModel hm
  · rw [h]
    exact w.encloses_withBounds
  · exact encloses_of_parseModel h

omit [Scalar.Ordered α] in
/-- The check looks at the points of the entities and at the centres of drillings. -/
theorem mem_extent_of_ownedPoints {o : OwnedPoints α} {p : Point α} (ho : o ∈ m.ownedPoints)
    (hp : p ∈ o.points) : p ∈ m.extent ∨ ∃ d ∈ m.drillings, p = ⟨d.x, d.z⟩ := by
  simp only [ownedPoints, members, List.map_append, List.mem_append, List.mem_map] at ho
  simp only [mem_extent]
  grind

variable [Scalar.Widening α]

/-- In a model whose bounds hold its entities, with diameters that are magnitudes, all points are
found within the bounds. -/
theorem Encloses.boundsIssues_eq_nil (h : m.Encloses) (hmagnitudes : m.Magnitudes)
    (hfinite : ∀ p ∈ m.extent, p.isFinite = true) : m.boundsIssues = [] := by
  refine List.filterMap_eq_nil_iff.mpr fun o ho => ?_
  rw [Option.map_eq_none_iff, List.find?_eq_none]
  intro p hp
  suffices hheld : p.isFinite = true ∧ m.bounds.Holds p by
    simp [Bounds.contains_of_holds h.sides hheld.1 hheld.2]
  obtain hp | ⟨d, hd, rfl⟩ := mem_extent_of_ownedPoints ho hp
  · exact ⟨hfinite p hp, h.holds p hp (hfinite p hp)⟩
  · have hsides : ∀ q ∈ Drilling.sides d.x d.z (Scalar.orZero d.diameter / 2.0), q ∈ m.extent :=
      fun q hq => mem_extent.mpr (.inr (.inr (.inr (.inr ⟨d, hd, hq⟩))))
    obtain ⟨v, hv⟩ := hmagnitudes (.drilling d)
      (List.mem_append_left _ (List.mem_append_right _ (List.mem_map_of_mem hd))) _ rfl
    rw [hv, Scalar.orZero_abs] at hsides
    have hradius : Scalar.isFinite (Scalar.abs v / 2.0) = true := by
      have hleft := hfinite _ (hsides _ List.mem_cons_self)
      simp only [Point.isFinite, Bool.and_eq_true] at hleft
      exact (Scalar.Widening.isFinite_of_sub hleft.1).2
    exact Bounds.holds_centre h.sides
      (fun q hq => ⟨hfinite q (hsides q hq), h.holds q (hsides q hq) (hfinite q (hsides q hq))⟩)
      (Scalar.Widening.zero_le_half hradius)

omit [Scalar.Ordered α] [Scalar.Widening α] in
/-- What is wrong with the shape of a cut does not concern the bounds. -/
theorem kind_of_mem_shapeIssues {i : Issue α} (h : i ∈ m.shapeIssues) :
    i.defect.kind ≠ "bounds" := by
  simp only [shapeIssues, List.mem_flatMap, List.mem_map] at h
  obtain ⟨r, -, s, -, d, hd, rfl⟩ := h
  cases d with
  | selfIntersection => simp [Defect.kind]
  | closure => simp [Defect.kind]
  | outside =>
    cases s with
    | circle => cases hd
    | path p =>
      cases hk : p.kind <;> simp only [RoutingSegment.defects, hk] at hd
      · grind
      · cases hd

/-- In no model that an editor holds is an entity outside the bounds, as long as the points of all
entities are finite. -/
theorem issues_of_session (hm : parseModel text k = .ok m) (qs : List (EditRequest α))
    (hfinite : ∀ p ∈ (m.withIds.session qs).extent, p.isFinite = true) :
    ∀ i ∈ (m.withIds.session qs).issues, i.defect.kind ≠ "bounds" := by
  obtain ⟨-, hids, -⟩ := says_of_parseModel hm
  rw [withIds_eq hids] at hfinite ⊢
  have hmagnitudes : (m.session qs).Magnitudes :=
    session_induction (fun _ _ hm hs => hs.magnitudes hm) (magnitudes_of_parseModel hm) qs
  intro i hi
  rw [issues, (encloses_of_session hm qs).boundsIssues_eq_nil hmagnitudes hfinite,
    List.append_nil] at hi
  exact kind_of_mem_shapeIssues hi

set_option maxRecDepth 100000 in
/-- A panel of negative width, a drilling and a circle that are moved, and a nail row that is
deleted. -/
theorem issues_of_session_of_negative_panel :
    ∃ (text : String) (m : WallModel Float) (qs : List (EditRequest Float)),
      text =
        "PLI1 -500,600,15,100,0,0;BOY 250,0,12,30;NR 0,0,0,900;PAF 1;PP 0,0;PP 5,0;MP 30,20,-4" ∧
      parseModel text 1 = .ok m ∧
      qs = [.translate [⟨"boy", 1⟩] "x" (some 900.5), .translate [⟨"paf", 3⟩] "y" (some (-70.0)),
        .delete [⟨"nail_row", 2⟩]] ∧
      (m.withIds.session qs).live = ["PLI1 -500,600,15,100,0,0", "BOY 1150.5,0,12,30", "PAF 1",
        "PP 0,-70", "PP 5,-70", "MP 30,-50,-4"] ∧
      (∀ p ∈ (m.withIds.session qs).extent, p.isFinite = true) ∧
      ∀ i ∈ (m.withIds.session qs).issues, i.defect.kind ≠ "bounds" := by
  have heval : (do
      let m ← (parseModel (α := Float)
        "PLI1 -500,600,15,100,0,0;BOY 250,0,12,30;NR 0,0,0,900;PAF 1;PP 0,0;PP 5,0;MP 30,20,-4"
        1).toOption
      let m' := m.withIds.session [.translate [⟨"boy", 1⟩] "x" (some 900.5),
        .translate [⟨"paf", 3⟩] "y" (some (-70.0)), .delete [⟨"nail_row", 2⟩]]
      if m'.live = ["PLI1 -500,600,15,100,0,0", "BOY 1150.5,0,12,30", "PAF 1", "PP 0,-70",
        "PP 5,-70", "MP 30,-50,-4"] ∧ m'.extent.all (·.isFinite)
      then some m else none).isSome = true := by
    decide +kernel
  obtain ⟨m, h⟩ := Option.isSome_iff_exists.mp heval
  simp only [Option.bind_eq_bind, Option.bind_eq_some_iff, Option.ite_none_right_eq_some,
    List.all_eq_true] at h
  obtain ⟨m, hm, ⟨hlive, hfinite⟩, ⟨⟩⟩ := h
  have hm := eq_ok_of_toOption hm
  exact ⟨_, m, _, rfl, hm, rfl, hlive, hfinite, issues_of_session hm _ hfinite⟩

end Checks

end WallModel

end WallPanel
