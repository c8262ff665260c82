import WallPanel.Proofs.Reading.Fate
import WallPanel.Proofs.Reading.Starts

/-!
# The statements of every fate

The statements of one fate are what one part of a reading was gathered from: the records of a
collection stand for them one by one, and what belongs to several headers is grouped by these
(`Grounded.perm_flatMap_routings`).

* `Grounded.tally_panel`, `Grounded.tally_header`: the headers of panels and of routings.
* `Grounded.tally_boundary`, `Grounded.tally_circle`, `Grounded.tally_source`: the points of panels,
  the circles and the vertices of routings.
* `Grounded.tally_unhandled`: what has no place.
* `Grounded.nodup_owned`: what the records own.
-/

namespace WallPanel

variable {α : Type} [Scalar α]

/-! ## What roles name -/

/-- In a reading the roles name headers of panels and of routings, and first vertices of paths. -/
structure Reading.Grounded (es : List (Placed α)) : Prop extends Sound es where
  panel : ∀ p ∈ es, ∀ j, p.role.boundaryOf? = some j → ∃ q ∈ panels es, q.statementIndex = j
  header : ∀ p ∈ es, ∀ j, p.role.isOf j = true → ∃ w ∈ headers es, w.statementIndex = j
  first : ∀ p ∈ es, ∀ j k v, p.role = .vertex j k v →
    ∃ q ∈ es, ∃ v', q.role = .vertex j k v' ∧ q.statement.index = k
  front : ∀ k v vs, vertices es k = v :: vs → v.entry.statementIndex = k

namespace Context

open Reading

variable {ss : List (Statement α)} {p : Placed α}

theorem grounded_read (h : (ss.map (·.index)).Pairwise (· < ·)) :
    Grounded ((start : Context α).read ss) where
  toSound := sound_read h
  panel p hp j hj := by
    obtain ⟨es, c, hes, hc, hplays⟩ := exists_rooted h hp
    generalize p.role = r at hj hplays
    cases hplays <;> try cases hj
    case boundary opened _ =>
      exact ⟨_, (hes.sublist.filterMap _).subset (hc.panel _ opened).mem, rfl⟩
  header p hp j hj := by
    obtain ⟨es, c, hes, hc, hplays⟩ := exists_rooted h hp
    have hopen {i : Nat} (hi : c.routing = some i) :
        ∃ w ∈ headers (start.read ss), w.statementIndex = i := by
      obtain ⟨w, hw, hwi⟩ := hc.routing i hi
      exact ⟨w, (hes.sublist.filterMap _).subset hw.mem, hwi⟩
    cases hr : p.role with
    | header w =>
      refine ⟨w, List.mem_filterMap.mpr ⟨p, hp, by rw [hr]; rfl⟩, ?_⟩
      simpa [hr, Role.isOf] using hj
    | circle i d =>
      obtain rfl : i = j := by simpa [hr, Role.isOf] using hj
      rw [hr] at hplays
      cases hplays with
      | circle _ _ opened _ => exact hopen opened
    | vertex i k v =>
      obtain rfl : i = j := by simpa [hr, Role.isOf] using hj
      rw [hr] at hplays
      exact hopen hplays.vertex_opened.1
    | _ => simp [hr, Role.isOf] at hj
  first p hp j k v hr := by
    obtain ⟨q, hq, hi⟩ := List.mem_filterMap.mp (run_mem_items h hp hr)
    obtain ⟨v', hrole, hv⟩ : ∃ v', q.role = .vertex j k v' ∧ v'.entry.statementIndex = k := by
      cases hrole : q.role <;> simp_all [Role.item?]
    obtain ⟨_, hplays⟩ := exists_plays hq
    rw [hrole] at hplays
    exact ⟨q, hq, v', hrole, hplays.vertex_index.symm.trans hv⟩
  front _ _ _ hv := index_of_vertices h hv

end Context

namespace Reading.Grounded

variable {es : List (Placed α)} (h : Grounded es)
include h

theorem nodup_map_index (P : Placed α → Bool) : ((es.filter P).map (·.statement.index)).Nodup :=
  ((h.sorted.imp fun hlt => Nat.ne_of_lt hlt).sublist (List.filter_sublist.map _))

/-! ## Panels -/

theorem tally_panel : (panels es).map (·.statementIndex) = tally es .panel := by
  refine map_filterMap_eq_map_filter (fun p hp q hq => ?_) fun p _ => ?_
  · obtain ⟨c, hplays⟩ := h.plays p hp
    exact hplays.panel_index hq
  · generalize p.role = r
    cases r <;> grind [fate, Role.panel?]

theorem tally_boundary : (((panels es).map (·.statementIndex)).flatMap fun j =>
    (es.filter (·.role.boundaryOf? = some j)).map (·.statement.index)).Perm
      (tally es .boundary) := by
  refine perm_tally_of_keys (h.tally_panel ▸ h.nodup_map_index _) _ fun p hp => ?_
  rw [fate_eq_boundary_iff, Option.isSome_iff_exists]
  constructor
  · rintro ⟨j, hj⟩
    obtain ⟨q, hq, rfl⟩ := h.panel p hp j hj
    exact ⟨_, List.mem_map_of_mem hq, hj⟩
  · rintro ⟨j, -, hj⟩
    exact ⟨j, hj⟩

/-! ## The frame -/

theorem tally_nailRow : (es.filterMap (·.role.nailRow?)).map (·.statementIndex) =
    tally es .nailRow := by
  refine map_filterMap_eq_map_filter (fun p hp r hr => ?_) fun p _ => ?_
  · obtain ⟨c, hplays⟩ := h.plays p hp
    exact hplays.nailRow_index hr
  · generalize p.role = r
    cases r <;> grind [fate, Role.nailRow?]

theorem tally_drilling : (es.filterMap (·.role.drilling?)).map (·.statementIndex) =
    tally es .drilling := by
  refine map_filterMap_eq_map_filter (fun p hp d hd => ?_) fun p _ => ?_
  · obtain ⟨c, hplays⟩ := h.plays p hp
    exact hplays.drilling_index hd
  · generalize p.role = r
    cases r <;> grind [fate, Role.drilling?]

theorem tally_member : ((es.filterMap (·.role.member? .stud) ++
      es.filterMap (·.role.member? .blocking) ++
      es.filterMap (·.role.member? .plate)).map (·.statementIndex)).Perm (tally es .member) := by
  have hmap (kind : MemberKind) : (es.filterMap (·.role.member? kind)).map (·.statementIndex) =
      (es.filter fun p => (p.role.member? kind).isSome).map (·.statement.index) := by
    refine map_filterMap_eq_map_filter (fun p hp m hm => ?_) fun p _ => rfl
    obtain ⟨c, hplays⟩ := h.plays p hp
    exact hplays.member_index hm
  rw [List.map_append, List.map_append, hmap, hmap, hmap, ← List.map_append, ← List.map_append]
  refine List.Perm.map _ (((perm_append_filter fun p _ => ?_).append_right _).trans
    ((perm_append_filter fun p _ => ?_).trans (.of_eq (List.filter_congr fun p _ => ?_))))
  · cases p.role <;> grind [Role.member?]
  · cases p.role <;> grind [Role.member?]
  · cases p.role with
    | member m => cases hk : m.kind <;> simp [Role.member?, fate, hk]
    | _ => grind [Role.member?, fate]

/-! ## Routings -/

theorem tally_header : (routings es none).map (·.statementIndex) = tally es .header := by
  rw [routings, headers, List.filterMap_filterMap]
  refine map_filterMap_eq_map_filter (g := fun r => r.header?.bind (emitted? es none))
    (fun p hp r hr => ?_) fun p _ => ?_
  · obtain ⟨w, hw, hr⟩ := Option.bind_eq_some_iff.mp hr
    obtain ⟨-, rfl⟩ := emitted?_none_eq_some.mp hr
    exact h.header_index hp (w := w) hw
  · refine Bool.eq_iff_iff.mpr ?_
    rw [decide_eq_true_eq, fate_eq_header_iff, Option.isSome_iff_exists]
    simp [Option.bind_eq_some_iff, emitted?_none_eq_some]

theorem nodup_headers : ((routings es none).map (·.statementIndex)).Nodup :=
  h.tally_header ▸ h.nodup_map_index _

omit h in
/-- What routings have from the statements of their headers, header by header. -/
theorem flatMap_routings {g : Routing α → List Nat} {key : Role α → Option Nat}
    (hg : ∀ w, g (filled es none w) =
      (es.filter (key ·.role = some w.statementIndex)).map (·.statement.index)) :
    (routings es none).flatMap g = ((routings es none).map (·.statementIndex)).flatMap fun j =>
      (es.filter (key ·.role = some j)).map (·.statement.index) := by
  rw [List.flatMap_map]
  refine List.flatMap_congr fun r hr => ?_
  obtain ⟨w, -, -, rfl⟩ := mem_routings.mp hr
  exact hg w

/-- What routings have from the statements of their headers comes once each. -/
theorem perm_flatMap_routings {g : Routing α → List Nat} {key : Role α → Option Nat}
    (hg : ∀ w, g (filled es none w) =
      (es.filter (key ·.role = some w.statementIndex)).map (·.statement.index)) :
    ((routings es none).flatMap g).Perm ((es.filter fun p =>
      ∃ j ∈ (routings es none).map Routing.statementIndex, key p.role = some j).map
        (·.statement.index)) := by
  have hgroup := (perm_flatMap_filter h.nodup_headers (fun p : Placed α => key p.role) es).map
    (·.statement.index)
  rw [List.map_flatMap] at hgroup
  exact flatMap_routings hg ▸ hgroup

/-- A path has the lines of its vertices. -/
theorem source_of_cutOf? {k : Nat} {cut : PathCut α} (hc : cutOf? es k = some (.ok cut)) :
    cut.source.head?.map (·.statementIndex) = some k ∧
      cut.source.map (·.statementIndex) =
        (es.filter (·.role.runOf? = some k)).map (·.statement.index) := by
  have hvertices : (vertices es k).map (·.entry.statementIndex) =
      (es.filter (·.role.runOf? = some k)).map (·.statement.index) := by
    refine map_filterMap_eq_map_filter (g := Role.vertex? k) (fun p hp v hv => ?_) fun p _ => ?_
    · obtain ⟨j, hr⟩ := Role.vertex?_eq_some.mp hv
      obtain ⟨c, hplays⟩ := h.plays p hp
      exact (hr ▸ hplays).vertex_index
    · cases p.role <;> grind [Role.vertex?, Role.runOf?]
  obtain ⟨v, vs, hvs, hsource⟩ := Reading.source_of_cutOf? hc
  rw [← hvs] at hsource
  refine ⟨by simp [hsource, hvs, h.front k v vs hvs], ?_⟩
  rw [hsource, ← hvertices, List.map_map]
  rfl

section Readable

variable (hread : Readable es)
include hread

/-- A circle is one of a routing that has a cut, so it is never left out. -/
theorem circleIndices_filled (w : Routing α) : (filled es none w).circleIndices =
    (es.filter (·.role.circleOf? = some w.statementIndex)).map (·.statement.index) := by
  rw [Routing.circleIndices, filled, cuts, items, List.filterMap_filterMap, List.filterMap_filterMap,
    List.filterMap_filterMap, ← List.filterMap_eq_map, List.filterMap_filter]
  refine List.filterMap_congr fun p hp => ?_
  cases hr : p.role with
  | circle j d =>
    by_cases hj : j = w.statementIndex
    · obtain ⟨c, hplays⟩ := h.plays p hp
      rw [hr] at hplays
      obtain ⟨cut, rfl⟩ := hread.circle hp hr
      cases hplays with
      | circle _ _ _ entry =>
        simp [Role.item?, Role.circleOf?, hj, itemCut?, Except.map, Except.toOption,
          CircleCut.of_ofStatement? entry]
    · simp [Role.item?, Role.circleOf?, hj]
  | vertex j k v =>
    by_cases hj : j = w.statementIndex ∧ v.entry.statementIndex = k
    · cases hc : cutOf? es k with
      | none => simp [Role.item?, Role.circleOf?, hj, itemCut?, hc]
      | some d =>
        cases d <;>
          simp [Role.item?, Role.circleOf?, hj, itemCut?, hc, Except.map, Except.toOption]
    · simp [Role.item?, Role.circleOf?, hj]
  | _ => simp [Role.item?, Role.circleOf?]

omit h hread in
theorem cuts_ne_nil_of_circle {p : Placed α} (hp : p ∈ es) {j : Nat}
    {d : Except NoInteger (CircleCut α)} (hr : p.role = .circle j d) : cuts es none j ≠ [] :=
  List.ne_nil_of_mem (List.mem_filterMap.mpr ⟨.circle d,
    List.mem_filterMap.mpr ⟨p, hp, by simp [hr, Role.item?]⟩, rfl⟩)

theorem tally_circle : ((routings es none).flatMap Routing.circleIndices).Perm
    (tally es .circle) := by
  rw [flatMap_routings (h.circleIndices_filled hread)]
  refine perm_tally_of_keys h.nodup_headers _ fun p hp => ?_
  rw [fate_eq_circle_iff, Option.isSome_iff_exists]
  constructor
  · rintro ⟨j, hj⟩
    obtain ⟨d, hr⟩ : ∃ d, p.role = .circle j d := by
      cases hr : p.role <;> simp_all [Role.circleOf?]
    obtain ⟨w, hw, rfl⟩ := h.header p hp j (by simp [hr, Role.isOf])
    exact ⟨_, List.mem_map_of_mem (mem_routings.mpr ⟨w, hw, cuts_ne_nil_of_circle hp hr, rfl⟩), hj⟩
  · rintro ⟨j, -, hj⟩
    exact ⟨j, hj⟩

/-- The paths of a routing begin with the vertices that begin a path with a cut. -/
theorem starts_filled (w : Routing α) : (filled es none w).starts =
    (es.filter (fun p => cutStart? es p.role = some w.statementIndex)).map (·.statement.index) := by
  rw [Routing.starts, filled, cuts, items, List.filterMap_filterMap, List.filterMap_filterMap,
    List.filterMap_filterMap, ← List.filterMap_eq_map, List.filterMap_filter]
  refine List.filterMap_congr fun p hp => ?_
  cases hr : p.role with
  | circle j d =>
    by_cases hj : j = w.statementIndex
    · cases d <;> simp [Role.item?, cutStart?, hj, itemCut?, Except.map, Except.toOption]
    · simp [Role.item?, cutStart?, hj]
  | vertex j k v =>
    by_cases hj : j = w.statementIndex ∧ v.entry.statementIndex = k
    · obtain ⟨rfl, rfl⟩ := hj
      cases hc : cutOf? es v.entry.statementIndex with
      | none => simp [Role.item?, cutStart?, itemCut?, hc]
      | some d =>
        obtain ⟨cut, rfl⟩ := hread.run (j := w.statementIndex)
          (List.mem_filterMap.mpr ⟨p, hp, by simp [hr, Role.item?]⟩) hc
        obtain ⟨c, hplays⟩ := h.plays p hp
        rw [hr] at hplays
        simp [Role.item?, cutStart?, itemCut?, hc, Except.map, Except.toOption,
          (h.source_of_cutOf? hc).1, ← hplays.vertex_index]
    · have hnone : Role.item? w.statementIndex (.vertex j k v) = none := if_neg hj
      have hstart : cutStart? es (.vertex j k v) ≠ some w.statementIndex := fun he => by
        obtain ⟨hk, rfl⟩ : (v.entry.statementIndex = k ∧ _) ∧ j = w.statementIndex := by
          simpa [cutStart?] using he
        exact hj ⟨rfl, hk.1⟩
      simp [hnone, hstart]
  | _ => simp [Role.item?, cutStart?]

theorem mem_starts_filled {w : Routing α} {k : Nat} : k ∈ (filled es none w).starts ↔
    ∃ p ∈ es, cutStart? es p.role = some w.statementIndex ∧ p.statement.index = k := by
  rw [h.starts_filled hread]
  simp [and_assoc]

omit hread in
theorem sourceIndices_filled (w : Routing α) : (filled es none w).sourceIndices =
    (filled es none w).starts.flatMap fun k =>
      (es.filter (·.role.runOf? = some k)).map (·.statement.index) := by
  rw [Routing.sourceIndices, Routing.starts, List.filterMap_eq_flatMap_toList, List.flatMap_assoc]
  refine List.flatMap_congr fun segment hs => ?_
  cases segment with
  | circle c => rfl
  | path cut =>
    obtain ⟨k, -, hk⟩ := exists_cutOf?_of_mem hs
    obtain ⟨hhead, hsource⟩ := h.source_of_cutOf? hk
    simp [hhead, hsource]

theorem nodup_starts : ((routings es none).flatMap Routing.starts).Nodup :=
  (h.perm_flatMap_routings (h.starts_filled hread)).nodup_iff.mpr (h.nodup_map_index _)

/-- The paths of the routings are those that have a cut. -/
theorem mem_starts_iff {p : Placed α} (hp : p ∈ es) {k : Nat} (hk : p.role.runOf? = some k) :
    k ∈ (routings es none).flatMap Routing.starts ↔ (cutOf? es k).isSome := by
  constructor
  · intro hmem
    obtain ⟨r, hr, hk⟩ := List.mem_flatMap.mp hmem
    obtain ⟨w, -, -, rfl⟩ := mem_routings.mp hr
    obtain ⟨q, hq, hstart, rfl⟩ := (h.mem_starts_filled hread).mp hk
    obtain ⟨c, hplays⟩ := h.plays q hq
    cases hrole : q.role with
    | vertex j k v =>
      rw [hrole] at hstart hplays
      obtain ⟨⟨rfl, hc⟩, -⟩ : (v.entry.statementIndex = k ∧ _) ∧ j = w.statementIndex := by
        simpa [cutStart?] using hstart
      exact hplays.vertex_index ▸ hc
    | _ => rw [hrole] at hstart; cases hstart
  · intro hc
    obtain ⟨j, v, hr⟩ : ∃ j v, p.role = .vertex j k v := by
      cases hr : p.role <;> simp_all [Role.runOf?]
    -- the first vertex of the path stands for it among the items of its header
    obtain ⟨q, hq, v', hrole, hi⟩ := h.first p hp j k v hr
    obtain ⟨c, hplays⟩ := h.plays q hq
    rw [hrole] at hplays
    have hv : v'.entry.statementIndex = k := hplays.vertex_index.trans hi
    obtain ⟨w, hw, rfl⟩ := h.header q hq j (by simp [hrole, Role.isOf])
    have hcuts : cuts es none w.statementIndex ≠ [] := by
      obtain ⟨d, hd⟩ := Option.isSome_iff_exists.mp hc
      have hitem : .run k ∈ items es w.statementIndex :=
        List.mem_filterMap.mpr ⟨q, hq, by simp [hrole, Role.item?, hv]⟩
      have hcut : itemCut? es none (.run k) = some (d.map .path) := by simp [itemCut?, hd]
      exact List.ne_nil_of_mem (List.mem_filterMap.mpr ⟨_, hitem, hcut⟩)
    refine List.mem_flatMap.mpr ⟨_, mem_routings.mpr ⟨w, hw, hcuts, rfl⟩, ?_⟩
    exact (h.mem_starts_filled hread).mpr ⟨q, hq, by simp [hrole, cutStart?, hv, hc], hi⟩

theorem tally_source : ((routings es none).flatMap Routing.sourceIndices).Perm
    (tally es .source) := by
  have hflat : (routings es none).flatMap Routing.sourceIndices =
      ((routings es none).flatMap Routing.starts).flatMap fun k =>
        (es.filter (·.role.runOf? = some k)).map (·.statement.index) := by
    rw [List.flatMap_assoc]
    refine List.flatMap_congr fun r hr => ?_
    obtain ⟨w, -, -, rfl⟩ := mem_routings.mp hr
    exact h.sourceIndices_filled w
  rw [hflat]
  refine perm_tally_of_keys (h.nodup_starts hread) _ fun p hp => ?_
  rw [fate_eq_source_iff]
  constructor
  · rintro ⟨k, hk, hc⟩
    exact ⟨k, (h.mem_starts_iff hread hp hk).mpr hc, hk⟩
  · rintro ⟨k, hmem, hk⟩
    exact ⟨k, hk, (h.mem_starts_iff hread hp hk).mp hmem⟩

end Readable

/-! ## What has no place -/

theorem tally_unhandled : ((unhandled es none none).map (·.statementIndex)).Perm
    (tally es .unhandled) := by
  have hown : (es.filterMap (·.role.unhandled?)).map (·.statementIndex) =
      (es.filter fun p => p.role.unhandled?.isSome).map (·.statement.index) :=
    map_filterMap_eq_map_filter (fun p hp u hu => h.unhandled_index hp hu) fun p _ => rfl
  have hshort : ((firsts es).filterMap (shortRun? es none)).map (·.statementIndex) =
      (es.filter fun p => (p.role.first?.bind (shortRun? es none)).isSome).map
        (·.statement.index) := by
    rw [firsts, List.filterMap_filterMap]
    refine map_filterMap_eq_map_filter (g := fun r => r.first?.bind (shortRun? es none))
      (fun p hp u hu => ?_) fun p _ => rfl
    obtain ⟨v, hv, hu⟩ := Option.bind_eq_some_iff.mp hu
    obtain ⟨-, rfl⟩ : _ ∧ v.unhandled = u := by simpa [shortRun?] using hu
    exact h.first_index hp hv
  have hempty : ((headers es).filterMap (emptyHeader? es none)).map (·.statementIndex) =
      (es.filter fun p => (p.role.header?.bind (emptyHeader? es none)).isSome).map
        (·.statement.index) := by
    rw [headers, List.filterMap_filterMap]
    refine map_filterMap_eq_map_filter (g := fun r => r.header?.bind (emptyHeader? es none))
      (fun p hp u hu => ?_) fun p _ => rfl
    obtain ⟨w, hw, hu⟩ := Option.bind_eq_some_iff.mp hu
    obtain ⟨-, rfl⟩ : _ ∧ w.unhandled = u := by simpa [emptyHeader?] using hu
    exact h.header_index hp hw
  rw [unhandled, List.map_append, List.map_append, hown, hshort, hempty, ← List.map_append,
    ← List.map_append]
  refine List.Perm.map _ (((perm_append_filter fun p _ => ?_).append_right _).trans
    ((perm_append_filter fun p _ => ?_).trans (.of_eq (List.filter_congr fun p _ => ?_))))
  · cases p.role <;> simp [Role.unhandled?, Role.first?]
  · cases p.role <;> simp [Role.unhandled?, Role.first?, Role.header?]
  · cases p.role with
    | header w =>
      cases hc : cuts es none w.statementIndex <;>
        simp [Role.unhandled?, Role.first?, Role.header?, fate, emptyHeader?, hc]
    | vertex j k v =>
      by_cases hk : v.entry.statementIndex = k
      · cases hc : cutOf? es k <;>
          simp [Role.unhandled?, Role.first?, Role.header?, fate, shortRun?, hk, hc]
      · cases hc : cutOf? es k <;>
          simp [Role.unhandled?, Role.first?, Role.header?, fate, hk, hc]
    | _ => simp [Role.unhandled?, Role.first?, Role.header?, fate]

/-! ## What the records own -/

/-- No two of the entities, the members and the panels own a statement. -/
theorem nodup_owned : (tally es .nailRow ++ tally es .drilling ++
    (routings es none).flatMap Routing.statementIndices ++ tally es .member ++
    tally es .panel).Nodup := by
  have hkey (j : Nat) (r : Role α) : r.isOf j = decide (r.routingOf? = some j) := by
    cases r <;> simp [Role.isOf, Role.routingOf?]
  have hfilled (w : Routing α) : (filled es none w).statementIndices =
      (es.filter (·.role.routingOf? = some w.statementIndex)).map (·.statement.index) := by
    simp only [filled, indices, hkey]
  have hgroup := h.perm_flatMap_routings hfilled
  refine ((((hgroup.append_left _).append_right _).append_right _).nodup_iff).mpr ?_
  rw [tally, tally, tally, tally, ← List.map_append, ← List.map_append, ← List.map_append,
    ← List.map_append]
  refine ((((((perm_append_filter fun p _ => ?_).append_right _).trans
    (perm_append_filter fun p _ => ?_)).append_right _).trans
    (perm_append_filter fun p _ => ?_)).append_right _ |>.trans
    (perm_append_filter fun p _ => ?_)).map _ |>.nodup_iff.mpr (h.nodup_map_index _)
  all_goals
    have hnone := routingOf?_of_fate es (r := p.role)
    clear hgroup
    grind

end Reading.Grounded

end WallPanel
