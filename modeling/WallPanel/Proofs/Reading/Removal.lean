import WallPanel.Proofs.Reading.Growth
import WallPanel.Proofs.Reading.Positions

/-!
# A document without a routing

With the statements of one routing taken out of a document, all others keep their roles
(`Context.read_without`). Both documents are read side by side: they leave the same open, except
while the routing is open, when the shorter one may still have a panel, a path and another routing
open (`Context.Without`).
-/

namespace WallPanel

open Reading

variable {α : Type}

namespace Context

/-- What the statements before one leave open, and what they leave open without a routing. -/
structure Without (j : Nat) (c c' : Context α) : Prop where
  setting : c'.setting = c.setting
  panel : ∀ p, c.panel = some p → c'.panel = some p
  eq_of_ne : c.routing ≠ some j → c' = c

variable {j : Nat} {c c' : Context α} {s : Statement α} {r : Role α}

theorem Without.refl : Without j c c := ⟨rfl, fun _ h => h, fun _ => rfl⟩

theorem Without.settle (h : Without j c c') (k : CommandKind) :
    Without j (c.settle k) (c'.settle k) where
  setting := by simpa using h.setting
  panel p hp := by
    cases k <;> first | exact h.panel p hp | cases hp
  eq_of_ne hne := by rw [h.eq_of_ne (by simpa using hne)]

/-- A statement that does not belong to the routing opens the same. -/
theorem Without.after (h : Without j c c')
    (hs : (∃ w, r = .header w) ∨ (∃ u, r = .foreign u) →
      (c.panel = none ∧ c.run = none) ∧ c'.panel = none ∧ c'.run = none) :
    Without j (c.after r) (c'.after r) := by
  have hset : (c'.after r).setting = (c.after r).setting := by
    rw [after_setting, after_setting, h.setting]
  cases r with
  | header w =>
    obtain ⟨⟨hp, hr⟩, hp', hr'⟩ := hs (.inl ⟨w, rfl⟩)
    have heq : c'.after (.header w) = c.after (.header w) := by
      simp [Context.after, h.setting, hp, hr, hp', hr']
    exact heq ▸ .refl
  | foreign u =>
    obtain ⟨⟨hp, hr⟩, hp', hr'⟩ := hs (.inr ⟨u, rfl⟩)
    have heq : c'.after (.foreign u) = c.after (.foreign u) := by
      simp [Context.after, h.setting, hp, hr, hp', hr']
    exact heq ▸ .refl
  | panel p => exact ⟨hset, fun _ hp => hp, fun hne => by rw [h.eq_of_ne hne]⟩
  | _ => exact ⟨hset, h.panel, fun hne => by rw [h.eq_of_ne hne]⟩

variable [Scalar α]

/-- A usable point has a place while a routing is open. -/
theorem role?_point (hk : s.command.kind = .point) (hu : s.isUsable = true)
    (hj : c.routing = some j) :
    (∃ q, c.panel = some q ∧ c.role? s = c.boundary? s) ∨
      ∃ k v, c.role? s = some (.vertex j k v) := by
  simp only [Statement.isUsable, hk, CommandKind.minNumbers, decide_eq_true_eq] at hu
  rcases hn : s.numbers with _ | ⟨x, _ | ⟨y, rest⟩⟩
  · simp [hn] at hu
  · simp [hn] at hu
  · cases hp : c.panel with
    | some q =>
      exact .inl ⟨q, rfl, by simp [role?, hk, boundary?, hp, hn, PanelPoint.ofNumbers?]⟩
    | none =>
      refine .inr ?_
      simp [role?, hk, boundary?, hp, vertex?, hj, Vertex.ofPoint?, Statement.number?, hn]

theorem Without.role?_eq (h : Without j c c') (hj : c.routing = some j) (hu : s.isUsable = true)
    (hr : ∀ r, c.role? s = some r → r.isOf j = false) : c'.role? s = c.role? s := by
  cases hk : s.command.kind with
  | circle =>
    have hd : CircleCut.ofStatement? s = none := by
      cases hd : CircleCut.ofStatement? s with
      | none => rfl
      | some d => simpa [Role.isOf] using hr (.circle j d) (by simp [role?, hk, circle?, hj, hd])
    simp [role?, hk, circle?, hd]
  | curve =>
    have hv : Vertex.ofCurve? s = none := by
      cases hv : Vertex.ofCurve? s with
      | none => rfl
      | some v =>
        simpa [Role.isOf] using hr (.vertex j (c.run.getD s.index) v)
          (by simp [role?, hk, vertex?, hj, hv])
    simp [role?, hk, vertex?, hv]
  | point =>
    rcases role?_point hk hu hj with ⟨q, hq, hb⟩ | ⟨k, v, hv⟩
    · have hb' : c'.boundary? s = c.boundary? s := by
        simp [boundary?, hq, h.panel q hq, h.setting]
      obtain ⟨p, hp⟩ : ∃ p, c.boundary? s = some p :=
        Option.ne_none_iff_exists'.mp fun hn => by
          simp [panel_eq_none_of_boundary? hk hu hn] at hq
      rw [hb]
      simp [role?, hk, hb', hp]
    · simpa [Role.isOf] using hr _ hv
  | _ => simp only [role?, hk, h.setting]

/-- A statement that does not belong to the routing has the same role without it. -/
theorem Without.role_eq (h : Without j c c') (hr : (c.role s).isOf j = false) :
    c'.role s = c.role s := by
  by_cases hj : c.routing = some j
  · unfold role at hr ⊢
    by_cases hu : s.isUsable = true
    · rw [if_pos hu] at hr ⊢
      rw [if_pos hu, h.role?_eq hj hu fun r hr' => by rwa [hr'] at hr]
    · rw [if_neg hu, if_neg hu]
  · rw [h.eq_of_ne hj]

/-- A statement of the routing is passed over. -/
theorem Without.skip (h : Without j c c') (hr : ((c.settle s.command.kind).role s).isOf j = true) :
    Without j (c.next s) c' := by
  have hplays := plays_role (c.settle s.command.kind) s
  unfold next
  dsimp only
  generalize (c.settle s.command.kind).role s = r at hplays hr ⊢
  have skipped (hset : c.setting.after r = c.setting)
      (hpanel : ((c.settle s.command.kind).after r).panel = none)
      (hrouting : ((c.settle s.command.kind).after r).routing = some j) :
      Without j ((c.settle s.command.kind).after r) c' :=
    ⟨by rw [after_setting, settle_setting, hset, h.setting], fun p hp => by simp [hpanel] at hp,
      fun hne => absurd hrouting hne⟩
  have hclosed (hk : s.command.kind ≠ .point) : (c.settle s.command.kind).panel = none :=
    c.settle_panel_of_ne hk
  cases hplays with
  | header kind =>
    exact skipped rfl (hclosed (by simp [kind])) (by simpa [Context.after, Role.isOf] using hr)
  | circle kind usable opened entry =>
    exact skipped rfl (hclosed (by simp [kind])) (opened.trans (by simpa [Role.isOf] using hr))
  | point kind usable closed opened entry =>
    exact skipped rfl closed (opened.trans (by simpa [Role.isOf] using hr))
  | curve kind usable opened entry =>
    exact skipped rfl (hclosed (by simp [kind])) (opened.trans (by simpa [Role.isOf] using hr))
  | _ => cases hr

/-- Nothing but a routing is open when a header or an unknown command is taken in. -/
theorem closed_of_plays (hp : Plays c' s r)
    (hr : (∃ w, r = .header w) ∨ (∃ u, r = .foreign u)) (c : Context α) :
    (c.settle s.command.kind).panel = none ∧ (c.settle s.command.kind).run = none := by
  have hk : s.command.kind ≠ .point ∧ s.command.kind ≠ .curve := by
    rcases hr with ⟨w, rfl⟩ | ⟨u, rfl⟩ <;> cases hp <;> simp_all
  exact ⟨c.settle_panel_of_ne hk.1, c.settle_run_of_ne hk.1 hk.2⟩

/-- Without the statements of a routing, the others keep their roles. -/
theorem read_without (h : Without j c c') (ss : List (Statement α)) :
    c'.read (((c.read ss).filter (!·.role.isOf j)).map (·.statement)) =
      (c.read ss).filter (!·.role.isOf j) := by
  induction ss generalizing c c' with
  | nil => rfl
  | cons s ss ih =>
    cases hr : ((c.settle s.command.kind).role s).isOf j with
    | true => simpa [read, hr] using ih (h.skip hr)
    | false =>
      have hrole := (h.settle s.command.kind).role_eq hr
      have hnext : Without j (c.next s) (c'.next s) := by
        unfold next
        dsimp only
        rw [hrole]
        have hclosed := closed_of_plays (plays_role (c.settle s.command.kind) s)
        exact (h.settle _).after fun hr => ⟨hclosed hr c, hclosed hr c'⟩
      simp [read, hr, hrole, ih hnext]

end Context

/-! ## Contents -/

namespace Reading

/-- A reading without the statements of a routing. -/
def without (j : Nat) (es : List (Placed α)) : List (Placed α) := es.filter (!·.role.isOf j)

variable {j : Nat} {es : List (Placed α)} {p : Placed α}

theorem mem_indices {i : Nat} : i ∈ indices es j ↔
    ∃ p ∈ es, p.role.isOf j = true ∧ p.statement.index = i := by
  simp [indices, and_assoc]

/-- What only other statements give stays. -/
theorem filterMap_without {γ : Type} {g : Role α → Option γ}
    (hg : ∀ r : Role α, r.isOf j = true → g r = none) :
    (without j es).filterMap (g ·.role) = es.filterMap (g ·.role) := by
  rw [without, List.filterMap_filter]
  refine List.filterMap_congr fun p _ => ?_
  cases hp : p.role.isOf j with
  | true => simp [hg _ hp]
  | false => simp

/-- A statement belongs to one routing. -/
theorem isOf_eq_false {r : Role α} (h : r.isOf j = true) {i : Nat} (hi : i ≠ j) :
    r.isOf i = false := by
  cases r <;> simp_all [Role.isOf, Ne.symm hi]

theorem items_without {i : Nat} (hi : i ≠ j) : items (without j es) i = items es i :=
  filterMap_without fun _ hr => item?_of_isOf (isOf_eq_false hr hi)

theorem indices_without {i : Nat} (hi : i ≠ j) : indices (without j es) i = indices es i := by
  have hof : ∀ r : Role α, (r.isOf i && !r.isOf j) = r.isOf i := fun r => by
    cases hr : r.isOf j with
    | true => simp [isOf_eq_false hr hi]
    | false => simp
  rw [indices, indices, without, List.filter_filter]
  simp only [hof]

theorem points_without (i : Nat) : points (without j es) i = points es i :=
  filterMap_without fun r hr => by cases r <;> first | rfl | cases hr

theorem panels_without : panels (without j es) = panels es :=
  filterMap_without fun r hr => by cases r <;> first | rfl | cases hr

variable [Scalar α]

theorem Sound.mem_indices_iff (h : Sound es) (hp : p ∈ es) :
    p.statement.index ∈ indices es j ↔ p.role.isOf j = true := by
  rw [mem_indices]
  refine ⟨fun ⟨q, hq, hr, hi⟩ => ?_, fun hr => ⟨p, hp, hr, rfl⟩⟩
  rwa [← h.eq_of_index hq hp hi]

/-- Of records that have the positions of their statements, those of the routing go. -/
theorem Sound.filterMap_without (h : Sound es) {γ : Type} {g : Placed α → Option γ} {key : γ → Nat}
    (hkey : ∀ p ∈ es, ∀ x, g p = some x → key x = p.statement.index) :
    (without j es).filterMap g = (es.filterMap g).filter fun x => key x ∉ indices es j := by
  rw [without, List.filterMap_filter, List.filter_filterMap]
  refine List.filterMap_congr fun p hp => ?_
  cases hx : g p with
  | none => simp
  | some x =>
    have := h.mem_indices_iff (j := j) hp
    rw [← hkey p hp x hx] at this
    cases hr : p.role.isOf j <;> simp_all [Option.filter]

theorem Sound.headers_without (h : Sound es) :
    headers (without j es) = (headers es).filter (·.statementIndex ∉ indices es j) :=
  h.filterMap_without fun _ hp _ => h.header_index hp

theorem Sound.firsts_without (h : Sound es) :
    firsts (without j es) = (firsts es).filter (·.entry.statementIndex ∉ indices es j) :=
  h.filterMap_without fun _ hp _ => h.first_index hp

/-- The vertices of a path of another routing stay. -/
theorem Sound.vertices_without (h : Sound es) {i k : Nat} {v : Vertex α} (hi : i ≠ j)
    (hp : p ∈ es) (hr : p.role = .vertex i k v) : vertices (without j es) k = vertices es k := by
  rw [vertices, vertices, without, List.filterMap_filter]
  refine List.filterMap_congr fun q hq => ?_
  cases hj : q.role.isOf j with
  | false => simp
  | true =>
    cases hq' : q.role with
    | vertex j' k' v' =>
      obtain rfl : j' = j := by simpa [hq', Role.isOf] using hj
      have hk : k' ≠ k := by
        rintro rfl
        exact hi (h.routing p hp q hq _ _ _ _ _ hr hq')
      simp [Role.vertex?, hk]
    | _ => simp [Role.vertex?]

theorem Sound.cutOf?_without (h : Sound es) {i k : Nat} {v : Vertex α} (hi : i ≠ j)
    (hp : p ∈ es) (hr : p.role = .vertex i k v) : cutOf? (without j es) k = cutOf? es k := by
  rw [cutOf?, cutOf?, h.vertices_without hi hp hr]

/-- The cuts of another routing stay. -/
theorem Sound.cuts_without (h : Sound es) {i : Nat} (hi : i ≠ j) :
    cuts (without j es) none i = cuts es none i := by
  rw [cuts, cuts, items_without hi]
  refine List.filterMap_congr fun x hx => ?_
  cases x with
  | circle c => rfl
  | run k =>
    obtain ⟨p, hp, hr⟩ := List.mem_filterMap.mp hx
    obtain ⟨v, hv⟩ : ∃ v, p.role = .vertex i k v := by
      cases hrole : p.role <;> simp_all [Role.item?]
    simp only [itemCut?, h.cutOf?_without hi hp hv]

theorem Sound.header_index_mem (h : Sound es) {w : Routing α} (hw : w ∈ headers es) :
    w.statementIndex ∈ indices es j ↔ w.statementIndex = j := by
  obtain ⟨p, hp, hr⟩ := List.mem_filterMap.mp hw
  rw [h.header_index hp hr, h.mem_indices_iff hp, ← h.header_index hp hr]
  cases hrole : p.role <;> simp_all [Role.header?, Role.isOf]

theorem Sound.first_index_mem (h : Sound es) {v : Vertex α} (hv : v ∈ firsts es)
    (hn : v.entry.statementIndex ∉ indices es j) :
    cutOf? (without j es) v.entry.statementIndex = cutOf? es v.entry.statementIndex := by
  obtain ⟨p, hp, hr⟩ := List.mem_filterMap.mp hv
  rw [h.first_index hp hr, h.mem_indices_iff hp] at hn
  cases hrole : p.role with
  | vertex i k w =>
    obtain ⟨rfl, rfl⟩ : w = v ∧ v.entry.statementIndex = k := by
      simp only [hrole, Role.first?] at hr
      split at hr
      · simp_all
      · cases hr
    exact h.cutOf?_without (by simpa [hrole, Role.isOf] using hn) hp hrole
  | _ => simp [hrole, Role.first?] at hr

/-- The other routings stay. -/
theorem Sound.routings_without (h : Sound es) :
    routings (without j es) none =
      (routings es none).filter (·.statementIndex ∉ indices es j) := by
  rw [routings, h.headers_without, List.filterMap_filter, routings, List.filter_filterMap]
  refine List.filterMap_congr fun w hw => ?_
  have hj := h.header_index_mem (j := j) hw
  have hi : (filled es none w).statementIndex = w.statementIndex := rfl
  by_cases hwj : w.statementIndex = j
  · by_cases hc : cuts es none w.statementIndex = [] <;> simp_all [emitted?, Option.filter]
  · have hf : filled (without j es) none w = filled es none w := by
      rw [filled, filled, h.cuts_without hwj, indices_without hwj]
    by_cases hc : cuts es none w.statementIndex = [] <;>
      simp [emitted?, Option.filter, h.cuts_without hwj, hf, hc, hi, hj, hwj]

/-- The records of what has no place stay, but for those with positions of the routing. -/
theorem Sound.unhandled_without (h : Sound es) :
    unhandled (without j es) none none =
      (unhandled es none none).filter (·.statementIndex ∉ indices es j) := by
  have hown : (without j es).filterMap (·.role.unhandled?) =
      (es.filterMap (·.role.unhandled?)).filter (·.statementIndex ∉ indices es j) :=
    h.filterMap_without fun _ hp _ => h.unhandled_index hp
  have hshort : (firsts (without j es)).filterMap (shortRun? (without j es) none) =
      ((firsts es).filterMap (shortRun? es none)).filter (·.statementIndex ∉ indices es j) := by
    rw [h.firsts_without, List.filterMap_filter, List.filter_filterMap]
    refine List.filterMap_congr fun v hv => ?_
    have hu : v.unhandled.statementIndex = v.entry.statementIndex := rfl
    by_cases hn : v.entry.statementIndex ∈ indices es j
    · cases hc : cutOf? es v.entry.statementIndex <;> simp [shortRun?, hn, hc, hu, Option.filter]
    · cases hc : cutOf? es v.entry.statementIndex <;>
        simp [shortRun?, hn, h.first_index_mem hv hn, hc, hu, Option.filter]
  have hempty : (headers (without j es)).filterMap (emptyHeader? (without j es) none) =
      ((headers es).filterMap (emptyHeader? es none)).filter
        (·.statementIndex ∉ indices es j) := by
    rw [h.headers_without, List.filterMap_filter, List.filter_filterMap]
    refine List.filterMap_congr fun w hw => ?_
    have hj := h.header_index_mem (j := j) hw
    have hu : w.unhandled.statementIndex = w.statementIndex := rfl
    by_cases hwj : w.statementIndex = j
    · by_cases hc : cuts es none w.statementIndex = [] <;>
        simp_all [emptyHeader?, Option.filter]
    · by_cases hc : cuts es none w.statementIndex = [] <;>
        simp [emptyHeader?, Option.filter, h.cuts_without hwj, hc, hu, hj, hwj]
  rw [unhandled, hown, hshort, hempty, unhandled, List.filter_append, List.filter_append]

end Reading
end WallPanel
