import Mathlib.Data.List.Nodup
import WallPanel.Proofs.Reading.Renumber
import WallPanel.Proofs.Reading.Rooted

/-!
# Positions in a reading

Every record of a reading has the position of its statement, and every position that a role names is
that of a statement (`Context.exists_index_of_names`). The vertices of one path belong to one routing
(`Context.routing_unique`).
-/

namespace WallPanel

open Reading

variable {α : Type} [Scalar α]

namespace Context

variable {c : Context α} {s : Statement α} {r : Role α} {ss : List (Statement α)} {p q : Placed α}

/-! ## One statement -/

theorem Plays.header_index {w : Routing α} (h : Plays c s r) (hr : r.header? = some w) :
    w.statementIndex = s.index := by
  cases h <;> simp only [Role.header?, reduceCtorEq, Option.some.injEq] at hr
  rw [← hr]
  rfl

theorem Plays.first_index {v : Vertex α} (h : Plays c s r) (hr : r.first? = some v) :
    v.entry.statementIndex = s.index := by
  cases r with
  | vertex j k v' =>
    have hv := h.vertex_index
    simp only [Role.first?] at hr
    split at hr
    · cases hr; exact hv
    · cases hr
  | _ => cases hr

theorem Plays.unhandled_index {u : Unhandled α} (h : Plays c s r) (hr : r.unhandled? = some u) :
    u.statementIndex = s.index := by
  cases h <;> simp only [Role.unhandled?, reduceCtorEq, Option.some.injEq] at hr <;> rw [← hr] <;> rfl

theorem Plays.panel_index {q : SheathingPanel α} (h : Plays c s r) (hq : r.panel? = some q) :
    q.statementIndex = s.index := by
  cases h <;> cases hq
  case panel.refl _ _ entry => exact (SheathingPanel.of_ofStatement? entry).1

theorem Plays.member_index {kind : MemberKind} {m : FrameMember α} (h : Plays c s r)
    (hm : r.member? kind = some m) : m.statementIndex = s.index := by
  cases h with
  | member _ entry _ =>
    obtain ⟨-, rfl⟩ := by simpa [Role.member?] using hm
    exact (FrameMember.of_ofStatement? entry).1
  | _ => cases hm

theorem Plays.nailRow_index {row : NailRow α} (h : Plays c s r) (hr : r.nailRow? = some row) :
    row.statementIndex = s.index := by
  cases h <;> cases hr
  case nailRow.refl _ _ entry => exact (NailRow.of_ofStatement? entry).1

theorem Plays.drilling_index {d : Drilling α} (h : Plays c s r) (hd : r.drilling? = some d) :
    d.statementIndex = s.index := by
  cases h <;> cases hd
  case drilling.refl _ _ entry => exact (Drilling.of_ofStatement? entry).1

/-- A role names its own position, and what is open. -/
theorem Plays.names {es : List (Placed α)} (h : Plays c s r) (hc : c.Rooted es) :
    ∀ k ∈ r.keys, k = s.index ∨ Names es k := by
  have hrouting {j : Nat} (hj : c.routing = some j) : Names es j := by
    obtain ⟨w, hl, rfl⟩ := hc.routing j hj
    exact names_of_mem_headers hl.mem
  have hrun : c.run.getD s.index = s.index ∨ Names es (c.run.getD s.index) := by
    cases hk : c.run with
    | none => exact .inl rfl
    | some k =>
      obtain ⟨_, v, _, hl, rfl, _⟩ := hc.run k hk
      exact .inr (names_of_mem_firsts hl.mem)
  have hv {j k : Nat} {v : Vertex α} (h : Plays c s (.vertex j k v)) :
      v.entry.statementIndex = s.index := h.vertex_index
  cases h with
  | panel _ _ entry => simp [Role.keys, (SheathingPanel.of_ofStatement? entry).1]
  | boundary _ _ opened _ =>
    have := names_of_mem_panels (hc.panel _ opened).mem
    simpa [Role.keys] using .inr this
  | header _ => simp [Role.keys, Routing.ofHeader]
  | circle _ _ opened _ => simpa [Role.keys] using .inr (hrouting opened)
  | point kind usable closed opened entry =>
    simp only [Role.keys, List.mem_cons, List.not_mem_nil, or_false, forall_eq_or_imp, forall_eq]
    exact ⟨.inr (hrouting opened), hrun, .inl (hv (.point kind usable closed opened entry))⟩
  | curve kind usable opened entry =>
    simp only [Role.keys, List.mem_cons, List.not_mem_nil, or_false, forall_eq_or_imp, forall_eq]
    exact ⟨.inr (hrouting opened), hrun, .inl (hv (.curve kind usable opened entry))⟩
  | _ => simp [Role.keys]

/-- A vertex belongs to the open routing, and to the open path or a new one. -/
theorem Plays.vertex_opened {j k : Nat} {v : Vertex α} (h : Plays c s (.vertex j k v)) :
    c.routing = some j ∧ k = c.run.getD s.index := by
  cases h with
  | point _ _ _ opened _ => exact ⟨opened, rfl⟩
  | curve _ _ opened _ => exact ⟨opened, rfl⟩

/-! ## A reading -/

/-- Every statement of a reading has one of the roles that it can have in some context. -/
theorem exists_plays (h : p ∈ c.read ss) : ∃ c' : Context α, c'.Plays p.statement p.role := by
  induction ss generalizing c with
  | nil => cases h
  | cons s ss ih =>
    rcases List.mem_cons.mp h with rfl | h
    · exact ⟨_, plays_role _ s⟩
    · exact ih h

theorem statement_mem (h : p ∈ c.read ss) : p.statement ∈ ss := by
  have := List.mem_map_of_mem (f := Placed.statement) h
  rwa [statement_read] at this

/-- A statement of a reading has its role in a context whose open parts are in the reading. -/
theorem exists_rooted (h : (ss.map (·.index)).Pairwise (· < ·)) (hp : p ∈ start.read ss) :
    ∃ (es : List (Placed α)) (c : Context α), es <+: start.read ss ∧ c.Rooted es ∧
      c.Plays p.statement p.role := by
  obtain ⟨pre, post, rfl, hr⟩ := mem_read hp
  rw [List.map_append, List.pairwise_append] at h
  refine ⟨start.read pre, (start.afterAll pre).settle p.statement.command.kind, ?_,
    (rooted_read h.1).1.settle _, hr ▸ plays_role _ _⟩
  rw [read_append]
  exact List.prefix_append ..

/-- A position has one statement. -/
theorem eq_of_index (h : (ss.map (·.index)).Pairwise (· < ·)) (hp : p ∈ c.read ss)
    (hq : q ∈ c.read ss) (he : p.statement.index = q.statement.index) : p = q := by
  have hmap : (c.read ss).map (·.statement.index) = ss.map (·.index) := by
    rw [← statement_read c ss, List.map_map, statement_read]
    rfl
  have hnodup : ((c.read ss).map (·.statement.index)).Nodup :=
    hmap ▸ h.imp fun hlt => Nat.ne_of_lt hlt
  exact List.inj_on_of_nodup_map hnodup hp hq he

/-- The roles of a reading name positions of its statements. -/
theorem exists_index_of_names (h : (ss.map (·.index)).Pairwise (· < ·)) {j : Nat}
    (hj : Names (start.read ss) j) : ∃ s ∈ ss, s.index = j := by
  induction ss using List.reverseRecOn generalizing j with
  | nil => obtain ⟨_, hp, _⟩ := hj; cases hp
  | append_singleton ss s ih =>
    rw [List.map_append, List.pairwise_append] at h
    have hold {j : Nat} (hj : Names (start.read ss) j) : ∃ t ∈ ss ++ [s], t.index = j := by
      obtain ⟨t, ht, hi⟩ := ih h.1 hj
      exact ⟨t, List.mem_append_left _ ht, hi⟩
    obtain ⟨p, hp, hk⟩ := hj
    rw [read_concat] at hp
    rcases List.mem_append.mp hp with hp | hp
    · exact hold ⟨p, hp, hk⟩
    · obtain rfl := List.mem_singleton.mp hp
      rcases (plays_role _ s).names ((rooted_read h.1).1.settle _) j hk with rfl | hj
      · exact ⟨s, by simp, rfl⟩
      · exact hold hj

/-- The first vertex of a path is that of a routing to which all its vertices belong. -/
theorem run_mem_items (h : (ss.map (·.index)).Pairwise (· < ·)) (hp : p ∈ start.read ss)
    {j k : Nat} {v : Vertex α} (hr : p.role = .vertex j k v) : .run k ∈ items (start.read ss) j := by
  induction ss using List.reverseRecOn with
  | nil => cases hp
  | append_singleton ss s ih =>
    rw [List.map_append, List.pairwise_append] at h
    rw [read_concat] at hp ⊢
    rw [items_concat]
    rcases List.mem_append.mp hp with hp | hp
    · exact List.mem_append_left _ (ih h.1 hp)
    · obtain rfl := List.mem_singleton.mp hp
      have hc := (rooted_read h.1).1.settle s.command.kind
      have hplays := plays_role ((start.afterAll ss).settle s.command.kind) s
      dsimp only at hr
      rw [hr] at hplays ⊢
      obtain ⟨hj, hk⟩ := hplays.vertex_opened
      cases hrun : ((start.afterAll ss).settle s.command.kind).run with
      | none =>
        obtain rfl : k = s.index := by rw [hk, hrun]; rfl
        simp [Role.item?, hplays.vertex_index]
      | some k' =>
        obtain rfl : k = k' := by rw [hk, hrun]; rfl
        obtain ⟨j', _, hj', _, _, hlast, _⟩ := hc.run k hrun
        obtain rfl : j = j' := Option.some.inj (hj.symm.trans hj')
        exact List.mem_append_left _ hlast.mem

/-- All vertices of a path belong to one routing. -/
theorem routing_unique (h : (ss.map (·.index)).Pairwise (· < ·)) (hp : p ∈ start.read ss)
    (hq : q ∈ start.read ss) {j j' k : Nat} {v v' : Vertex α} (hr : p.role = .vertex j k v)
    (hr' : q.role = .vertex j' k v') : j = j' := by
  have hfirst {j : Nat} (hi : .run k ∈ items (start.read ss) j) :
      ∃ p ∈ start.read ss, p.statement.index = k ∧ ∃ v, p.role = .vertex j k v := by
    obtain ⟨p, hp, hr⟩ := List.mem_filterMap.mp hi
    obtain ⟨c', hplays⟩ := exists_plays hp
    obtain ⟨v, hrole, hv⟩ : ∃ v, p.role = .vertex j k v ∧ v.entry.statementIndex = k := by
      cases hrole : p.role <;> simp_all [Role.item?]
    rw [hrole] at hplays
    exact ⟨p, hp, hplays.vertex_index.symm.trans hv, v, hrole⟩
  obtain ⟨p', hp', hk, w, hw⟩ := hfirst (run_mem_items h hp hr)
  obtain ⟨q', hq', hk', w', hw'⟩ := hfirst (run_mem_items h hq hr')
  obtain rfl := eq_of_index h hp' hq' (hk.trans hk'.symm)
  rw [hw] at hw'
  cases hw'
  rfl

end Context

/-- What holds of the positions in a reading: they grow, records have the positions of their
statements, and roles name such positions. -/
structure Reading.Sound (es : List (Placed α)) : Prop where
  sorted : (es.map (·.statement.index)).Pairwise (· < ·)
  plays : ∀ p ∈ es, ∃ c : Context α, c.Plays p.statement p.role
  names : ∀ j, Names es j → ∃ p ∈ es, p.statement.index = j
  routing : ∀ p ∈ es, ∀ q ∈ es, ∀ j j' k v v', p.role = .vertex j k v → q.role = .vertex j' k v' →
    j = j'

theorem Context.sound_read {ss : List (Statement α)} (h : (ss.map (·.index)).Pairwise (· < ·)) :
    Sound ((start : Context α).read ss) where
  sorted := by
    rw [← statement_read start ss, List.map_map] at h
    exact h
  plays _ := exists_plays
  names j hj := by
    obtain ⟨s, hs, hi⟩ := exists_index_of_names h hj
    rw [← statement_read start ss] at hs
    obtain ⟨p, hp, rfl⟩ := List.mem_map.mp hs
    exact ⟨p, hp, hi⟩
  routing _ hp _ hq _ _ _ _ _ := routing_unique h hp hq

namespace Reading.Sound

variable {es : List (Placed α)} {p q : Placed α}

theorem eq_of_index (h : Sound es) (hp : p ∈ es) (hq : q ∈ es)
    (he : p.statement.index = q.statement.index) : p = q :=
  List.inj_on_of_nodup_map (h.sorted.imp fun hlt => Nat.ne_of_lt hlt) hp hq he

theorem header_index (h : Sound es) (hp : p ∈ es) {w : Routing α} (hr : p.role.header? = some w) :
    w.statementIndex = p.statement.index := by
  obtain ⟨_, hplays⟩ := h.plays p hp
  exact hplays.header_index hr

theorem first_index (h : Sound es) (hp : p ∈ es) {v : Vertex α} (hr : p.role.first? = some v) :
    v.entry.statementIndex = p.statement.index := by
  obtain ⟨_, hplays⟩ := h.plays p hp
  exact hplays.first_index hr

theorem unhandled_index (h : Sound es) (hp : p ∈ es) {u : Unhandled α}
    (hr : p.role.unhandled? = some u) : u.statementIndex = p.statement.index := by
  obtain ⟨_, hplays⟩ := h.plays p hp
  exact hplays.unhandled_index hr

theorem nailRow_index (h : Sound es) (hp : p ∈ es) {r : NailRow α} (hr : p.role.nailRow? = some r) :
    r.statementIndex = p.statement.index := by
  obtain ⟨_, hplays⟩ := h.plays p hp
  exact hplays.nailRow_index hr

theorem drilling_index (h : Sound es) (hp : p ∈ es) {d : Drilling α}
    (hd : p.role.drilling? = some d) : d.statementIndex = p.statement.index := by
  obtain ⟨_, hplays⟩ := h.plays p hp
  exact hplays.drilling_index hd

/-- Records that have the positions of their statements stand in the order of these. -/
theorem sorted_filterMap (h : Sound es) {γ : Type} {g : Placed α → Option γ} {key : γ → Nat}
    (hkey : ∀ p ∈ es, ∀ x, g p = some x → key x = p.statement.index) :
    ((es.filterMap g).map key).Pairwise (· < ·) := by
  rw [List.pairwise_map]
  have hs := List.pairwise_map.mp h.sorted
  rw [List.pairwise_filterMap]
  refine hs.imp_of_mem fun hp hq hlt x hx y hy => ?_
  rwa [hkey _ hp x hx, hkey _ hq y hy]

end Reading.Sound

end WallPanel
