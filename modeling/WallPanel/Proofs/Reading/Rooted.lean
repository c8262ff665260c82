import Mathlib.Data.List.Basic
import Mathlib.Data.List.Induction
import WallPanel.Proofs.Reading.Contents

/-!
# What is open came last

What is open in a context stands at the end of the reading that led to it: the
open panel is its last panel, the open routing its last routing, and the open
path the last thing that this routing cuts. None of them shares its position
with another one (`Context.Rooted`), because the positions grow. Every statement
keeps that (`Context.Rooted.next`).
-/

namespace WallPanel

/-- The last of a list, with a key that no other of the list has. -/
def LastAlone {β κ : Type} (key : β → κ) (l : List β) (x : β) : Prop :=
  ∃ init, l = init ++ [x] ∧ ∀ y ∈ init, key y ≠ key x

namespace LastAlone

variable {β γ κ : Type} {key : β → κ} {l : List β} {x : β}

theorem concat (h : ∀ y ∈ l, key y ≠ key x) : LastAlone key (l ++ [x]) x :=
  ⟨l, rfl, h⟩

theorem mem (h : LastAlone key l x) : x ∈ l := by
  obtain ⟨init, rfl, -⟩ := h
  simp

/-- A choice that says no more of the last one than it did is one shorter. -/
theorem filterMap_eq {f g : β → Option γ} (h : LastAlone key l x) (hx : f x = none)
    (hfg : ∀ y, key y ≠ key x → f y = g y) :
    l.filterMap g = l.filterMap f ++ (g x).toList := by
  obtain ⟨init, rfl, hne⟩ := h
  have hi : init.filterMap g = init.filterMap f :=
    List.filterMap_congr fun y hy => (hfg y (hne y hy)).symm
  rw [Reading.filterMap_concat, Reading.filterMap_concat, hi, hx]
  simp

/-- No other has the key of the last one. -/
theorem eq_of_key {y : β} (h : LastAlone key l x) (hy : y ∈ l) (hk : key y = key x) : y = x := by
  obtain ⟨init, rfl, hne⟩ := h
  rcases List.mem_append.mp hy with hy | hy
  · exact absurd hk (hne y hy)
  · exact List.mem_singleton.mp hy

end LastAlone

variable {α : Type}

/-- Every position that a role of the reading names is below `i`. -/
def Reading.Below (es : List (Placed α)) (i : Nat) : Prop :=
  ∀ p ∈ es, ∀ k ∈ p.role.keys, k < i

namespace Reading

variable {es : List (Placed α)} {i : Nat}

theorem Below.panel (h : Below es i) {q : SheathingPanel α} (hq : q ∈ panels es) :
    q.statementIndex < i := by
  obtain ⟨p, hp, hr⟩ := List.mem_filterMap.mp hq
  refine h p hp _ ?_
  cases hrole : p.role <;> simp_all [Role.panel?, Role.keys]

theorem Below.header (h : Below es i) {r : Routing α} (hr : r ∈ headers es) :
    r.statementIndex < i := by
  obtain ⟨p, hp, hr⟩ := List.mem_filterMap.mp hr
  refine h p hp _ ?_
  cases hrole : p.role <;> simp_all [Role.header?, Role.keys]

theorem Below.first (h : Below es i) {v : Vertex α} (hv : v ∈ firsts es) :
    v.entry.statementIndex < i := by
  obtain ⟨p, hp, hr⟩ := List.mem_filterMap.mp hv
  refine h p hp _ ?_
  cases hrole : p.role <;> simp_all [Role.first?, Role.keys]

theorem Below.run (h : Below es i) {j k : Nat} (hk : .run k ∈ items es j) : k < i := by
  obtain ⟨p, hp, hr⟩ := List.mem_filterMap.mp hk
  refine h p hp _ ?_
  cases hrole : p.role <;> simp_all [Role.item?, Role.keys]

theorem Below.mono (h : Below es i) {i' : Nat} (hi : i ≤ i') : Below es i' :=
  fun p hp k hk => Nat.lt_of_lt_of_le (h p hp k hk) hi

theorem Below.concat {p : Placed α} (h : Below es i) (hp : ∀ k ∈ p.role.keys, k < i) :
    Below (es ++ [p]) i := by
  intro q hq k hk
  rcases List.mem_append.mp hq with hq | hq
  · exact h q hq k hk
  · obtain rfl := List.mem_singleton.mp hq
    exact hp k hk

end Reading

open Reading

/-- What is open in a context came last in the reading. -/
structure Context.Rooted (c : Context α) (es : List (Placed α)) : Prop where
  panel : ∀ p, c.panel = some p → LastAlone (·.statementIndex) (panels es) p
  routing : ∀ j, c.routing = some j →
    ∃ h, LastAlone (·.statementIndex) (headers es) h ∧ h.statementIndex = j
  run : ∀ k, c.run = some k → ∃ j v, c.routing = some j ∧
    LastAlone (·.entry.statementIndex) (firsts es) v ∧ v.entry.statementIndex = k ∧
    LastAlone id (items es j) (.run k) ∧ ∀ j' ≠ j, .run k ∉ items es j'

variable [Scalar α]

/-! ## The position of a statement in what it says -/

theorem SheathingPanel.of_ofStatement? {s : Statement α} {side : Side}
    {module? : Option (ModuleFrame α)} {p : SheathingPanel α}
    (h : SheathingPanel.ofStatement? s side module? = some p) :
    p.statementIndex = s.index ∧ p.points = [] := by
  unfold SheathingPanel.ofStatement? at h
  dsimp only at h
  split at h
  · cases h; exact ⟨rfl, rfl⟩
  · cases h

theorem FrameMember.of_ofStatement? {s : Statement α} {k : MemberKind} {o : Orientation}
    {module? : Option (ModuleFrame α)} {p : Option PlateRole} {m : FrameMember α}
    (h : FrameMember.ofStatement? s k o module? p = some m) :
    m.statementIndex = s.index ∧ m.kind = k := by
  unfold ofStatement? ofNumbers? at h
  split at h
  · cases h; exact ⟨rfl, rfl⟩
  · cases h

omit [Scalar α] in
theorem NailRow.of_ofStatement? {s : Statement α} {layer : Option PanelLayer} {r : NailRow α}
    (h : NailRow.ofStatement? s layer = some r) :
    r.statementIndex = s.index ∧ r.editorId = none := by
  unfold NailRow.ofStatement? at h
  split at h
  · cases h; exact ⟨rfl, rfl⟩
  · cases h

theorem Drilling.of_ofStatement? {s : Statement α} {module? : Option (ModuleFrame α)}
    {member? : Option (FrameMember α)} {d : Drilling α}
    (h : Drilling.ofStatement? s module? member? = some d) :
    d.statementIndex = s.index ∧ d.editorId = none := by
  unfold Drilling.ofStatement? at h
  split at h
  · cases h; exact ⟨rfl, rfl⟩
  · cases h

/-- A circle that can be read has the code that its orientation rounds to. -/
theorem CircleCut.exists_of_ofStatement? {s : Statement α} {c : CircleCut α}
    (h : CircleCut.ofStatement? s = some (.ok c)) : ∃ x y size code,
      (s.number? 4).mapM Scalar.roundHalfUp = Except.ok (ε := NoInteger) code ∧
      c = { position := ⟨x, y⟩, radius := Scalar.abs size, depthRaw := s.number? 3
            orientation := s.number? 4, feed := s.number? 5, controlCode := code
            extras := s.numbers.drop 6, source := s.numbers, statementIndex := s.index } := by
  unfold ofStatement? at h
  split at h
  · next x y size _ _ =>
    obtain ⟨code, hcode, hc⟩ := bind_eq_ok_iff.mp (Option.some.inj h)
    exact ⟨x, y, size, code, hcode, (Except.ok.inj hc).symm⟩
  · cases h

theorem CircleCut.of_ofStatement? {s : Statement α} {c : CircleCut α}
    (h : CircleCut.ofStatement? s = some (.ok c)) : c.statementIndex = s.index := by
  obtain ⟨_, _, _, _, -, rfl⟩ := exists_of_ofStatement? h
  rfl

theorem Vertex.of_ofPoint? {s : Statement α} {b : Bool} {v : Vertex α}
    (h : Vertex.ofPoint? s b = some v) : v.entry = Vertex.entryOf s none ∧ v.body = s.body := by
  simp only [Vertex.ofPoint?, Option.bind_eq_bind, Option.bind_eq_some_iff] at h
  obtain ⟨x, -, y, -, h⟩ := h
  cases h
  exact ⟨rfl, rfl⟩

theorem Vertex.of_ofCurve? {s : Statement α} {v : Vertex α} (h : Vertex.ofCurve? s = some v) :
    (∃ flag, (tokens s.body)[3]? = some flag ∧ v.entry = Vertex.entryOf s (some flag)) ∧
      v.body = s.body := by
  simp only [Vertex.ofCurve?, Option.bind_eq_bind, Option.bind_eq_some_iff] at h
  obtain ⟨flag, hf, x, -, y, -, z, -, h⟩ := h
  cases h
  exact ⟨⟨flag, hf, rfl⟩, rfl⟩

namespace Context

variable {c : Context α} {es : List (Placed α)} {s : Statement α} {r : Role α}

/-- The vertex of a vertex role is that of its statement. -/
theorem Plays.vertex_index {j k : Nat} {v : Vertex α} (h : Plays c s (.vertex j k v)) :
    v.entry.statementIndex = s.index := by
  cases h with
  | point _ _ _ _ entry => rw [(Vertex.of_ofPoint? entry).1]; rfl
  | curve _ _ _ entry =>
    obtain ⟨⟨_, _, h⟩, _⟩ := Vertex.of_ofCurve? entry
    rw [h]; rfl

omit [Scalar α] in
theorem Rooted.settle (h : c.Rooted es) (k : CommandKind) : (c.settle k).Rooted es := by
  refine ⟨fun p hp => h.panel p ?_, fun j hj => h.routing j (by simpa using hj),
    fun n hn => ?_⟩
  · cases k <;> first | exact hp | cases hp
  · obtain ⟨j, v, hj, rest⟩ := h.run n (by cases k <;> first | exact hn | cases hn)
    exact ⟨j, v, by simpa using hj, rest⟩

/-- The positions that a role names are at most that of its statement. -/
theorem Plays.keys_le (h : Plays c s r) (hc : c.Rooted es) (hb : Below es s.index) :
    ∀ k ∈ r.keys, k ≤ s.index := by
  have hrouting {j : Nat} (hj : c.routing = some j) : j ≤ s.index := by
    obtain ⟨h, hl, rfl⟩ := hc.routing j hj
    exact Nat.le_of_lt (hb.header hl.mem)
  have hrun : c.run.getD s.index ≤ s.index := by
    cases hk : c.run with
    | none => exact Nat.le_refl _
    | some k =>
      obtain ⟨_, v, _, hl, rfl, _⟩ := hc.run k hk
      exact Nat.le_of_lt (hb.first hl.mem)
  have hv {j k : Nat} {v : Vertex α} (h : Plays c s (.vertex j k v)) :
      v.entry.statementIndex ≤ s.index := Nat.le_of_eq h.vertex_index
  cases h with
  | panel _ _ entry => simp [Role.keys, (SheathingPanel.of_ofStatement? entry).1]
  | boundary _ _ opened _ =>
    simpa [Role.keys] using Nat.le_of_lt (hb.panel (hc.panel _ opened).mem)
  | header _ => simp [Role.keys, Routing.ofHeader]
  | circle _ _ opened _ => simpa [Role.keys] using hrouting opened
  | point kind usable closed opened entry =>
    simpa [Role.keys] using ⟨hrouting opened, hrun, hv (.point kind usable closed opened entry)⟩
  | curve kind usable opened entry =>
    simpa [Role.keys] using ⟨hrouting opened, hrun, hv (.curve kind usable opened entry)⟩
  | _ => simp [Role.keys]

omit [Scalar α] in
/-- A statement that begins to cut nothing keeps the path that is open. -/
theorem Rooted.run_after_of_none (hc : c.Rooted es) {k : Nat} (hk : c.run = some k)
    (hr : (c.after r).routing = c.routing) (hf : r.first? = none) (hi : ∀ j, r.item? j = none) :
    ∃ j v, (c.after r).routing = some j ∧
      LastAlone (·.entry.statementIndex) (firsts (es ++ [⟨s, r⟩])) v ∧ v.entry.statementIndex = k ∧
      LastAlone id (items (es ++ [⟨s, r⟩]) j) (.run k) ∧
      ∀ j' ≠ j, .run k ∉ items (es ++ [⟨s, r⟩]) j' := by
  simpa [firsts_concat, items_concat, hr, hf, hi] using hc.run k hk

section After

variable (hc : c.Rooted es) (h : Plays c s r) (hb : Below es s.index)
include hc h hb

theorem Rooted.panel_after {p : SheathingPanel α} (hp : (c.after r).panel = some p) :
    LastAlone (·.statementIndex) (panels (es ++ [⟨s, r⟩])) p := by
  rw [panels_concat]
  cases h with
  | panel _ _ entry =>
    cases hp
    refine .concat fun q hq => Nat.ne_of_lt ?_
    rw [(SheathingPanel.of_ofStatement? entry).1]
    exact hb.panel hq
  | _ => simpa [Role.panel?] using hc.panel p hp

theorem Rooted.routing_after {j : Nat} (hj : (c.after r).routing = some j) :
    ∃ h, LastAlone (·.statementIndex) (headers (es ++ [⟨s, r⟩])) h ∧ h.statementIndex = j := by
  rw [headers_concat]
  cases h with
  | header _ =>
    cases hj
    exact ⟨_, .concat fun q hq => Nat.ne_of_lt (hb.header hq), rfl⟩
  | foreign _ => cases hj
  | _ => simpa [Role.header?] using hc.routing j hj

/-- A vertex begins a path, or goes on with the one that is open. -/
theorem Rooted.run_after_vertex {j k₀ k : Nat} {v : Vertex α} (hr : r = .vertex j k₀ v)
    (hk₀ : k₀ = c.run.getD s.index) (hj : c.routing = some j) (hk : (c.after r).run = some k) :
    ∃ j v, (c.after r).routing = some j ∧
      LastAlone (·.entry.statementIndex) (firsts (es ++ [⟨s, r⟩])) v ∧ v.entry.statementIndex = k ∧
      LastAlone id (items (es ++ [⟨s, r⟩]) j) (.run k) ∧
      ∀ j' ≠ j, .run k ∉ items (es ++ [⟨s, r⟩]) j' := by
  subst hr
  have hv := h.vertex_index
  obtain rfl : k₀ = k := by simpa [after] using hk
  rcases ho : c.run with _ | k'
  · obtain rfl : k₀ = s.index := by rw [hk₀, ho]; rfl
    have hi : (Role.vertex j s.index v).item? j = some (.run s.index) := by simp [Role.item?, hv]
    refine ⟨j, v, hj, ?_, hv, ?_, fun j' hj' hmem => ?_⟩
    · have hf : (Role.vertex j s.index v).first? = some v := by simp [Role.first?, hv]
      rw [firsts_concat, hf]
      refine .concat fun w hw => Nat.ne_of_lt ?_
      rw [hv]
      exact hb.first hw
    · rw [items_concat, hi]
      refine .concat fun i hi' he => Nat.lt_irrefl s.index (hb.run (j := j) ?_)
      obtain rfl : i = .run s.index := he
      exact hi'
    · have hi' : (Role.vertex j s.index v).item? j' = none := by simp [Role.item?, Ne.symm hj']
      rw [items_concat, hi'] at hmem
      exact Nat.lt_irrefl _ (hb.run (by simpa using hmem))
  · -- the vertex goes on with the open path, which began before it
    obtain rfl : k₀ = k' := by rw [hk₀, ho]; rfl
    obtain ⟨_, w, _, hl, hw, _⟩ := hc.run k₀ ho
    have hlt := hb.first hl.mem
    have hne : v.entry.statementIndex ≠ k₀ := by omega
    exact hc.run_after_of_none ho rfl (by simp [Role.first?, hne])
      fun _ => by simp [Role.item?, hne]

/-- Every statement keeps what is open last in the reading. -/
theorem Rooted.after (hs : s.command.kind ≠ .point → s.command.kind ≠ .curve → c.run = none) :
    (c.after r).Rooted (es ++ [⟨s, r⟩]) := by
  refine ⟨fun p => hc.panel_after h hb, fun j => hc.routing_after h hb, fun k hk => ?_⟩
  have hclosed {t : CommandKind} (ht : s.command.kind = t) (hp : t ≠ .point) (hc' : t ≠ .curve) :
      c.run = none := hs (ht ▸ hp) (ht ▸ hc')
  cases h with
  | point kind usable closed opened entry =>
    exact hc.run_after_vertex (.point kind usable closed opened entry) hb rfl rfl opened hk
  | curve kind usable opened entry =>
    exact hc.run_after_vertex (.curve kind usable opened entry) hb rfl rfl opened hk
  | header kind => cases (hclosed kind nofun nofun).symm.trans hk
  | foreign kind => cases (hclosed kind nofun nofun).symm.trans hk
  | circle kind => cases (hclosed kind nofun nofun).symm.trans hk
  | boundary kind usable opened entry =>
    exact hc.run_after_of_none hk rfl rfl fun _ => rfl
  | unhandled known none =>
    exact hc.run_after_of_none hk rfl rfl fun _ => rfl
  | wall kind => cases (hclosed kind nofun nofun).symm.trans hk
  | moduleBegin kind => cases (hclosed kind nofun nofun).symm.trans hk
  | moduleEnd kind => cases (hclosed kind nofun nofun).symm.trans hk
  | member kind =>
    have hne : s.command.kind ≠ .point ∧ s.command.kind ≠ .curve :=
      ⟨fun he => by simp [he, CommandKind.isMember] at kind,
        fun he => by simp [he, CommandKind.isMember] at kind⟩
    cases (hs hne.1 hne.2).symm.trans hk
  | panel kind => cases (hclosed kind nofun nofun).symm.trans hk
  | nailRow kind => cases (hclosed kind nofun nofun).symm.trans hk
  | drilling kind => cases (hclosed kind nofun nofun).symm.trans hk

end After

omit [Scalar α] in
theorem Rooted.start : (start : Context α).Rooted [] :=
  ⟨nofun, nofun, nofun⟩

theorem Rooted.next (hc : c.Rooted es) (hb : Below es s.index) :
    (c.next s).Rooted (es ++ [⟨s, (c.settle s.command.kind).role s⟩]) :=
  (hc.settle _).after (plays_role _ s) hb fun hp hk => c.settle_run_of_ne hp hk

theorem read_concat (c : Context α) (ss : List (Statement α)) (s : Statement α) :
    c.read (ss ++ [s]) =
      c.read ss ++ [⟨s, ((c.afterAll ss).settle s.command.kind).role s⟩] := by
  rw [read_append]
  rfl

/-- The role of a statement that was read is that in the context after those before it. -/
theorem mem_read {c : Context α} {ss : List (Statement α)} {p : Placed α} (h : p ∈ c.read ss) :
    ∃ pre post, ss = pre ++ p.statement :: post ∧
      p.role = ((c.afterAll pre).settle p.statement.command.kind).role p.statement := by
  induction ss generalizing c with
  | nil => cases h
  | cons s ss ih =>
    rcases List.mem_cons.mp h with rfl | h
    · exact ⟨[], ss, rfl, rfl⟩
    · obtain ⟨pre, post, hss, hr⟩ := ih h
      exact ⟨s :: pre, post, by rw [hss]; rfl, hr⟩

theorem afterAll_concat (c : Context α) (ss : List (Statement α)) (s : Statement α) :
    c.afterAll (ss ++ [s]) = (c.afterAll ss).next s := by
  simp only [afterAll, List.foldl_append, List.foldl_cons, List.foldl_nil]

/-- In a document whose positions grow, what is open came last, and the roles name positions of
statements that were read. -/
theorem rooted_read {ss : List (Statement α)} (h : (ss.map (·.index)).Pairwise (· < ·)) :
    ((start : Context α).afterAll ss).Rooted (start.read ss) ∧
      ∀ i, (∀ s ∈ ss, s.index < i) → Below (start.read ss) i := by
  induction ss using List.reverseRecOn with
  | nil => exact ⟨.start, fun _ _ p hp => nomatch hp⟩
  | append_singleton ss s ih =>
    rw [List.map_append, List.pairwise_append] at h
    obtain ⟨hss, -, hlt⟩ := h
    obtain ⟨hr, hb⟩ := ih hss
    have hbs : Below ((start : Context α).read ss) s.index :=
      hb _ fun s' hs' => hlt _ (List.mem_map_of_mem hs') _ (by simp)
    rw [read_concat, afterAll_concat]
    refine ⟨hr.next hbs, fun i hi => ?_⟩
    have hsi := hi s (by simp)
    refine (hbs.mono (Nat.le_of_lt hsi)).concat fun k hk => ?_
    exact Nat.lt_of_le_of_lt ((plays_role _ s).keys_le (hr.settle _) hbs k hk) hsi

end Context

end WallPanel
