import WallPanel.Proofs.Building.Pass
import WallPanel.Proofs.Reading.Starts

/-!
# How far a pass gets

A pass over a document stops where a layer number has too many digits, or where a circle or a path
has a control code that is no integer. A path that has ended gets no vertices any more
(`Context.vertices_of_run_ne`), so the cut that it fails at is one that the whole reading has. So a
pass over statements whose cuts can all be read gets to its end (`buildAll_isOk_iff`).
-/

namespace WallPanel

open Reading

variable {α : Type} [Scalar α]

/-! ## Paths that have ended -/

namespace Context

variable {c : Context α} {s : Statement α} {ss : List (Statement α)} {j k k' : Nat} {v : Vertex α}

omit [Scalar α] in
theorem run_of_settle {kind : CommandKind} (h : (c.settle kind).run = some k) :
    c.run = some k := by
  cases kind <;> first | exact h | cases h

/-- A vertex is on the path that is open, or begins one. -/
theorem run_of_vertex (h : (c.settle s.command.kind).role s = .vertex j k v) :
    c.run = some k ∨ s.index = k := by
  have hplays := (c.settle s.command.kind).plays_role s
  rw [h] at hplays
  have hk := hplays.vertex_opened.2
  cases hrun : (c.settle s.command.kind).run with
  | none => exact .inr (by rw [hk, hrun, Option.getD_none])
  | some n => exact .inl (run_of_settle (by rw [hrun, hk, hrun, Option.getD_some]))

theorem run_of_next (h : (c.next s).run = some k) : c.run = some k ∨ s.index = k := by
  cases hr : (c.settle s.command.kind).role s with
  | vertex j k' v =>
    obtain rfl : k' = k := by simpa [next, hr, after] using h
    exact run_of_vertex hr
  | _ => exact .inl (run_of_settle (by simpa [next, hr, after] using h))

theorem read_settle (c : Context α) (s : Statement α) (ss : List (Statement α)) :
    (c.settle s.command.kind).read (s :: ss) = c.read (s :: ss) := by
  have hidem : (c.settle s.command.kind).settle s.command.kind = c.settle s.command.kind := by
    cases s.command.kind <;> rfl
  rw [read, read, next, hidem, next]

/-- A path that is not open and began before some statements gets no vertex of them. -/
theorem vertices_of_run_ne (hrun : c.run ≠ some k) (hk : ∀ s ∈ ss, k < s.index) :
    vertices (c.read ss) k = [] := by
  induction ss generalizing c with
  | nil => rfl
  | cons s ss ih =>
    have hs : s.index ≠ k := Nat.ne_of_gt (hk s List.mem_cons_self)
    have hrole : ((c.settle s.command.kind).role s).vertex? k = none := by
      cases hr : (c.settle s.command.kind).role s with
      | vertex j k' v =>
        refine if_neg ?_
        rintro rfl
        exact (run_of_vertex hr).elim hrun hs
      | _ => rfl
    have hnext : (c.next s).run ≠ some k := fun h => (run_of_next h).elim hrun hs
    have hrest := ih hnext fun t ht => hk t (List.mem_cons_of_mem _ ht)
    simpa [read, vertices, List.filterMap_cons, hrole] using hrest

end Context

/-! ## Where a pass stops -/

/-- Why a pass stops: a layer number has too many digits, or a control code is no integer. -/
inductive Fault.StopsPass : Fault → Prop
  | digits {n : Nat} (long : digitLimit < n) : StopsPass (integerDigits n)
  | code (e : NoInteger) : StopsPass e.toFault

theorem Statement.stopsPass_of_read {i : Nat} {text : String} {f : Fault}
    (h : read (α := α) i text = .error f) : f.StopsPass := by
  have hword : Command.ofWord (splitCommand text).1 = .error f := by
    obtain hword | ⟨c, -, h⟩ := bind_eq_error_iff.mp h
    · exact hword
    · cases h
  unfold Command.ofWord at hword
  split at hword
  · cases hword
  · split at hword
    · cases hword
    · cases hword
    · split at hword
      · next hlong => cases hword; exact .digits hlong
      · cases hword

namespace Builder

variable {b b' : Builder α} {es : List (Placed α)} {s : Statement α} {r : Role α} {f : Fault}

theorem endPath_eq_error (h : b.endPath = .error f) :
    ∃ run e, b.run = some run ∧ b.activeRouting.isSome = true ∧ run.cut? = some (.error e) ∧
      f = e.toFault := by
  cases hr : b.run with
  | none => simp [endPath, hr] at h
  | some run =>
    cases ha : b.activeRouting with
    | none => simp [endPath, hr, ha] at h
    | some routing =>
      by_cases hd : 2 ≤ (dedupe run.trace.samples).length
      · obtain ⟨kind, hk⟩ := PathKind.of?_closePath hd
        simp only [endPath, hr, ha, hd, ↓reduceIte, hk] at h
        split at h
        · cases h
        · next e hc =>
          exact ⟨run, e, rfl, rfl, by simp [VertexRun.cut?, hd, hk, hc], (Except.error.inj h).symm⟩
      · simp [endPath, hr, ha, hd] at h

theorem place_eq_error (h : b.place r = .error f) :
    ∃ j e, r = .circle j (.error e) ∧ f = e.toFault := by
  cases r with
  | circle j d =>
    cases d with
    | error e => exact ⟨j, e, rfl, (Except.error.inj h).symm⟩
    | ok => cases h
  | _ => cases h

/-- Anything but a point or a curve ends the path. -/
theorem settle_of_ne {kind : CommandKind} (hp : kind ≠ .point) (hc : kind ≠ .curve) :
    b.settle kind = endPath { b with panelOpen := false } := by
  cases kind with
  | point => exact absurd rfl hp
  | curve => exact absurd rfl hc
  | _ => rfl

/-- What ends a pass at a statement: the cut of a path that ends there, or the circle there. -/
theorem feed_eq_error {i : Interruption} (h : b.feed s = .error i) : ∃ e, i.fault = e.toFault ∧
    ((s.command.kind ≠ .point ∧ s.command.kind ≠ .curve ∧
        ∃ run, b.run = some run ∧ b.activeRouting.isSome = true ∧ run.cut? = some (.error e)) ∨
      ∃ j, (b.context.settle s.command.kind).role s = .circle j (.error e)) := by
  obtain hi | ⟨b₁, hs, hi⟩ := bind_eq_error_iff.mp h
  · obtain ⟨f, hs, rfl⟩ := interruptible_eq_error_iff.mp hi
    have hpoint : s.command.kind ≠ .point := fun hk => by
      rw [hk] at hs
      cases hs
    have hcurve : s.command.kind ≠ .curve := fun hk => by
      rw [hk] at hs
      cases hs
    rw [settle_of_ne hpoint hcurve] at hs
    obtain ⟨run, e, hr, ha, hc, hf⟩ := endPath_eq_error hs
    exact ⟨e, hf, .inl ⟨hpoint, hcurve, run, hr, ha, hc⟩⟩
  · obtain ⟨f, ha, rfl⟩ := interruptible_eq_error_iff.mp hi
    obtain ⟨j, e, hr, hf⟩ := place_eq_error ha
    rw [context_settle (interruptible_eq_ok_iff.mp hs)] at hr
    exact ⟨e, hf, .inr ⟨j, hr⟩⟩

theorem stopsPass_of_feedAll {n : Nat} {texts : List String} {i : Interruption}
    (h : b.feedAll n texts = .error i) : i.fault.StopsPass := by
  induction texts generalizing b n with
  | nil => cases h
  | cons text texts ih =>
    rw [feedAll] at h
    obtain hi | ⟨s, -, h⟩ := bind_eq_error_iff.mp h
    · obtain ⟨f, hs, rfl⟩ := interruptible_eq_error_iff.mp hi
      exact Statement.stopsPass_of_read hs
    · obtain hf | ⟨b₁, -, h⟩ := bind_eq_error_iff.mp h
      · obtain ⟨e, he, -⟩ := feed_eq_error hf
        exact he ▸ .code e
      · exact ih h

theorem stopsPass_of_finish {i : Interruption} (h : b.finish = .error i) : i.fault.StopsPass := by
  obtain hi | ⟨b₁, -, h⟩ := bind_eq_error_iff.mp h
  · obtain ⟨f, he, rfl⟩ := interruptible_eq_error_iff.mp hi
    obtain ⟨-, e, -, -, -, hf⟩ := endPath_eq_error he
    exact hf ▸ .code e
  · cases h

/-! ## Progress -/

/-- The cut of a path that has ended is the same in all that is read then. -/
theorem Follows.cutOf?_append (h : b.Follows es) {run : VertexRun α} (hr : b.run = some run)
    {c : Context α} {ss : List (Statement α)} (hc : c.run ≠ some run.first.entry.statementIndex)
    (hss : ∀ s ∈ ss, run.first.entry.statementIndex < s.index) :
    cutOf? (es ++ c.read ss) run.first.entry.statementIndex = run.cut? := by
  refine cutOf?_eq ?_
  rw [vertices, List.filterMap_append]
  have hnone := Context.vertices_of_run_ne hc hss
  rw [vertices] at hnone
  rw [hnone, List.append_nil]
  exact h.cuts.run run hr

/-- A step of the pass succeeds where all cuts of the reading can be read. -/
theorem Follows.feed_isOk {ss : List (Statement α)} (h : b.Follows es) (hb : Below es s.index)
    (hss : ∀ t ∈ ss, s.index < t.index) (hread : Readable (es ++ b.context.read (s :: ss))) :
    ∃ b', b.feed s = .ok b' := by
  cases hf : b.feed s with
  | ok b' => exact ⟨b', rfl⟩
  | error i =>
    obtain ⟨e, -, ⟨hp, hc, run, hr, ha, hcut⟩ | ⟨j, hrole⟩⟩ := feed_eq_error hf
    · have hrun : b.context.run = some run.first.entry.statementIndex := by simp [context, hr]
      obtain ⟨j, v, hj, hfirst, hv, hitem, -⟩ := h.rooted.run _ hrun
      have hlt : run.first.entry.statementIndex < s.index := hv ▸ hb.first hfirst.mem
      have hclosed : (b.context.settle s.command.kind).run ≠
          some run.first.entry.statementIndex := by
        simp [Context.settle_run_of_ne _ hp hc]
      have hlater : ∀ t ∈ s :: ss, run.first.entry.statementIndex < t.index := by
        intro t ht
        rcases List.mem_cons.mp ht with rfl | ht
        · exact hlt
        · exact Nat.lt_trans hlt (hss t ht)
      have hsame := h.cutOf?_append hr hclosed hlater
      rw [Context.read_settle, hcut] at hsame
      have hstays : .run run.first.entry.statementIndex ∈
          items (es ++ b.context.read (s :: ss)) j := by
        rw [items, List.filterMap_append]
        exact List.mem_append_left _ hitem.mem
      obtain ⟨cut, hok⟩ := hread.run hstays hsame
      cases hok
    · have hmem : (⟨s, (b.context.settle s.command.kind).role s⟩ : Placed α) ∈
          es ++ b.context.read (s :: ss) :=
        List.mem_append_right _ List.mem_cons_self
      obtain ⟨cut, hok⟩ := hread.circle hmem hrole
      cases hok

/-- A pass over statements whose cuts can all be read gets to their end. -/
theorem Follows.feedAll_isOk {i : Nat} {texts : List String} {ss : List (Statement α)}
    (h : b.Follows es) (hb : Below es i) (hss : Statement.readAll i texts = .ok ss)
    (hread : Readable (es ++ b.context.read ss)) : ∃ b', b.feedAll i texts = .ok b' := by
  induction texts generalizing b es i ss with
  | nil => exact ⟨b, rfl⟩
  | cons text texts ih =>
    have hsorted := Statement.sorted_readAll hss
    obtain ⟨s, ss, hs, hrest, rfl⟩ := Statement.readAll_cons.mp hss
    obtain rfl : s.index = i := Statement.index_read hs
    have hlater : ∀ t ∈ ss, s.index < t.index := fun t ht =>
      (List.pairwise_cons.mp hsorted).1 _ (List.mem_map_of_mem ht)
    obtain ⟨b₁, hf⟩ := h.feed_isOk hb hlater hread
    obtain ⟨hctx, h₁⟩ := h.feed hb hf
    have hread₁ : Readable ((es ++ [⟨s, (b.context.settle s.command.kind).role s⟩]) ++
        b₁.context.read ss) := by
      rw [hctx, List.append_assoc]
      exact hread
    obtain ⟨b', hf'⟩ := ih h₁ (below_next h.rooted hb) hrest hread₁
    refine ⟨b', ?_⟩
    simp only [Builder.feedAll, interruptible, bind, Except.bind, hs, Except.mapError, hf, hf']

/-- The pass ends where all cuts can be read. -/
theorem Follows.finish_isOk (h : b.Follows es) (hread : Readable es) : ∃ b', b.finish = .ok b' := by
  cases he : b.endPath with
  | ok b₁ => exact ⟨b₁.closeRouting, by simp [Builder.finish, interruptible, he, bind, Except.bind,
      Except.mapError, pure, Except.pure]⟩
  | error f =>
    obtain ⟨run, e, hr, -, hcut, -⟩ := endPath_eq_error he
    have hrun : b.context.run = some run.first.entry.statementIndex := by simp [context, hr]
    obtain ⟨j, -, -, -, -, hitem, -⟩ := h.rooted.run _ hrun
    have hsame : cutOf? es run.first.entry.statementIndex = some (.error e) :=
      (cutOf?_eq (h.cuts.run run hr)).trans hcut
    obtain ⟨cut, hok⟩ := hread.run hitem.mem hsame
    cases hok

end Builder

/-! ## A whole pass -/

variable {text : String} {k : Int}

/-- A pass gets to its end exactly where all layer numbers and all cuts can be read. -/
theorem buildAll_isOk_iff : (∃ b : Builder α, buildAll text k = .ok b) ↔
    ∃ ss : List (Statement α), Statement.readAll 0 (splitStatements text) = .ok ss ∧
      Readable (Context.start.read ss) := by
  have hstart := Builder.follows_start (α := α) (splitStatements text) text k
  have hbelow : Below ([] : List (Placed α)) 0 := fun _ h => absurd h List.not_mem_nil
  constructor
  · rintro ⟨b, hb⟩
    obtain ⟨b₁, hf, hb⟩ := buildAll_eq_ok.mp hb
    obtain ⟨ss, hss, hfollows⟩ := hstart.feedAll hbelow hf
    exact ⟨ss, hss, (hfollows.finish hb).readable⟩
  · rintro ⟨ss, hss, hread⟩
    obtain ⟨b₁, hf⟩ := hstart.feedAll_isOk hbelow hss hread
    obtain ⟨ss', hss', hfollows⟩ := hstart.feedAll hbelow hf
    obtain rfl : ss' = ss := Except.ok.inj (hss'.symm.trans hss)
    obtain ⟨b, hb⟩ := hfollows.finish_isOk hread
    exact ⟨b, buildAll_eq_ok.mpr ⟨b₁, hf, hb⟩⟩

theorem stopsPass_of_buildAll {i : Interruption} (h : buildAll (α := α) text k = .error i) :
    i.fault.StopsPass := by
  obtain hf | ⟨b, -, hend⟩ := bind_eq_error_iff.mp h
  · exact Builder.stopsPass_of_feedAll hf
  · exact Builder.stopsPass_of_finish hend

end WallPanel
