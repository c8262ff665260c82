import WallPanel.Number.Binary64
import WallPanel.Proofs.Editing.Sources

/-!
# Moving an entity

Moving an entity of a model that was read moves its numbers, and writes each of its statements. The
text that is written for a line says the moved line exactly when the line is faithful
(`WallModel.says_translate`).
-/

namespace WallPanel

open Reading

variable {α : Type} [Scalar α]

/-- The positions of the coordinates that move, among the numbers of a line. -/
def EntityKind.positions (kind : EntityKind) (axis : Axis) : List Nat :=
  match kind with
  | nailRow => [axis.position, axis.position + 2]
  | _ => [axis.position]

theorem EntityKind.nodup_positions (kind : EntityKind) (axis : Axis) :
    (kind.positions axis).Nodup := by
  cases kind <;> simp [positions]

omit [Scalar α] in
/-- The flag of a curve, its fourth token, is never moved. -/
theorem Entity.three_notMem_positions {E : Entity α} {e : SourceEntry α} (he : e ∈ E.lines)
    (hk : e.command = "KB") (axis : Axis) : 3 ∉ E.kind.positions axis := by
  cases E with
  | nailRow r =>
    obtain rfl := List.mem_singleton.mp he
    exact absurd hk (by simp [NailRow.word])
  | _ => cases axis <;> simp [kind, EntityKind.positions, Axis.position]

/-! ## The moved entity -/

section Moved

variable {axis : Axis} {d : α} {statements : List (Option String)}

/-- The text of a line after a move. -/
def SourceEntry.movedText (e : SourceEntry α) (statements : List (Option String))
    (positions : List Nat) (d : α) : String :=
  movedStatement statements e.statementIndex positions d (e.shift positions d).statement

theorem PathCut.source_redrawn (p : PathCut α) : p.redrawn.1.source = p.source := by
  unfold redrawn
  dsimp only
  split <;> rfl

theorem RoutingSegment.lines_translate (c : RoutingSegment α) :
    (c.translate axis d).lines = c.lines.map (·.shift [axis.position] d) := by
  cases c with
  | circle c => rfl
  | path p => exact PathCut.source_redrawn _

theorem RoutingSegment.movedStatements_translate (c : RoutingSegment α) :
    (c.translate axis d).movedStatements statements axis d =
      c.lines.map fun e => (e.statementIndex, e.movedText statements [axis.position] d) := by
  cases c with
  | circle c =>
    simp [translate, movedStatements, lines, SourceEntry.movedText, SourceEntry.shift,
      SourceEntry.statement]
  | path p =>
    simp [translate, movedStatements, lines, PathCut.source_redrawn, SourceEntry.movedText,
      SourceEntry.shift, Function.comp_def]

end Moved

/-! ## The statements -/

section Statements

variable {lines : List (SourceEntry α)} {text : SourceEntry α → String}
  {statements : List (Option String)}

omit [Scalar α] in
theorem setStatements_cons (e : SourceEntry α) :
    setStatements statements ((e :: lines).map fun e => (e.statementIndex, text e)) =
      setStatements (statements.set e.statementIndex (some (text e)))
        (lines.map fun e => (e.statementIndex, text e)) := rfl

omit [Scalar α] in
/-- A statement that is none of the lines stays. -/
theorem getElem?_setStatements_of_ne {i : Nat} (h : ∀ e ∈ lines, e.statementIndex ≠ i) :
    (setStatements statements (lines.map fun e => (e.statementIndex, text e)))[i]? =
      statements[i]? := by
  induction lines generalizing statements with
  | nil => rfl
  | cons e lines ih =>
    rw [setStatements_cons, ih fun e he => h e (List.mem_cons_of_mem _ he),
      List.getElem?_set_ne (h e List.mem_cons_self)]

omit [Scalar α] in
/-- The statement of a line is the text that is written for it. -/
theorem getElem?_setStatements (hinj : ∀ e ∈ lines, ∀ e' ∈ lines,
      e.statementIndex = e'.statementIndex → e = e') {e : SourceEntry α} (he : e ∈ lines)
    (hlt : e.statementIndex < statements.length) :
    (setStatements statements (lines.map fun e => (e.statementIndex, text e)))[e.statementIndex]? =
      some (some (text e)) := by
  induction lines generalizing statements with
  | nil => cases he
  | cons e₀ lines ih =>
    rw [setStatements_cons]
    by_cases hmem : e ∈ lines
    · exact ih (fun e he e' he' => hinj e (List.mem_cons_of_mem _ he) e'
        (List.mem_cons_of_mem _ he')) hmem (by simpa using hlt)
    · obtain rfl := (List.mem_cons.mp he).resolve_right hmem
      rw [getElem?_setStatements_of_ne fun e' he' hi => hmem ?_]
      · simp [hlt]
      · rwa [← hinj e' (List.mem_cons_of_mem _ he') e he hi]

end Statements

theorem find?_modifyFirst {β : Type} {p : β → Bool} {f : β → β} {l : List β} {b : β}
    (h : l.find? p = some b) (hf : p (f b) = true) :
    (modifyFirst p f l).find? p = some (f b) := by
  induction l with
  | nil => cases h
  | cons c l ih =>
    rw [modifyFirst]
    cases hc : p c with
    | true =>
      obtain rfl : c = b := by simpa [hc] using h
      simp [hf]
    | false =>
      rw [List.find?_cons, hc] at h
      simp [hc, ih h]

/-- What is put in place of the entity with an id is found by the id. -/
theorem find?_modifyFirst_id {β : Type} {id? : β → Option Int} {l : List β} {b b' : β} {id : Int}
    (h : l.find? (id? · == some id) = some b) (hid : id? b' = id? b) :
    (modifyFirst (id? · == id? b') (fun _ => b') l).find? (id? · == some id) = some b' := by
  have hb : id? b' = some id := hid.trans (by simpa using List.find?_some h)
  rw [hb]
  exact find?_modifyFirst h (by simp [hb])

/-! ## The model -/

namespace WallModel

variable {m m' : WallModel α} {E E' : Entity α} {axis : Axis} {d : α} {id : Int}

/-- What moving an entity makes of a model: the numbers of its lines are moved, its statements are
written, and the entity keeps its kind and its id. -/
structure MovesTo (m : WallModel α) (E : Entity α) (axis : Axis) (d : α) (m' : WallModel α)
    (E' : Entity α) : Prop where
  lines : E'.lines = E.lines.map (·.shift (E.kind.positions axis) d)
  statements : m'.statements = setStatements m.statements
    (E.lines.map fun e => (e.statementIndex, e.movedText m.statements (E.kind.positions axis) d))
  found : ∀ id, m.find? E.kind id = some E → m'.find? E.kind id = some E'

theorem movesTo_nailRow {r : NailRow α} (h : 4 ≤ r.source.length) :
    ∃ m' E', m.translateEntity? (.nailRow r) axis d = some m' ∧
      m.MovesTo (.nailRow r) axis d m' E' := by
  obtain ⟨r', hr'⟩ : ∃ r', r.translate? axis d = some r' := by
    simp [NailRow.translate?, Nat.not_lt_of_le h]
  have he : r' = { r with
      start := r.start.shift axis d, stop := r.stop.shift axis d
      source := shiftNumber (shiftNumber r.source axis.position d) (axis.position + 2) d } := by
    simpa [NailRow.translate?, Nat.not_lt_of_le h, eq_comm] using hr'
  refine ⟨_, .nailRow r', by rw [translateEntity?, hr']; rfl, ?_, ?_, fun id hf => ?_⟩
  · rw [he]
    rfl
  · rw [he]
    simp [Entity.lines, Entity.kind, EntityKind.positions, SourceEntry.movedText,
      SourceEntry.shift, SourceEntry.statement, NailRow.word]
  · simp only [find?, Entity.kind, Option.map_eq_some_iff, Entity.nailRow.injEq,
      exists_eq_right] at hf ⊢
    exact find?_modifyFirst_id hf (by rw [he])

theorem movesTo_drilling {b : Drilling α} (h : 2 ≤ b.source.length) :
    ∃ m' E', m.translateEntity? (.drilling b) axis d = some m' ∧
      m.MovesTo (.drilling b) axis d m' E' := by
  obtain ⟨b', hb', hsource, hindex, hid⟩ : ∃ b', b.translate? axis d = some b' ∧
      b'.source = shiftNumber b.source axis.position d ∧ b'.statementIndex = b.statementIndex ∧
      b'.editorId = b.editorId := by
    cases axis <;> simp [Drilling.translate?, Nat.not_lt_of_le h]
  refine ⟨_, .drilling b', by rw [translateEntity?, hb']; rfl, ?_, ?_, fun id hf => ?_⟩
  · simp [Entity.lines, Entity.kind, EntityKind.positions, SourceEntry.shift, hsource, hindex]
  · simp [Entity.lines, Entity.kind, EntityKind.positions, SourceEntry.movedText,
      SourceEntry.shift, SourceEntry.statement, Drilling.word, hsource, hindex]
  · simp only [find?, Entity.kind, Option.map_eq_some_iff, Entity.drilling.injEq,
      exists_eq_right] at hf ⊢
    exact find?_modifyFirst_id hf hid

theorem movesTo_routing {r : Routing α} (h : r.segments ≠ []) :
    ∃ m' E', m.translateEntity? (.routing r) axis d = some m' ∧
      m.MovesTo (.routing r) axis d m' E' := by
  obtain ⟨r', hr', hsegments, hid⟩ : ∃ r', r.translate? axis d = some r' ∧
      r'.segments = r.segments.map (RoutingSegment.translate axis d) ∧
      r'.editorId = r.editorId := by
    simp [Routing.translate?, h]
  refine ⟨_, .routing r', by rw [translateEntity?, hr']; rfl, ?_, ?_, fun id hf => ?_⟩
  · simp only [Entity.lines, Entity.kind, EntityKind.positions, hsegments, List.flatMap_map,
      RoutingSegment.lines_translate, List.map_flatMap]
  · simp only [Entity.lines, Entity.kind, EntityKind.positions, hsegments, List.flatMap_map,
      RoutingSegment.movedStatements_translate, List.map_flatMap]
  · simp only [find?, Entity.kind, Option.map_eq_some_iff, Entity.routing.injEq,
      exists_eq_right] at hf ⊢
    exact find?_modifyFirst_id hf hid

/-- An entity of a model that was read can be moved. -/
theorem exists_movesTo {text : String} {k : Int} (hm : parseModel text k = .ok m)
    (hE : E ∈ m.entities) (axis : Axis) (d : α) :
    ∃ m' E', m.translateEntity? E axis d = some m' ∧ m.MovesTo E axis d m' E' := by
  have hlength (w : String) (c : CommandKind) (hw : (w, c) ∈ Command.fixedWords)
      (e : SourceEntry α) (he : e ∈ E.lines) (hc : e.command = w) :
      c.minNumbers ≤ e.numbers.length := by
    obtain ⟨s, t, rfl, hline, -, -, hread⟩ := exists_line hm hE he
    rw [← (Command.kind_ofWord_iff hw (Statement.ofWord_read hread)).mpr hc]
    exact hline.numbers
  obtain ⟨r, hr, rfl⟩ | ⟨b, hb, rfl⟩ | ⟨r, hr, rfl⟩ := entity_cases hE
  · exact movesTo_nailRow (hlength NailRow.word .nailRow (by decide) _ List.mem_cons_self rfl)
  · exact movesTo_drilling (Nat.le_trans (by decide)
      (hlength Drilling.word .drilling (by decide) _ List.mem_cons_self rfl))
  · obtain ⟨⟨ss, -, hsaid⟩, -, -⟩ := says_of_parseModel hm
    obtain ⟨w, -, hw, hcuts⟩ := hsaid.exists_header hr
    refine movesTo_routing fun hn => ?_
    obtain ⟨c, cs, hc⟩ := List.exists_cons_of_ne_nil hcuts
    obtain ⟨segment, rfl⟩ := hsaid.readable w.statementIndex c (by simp [hc])
    have hsegments := congrArg Routing.segments hw
    simp [Routing.anonymous, filled, hn, hc, Except.toOption] at hsegments

/-- An entity that is found is moved. -/
theorem translate_eq {axisName : String} (hr : m.resolve ⟨E.kind.name, id⟩ = .ok E)
    (haxis : E.kind.axis? axisName = some axis) (hd : Scalar.isFinite d = true)
    (hne : (d == 0.0) = false) (ht : m.translateEntity? E axis d = some m') :
    m.translate [⟨E.kind.name, id⟩] axisName (some d) = ⟨some m'.withBounds, 1, []⟩ := by
  have hk : EntityKind.ofName? E.kind.name = some E.kind := by cases E.kind <;> rfl
  simp [translate, hd, hne, translateStep, hk, haxis, hr, ht, Working.advance, Working.toEdit]

/-- What moving an entity writes for a line says the moved line exactly when the line is faithful:
the tokens that move hold the numbers that move, or else the line can be written anew. The entity is
moved, its lines are, and no other statement is written. -/
theorem says_translate {text axisName : String} {k : Int} (hm : parseModel text k = .ok m)
    (hE : E ∈ m.entities) (haxis : E.kind.axis? axisName = some axis)
    (hd : Scalar.isFinite d = true) (hne : (d == 0.0) = false)
    (hfin : ∀ e ∈ E.lines, ∀ p ∈ E.kind.positions axis, ∀ x, e.numbers[p]? = some x →
      Scalar.isFinite (x + d) = true) :
    ∃ id m' E', E.editorId = some id ∧
      m.withIds.translate [⟨E.kind.name, id⟩] axisName (some d) = ⟨some m', 1, []⟩ ∧
      m'.find? E.kind id = some E' ∧
      E'.lines = E.lines.map (·.shift (E.kind.positions axis) d) ∧
      (∀ i, (∀ e ∈ E.lines, e.statementIndex ≠ i) → m'.statements[i]? = m.statements[i]?) ∧
      ∀ e ∈ E.lines, ∃ old new, m.statements[e.statementIndex]? = some (some old) ∧
        m'.statements[e.statementIndex]? = some (some new) ∧ e.Says Eq old ∧
        ((e.shift (E.kind.positions axis) d).Says Close new ↔
          e.Faithful old (E.kind.positions axis) d) := by
  obtain ⟨id, hid, hids, hfind, hresolve⟩ := resolve_of_parseModel hm hE
  obtain ⟨m', E', ht, hmoves⟩ := exists_movesTo hm hE axis d
  have hlines : ∀ e ∈ E.lines, ∀ e' ∈ E.lines, e.statementIndex = e'.statementIndex → e = e' := by
    intro e he e' he' hi
    obtain ⟨s, t, hs, -, hget, -, hread⟩ := exists_line hm hE he
    obtain ⟨s', t', hs', -, hget', -, hread'⟩ := exists_line hm hE he'
    rw [← hi] at hget' hread'
    obtain rfl : t = t' := Option.some.inj (Option.some.inj (hget.symm.trans hget'))
    obtain rfl : s = s' := Except.ok.inj (hread.symm.trans hread')
    rw [hs, hs']
  refine ⟨id, m'.withBounds, E', hid, ?_, hmoves.found id hfind, hmoves.lines, fun i hi => ?_,
    fun e he => ?_⟩
  · rw [hids]
    exact translate_eq hresolve haxis hd hne ht
  · rw [show m'.withBounds.statements = m'.statements from rfl, hmoves.statements,
      getElem?_setStatements_of_ne hi]
  · obtain ⟨s, t, hs, hline, hget, hst, hread⟩ := exists_line hm hE he
    have hlt : e.statementIndex < m.statements.length := (List.getElem?_eq_some_iff.mp hget).1
    have hsaid : e.Says Eq t := hs ▸ Statement.says_line (by rwa [hs] at hread)
    refine ⟨t, e.movedText m.statements (E.kind.positions axis) d, hget, ?_, hsaid, ?_⟩
    · rw [show m'.withBounds.statements = m'.statements from rfl, hmoves.statements,
        getElem?_setStatements hlines he hlt]
    · rw [SourceEntry.movedText, movedStatement, hget, Option.join_some, Option.bind_some]
      refine SourceEntry.says_shiftStatement hst hsaid (hs ▸ hline.numbers_ne_nil)
        (E.kind.nodup_positions axis) (fun hk => ?_) (hfin e he)
      have hcurve := hline.curve (Statement.ofWord_read hread) (hs ▸ hk)
      rw [← hs] at hcurve
      exact ⟨hcurve.1, hcurve.2, Entity.three_notMem_positions he hk axis⟩

set_option maxRecDepth 100000 in
/-- A path with a label between its numbers and a circle without a comma between two, moved along the
wall. -/
theorem says_translate_path_and_circle :
    ∃ (m : WallModel Float) (E : Entity Float),
      parseModel "PAF;PP 0,0;PP 5,OSB3,4;MP 1 2,3,4;NR 0,0,9,9" 1 = .ok m ∧ E ∈ m.entities ∧
      E.kind.axis? "x" = some .along ∧
      ∃ id m' E', E.editorId = some id ∧
        m.withIds.translate [⟨E.kind.name, id⟩] "x" (some 0.5) = ⟨some m', 1, []⟩ ∧
        m'.find? E.kind id = some E' ∧
        E'.lines = E.lines.map (·.shift (E.kind.positions .along) 0.5) ∧
        (∀ i, (∀ e ∈ E.lines, e.statementIndex ≠ i) → m'.statements[i]? = m.statements[i]?) ∧
        ∀ e ∈ E.lines, ∃ old new, m.statements[e.statementIndex]? = some (some old) ∧
          m'.statements[e.statementIndex]? = some (some new) ∧ e.Says Eq old ∧
          ((e.shift (E.kind.positions .along) 0.5).Says Close new ↔
            e.Faithful old (E.kind.positions .along) 0.5) := by
  have heval : (do
      let m ← (parseModel (α := Float) "PAF;PP 0,0;PP 5,OSB3,4;MP 1 2,3,4;NR 0,0,9,9" 1).toOption
      let r ← m.routings.head?
      if (Entity.routing r).lines.all fun e => (e.numbers[0]?).all (Scalar.isFinite <| · + 0.5)
      then some r else none).isSome = true := by
    decide +kernel
  obtain ⟨r, h⟩ := Option.isSome_iff_exists.mp heval
  simp only [Option.bind_eq_bind, Option.bind_eq_some_iff, Option.ite_none_right_eq_some] at h
  obtain ⟨m, hm, _, hr, hall, ⟨⟩⟩ := h
  have hm := eq_ok_of_toOption hm
  have hE : Entity.routing r ∈ m.entities :=
    List.mem_append_right _ (List.mem_map_of_mem (List.mem_of_head? hr))
  have hfin : ∀ e ∈ (Entity.routing r).lines, ∀ p ∈ (Entity.routing r).kind.positions .along,
      ∀ x, e.numbers[p]? = some x → Scalar.isFinite (x + 0.5) = true := by
    intro e he p hp x hx
    obtain rfl := List.mem_singleton.mp hp
    have he := List.all_eq_true.mp hall e he
    rwa [show e.numbers[0]? = some x from hx] at he
  exact ⟨m, .routing r, hm, hE, rfl,
    says_translate hm hE rfl (by decide +kernel) (by decide +kernel) hfin⟩

set_option maxRecDepth 100000 in
/-- A circle behind a label, moved up the wall: the token at the second position holds the first
number, so the text moves that one and the circle moves its second. -/
theorem text_of_labelled_circle_moves_other_number :
    ∃ (m m' : WallModel Float) (id : Int) (e : SourceEntry Float) (s : Statement Float)
      (new : String),
      parseModel "PAF;MP A,10,20,5" 1 = .ok m ∧ m.routings.map (·.editorId) = [some id] ∧
      (m.withIds.translate [⟨"paf", id⟩] "y" (some 1.0)).model = some m' ∧
      (m'.find? .routing id).map Entity.lines = some [e] ∧
      m'.statements[e.statementIndex]? = some (some new) ∧
      Statement.read e.statementIndex new = .ok s ∧
      e.numbers.map Binary64.worth = [10, 21, 5] ∧ s.numbers.map Binary64.worth = [11, 20, 5] := by
  have heval : (do
      let m ← (parseModel (α := Float) "PAF;MP A,10,20,5" 1).toOption
      let r ← m.routings.head?
      let id ← r.editorId
      let m' ← (m.withIds.translate [⟨"paf", id⟩] "y" (some 1.0)).model
      let E ← m'.find? .routing id
      let e ← E.lines.head?
      let new ← (m'.statements[e.statementIndex]?).join
      let s ← (Statement.read (α := Float) e.statementIndex new).toOption
      if m.routings.length = 1 ∧ E.lines.length = 1 ∧
        e.numbers.map Binary64.worth = [10, 21, 5] ∧ s.numbers.map Binary64.worth = [11, 20, 5]
      then some s else none).isSome = true := by
    decide +kernel
  obtain ⟨s, h⟩ := Option.isSome_iff_exists.mp heval
  simp only [Option.bind_eq_bind, Option.bind_eq_some_iff, Option.ite_none_right_eq_some,
    List.length_eq_one_iff, Option.join_eq_some_iff] at h
  obtain ⟨m, hm, r, hr, id, hid, m', hm', E, hE, e, he, new, hnew, _, hs, ⟨⟨r', hr'⟩, ⟨e', he'⟩,
    hmodel, htext⟩, ⟨⟩⟩ := h
  obtain rfl : r' = r := by simpa [hr'] using hr
  obtain rfl : e' = e := by simpa [he'] using he
  exact ⟨m, m', id, e', s, new, eq_ok_of_toOption hm, by simp [hr', hid], hm', by simp [hE, he'],
    hnew, eq_ok_of_toOption hs, hmodel, htext⟩

end WallModel

end WallPanel
