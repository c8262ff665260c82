import WallPanel.Proofs.Editing.Batches
import WallPanel.Proofs.Editing.Saving

/-!
# Moving an entity again and again

A move adds its distance to the numbers of an entity. The text it reads back, adds to what stands
there, and writes the sum with three places. So after several moves a coordinate of the entity is
the number that was read with all distances added to it (`summed`), and its text holds the number
that was rounded after each of them (`roundedSum`): `WallModel.coordinates_of_session`. The two are
within half a thousandth of each other as long as the text had the very number of the entity before
the last move (`close_roundedSum`), as it has before the first. A distance that is too small to be
written is never written, however often an entity is moved by it (`roundedSum_replicate`), so the
text can fall behind without a limit.

* `coordinate?`: the number at a position of a statement, and `exists_shiftStatement`, what a move
  makes of it.
* `EditRequest.moves`: the moves that a request makes of an entity.
* `WallModel.Follows`: the invariant, and `WallModel.Follows.take` the step that keeps it.
-/

namespace WallPanel

variable {α : Type} [Scalar α]

/-! ## Distances added up -/

/-- A number with some distances added to it, one after the other. -/
def summed (x : α) (ds : List α) : α :=
  ds.foldl (· + ·) x

/-- A number with some distances added to it, written and read back after each. -/
def roundedSum (x : α) (ds : List α) : α :=
  ds.foldl (fun y d => rewritten (y + d)) x

section Sums

variable {x d : α} {ds : List α}

theorem summed_concat : summed x (ds ++ [d]) = summed x ds + d := by
  simp [summed]

theorem roundedSum_concat : roundedSum x (ds ++ [d]) = rewritten (roundedSum x ds + d) := by
  simp [roundedSum]

/-- What is written stands for the sum if it did so exactly before the last distance. -/
theorem close_roundedSum (h : roundedSum x ds.dropLast = summed x ds.dropLast)
    (hfinite : Scalar.isFinite (summed x ds) = true) : Close (roundedSum x ds) (summed x ds) := by
  induction ds using List.reverseRecOn with
  | nil => exact .refl x
  | append_singleton ds d =>
    rw [List.dropLast_concat] at h
    rw [summed_concat] at hfinite ⊢
    rw [roundedSum_concat, h]
    exact close_rewritten hfinite

/-- A distance that cannot be seen in what is written never can. -/
theorem roundedSum_replicate (h : rewritten (x + d) = x) (n : Nat) :
    roundedSum x (List.replicate n d) = x := by
  induction n with
  | zero => rfl
  | succ n ih =>
    rw [List.replicate_succ', roundedSum_concat, ih]
    exact h

end Sums

/-! ## The coordinates of a statement -/

/-- The number at a position of a statement, if a plain number stands there. -/
def coordinate? (text : String) (p : Nat) : Option α :=
  ((tokens (splitCommand text).2)[p]?).bind tokenNumber?

section Text

variable {ts ts' : List String} {positions : List Nat} {d : α} {text : String}

/-- Of tokens that are moved those at the positions are written anew. -/
theorem bind_tokenNumber?_shiftTokens? (hn : positions.Nodup)
    (h : shiftTokens? ts positions d = some ts') (q : Nat) :
    (ts'[q]?).bind tokenNumber? = ((ts[q]?).bind tokenNumber?).map fun x : α =>
      if q ∈ positions then rewritten (x + d) else x := by
  rw [getElem?_shiftTokens? hn h]
  cases ts[q]? with
  | none => rfl
  | some t =>
    by_cases hq : q ∈ positions
    · cases hx : tokenNumber? (α := α) t <;> simp [hq, shiftedToken, hx, tokenNumber?_formatNumber]
    · simp [hq]

/-- A statement with plain numbers at some positions can be moved there, and the other numbers
stay. -/
theorem exists_shiftStatement (ht : IsStatement text) (hne : positions ≠ [])
    (hn : positions.Nodup) (h : ∀ p ∈ positions, ∃ x : α, coordinate? text p = some x) (d : α) :
    ∃ new, shiftStatement text positions d = some new ∧ IsStatement new ∧
      ∀ q, coordinate? new q = (coordinate? text q).map fun x =>
        if q ∈ positions then rewritten (x + d) else x := by
  have hall : ∀ p ∈ positions, IsNumeralAt (tokens (splitCommand text).2) p := by
    intro p hp
    obtain ⟨x, hx⟩ := h p hp
    obtain ⟨t, hget, hx⟩ := Option.bind_eq_some_iff.mp hx
    exact ⟨t, hget, isNumeral_iff.mpr ⟨x, hx⟩⟩
  obtain ⟨ts', hs, -⟩ := shiftTokens?_eq hall d
  obtain ⟨-, htokens⟩ := ht.isToken_of_shiftTokens? hne hs
  have hshift : shiftStatement text positions d =
      some (joinCommand (splitCommand text).1 ts') :=
    shiftStatement_eq_some_iff.mpr ⟨ht.ne_empty, ts', hs, rfl⟩
  refine ⟨_, hshift, ht.shiftStatement hne hshift, fun q => ?_⟩
  rw [coordinate?, splitCommand_joinCommand (isWord_splitCommand ht).1 htokens,
    tokens_joinTokens htokens]
  exact bind_tokenNumber?_shiftTokens? hn hs q

end Text

/-! ## Lines -/

/-- The distances along an axis of some moves. -/
def distancesAlong (axis : Axis) (ms : List (Axis × α)) : List α :=
  ms.filterMap fun move => if move.1 = axis then some move.2 else none

/-- No coordinate belongs to both axes. -/
theorem EntityKind.axis_of_mem_positions {kind : EntityKind} {axis axis' : Axis} {p : Nat}
    (h : p ∈ kind.positions axis) (h' : p ∈ kind.positions axis') : axis' = axis := by
  cases kind <;> cases axis <;> cases axis' <;>
    simp only [positions, Axis.position, List.mem_cons, List.not_mem_nil, or_false] at h h' <;>
    first | rfl | omega

namespace SourceEntry

/-- A line of an entity after some moves. -/
def moveAll (e : SourceEntry α) (kind : EntityKind) (ms : List (Axis × α)) : SourceEntry α :=
  ms.foldl (fun e move => e.shift (kind.positions move.1) move.2) e

/-- A statement holds the coordinates of a line as some moves write them. -/
structure WrittenAs (e : SourceEntry α) (kind : EntityKind) (ms : List (Axis × α))
    (text : String) : Prop where
  statement : IsStatement text
  coordinates : ∀ axis, ∀ p ∈ kind.positions axis, ∃ x, e.numbers[p]? = some x ∧
    coordinate? text p = some (roundedSum x (distancesAlong axis ms))

variable {e : SourceEntry α} {kind : EntityKind} {ms : List (Axis × α)} {axis : Axis} {d : α}
  {p : Nat} {text : String}

theorem moveAll_concat :
    e.moveAll kind (ms ++ [(axis, d)]) = (e.moveAll kind ms).shift (kind.positions axis) d := by
  simp [moveAll]

theorem statementIndex_moveAll : (e.moveAll kind ms).statementIndex = e.statementIndex := by
  induction ms using List.reverseRecOn with
  | nil => rfl
  | append_singleton ms move ih =>
    rw [moveAll_concat]
    exact ih

/-- A coordinate is moved by the distances along its axis. -/
theorem getElem?_moveAll (hp : p ∈ kind.positions axis) : (e.moveAll kind ms).numbers[p]? =
    (e.numbers[p]?).map (summed · (distancesAlong axis ms)) := by
  induction ms using List.reverseRecOn with
  | nil => simp [moveAll, distancesAlong, summed]
  | append_singleton ms move ih =>
    obtain ⟨axis', d⟩ := move
    rw [moveAll_concat, getElem?_shift (kind.nodup_positions axis'), ih, Option.map_map]
    by_cases ha : axis' = axis
    · subst ha
      simp [hp, distancesAlong, summed, Function.comp_def]
    · have hp' : p ∉ kind.positions axis' := fun h => ha (kind.axis_of_mem_positions hp h)
      simp [hp', distancesAlong, ha, Function.comp_def]

/-- One move more is written. -/
theorem WrittenAs.concat (h : e.WrittenAs kind ms text) (axis : Axis) (d : α) :
    ∃ new, shiftStatement text (kind.positions axis) d = some new ∧
      e.WrittenAs kind (ms ++ [(axis, d)]) new := by
  have hne : kind.positions axis ≠ [] := by cases kind <;> simp [EntityKind.positions]
  have hnumbers : ∀ p ∈ kind.positions axis, ∃ x : α, coordinate? text p = some x := by
    intro p hp
    obtain ⟨x, -, hx⟩ := h.coordinates axis p hp
    exact ⟨_, hx⟩
  obtain ⟨new, hshift, hst, hnew⟩ :=
    exists_shiftStatement h.statement hne (kind.nodup_positions axis) hnumbers d
  refine ⟨new, hshift, hst, fun axis' p hp => ?_⟩
  obtain ⟨x, hx, hcoordinate⟩ := h.coordinates axis' p hp
  refine ⟨x, hx, ?_⟩
  rw [hnew, hcoordinate, Option.map_some]
  by_cases ha : axis = axis'
  · subst ha
    simp [hp, distancesAlong, roundedSum]
  · have hp' : p ∉ kind.positions axis := fun h => ha (kind.axis_of_mem_positions hp h)
    simp [hp', distancesAlong, ha]

end SourceEntry

/-! ## Plain documents -/

/-- In a plain document the tokens of the statements that entities have lines of are plain numbers,
but for the flags of curves. -/
def IsPlain (text : String) : Prop :=
  ∀ t ∈ splitStatements text, ∀ u ∈ (tokens (splitCommand t).2).zipIdx,
    (splitCommand t).1 ∈ ["NR", "BOY", "MP", "PP"] ∨ (splitCommand t).1 = "KB" ∧ u.2 ≠ 3 →
      isNumeral u.1 = true

/-- As long as plain numbers stand in the tokens, each holds the number at its position. -/
theorem getElem?_flatMap_bodyNumbers {ts : List String} {p : Nat}
    (h : ∀ q ≤ p, ∀ t, ts[q]? = some t → isNumeral t = true) :
    (ts.flatMap bodyNumbers)[p]? = (ts[p]?).bind (tokenNumber? (α := α)) := by
  induction ts generalizing p with
  | nil => rfl
  | cons t ts ih =>
    obtain ⟨x, hx⟩ := (isNumeral_iff (α := α)).mp (h 0 (Nat.zero_le p) t rfl)
    rw [List.flatMap_cons, bodyNumbers_of_tokenNumber? hx, List.singleton_append]
    cases p with
    | zero => simp [hx]
    | succ p =>
      rw [List.getElem?_cons_succ, List.getElem?_cons_succ]
      exact ih fun q hq t ht => h (q + 1) (Nat.succ_le_succ hq) t (by simpa using ht)

namespace WallModel

section Read

variable {m : WallModel α} {text : String} {k : Int} {E : Entity α} {e e' : SourceEntry α}
  {axis : Axis} {p : Nat}

/-- Two lines of an entity come from different statements. -/
theorem line_eq_of_statementIndex_eq (hm : parseModel text k = .ok m) (hE : E ∈ m.entities)
    (he : e ∈ E.lines) (he' : e' ∈ E.lines) (hi : e.statementIndex = e'.statementIndex) :
    e = e' := by
  obtain ⟨s, t, hs, -, hget, -, hread⟩ := exists_line hm hE he
  obtain ⟨s', t', hs', -, hget', -, hread'⟩ := exists_line hm hE he'
  rw [← hi] at hget' hread'
  obtain rfl : t = t' := Option.some.inj (Option.some.inj (hget.symm.trans hget'))
  obtain rfl : s = s' := Except.ok.inj (hread.symm.trans hread')
  rw [hs, hs']

/-- An entity has a line. -/
theorem lines_ne_nil (hm : parseModel text k = .ok m) (hE : E ∈ m.entities) : E.lines ≠ [] := by
  obtain ⟨r, -, rfl⟩ | ⟨d, -, rfl⟩ | ⟨r, hr, rfl⟩ := entity_cases hE
  · exact List.cons_ne_nil _ _
  · exact List.cons_ne_nil _ _
  · obtain ⟨⟨ss, -, hsaid⟩, -, -⟩ := says_of_parseModel hm
    obtain ⟨w, -, hw, hcuts⟩ := hsaid.exists_header hr
    have hsegments : r.anonymous.segments =
        (Reading.filled (Context.start.read ss) none w).segments := congrArg Routing.segments hw
    change r.segments = _ at hsegments
    obtain ⟨c, hc⟩ := List.exists_mem_of_ne_nil _ hcuts
    obtain ⟨segment, rfl⟩ := hsaid.readable w.statementIndex c hc
    have hmem : segment ∈ r.segments := by
      rw [hsegments]
      exact List.mem_filterMap.mpr ⟨_, hc, rfl⟩
    intro hnil
    have hlines := List.flatMap_eq_nil_iff.mp hnil segment hmem
    cases segment with
    | circle c => cases hlines
    | path cut =>
      rw [hsegments] at hmem
      obtain ⟨n, -, hcut⟩ := Reading.exists_cutOf?_of_mem hmem
      obtain ⟨v, vs, -, hsource⟩ := Reading.source_of_cutOf? hcut
      rw [RoutingSegment.lines, hsource] at hlines
      cases hlines

omit [Scalar α] in
/-- A nail row has a line of its own command, and moves up to its fourth number. Other entities move
up to the second number of a line. -/
theorem positions_cases (he : e ∈ E.lines) (hp : p ∈ E.kind.positions axis) :
    e.command = NailRow.word ∧ p < 4 ∨ p < 2 := by
  cases E with
  | nailRow r =>
    obtain rfl := List.mem_singleton.mp he
    refine .inl ⟨rfl, ?_⟩
    cases axis <;> simp [Entity.kind, EntityKind.positions, Axis.position] at hp <;> omega
  | _ =>
    refine .inr ?_
    cases axis <;> simp [Entity.kind, EntityKind.positions, Axis.position] at hp <;> omega

/-- The statement of a line of a plain document holds the coordinates of the line. -/
theorem exists_writtenAs (hm : parseModel text k = .ok m) (hplain : IsPlain text)
    (hE : E ∈ m.entities) (he : e ∈ E.lines) :
    ∃ t, m.statements[e.statementIndex]? = some (some t) ∧ e.WrittenAs E.kind [] t := by
  obtain ⟨-, -, kind, hcommand, -⟩ := ((ownership_of_parseModel hm).owns E hE).lines e he
  obtain ⟨s, t, rfl, hline, hget, hst, hread⟩ := exists_line hm hE he
  refine ⟨t, hget, hst, fun axis p hp => ?_⟩
  have hc := Statement.ofWord_read hread
  have hcommands : ∀ q ∈ lineCommands, q ∈ Command.fixedWords ∧ 2 ≤ q.2.minNumbers ∧
      (q.1 = NailRow.word → 4 ≤ q.2.minNumbers) ∧
      (q.1 ∈ ["NR", "BOY", "MP", "PP"] ∨ q.1 = "KB" ∧ q.1 ≠ NailRow.word) := by decide
  obtain ⟨hfixed, htwo, hfour, hwords⟩ := hcommands _ hcommand
  obtain rfl : s.command.kind = kind := (Command.kind_ofWord_iff hfixed hc).mpr rfl
  have hcases := positions_cases he hp
  have hlt : p < s.line.numbers.length := by
    have hnumbers := hline.numbers
    rcases hcases with ⟨hrow, hp⟩ | hp
    · exact Nat.lt_of_lt_of_le hp ((hfour hrow).trans hnumbers)
    · exact Nat.lt_of_lt_of_le hp (htwo.trans hnumbers)
  have hnumerals : ∀ q ≤ p, ∀ u, (tokens (splitCommand t).2)[q]? = some u →
      isNumeral u = true := by
    intro q hq u hu
    have hmem : t ∈ splitStatements text := by
      obtain ⟨-, -, hstatements⟩ := says_of_parseModel hm
      rw [hstatements] at hget
      simpa using List.mem_of_getElem? hget
    refine hplain t hmem (u, q) (List.mem_zipIdx_iff_getElem?.mpr hu) ?_
    rw [Statement.word_read hread]
    refine hwords.imp_right fun ⟨hk, hne⟩ => ⟨hk, ?_⟩
    have hp := hcases.resolve_left fun h => hne h.1
    dsimp only
    omega
  refine ⟨s.line.numbers[p], List.getElem?_eq_getElem hlt, ?_⟩
  obtain ⟨-, hbody, -⟩ := (SourceEntry.says_iff (by rw [Statement.word_read hread]; exact hc)).mp
    (Statement.says_line hread)
  rw [List.forall₂_eq_eq_eq, bodyNumbers_eq] at hbody
  rw [coordinate?, ← getElem?_flatMap_bodyNumbers hnumerals, hbody]
  exact List.getElem?_eq_getElem hlt

end Read

end WallModel

/-! ## Entities -/

/-- An entity whose lines have their coordinates can be moved. -/
theorem Entity.exists_translate? {E : Entity α} (hne : E.lines ≠ [])
    (h : ∀ e ∈ E.lines, ∀ axis, ∀ p ∈ E.kind.positions axis, (e.numbers[p]?).isSome = true)
    (axis : Axis) (d : α) : ∃ E', E.translate? axis d = some E' := by
  cases E with
  | nailRow r =>
    have hfour : 3 < r.source.length := by
      simpa using h _ (List.mem_singleton_self _) .up 3
        (by simp [Entity.kind, EntityKind.positions, Axis.position])
    simp [translate?, NailRow.translate?, Nat.not_lt.mpr (Nat.succ_le_of_lt hfour)]
  | drilling b =>
    have htwo : 1 < b.source.length := by
      simpa using h _ (List.mem_singleton_self _) .up 1
        (by simp [Entity.kind, EntityKind.positions, Axis.position])
    cases axis <;> simp [translate?, Drilling.translate?, Nat.not_lt.mpr (Nat.succ_le_of_lt htwo)]
  | routing r =>
    have hsegments : r.segments ≠ [] := fun hnil => hne (by simp [lines, hnil])
    simp [translate?, Routing.translate?, hsegments]

/-- An entity is another one after some moves, and its statements hold the coordinates as these
write them. -/
structure Entity.MovedBy (E : Entity α) (ms : List (Axis × α)) (statements : List (Option String))
    (E' : Entity α) : Prop where
  kind : E'.kind = E.kind
  editorId : E'.editorId = E.editorId
  lines : E'.lines = E.lines.map (·.moveAll E.kind ms)
  texts : ∀ e ∈ E.lines, ∃ t, statements[e.statementIndex]? = some (some t) ∧
    e.WrittenAs E.kind ms t

namespace Entity.MovedBy

variable {m m' : WallModel α} {E E' E'' : Entity α} {ms : List (Axis × α)} {axis : Axis} {d : α}
  {statements statements' : List (Option String)}

theorem congr (h : E.MovedBy ms statements E')
    (hs : ∀ e ∈ E.lines, statements'[e.statementIndex]? = statements[e.statementIndex]?) :
    E.MovedBy ms statements' E' where
  kind := h.kind
  editorId := h.editorId
  lines := h.lines
  texts e he := hs e he ▸ h.texts e he

/-- One move more. -/
theorem concat (h : E.MovedBy ms m.statements E') (hmoved : m.Moved E' axis d m' E'')
    (hinj : ∀ e ∈ E.lines, ∀ e' ∈ E.lines, e.statementIndex = e'.statementIndex → e = e') :
    E.MovedBy (ms ++ [(axis, d)]) m'.statements E'' where
  kind := hmoved.moves.kind.trans h.kind
  editorId := hmoved.moves.editorId.trans h.editorId
  lines := by
    rw [hmoved.moves.lines, h.lines, h.kind, List.map_map]
    exact List.map_congr_left fun e _ => SourceEntry.moveAll_concat.symm
  texts e he := by
    obtain ⟨t, ht, hwritten⟩ := h.texts e he
    obtain ⟨new, hshift, hnew⟩ := hwritten.concat axis d
    have hmem : e.moveAll E.kind ms ∈ E'.lines := by
      rw [h.lines]
      exact List.mem_map_of_mem he
    have hindex : (e.moveAll E.kind ms).statementIndex = e.statementIndex :=
      SourceEntry.statementIndex_moveAll
    have hinj' : ∀ e₁ ∈ E'.lines, ∀ e₂ ∈ E'.lines, e₁.statementIndex = e₂.statementIndex →
        e₁ = e₂ := by
      rw [h.lines]
      intro e₁ he₁ e₂ he₂ hi
      obtain ⟨f₁, hf₁, rfl⟩ := List.mem_map.mp he₁
      obtain ⟨f₂, hf₂, rfl⟩ := List.mem_map.mp he₂
      rw [SourceEntry.statementIndex_moveAll, SourceEntry.statementIndex_moveAll] at hi
      rw [hinj f₁ hf₁ f₂ hf₂ hi]
    have hlt : (e.moveAll E.kind ms).statementIndex < m.statements.length := by
      rw [hindex]
      exact (List.getElem?_eq_some_iff.mp ht).1
    refine ⟨new, ?_, hnew⟩
    rw [hmoved.statements, ← hindex, getElem?_setStatements hinj' hmem hlt,
      SourceEntry.movedText, movedStatement, hindex, ht, h.kind]
    simp [hshift]

theorem exists_translate? (h : E.MovedBy ms statements E') (hne : E.lines ≠ []) (axis : Axis)
    (d : α) : ∃ E'', E'.translate? axis d = some E'' := by
  refine Entity.exists_translate? (by simpa [h.lines] using hne) (fun e' he' axis p hp => ?_) axis d
  rw [h.lines] at he'
  obtain ⟨e, he, rfl⟩ := List.mem_map.mp he'
  rw [h.kind] at hp
  obtain ⟨t, -, hwritten⟩ := h.texts e he
  obtain ⟨x, hx, -⟩ := hwritten.coordinates axis p hp
  simp [SourceEntry.getElem?_moveAll hp, hx]

end Entity.MovedBy

/-! ## Requests -/

/-- The move that an entity with a kind and an id makes where a request names an entity. -/
def EntityRef.move? (ref : EntityRef) (axisName : String) (distance : Option α)
    (kind : EntityKind) (id : Int) : Option (Axis × α) := do
  let d ← distance.filter fun d => Scalar.isFinite d && !(d == 0.0)
  let axis ← kind.axis? axisName
  if ref = ⟨kind.name, id⟩ then some (axis, d) else none

/-- The moves that an entity with a kind and an id makes in a request. -/
def EditRequest.moves (q : EditRequest α) (kind : EntityKind) (id : Int) : List (Axis × α) :=
  match q with
  | translate refs axisName distance => refs.filterMap (·.move? axisName distance kind id)
  | _ => []

theorem moves_cons (ref : EntityRef) (refs : List EntityRef) (axisName : String)
    (distance : Option α) (kind : EntityKind) (id : Int) :
    (EditRequest.translate (ref :: refs) axisName distance).moves kind id =
      (ref.move? axisName distance kind id).toList ++
        (EditRequest.translate refs axisName distance).moves kind id := by
  simp only [EditRequest.moves, List.filterMap_cons]
  cases ref.move? axisName distance kind id <;> rfl

/-- Whether a request is to move entities. -/
def EditRequest.translates : EditRequest α → Bool
  | translate .. => true
  | _ => false

namespace WallModel

/-- All entities of a model are those of another one after some moves of each. -/
structure Follows (m₀ : WallModel α) (ms : EntityKind → Int → List (Axis × α))
    (m : WallModel α) : Prop where
  ownership : m.Ownership
  identifies : m.Identifies
  moved : ∀ E' ∈ m.entities, ∃ E ∈ m₀.entities, ∃ id, E.editorId = some id ∧
    E.MovedBy (ms E.kind id) m.statements E'

variable {m₀ m : WallModel α} {text : String} {k : Int}
  {ms : EntityKind → Int → List (Axis × α)} {axisName : String} {distance : Option α}

theorem follows_of_parseModel (hm : parseModel text k = .ok m) (hplain : IsPlain text) :
    m.Follows (fun _ _ => []) m := by
  refine ⟨ownership_of_parseModel hm, identifies_of_parseModel hm, fun E hE => ?_⟩
  obtain ⟨id, hid, -⟩ := (identifies_of_parseModel hm).issued E hE
  refine ⟨E, hE, id, hid, rfl, rfl, ?_, fun e he => exists_writtenAs hm hplain hE he⟩
  exact (List.map_id' _).symm

theorem Follows.withBounds (h : m₀.Follows ms m) : m₀.Follows ms m.withBounds :=
  ⟨(Step.rebound m).ownership h.ownership, (Step.rebound m).identifies h.identifies, h.moved⟩

end WallModel

/-- A move that is made is one of the entity that a request names. -/
theorem BatchEdit.moved_of_plan {m : WallModel α} {ref : EntityRef} {c : Change α}
    {axisName : String} {distance : Option α} (hm : m.Ownership)
    (hc : (translate axisName distance).plan m ref = some c) :
    ∃ axis d E', ref.move? axisName distance c.old.kind ref.id = some (axis, d) ∧
      m.Moved c.old axis d (m.make c) E' := by
  obtain ⟨hresolve, -, hname, -, hchange, -⟩ := exists_of_plan hm hc
  simp only [change?, Option.bind_eq_bind, Option.bind_eq_some_iff] at hchange
  obtain ⟨d, hd, axis, haxis, E', hE', he⟩ := hchange
  have hmoved : m.translateEntity? c.old axis d = some (m.make c) := by
    rw [translateEntity?_eq, hE', Option.map_some]
    exact congrArg (fun c => some (m.make c)) (Option.some.inj he)
  obtain ⟨E', h⟩ := WallModel.exists_moved hresolve hmoved
  refine ⟨axis, d, E', ?_, h⟩
  have href : ref = ⟨c.old.kind.name, ref.id⟩ := by
    rw [hname]
  simp [EntityRef.move?, hd, haxis, ← href]

namespace WallModel

section Session

variable {m₀ m : WallModel α} {text : String} {k : Int}
  {ms : EntityKind → Int → List (Axis × α)} {axisName : String} {distance : Option α}

/-- The entity that a request names is moved if it can move along the axis. -/
theorem Follows.exists_plan (h : m₀.Follows ms m) (hm₀ : parseModel text k = .ok m₀)
    {E' : Entity α} (hE' : E' ∈ m.entities) {id : Int} (hid : E'.editorId = some id)
    {ref : EntityRef} {move : Axis × α}
    (hmove : ref.move? axisName distance E'.kind id = some move) :
    ∃ c, (BatchEdit.translate axisName distance).plan m ref = some c := by
  simp only [EntityRef.move?, Option.bind_eq_bind, Option.bind_eq_some_iff,
    Option.ite_none_right_eq_some] at hmove
  obtain ⟨d, hd, axis, haxis, rfl, -⟩ := hmove
  obtain ⟨E, hE, id', -, hmoved⟩ := h.moved E' hE'
  obtain ⟨E'', hE''⟩ := hmoved.exists_translate? (lines_ne_nil hm₀ hE) axis d
  have hresolve : m.resolve ⟨E'.kind.name, id⟩ = .ok E' :=
    resolve_of_isLive (h.identifies.find? hE' hid) fun i => (h.ownership.owns E' hE').isLive
  simp [BatchEdit.plan, hresolve, Except.toOption, BatchEdit.change?, hd, haxis, hE'']

/-- After a move an entity is the moved one, or another one whose statements stay. -/
theorem Moved.cases_of_mem {E E' F : Entity α} {m' : WallModel α} {axis : Axis} {d : α}
    (h : m.Moved E axis d m' F) (ho : m.Ownership) (hi : m.Identifies) (hE' : E' ∈ m'.entities) :
    E' = F ∨ E' ∈ m.entities ∧ E'.editorId ≠ E.editorId ∧
      ∀ e ∈ E'.lines, m'.statements[e.statementIndex]? = m.statements[e.statementIndex]? := by
  obtain ⟨init, rest, hsplit, hsplit'⟩ := h.entities
  have hE : E ∈ m.entities := h.mem
  have hcases : E' = F ∨ E' ∈ init ++ rest := by
    rw [hsplit'] at hE'
    grind
  refine hcases.imp_right fun hother => ?_
  have hmem : E' ∈ m.entities := by
    rw [hsplit]
    grind
  refine ⟨hmem, ?_, fun e he => ?_⟩
  · have hnodup := hi.nodup
    rw [ids, hsplit] at hnodup
    grind [List.nodup_append, List.nodup_cons]
  · rw [h.statements]
    refine getElem?_setStatements_of_ne fun e' he' hindex => ?_
    have hown := ((ho.owns E' hmem).lines e he).1
    rw [← hindex] at hown
    exact ho.apart.disjoint hsplit hother hown ((ho.owns E hE).lines e' he').1

/-- Where a request names an entity, the moves that follow from it are made and no other. -/
theorem Follows.take (h : m₀.Follows ms m) (hm₀ : parseModel text k = .ok m₀) (n : Nat)
    (ref : EntityRef) :
    m₀.Follows (fun kind id => ms kind id ++ (ref.move? axisName distance kind id).toList)
      ((BatchEdit.translate axisName distance).take (m, n) ref).1 := by
  cases hc : (BatchEdit.translate axisName distance).plan m ref with
  | none =>
    simp only [BatchEdit.take, hc]
    refine ⟨h.ownership, h.identifies, fun E' hE' => ?_⟩
    obtain ⟨E, hE, id, hid, hmoved⟩ := h.moved E' hE'
    have hnone : ref.move? axisName distance E.kind id = none := by
      rw [← hmoved.kind, Option.eq_none_iff_forall_ne_some]
      intro move hmove
      obtain ⟨c, hc'⟩ := h.exists_plan hm₀ hE' (hmoved.editorId.trans hid) hmove
      rw [hc] at hc'
      cases hc'
    exact ⟨E, hE, id, hid, by simpa [hnone] using hmoved⟩
  | some c =>
    simp only [BatchEdit.take, hc]
    have hstep := BatchEdit.step_make h.ownership hc
    obtain ⟨-, hold, -, hid₀, -⟩ := BatchEdit.exists_of_plan h.ownership hc
    obtain ⟨axis, d, F, hmove, hM⟩ := BatchEdit.moved_of_plan h.ownership hc
    refine ⟨hstep.ownership h.ownership, hstep.identifies h.identifies, fun E' hE' => ?_⟩
    obtain rfl | ⟨hmem, hne, hstay⟩ := hM.cases_of_mem h.ownership h.identifies hE'
    · obtain ⟨E, hE, id, hid, hmoved⟩ := h.moved c.old hold
      obtain rfl : ref.id = id :=
        Option.some.inj (hid₀.symm.trans (hmoved.editorId.trans hid))
      rw [hmoved.kind] at hmove
      refine ⟨E, hE, ref.id, hid, ?_⟩
      rw [hmove]
      exact hmoved.concat hM fun e he e' he' => line_eq_of_statementIndex_eq hm₀ hE he he'
    · obtain ⟨E, hE, id, hid, hmoved⟩ := h.moved E' hmem
      have hnone : ref.move? axisName distance E.kind id = none := by
        have href : ref ≠ ⟨E.kind.name, id⟩ := by
          rintro rfl
          exact hne ((hmoved.editorId.trans hid).trans hid₀.symm)
        simp [EntityRef.move?, href]
      refine ⟨E, hE, id, hid, ?_⟩
      rw [hnone, Option.toList_none, List.append_nil]
      refine hmoved.congr fun e he => ?_
      have hline := hstay (e.moveAll E.kind (ms E.kind id))
        (by rw [hmoved.lines]; exact List.mem_map_of_mem he)
      rwa [SourceEntry.statementIndex_moveAll] at hline

/-- The entities of a request are moved as often as it names them. -/
theorem Follows.foldl_take (h : m₀.Follows ms m) (hm₀ : parseModel text k = .ok m₀)
    (refs : List EntityRef) (n : Nat) :
    m₀.Follows (fun kind id => ms kind id ++
        (EditRequest.translate refs axisName distance).moves kind id)
      (refs.foldl (BatchEdit.translate axisName distance).take (m, n)).1 := by
  induction refs generalizing m ms n with
  | nil => simpa [EditRequest.moves] using h
  | cons ref refs ih =>
    set w := (BatchEdit.translate axisName distance).take (m, n) ref with hw
    have hrest := ih (hw ▸ h.take hm₀ n ref) w.2
    simp only [List.append_assoc, ← moves_cons] at hrest
    exact hrest

theorem Follows.after (h : m₀.Follows ms m) (hm₀ : parseModel text k = .ok m₀)
    {q : EditRequest α} (hq : q.translates = true) :
    m₀.Follows (fun kind id => ms kind id ++ q.moves kind id) (m.after q) := by
  cases q with
  | translate refs axisName distance =>
    have hall : m₀.Follows (fun kind id => ms kind id ++
          (EditRequest.translate refs axisName distance).moves kind id)
        (refs.foldl (BatchEdit.translate axisName distance).take (m, 0)).1 :=
      h.foldl_take hm₀ refs 0
    rw [show EditRequest.translate refs axisName distance =
      (BatchEdit.translate axisName distance).request refs from rfl, BatchEdit.after_request]
    split
    · next hcount =>
      rwa [← BatchEdit.takeAll, BatchEdit.fst_takeAll_of_count hcount] at hall
    · exact hall.withBounds
  | _ => cases hq

theorem Follows.session (h : m₀.Follows ms m) (hm₀ : parseModel text k = .ok m₀)
    {qs : List (EditRequest α)} (hq : ∀ q ∈ qs, q.translates = true) :
    m₀.Follows (fun kind id => ms kind id ++ qs.flatMap (·.moves kind id)) (m.session qs) := by
  induction qs generalizing m ms with
  | nil =>
    simp only [List.flatMap_nil, List.append_nil]
    exact h
  | cons q qs ih =>
    simp only [List.flatMap_cons, ← List.append_assoc]
    exact ih (h.after hm₀ (hq q List.mem_cons_self)) fun q' hq' =>
      hq q' (List.mem_cons_of_mem _ hq')

/-- After requests to move entities of a plain document, however many, each coordinate of an entity
is the number that was read with all distances of the entity along its axis added to it, and the
statement of its line holds the number that was rounded after each of them. These are within half a
thousandth of each other if they were the same before the last move. -/
theorem coordinates_of_session (hm : parseModel text k = .ok m) (hplain : IsPlain text)
    {qs : List (EditRequest α)} (hq : ∀ q ∈ qs, q.translates = true) :
    ∀ E' ∈ (m.withIds.session qs).entities, ∃ E ∈ m.entities, ∃ id, E'.kind = E.kind ∧
      E.editorId = some id ∧ E'.editorId = some id ∧
      ∀ e' ∈ E'.lines, ∃ e ∈ E.lines, ∃ t, e'.statementIndex = e.statementIndex ∧
        (m.withIds.session qs).statements[e.statementIndex]? = some (some t) ∧
        ∀ axis, ∀ p ∈ E.kind.positions axis, ∃ x ds, e.numbers[p]? = some x ∧
          ds = distancesAlong axis (qs.flatMap (·.moves E.kind id)) ∧
          e'.numbers[p]? = some (summed x ds) ∧ coordinate? t p = some (roundedSum x ds) ∧
          (roundedSum x ds.dropLast = summed x ds.dropLast →
            Scalar.isFinite (summed x ds) = true → Close (roundedSum x ds) (summed x ds)) := by
  obtain ⟨-, hids, -⟩ := says_of_parseModel hm
  rw [withIds_eq hids]
  have hfollows := (follows_of_parseModel hm hplain).session hm hq
  simp only [List.nil_append] at hfollows
  intro E' hE'
  obtain ⟨E, hE, id, hid, hmoved⟩ := hfollows.moved E' hE'
  refine ⟨E, hE, id, hmoved.kind, hid, hmoved.editorId.trans hid, fun e' he' => ?_⟩
  rw [hmoved.lines] at he'
  obtain ⟨e, he, rfl⟩ := List.mem_map.mp he'
  obtain ⟨t, ht, hwritten⟩ := hmoved.texts e he
  refine ⟨e, he, t, SourceEntry.statementIndex_moveAll, ht, fun axis p hp => ?_⟩
  obtain ⟨x, hx, hcoordinate⟩ := hwritten.coordinates axis p hp
  refine ⟨x, _, hx, rfl, ?_, hcoordinate, close_roundedSum⟩
  rw [SourceEntry.getElem?_moveAll hp, hx, Option.map_some]

end Session

set_option maxRecDepth 100000 in
/-- A nail row that is moved up once and along twice, by less than what is written, a routing that
is moved up and down again, and a drilling that is named beside them. -/
theorem coordinates_of_session_of_three :
    ∃ (text : String) (m : WallModel Float) (qs : List (EditRequest Float)),
      text = "NR 0,0,0,100;BOY 1,2,3,4;PAF;KB 0,0,5,ccw;PP 10,0;MP 7,7,2" ∧
      parseModel text 1 = .ok m ∧ IsPlain text ∧
      qs = [.translate [⟨"nail_row", 1⟩, ⟨"paf", 3⟩] "y" (some 0.25),
        .translate [⟨"nail_row", 1⟩, ⟨"boy", 2⟩, ⟨"nail_row", 1⟩] "x" (some 0.0004),
        .translate [⟨"paf", 3⟩] "y" (some (-4.5))] ∧
      (∀ q ∈ qs, q.translates = true) ∧
      (m.withIds.session qs).live = ["NR 0,0.25,0,100.25", "BOY 1,2,3,4", "PAF", "KB 0,-4.25,5,ccw",
        "PP 10,-4.25", "MP 7,2.75,2"] ∧
      ∀ E' ∈ (m.withIds.session qs).entities, ∃ E ∈ m.entities, ∃ id, E'.kind = E.kind ∧
        E.editorId = some id ∧ E'.editorId = some id ∧
        ∀ e' ∈ E'.lines, ∃ e ∈ E.lines, ∃ t, e'.statementIndex = e.statementIndex ∧
          (m.withIds.session qs).statements[e.statementIndex]? = some (some t) ∧
          ∀ axis, ∀ p ∈ E.kind.positions axis, ∃ x ds, e.numbers[p]? = some x ∧
            ds = distancesAlong axis (qs.flatMap (·.moves E.kind id)) ∧
            e'.numbers[p]? = some (summed x ds) ∧ coordinate? t p = some (roundedSum x ds) ∧
            (roundedSum x ds.dropLast = summed x ds.dropLast →
              Scalar.isFinite (summed x ds) = true → Close (roundedSum x ds) (summed x ds)) := by
  have heval : (do
      let m ← (parseModel (α := Float) "NR 0,0,0,100;BOY 1,2,3,4;PAF;KB 0,0,5,ccw;PP 10,0;MP 7,7,2"
        1).toOption
      if (m.withIds.session [.translate [⟨"nail_row", 1⟩, ⟨"paf", 3⟩] "y" (some 0.25),
        .translate [⟨"nail_row", 1⟩, ⟨"boy", 2⟩, ⟨"nail_row", 1⟩] "x" (some 0.0004),
        .translate [⟨"paf", 3⟩] "y" (some (-4.5))]).live = ["NR 0,0.25,0,100.25", "BOY 1,2,3,4",
        "PAF", "KB 0,-4.25,5,ccw", "PP 10,-4.25", "MP 7,2.75,2"]
      then some m else none).isSome = true := by
    decide +kernel
  obtain ⟨m, h⟩ := Option.isSome_iff_exists.mp heval
  simp only [Option.bind_eq_bind, Option.bind_eq_some_iff, Option.ite_none_right_eq_some] at h
  obtain ⟨m, hm, hlive, ⟨⟩⟩ := h
  have hm := eq_ok_of_toOption hm
  have hplain : IsPlain "NR 0,0,0,100;BOY 1,2,3,4;PAF;KB 0,0,5,ccw;PP 10,0;MP 7,7,2" := by
    unfold IsPlain
    decide +kernel
  have hq : ∀ q ∈ [EditRequest.translate [⟨"nail_row", 1⟩, ⟨"paf", 3⟩] "y" (some (0.25 : Float)),
      .translate [⟨"nail_row", 1⟩, ⟨"boy", 2⟩, ⟨"nail_row", 1⟩] "x" (some 0.0004),
      .translate [⟨"paf", 3⟩] "y" (some (-4.5))], q.translates = true := by
    simp [EditRequest.translates]
  exact ⟨_, m, _, rfl, hm, hplain, rfl, hq, hlive, coordinates_of_session hm hplain hq⟩

set_option maxRecDepth 100000 in
/-- A nail row that is moved twice by less than what is written: its text stays as it was, and its
ends are more than half a thousandth from there. -/
theorem text_of_twice_moved_nailRow :
    ∃ (m : WallModel Float) (r : NailRow Float) (x : Float),
      parseModel "NR 0,0,0,100" 1 = .ok m ∧ IsPlain "NR 0,0,0,100" ∧
      (m.withIds.session [.translate [⟨"nail_row", 1⟩] "x" (some 0.0004),
        .translate [⟨"nail_row", 1⟩] "x" (some 0.0004)]).statements = [some "NR 0,0,0,100"] ∧
      (m.withIds.session [.translate [⟨"nail_row", 1⟩] "x" (some 0.0004),
        .translate [⟨"nail_row", 1⟩] "x" (some 0.0004)]).nailRows.head? = some r ∧
      r.statementIndex = 0 ∧ r.source[0]? = some x ∧
      (coordinate? (α := Float) "NR 0,0,0,100" 0).map Binary64.worth = some 0 ∧
      1 / 2000 < Binary64.worth x := by
  have heval : (do
      let m ← (parseModel (α := Float) "NR 0,0,0,100" 1).toOption
      let m' := m.withIds.session [.translate [⟨"nail_row", 1⟩] "x" (some 0.0004),
        .translate [⟨"nail_row", 1⟩] "x" (some 0.0004)]
      let r ← m'.nailRows.head?
      let x ← r.source[0]?
      if m'.statements = [some "NR 0,0,0,100"] ∧ r.statementIndex = 0 ∧
        1 / 2000 < Binary64.worth x
      then some x else none).isSome = true := by
    decide +kernel
  obtain ⟨x, h⟩ := Option.isSome_iff_exists.mp heval
  simp only [Option.bind_eq_bind, Option.bind_eq_some_iff, Option.ite_none_right_eq_some] at h
  obtain ⟨m, hm, r, hr, x, hx, ⟨hstatements, hindex, hdrift⟩, ⟨⟩⟩ := h
  have hplain : IsPlain "NR 0,0,0,100" := by
    unfold IsPlain
    decide +kernel
  have hzero : (coordinate? (α := Float) "NR 0,0,0,100" 0).map Binary64.worth = some 0 := by
    decide +kernel
  exact ⟨m, r, x, eq_ok_of_toOption hm, hplain, hstatements, hr, hindex, hx, hzero, hdrift⟩

end WallModel

end WallPanel
