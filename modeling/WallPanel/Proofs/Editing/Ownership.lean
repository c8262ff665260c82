import Mathlib.Data.List.Flatten
import WallPanel.Proofs.Attribution.Accounting
import WallPanel.Proofs.Editing.Identity

/-!
# The statements of an entity in a session

In every model that an editor holds an entity owns the statements that it was read from: they are
there, their commands are those of its records (`WallModel.Owns`), and no other entity, no member and
no panel has any of them (`WallModel.Apart`). A move writes lines but keeps their command words, a
deletion takes the statements of one entity only, and a reading gives every statement out once. So an
edit never finds a statement gone.

* `Statement.wordAt`, `WallModel.kindAt`: the command at a position.
* `word_shiftStatement`, `SourceEntry.word_statement`: the words of moved lines.
* `WallModel.ownership_of_parseModel`, `WallModel.Step.ownership`: a reading establishes the
  invariant, and every step keeps it.
* `WallModel.ownership_of_session`: it holds in every model that an editor holds.
-/

namespace WallPanel

open Reading

variable {α : Type}

/-! ## Command words -/

/-- The command word of the statement at a position, if it is there. -/
def wordAt (statements : List (Option String)) (i : Nat) : Option String :=
  (statements[i]?.join).map fun text => (splitCommand text).1

/-- What the statement at a position does. -/
def WallModel.kindAt (m : WallModel α) (i : Nat) : Option CommandKind :=
  (wordAt m.statements i).bind fun word => (Command.ofWord word).toOption.map (·.kind)

theorem isLive_iff {m : WallModel α} {i : Nat} [Scalar α] :
    m.isLive i = true ↔ ∃ word, wordAt m.statements i = some word := by
  simp [WallModel.isLive, wordAt, Option.isSome_iff_exists]

/-- Whatever follows it, a word is the command. -/
theorem word_joinCommand {word : String} {ts : List String} (hw : IsWord word) :
    (splitCommand (joinCommand word ts)).1 = word := by
  rw [splitCommand_joinCommand_eq hw.unspaced, hw.trimmed, String.ofList_toList]

variable [Scalar α] {d : α} {positions : List Nat}

/-- A line that is written anew has its command word. -/
theorem SourceEntry.word_statement {e : SourceEntry α} (hw : IsWord e.command) :
    (splitCommand e.statement).1 = e.command := by
  unfold SourceEntry.statement
  split
  · unfold writeCurve
    cases e.flag with
    | none => exact word_joinCommand hw
    | some f => dsimp only; split <;> exact word_joinCommand hw
  · unfold writeStatement
    split
    · exact congrArg Prod.fst (splitCommand_of_unspaced hw.unspaced)
    · exact word_joinCommand hw

/-- A statement of which a number is moved keeps its command word. -/
theorem word_shiftStatement {text new : String} (hp : positions ≠ [])
    (h : shiftStatement text positions d = some new) :
    (splitCommand new).1 = (splitCommand text).1 := by
  obtain ⟨-, ts, hts, rfl⟩ := shiftStatement_eq_some_iff.mp h
  by_cases hs : ' ' ∈ text.toList
  · exact word_joinCommand (splitCommand_of_spaced hs).1
  · obtain ⟨p, hp⟩ := List.exists_mem_of_ne_nil positions hp
    rw [splitCommand_of_unspaced hs] at hts
    exact absurd (isNumeralAt_of_shiftTokens? hts p hp) not_isNumeralAt_empty

omit [Scalar α] in
/-- Texts that have the command words of those they replace leave all words as they are. -/
theorem wordAt_setStatements {changes : List (Nat × String)} {statements : List (Option String)}
    (h : ∀ c ∈ changes, wordAt statements c.1 = some (splitCommand c.2).1) (i : Nat) :
    wordAt (setStatements statements changes) i = wordAt statements i := by
  induction changes generalizing statements with
  | nil => rfl
  | cons c changes ih =>
    have hc := h c List.mem_cons_self
    have hset (j : Nat) : wordAt (statements.set c.1 (some c.2)) j = wordAt statements j := by
      by_cases hj : c.1 = j
      · subst hj
        have hlt : c.1 < statements.length := by
          by_contra hle
          simp [wordAt, List.getElem?_eq_none (Nat.le_of_not_lt hle)] at hc
        rw [hc]
        simp [wordAt, hlt]
      · simp [wordAt, List.getElem?_set_ne hj]
    exact (ih fun c' hc' => (hset _).trans (h c' (List.mem_cons_of_mem _ hc'))).trans (hset i)

/-- A line that is moved keeps its command word. -/
theorem SourceEntry.word_movedText {e : SourceEntry α} {statements : List (Option String)}
    (hp : positions ≠ []) (hw : IsWord e.command)
    (h : wordAt statements e.statementIndex = some e.command) :
    (splitCommand (e.movedText statements positions d)).1 = e.command := by
  obtain ⟨text, htext, hword⟩ := Option.map_eq_some_iff.mp h
  rw [movedText, movedStatement, htext, Option.bind_some]
  cases hs : shiftStatement text positions d with
  | none => exact word_statement (e := e.shift positions d) hw
  | some new => exact (word_shiftStatement hp hs).trans hword

/-- The command of a statement is that of the word in its text. -/
theorem Statement.word_read {i : Nat} {text : String} {s : Statement α}
    (h : Statement.read i text = .ok s) : (splitCommand text).1 = s.command.word := by
  obtain ⟨c, hc, rfl⟩ := read_eq_ok_iff.mp h
  exact (Command.word_ofWord hc).symm

/-! ## The statements of a routing -/

theorem head?_of_sorted {l : List Nat} {j : Nat} (hl : l.Pairwise (· < ·)) (hj : j ∈ l)
    (hle : ∀ i ∈ l, j ≤ i) : l.head? = some j := by
  cases l with
  | nil => cases hj
  | cons i l =>
    rcases List.mem_cons.mp hj with rfl | hj
    · rfl
    · exact absurd ((List.pairwise_cons.mp hl).1 j hj) (Nat.not_lt_of_le (hle i List.mem_cons_self))

namespace Attribution

omit [Scalar α] in
/-- After its header a routing has circles and vertices. -/
theorem parts_of_members {ss : List (Statement α)} {t : Statement α} (hn : Numbered ss)
    (ht : t ∈ ss) :
    (members ss t.index).Pairwise (· < ·) ∧ (members ss t.index).head? = some t.index ∧
      ∀ i ∈ (members ss t.index).tail, ∃ s ∈ ss, s.index = i ∧
        s.command.kind ∈ [CommandKind.circle, .point, .curve] := by
  have hsorted : (members ss t.index).Pairwise (· < ·) :=
    hn.sorted.sublist (List.filter_sublist.map _)
  have hmem {i : Nat} (hi : i ∈ members ss t.index) : i = t.index ∨ t.index < i ∧
      ∃ s ∈ ss, s.index = i ∧ s.command.kind ∈ [CommandKind.circle, .point, .curve] := by
    obtain ⟨s, hs, rfl⟩ := List.mem_map.mp hi
    obtain ⟨hs, hof⟩ := List.mem_filter.mp hs
    rcases of_decide_eq_true hof with hi | hcircle | hvertex
    · exact .inl hi
    · exact .inr ⟨hcircle.2.2.1, s, hs, rfl, by simp [hcircle.1]⟩
    · have hpart : s.command.kind = .point ∨ s.command.kind = .curve := by
        simpa [Statement.isPathPart] using isPathPart_of_isVertexLike hvertex.1
      exact .inr ⟨hvertex.2.1.1, s, hs, rfl, by simp [hpart]⟩
  have hhead : (members ss t.index).head? = some t.index :=
    head?_of_sorted hsorted (List.mem_map.mpr ⟨t, List.mem_filter.mpr ⟨ht, by simp⟩, rfl⟩)
      fun i hi => by
        rcases hmem hi with rfl | ⟨hlt, -⟩
        · exact Nat.le_refl _
        · exact Nat.le_of_lt hlt
  refine ⟨hsorted, hhead, fun i hi => ?_⟩
  obtain ⟨rest, hrest⟩ := List.head?_eq_some_iff.mp hhead
  have hne : i ≠ t.index := by
    rw [hrest] at hsorted hi
    exact Nat.ne_of_gt ((List.pairwise_cons.mp hsorted).1 i hi)
  exact ((hmem (List.mem_of_mem_tail hi)).resolve_left hne).2

end Attribution

/-! ## What an entity owns -/

/-- The command of the first statement of an entity. -/
def EntityKind.command : EntityKind → CommandKind
  | nailRow => .nailRow
  | drilling => .drilling
  | routing => .routing

/-- The commands that entities have lines of. -/
def lineCommands : List (String × CommandKind) :=
  [(NailRow.word, .nailRow), (Drilling.word, .drilling), ("MP", .circle), ("PP", .point),
    ("KB", .curve)]

namespace WallModel

/-- The statements of an entity are there and are those of its records. -/
structure Owns (m : WallModel α) (E : Entity α) : Prop where
  head : E.statementIndices.head? = some E.statementIndex
  sorted : E.statementIndices.Pairwise (· < ·)
  kind : m.kindAt E.statementIndex = some E.kind.command
  /-- After the header of a routing come circles and vertices. -/
  parts : ∀ i ∈ E.statementIndices.tail,
    ∃ kind ∈ [CommandKind.circle, .point, .curve], m.kindAt i = some kind
  /-- The line of a record is that of one of the statements. -/
  lines : ∀ e ∈ E.lines, e.statementIndex ∈ E.statementIndices ∧
    wordAt m.statements e.statementIndex = some e.command ∧
    ∃ kind, (e.command, kind) ∈ lineCommands ∧ m.kindAt e.statementIndex = some kind

/-- No two of the entities, the members and the panels have a statement. -/
def Apart (m : WallModel α) : Prop :=
  (m.entities.flatMap Entity.statementIndices ++ m.members.map (·.statementIndex) ++
    m.sheathing.map (·.statementIndex)).Nodup

/-- Every entity owns its statements, and it alone. -/
structure Ownership (m : WallModel α) : Prop where
  apart : m.Apart
  owns : ∀ E ∈ m.entities, m.Owns E

variable {m m' : WallModel α} {E E' : Entity α} {ref : EntityRef} {axis : Axis}

omit [Scalar α] in
theorem Owns.congr (h : m.Owns E)
    (hw : ∀ i ∈ E.statementIndices, wordAt m'.statements i = wordAt m.statements i) :
    m'.Owns E := by
  have hkind : ∀ i ∈ E.statementIndices, m'.kindAt i = m.kindAt i := fun i hi => by
    rw [kindAt, hw i hi, kindAt]
  refine ⟨h.head, h.sorted, ?_, fun i hi => ?_, fun e he => ?_⟩
  · rw [hkind _ (List.mem_of_mem_head? h.head)]
    exact h.kind
  · rw [hkind i (List.mem_of_mem_tail hi)]
    exact h.parts i hi
  · obtain ⟨hi, hword, hk⟩ := h.lines e he
    refine ⟨hi, ?_⟩
    rw [hw _ hi, hkind _ hi]
    exact ⟨hword, hk⟩

theorem Owns.isLive (h : m.Owns E) {i : Nat} (hi : i ∈ E.statementIndices) :
    m.isLive i = true := by
  have hlive {kind : CommandKind} (hk : m.kindAt i = some kind) : m.isLive i = true := by
    obtain ⟨word, hword, -⟩ := Option.bind_eq_some_iff.mp hk
    exact isLive_iff.mpr ⟨word, hword⟩
  obtain ⟨rest, hrest⟩ := List.head?_eq_some_iff.mp h.head
  rw [hrest] at hi
  rcases List.mem_cons.mp hi with rfl | hi
  · exact hlive h.kind
  · obtain ⟨kind, -, hk⟩ := h.parts i (by rwa [hrest])
    exact hlive hk

omit [Scalar α] in
theorem Owns.isWord (h : m.Owns E) {e : SourceEntry α} (he : e ∈ E.lines) :
    IsWord e.command := by
  have hwords : ∀ p ∈ lineCommands, IsWord p.1 := by
    intro p hp
    simp only [lineCommands, List.mem_cons, List.not_mem_nil, or_false] at hp
    rcases hp with rfl | rfl | rfl | rfl | rfl <;> exact ⟨by decide, by decide⟩
  obtain ⟨-, -, kind, hk, -⟩ := h.lines e he
  exact hwords _ hk

/-- A moved entity owns what it owned before. -/
theorem Owns.moves (h : m.Owns E) (hE : E.MovesTo axis d E') : m.Owns E' := by
  refine ⟨?_, ?_, ?_, ?_, fun e he => ?_⟩
  · rw [hE.statementIndices, hE.statementIndex]
    exact h.head
  · rw [hE.statementIndices]
    exact h.sorted
  · rw [hE.statementIndex, hE.kind]
    exact h.kind
  · rw [hE.statementIndices]
    exact h.parts
  · rw [hE.lines] at he
    obtain ⟨e₀, he₀, rfl⟩ := List.mem_map.mp he
    rw [hE.statementIndices]
    exact h.lines e₀ he₀

omit [Scalar α] in
/-- No other entity has a statement of an entity. -/
theorem Apart.disjoint {init rest : List (Entity α)} (h : m.Apart)
    (hE : m.entities = init ++ E :: rest) {F : Entity α} (hF : F ∈ init ++ rest) {i : Nat}
    (hi : i ∈ F.statementIndices) : i ∉ E.statementIndices := by
  rw [Apart, List.append_assoc] at h
  have hpairwise := (List.nodup_flatMap.mp (List.nodup_append.mp h).1).2
  rw [hE, List.pairwise_append, List.pairwise_cons] at hpairwise
  obtain ⟨-, ⟨hrest, -⟩, hinit⟩ := hpairwise
  rcases List.mem_append.mp hF with hF | hF
  · exact fun hi' => hinit F hF E List.mem_cons_self hi hi'
  · exact fun hi' => hrest F hF hi' hi

/-! ## Steps -/

theorem Moved.wordAt_eq (h : m.Moved E axis d m' E') (hE : m.Owns E) (i : Nat) :
    wordAt m'.statements i = wordAt m.statements i := by
  rw [h.statements]
  refine wordAt_setStatements (fun c hc => ?_) i
  obtain ⟨e, he, rfl⟩ := List.mem_map.mp hc
  obtain ⟨-, hword, -⟩ := hE.lines e he
  rw [hword, SourceEntry.word_movedText ?_ (hE.isWord he) hword]
  cases E <;> simp [EntityKind.positions, Entity.kind]

theorem Moved.ownership (h : m.Moved E axis d m' E') (hm : m.Ownership) : m'.Ownership := by
  obtain ⟨init, rest, hE, hE'⟩ := h.entities
  have hown : m.Owns E := hm.owns E h.mem
  have hindices : m'.entities.flatMap Entity.statementIndices =
      m.entities.flatMap Entity.statementIndices := by
    simp [hE, hE', h.moves.statementIndices]
  refine ⟨?_, fun F hF => ?_⟩
  · rw [Apart, hindices, members, h.rest.studs, h.rest.blocking, h.rest.plates, h.rest.sheathing]
    exact hm.apart
  · have hwords := h.wordAt_eq hown
    rcases h.eq_or_mem hF with rfl | hF'
    · exact (hown.congr fun i _ => hwords i).moves h.moves
    · exact (hm.owns F hF').congr fun i _ => hwords i

omit [Scalar α] in
theorem Erased.ownership (h : m.Erased E m') (hm : m.Ownership) : m'.Ownership := by
  obtain ⟨init, rest, hE, hE'⟩ := h.entities
  refine ⟨?_, fun F hF => ?_⟩
  · rw [Apart, members, h.rest.studs, h.rest.blocking, h.rest.plates, h.rest.sheathing]
    exact hm.apart.sublist (((h.sublist.flatMap _).append_right _).append_right _)
  · refine (hm.owns F (h.sublist.subset hF)).congr fun i hi => ?_
    rw [wordAt, h.statements i, wordAt]
    simp [hm.apart.disjoint hE (hE' ▸ hF) hi]

/-! ## Reading -/

/-- The command of a statement of a document stands in its text. -/
theorem word_of_mem {ss : List (Statement α)} {texts : List String}
    (hss : Statement.readAll 0 texts = .ok ss) (hst : m.statements = texts.map some)
    {s : Statement α} (hs : s ∈ ss) : Command.ofWord s.command.word = .ok s.command ∧
      wordAt m.statements s.index = some s.command.word ∧ m.kindAt s.index = some s.command.kind := by
  obtain ⟨n, text, hi, hget, hread⟩ := Statement.exists_text hss hs
  have hc := Statement.ofWord_read hread
  have hword : wordAt m.statements s.index = some s.command.word := by
    obtain rfl : s.index = n := hi.trans (Nat.zero_add n)
    simp [wordAt, hst, hget, Statement.word_read hread]
  exact ⟨hc, hword, by simp [kindAt, hword, hc, Except.toOption]⟩

/-- A role that has a line is of one of their commands. -/
theorem mem_lineCommands {c : Context α} {s : Statement α} {r : Role α} (h : c.Plays s r)
    (hc : Command.ofWord s.command.word = .ok s.command) {e : SourceEntry α} (he : e ∈ r.lines) :
    (s.command.word, s.command.kind) ∈ lineCommands := by
  have hword {w : String} {k : CommandKind} (hw : (w, k) ∈ Command.fixedWords)
      (hl : (w, k) ∈ lineCommands) (hk : s.command.kind = k) :
      (s.command.word, s.command.kind) ∈ lineCommands := by
    rw [(Command.kind_ofWord_iff hw hc).mp hk, hk]
    exact hl
  cases h with
  | nailRow kind => exact hword (w := NailRow.word) (by decide) (by decide) kind
  | drilling kind => exact hword (w := Drilling.word) (by decide) (by decide) kind
  | circle kind => exact hword (w := "MP") (by decide) (by decide) kind
  | point kind => exact hword (w := "PP") (by decide) (by decide) kind
  | curve kind => exact hword (w := "KB") (by decide) (by decide) kind
  | _ => cases he

theorem ownership_of_parseModel {text : String} {k : Int} (hm : parseModel text k = .ok m) :
    m.Ownership := by
  obtain ⟨⟨ss, hss, hsaid⟩, -, hst⟩ := says_of_parseModel hm
  have hn : Attribution.Numbered ss := Attribution.numbered_of_readAll hss
  have hsound := Context.sound_read (Statement.sorted_readAll hss)
  refine ⟨Attribution.nodup_owned hn hsaid, fun E hE => ?_⟩
  have hlines : ∀ e ∈ E.lines, e.statementIndex ∈ E.statementIndices ∧
      wordAt m.statements e.statementIndex = some e.command ∧
      ∃ kind, (e.command, kind) ∈ lineCommands ∧ m.kindAt e.statementIndex = some kind := by
    intro e he
    obtain ⟨p, hp, hi, he⟩ := hsaid.exists_role hsound hE he
    obtain ⟨c, hplays⟩ := hsound.plays p hp
    obtain ⟨hc, hword, hkind⟩ := word_of_mem hss hst (Context.statement_mem hp)
    have hmem := mem_lineCommands hplays hc he
    obtain ⟨rfl, -⟩ := hplays.eq_line hc he
    exact ⟨hi, hword, _, hmem, hkind⟩
  obtain ⟨r, hr, rfl⟩ | ⟨d, hd, rfl⟩ | ⟨r, hr, rfl⟩ := entity_cases hE
  · obtain ⟨p, hp, hi, hrole⟩ := hsaid.exists_nailRow hsound hr
    obtain ⟨c, hplays⟩ := hsound.plays p hp
    obtain ⟨-, -, hkind⟩ := word_of_mem hss hst (Context.statement_mem hp)
    rw [hrole] at hplays
    cases hplays with
    | nailRow kind =>
      rw [hi, kind] at hkind
      exact ⟨rfl, List.pairwise_singleton .., hkind, nofun, hlines⟩
  · obtain ⟨p, hp, hi, hrole⟩ := hsaid.exists_drilling hsound hd
    obtain ⟨c, hplays⟩ := hsound.plays p hp
    obtain ⟨-, -, hkind⟩ := word_of_mem hss hst (Context.statement_mem hp)
    rw [hrole] at hplays
    cases hplays with
    | drilling kind =>
      rw [hi, kind] at hkind
      exact ⟨rfl, List.pairwise_singleton .., hkind, nofun, hlines⟩
  · obtain ⟨w, hw, he, -⟩ := hsaid.exists_header hr
    obtain ⟨t, ht, htk, hti⟩ : ∃ t ∈ ss, t.command.kind = .routing ∧ t.index = r.statementIndex := by
      rw [Attribution.headers_read hn] at hw
      obtain ⟨t, ht, hw⟩ := List.mem_filterMap.mp hw
      obtain ⟨hk, ⟨⟩⟩ := Option.ite_none_right_eq_some.mp hw
      exact ⟨t, ht, hk, (congrArg Routing.statementIndex he).symm⟩
    obtain ⟨-, -, hkind⟩ := word_of_mem hss hst ht
    have hindices : r.statementIndices = Attribution.members ss t.index := by
      rw [hsaid.statementIndices_eq hr, ← hti, Attribution.indices_read hn ht htk]
    obtain ⟨hsorted, hhead, hparts⟩ := Attribution.parts_of_members hn ht
    rw [← hindices] at hsorted hhead hparts
    refine ⟨hhead.trans (congrArg some hti), hsorted, ?_, fun i hi => ?_, hlines⟩
    · rw [Entity.statementIndex, ← hti, hkind, htk]
      rfl
    · obtain ⟨s, hs, rfl, hk⟩ := hparts i hi
      exact ⟨_, hk, (word_of_mem hss hst hs).2.2⟩

theorem Step.ownership (h : m.Step m') (hm : m.Ownership) : m'.Ownership := by
  cases h with
  | move found moved =>
    obtain ⟨E', h⟩ := exists_moved found moved
    exact h.ownership hm
  | erase found => exact (erased_of_resolve found).ownership hm
  | rebound => exact ⟨hm.apart, fun E hE => (hm.owns E hE).congr fun _ _ => rfl⟩
  | reread read => exact ownership_of_parseModel read

/-! ## Sessions -/

/-- No statement of an entity is gone. -/
theorem Ownership.not_isGone (h : m.Ownership) {warning : Warning α}
    (hr : m.resolve ref = .error warning) : warning.isGone = false := by
  unfold resolve at hr
  split at hr
  · cases hr; rfl
  · next E hfind =>
    split at hr
    · next i hi =>
      obtain ⟨kind, -, hfind⟩ := Option.bind_eq_some_iff.mp hfind
      obtain ⟨-, -, init, rest, hE, -⟩ := exists_split hfind
      have hlive := (h.owns E (by simp [hE])).isLive (List.mem_of_find?_eq_some hi)
      exact absurd (List.find?_some hi) (by simp [hlive])
    · cases hr

omit [Scalar α] in
theorem Identifies.find? (h : m.Identifies) (hE : E ∈ m.entities) {id : Int}
    (hid : E.editorId = some id) : m.find? E.kind id = some E := by
  have hnodup := h.nodup
  rw [ids_eq, List.nodup_append, List.nodup_append] at hnodup
  obtain ⟨⟨hrows, hdrillings, -⟩, hroutings, -⟩ := hnodup
  exact find?_of_nodup_ids hrows hdrillings hroutings hE hid

/-- Whatever an editor is asked, the entities of its model own their statements, each its own. So
these are there, every entity can be edited, and no edit is declined because a statement is gone. -/
theorem ownership_of_session {text : String} {k : Int} (hm : parseModel text k = .ok m)
    (qs : List (EditRequest α)) :
    (m.withIds.session qs).Ownership ∧
      (∀ E ∈ (m.withIds.session qs).entities,
        (∀ i ∈ E.statementIndices, (m.withIds.session qs).isLive i = true) ∧
        ∃ id, E.editorId = some id ∧
          (m.withIds.session qs).resolve ⟨E.kind.name, id⟩ = .ok E) ∧
      ∀ q e, (m.withIds.session qs).answer q = .ok e →
        ∀ warning ∈ e.warnings, warning.isGone = false := by
  obtain ⟨-, hids, -⟩ := says_of_parseModel hm
  rw [withIds_eq hids]
  have hown : (m.session qs).Ownership :=
    session_induction (fun _ _ hm hs => hs.ownership hm) (ownership_of_parseModel hm) qs
  have hidentifies : (m.session qs).Identifies :=
    session_induction (fun _ _ hm hs => hs.identifies hm) (identifies_of_parseModel hm) qs
  refine ⟨hown, fun E hE => ⟨fun i hi => (hown.owns E hE).isLive hi, ?_⟩, fun q e h => ?_⟩
  · obtain ⟨id, hid, -⟩ := hidentifies.issued E hE
    exact ⟨id, hid, resolve_of_isLive (hidentifies.find? hE hid) fun i => (hown.owns E hE).isLive⟩
  · exact (answers h).not_isGone (fun _ _ hm hs => hs.ownership hm)
      (fun _ hm _ _ hr => hm.not_isGone hr) hown

set_option maxRecDepth 100000 in
/-- A routing with a circle, a path and a point that it discards, moved, beside a nail row that is
deleted. -/
theorem ownership_of_session_of_discarded_point :
    ∃ (text : String) (m : WallModel Float) (qs : List (EditRequest Float)),
      text = "PLI1 9,9,1,0,0,1,A;PAF;PP 7,7;MP 1,2,3;PP 0,0;PP 5,5;NR 0,0,9,9" ∧
      parseModel text 1 = .ok m ∧
      qs = [.translate [⟨"paf", 2⟩] "x" (some 1.0), .delete [⟨"nail_row", 1⟩]] ∧
      (m.withIds.session qs).Ownership ∧
      (∀ E ∈ (m.withIds.session qs).entities,
        (∀ i ∈ E.statementIndices, (m.withIds.session qs).isLive i = true) ∧
        ∃ id, E.editorId = some id ∧
          (m.withIds.session qs).resolve ⟨E.kind.name, id⟩ = .ok E) ∧
      ∀ q e, (m.withIds.session qs).answer q = .ok e →
        ∀ warning ∈ e.warnings, warning.isGone = false := by
  have heval : (parseModel (α := Float)
      "PLI1 9,9,1,0,0,1,A;PAF;PP 7,7;MP 1,2,3;PP 0,0;PP 5,5;NR 0,0,9,9" 1).toOption.isSome = true := by
    decide +kernel
  obtain ⟨m, hm⟩ := Option.isSome_iff_exists.mp heval
  have hm := eq_ok_of_toOption hm
  exact ⟨_, m, _, rfl, hm, rfl, ownership_of_session hm _⟩

end WallModel

end WallPanel
