import WallPanel.Proofs.Editing.InPlace

/-!
# The text that is saved

The text of a document is written from the statements that are left. In every model that an editor
holds these are statements as they stand in a document (`WallModel.Spelled`), so the text has
exactly these statements again, in order, and no deleted one (`WallModel.saved_of_session`). With no
statement left the text is the source text, and that has all of them.

* `IsStatement.joinCommand`, `IsStatement.shiftStatement`: what an edit writes is a statement.
* `WallModel.spelled_of_parseModel`, `WallModel.Step.spelled`: a reading establishes the invariant,
  and every step keeps it.
* `WallModel.source_of_parseModel`: a model that is read keeps its text.
-/

namespace WallPanel

variable {α : Type}

/-! ## Statements as an edit writes them -/

theorem Separated.of_mem_join {sep c : Char} {pieces : List (List Char)}
    (h : c ∈ join sep pieces) : c = sep ∨ ∃ p ∈ pieces, c ∈ p := by
  induction pieces with
  | nil => cases h
  | cons p pieces ih =>
    cases pieces with
    | nil => exact .inr ⟨p, List.mem_cons_self, h⟩
    | cons q pieces =>
      rw [join, List.mem_append, List.mem_cons] at h
      rcases h with h | rfl | h
      · exact .inr ⟨p, List.mem_cons_self, h⟩
      · exact .inl rfl
      · obtain rfl | ⟨p', hp', hc⟩ := ih h
        · exact .inl rfl
        · exact .inr ⟨p', List.mem_cons_of_mem _ hp', hc⟩

/-- The command word of a statement is a statement. -/
theorem IsStatement.word {text : String} (h : IsStatement text) :
    IsStatement (splitCommand text).1 := by
  simp only [splitCommand]
  split
  · exact h
  · next body hd =>
    have hsub : (Blank.trim (text.toList.takeWhile (· ≠ ' '))).Sublist text.toList :=
      (Blank.trim_sublist _).trans (List.takeWhile_sublist _)
    refine ⟨?_, by simpa using Blank.trim_trim _, fun hc => h.unended ?_⟩
    · obtain ⟨c, cs, hcs⟩ := List.exists_cons_of_ne_nil h.nonempty
      -- a trimmed text begins with no blank, so with no space
      have hblank : Blank.isBlank c = false :=
        (Blank.trim_eq_self_iff.mp h.trimmed).1 c (by simp [hcs])
      have hspace : c ≠ ' ' := by
        rintro rfl
        exact absurd hblank (by decide)
      rw [hcs, List.takeWhile_cons_of_pos (by simpa using hspace), String.toList_ofList]
      exact fun he => absurd (Blank.trim_eq_nil_iff.mp he c List.mem_cons_self) (by simp [hblank])
    · exact hsub.subset (by simpa using hc)

/-- A command word and tokens make a statement. -/
theorem IsStatement.joinCommand {word : String} {ts : List String} (hw : IsStatement word)
    (hne : ts ≠ []) (h : ∀ t ∈ ts, IsToken t) : IsStatement (joinCommand word ts) := by
  have hlist : (WallPanel.joinCommand word ts).toList =
      word.toList ++ ' ' :: Separated.join ',' (ts.map String.toList) := by
    simp [WallPanel.joinCommand, joinTokens]
  have hpieces : ∀ p ∈ ts.map String.toList, p ≠ [] ∧ Blank.trim p = p := fun p hp => by
    obtain ⟨t, ht, rfl⟩ := List.mem_map.mp hp
    exact ⟨(h t ht).nonempty, (h t ht).trimmed⟩
  obtain ⟨hbody, htrim⟩ := @Separated.trim_join ',' _ (by simpa using hne) hpieces
  refine ⟨by simp [hlist], ?_, fun hc => ?_⟩
  · rw [hlist]
    exact Blank.trim_append_cons hw.nonempty hbody hw.trimmed htrim ' '
  · rw [hlist, List.mem_append, List.mem_cons] at hc
    rcases hc with hc | hc | hc
    · exact hw.unended hc
    · exact absurd hc (by decide)
    · rcases Separated.of_mem_join hc with hc | ⟨p, hp, hc⟩
      · exact absurd hc (by decide)
      · obtain ⟨t, ht, rfl⟩ := List.mem_map.mp hp
        exact (h t ht).unended hc

section Written

variable [Scalar α] {positions : List Nat} {d : α}

/-- The tokens of a statement of which numbers are moved can be written. -/
theorem IsStatement.isToken_of_shiftTokens? {text : String} {ts : List String}
    (ht : IsStatement text) (hp : positions ≠ [])
    (h : shiftTokens? (tokens (splitCommand text).2) positions d = some ts) :
    ts ≠ [] ∧ ∀ t ∈ ts, IsToken t := by
  refine ⟨?_, isToken_of_mem_shiftTokens? (isWord_splitCommand ht).2 h⟩
  rintro rfl
  obtain ⟨p, hp⟩ := List.exists_mem_of_ne_nil positions hp
  obtain ⟨t, hget, -⟩ := isNumeralAt_of_shiftTokens? h p hp
  rw [List.length_eq_zero_iff.mp (length_shiftTokens? h).symm] at hget
  cases hget

/-- A statement of which numbers are moved is a statement. -/
theorem IsStatement.shiftStatement {text new : String} (ht : IsStatement text)
    (hp : positions ≠ []) (h : shiftStatement text positions d = some new) : IsStatement new := by
  obtain ⟨-, ts, hts, rfl⟩ := shiftStatement_eq_some_iff.mp h
  obtain ⟨hne, htokens⟩ := ht.isToken_of_shiftTokens? hp hts
  exact ht.word.joinCommand hne htokens

/-- A line that can be written as a statement. -/
structure SourceEntry.Spelled (e : SourceEntry α) : Prop where
  command : ∃ kind, (e.command, kind) ∈ lineCommands
  numbers : e.numbers ≠ []
  flag : ∀ f, e.flag = some f → IsToken f

namespace SourceEntry

variable {e : SourceEntry α}

theorem Spelled.shift (h : e.Spelled) : (e.shift positions d).Spelled where
  command := h.command
  numbers he := by
    have hlen : (e.shift positions d).numbers.length = e.numbers.length := length_shift
    rw [he, List.length_nil] at hlen
    exact h.numbers (List.length_eq_zero_iff.mp hlen.symm)
  flag := h.flag

/-- A line that is written anew is a statement. -/
theorem Spelled.isStatement (h : e.Spelled) : IsStatement e.statement := by
  have hwords : ∀ p ∈ lineCommands, IsStatement p.1 := by
    intro p hp
    simp only [lineCommands, List.mem_cons, List.not_mem_nil, or_false] at hp
    rcases hp with rfl | rfl | rfl | rfl | rfl <;> exact ⟨by decide, by decide, by decide⟩
  obtain ⟨kind, hk⟩ := h.command
  have hw : IsStatement e.command := hwords _ hk
  have hne : e.numbers.map formatNumber ≠ [] := by simpa using h.numbers
  have hparts : IsStatement (joinCommand e.command (e.numbers.map formatNumber)) :=
    hw.joinCommand hne (isToken_map_formatNumber _)
  unfold statement
  split
  · unfold writeCurve
    cases hf : e.flag with
    | none => exact hparts
    | some f =>
      dsimp only
      split
      · exact hparts
      · refine hw.joinCommand (by simp) fun t ht => ?_
        rcases List.mem_append.mp ht with ht | ht
        · exact isToken_map_formatNumber _ t (List.mem_of_mem_take ht)
        · rcases List.mem_cons.mp ht with rfl | ht
          · exact h.flag t hf
          · exact isToken_map_formatNumber _ t (List.mem_of_mem_drop ht)
  · rw [writeStatement, if_neg (by simpa using h.numbers)]
    exact hparts

/-- The text of a line after a move is a statement. -/
theorem Spelled.movedText (h : e.Spelled) (hp : positions ≠ [])
    {statements : List (Option String)} (hs : ∀ t, some t ∈ statements → IsStatement t) :
    IsStatement (e.movedText statements positions d) := by
  rw [SourceEntry.movedText, movedStatement]
  cases ht : (statements[e.statementIndex]?).join with
  | none => exact h.shift.isStatement
  | some t =>
    rw [Option.bind_some]
    cases hnew : WallPanel.shiftStatement t positions d with
    | none => exact h.shift.isStatement
    | some new =>
      have hmem : some t ∈ statements := List.mem_of_getElem? (Option.join_eq_some_iff.mp ht)
      exact (hs t hmem).shiftStatement hp hnew

end SourceEntry

end Written

/-- The body of a statement stands in its text. -/
theorem Statement.body_read [Scalar α] {i : Nat} {text : String} {s : Statement α}
    (h : Statement.read i text = .ok s) : s.body = (splitCommand text).2 := by
  obtain ⟨c, -, rfl⟩ := read_eq_ok_iff.mp h
  rfl

/-- What stands among statements that have been replaced stood there before, or is one that was put
there. -/
theorem of_mem_setStatements {changes : List (Nat × String)} {statements : List (Option String)}
    {t : String} (h : some t ∈ setStatements statements changes) :
    some t ∈ statements ∨ ∃ c ∈ changes, c.2 = t := by
  induction changes generalizing statements with
  | nil => exact .inl h
  | cons c changes ih =>
    rcases ih h with h | ⟨c', hc', ht⟩
    · rcases List.mem_or_eq_of_mem_set h with h | h
      · exact .inl h
      · exact .inr ⟨c, List.mem_cons_self, (Option.some.inj h).symm⟩
    · exact .inr ⟨c', List.mem_cons_of_mem _ hc', ht⟩

/-! ## The statements of a model -/

namespace WallModel

/-- The statements that are left in a document. -/
def live (m : WallModel α) : List String := m.statements.filterMap id

variable [Scalar α] {m m' : WallModel α} {E E' : Entity α} {axis : Axis} {d : α}

/-- The statements of a model are such as stand in a document, and its lines can be written so. -/
structure Spelled (m : WallModel α) : Prop where
  statements : ∀ t, some t ∈ m.statements → IsStatement t
  lines : ∀ E ∈ m.entities, ∀ e ∈ E.lines, e.Spelled

theorem spelled_of_parseModel {text : String} {k : Int} (hm : parseModel text k = .ok m) :
    m.Spelled := by
  obtain ⟨-, -, hst⟩ := says_of_parseModel hm
  refine ⟨fun t ht => ?_, fun E hE e he => ?_⟩
  · rw [hst] at ht
    obtain ⟨t', ht', he⟩ := List.mem_map.mp ht
    cases he
    exact isStatement_of_mem ht'
  · obtain ⟨-, -, hcommand⟩ := ((ownership_of_parseModel hm).owns E hE).lines e he
    obtain ⟨s, t, rfl, hline, -, ht, hread⟩ := exists_line hm hE he
    refine ⟨hcommand.imp fun _ h => h.1, hline.numbers_ne_nil, fun f hf => ?_⟩
    obtain ⟨-, hf⟩ := Option.ite_none_right_eq_some.mp hf
    rw [Statement.body_read hread] at hf
    exact isToken_of_mem (isWord_splitCommand ht).2 (List.mem_of_getElem? hf)

theorem Moved.spelled (h : m.Moved E axis d m' E') (hm : m.Spelled) : m'.Spelled := by
  have hlines : ∀ e ∈ E.lines, e.Spelled := hm.lines E h.mem
  refine ⟨fun t ht => ?_, fun F hF e he => ?_⟩
  · rw [h.statements] at ht
    rcases of_mem_setStatements ht with ht | ⟨c, hc, rfl⟩
    · exact hm.statements t ht
    · obtain ⟨e, he, rfl⟩ := List.mem_map.mp hc
      exact (hlines e he).movedText (by cases E <;> simp [EntityKind.positions, Entity.kind])
        hm.statements
  · rcases h.eq_or_mem hF with rfl | hF'
    · rw [h.moves.lines] at he
      obtain ⟨e₀, he₀, rfl⟩ := List.mem_map.mp he
      exact (hlines e₀ he₀).shift
    · exact hm.lines F hF' e he

omit [Scalar α] in
theorem Erased.spelled (h : m.Erased E m') (hm : m.Spelled) : m'.Spelled := by
  refine ⟨fun t ht => hm.statements t ?_, fun F hF => hm.lines F (h.sublist.subset hF)⟩
  obtain ⟨i, ht⟩ := List.mem_iff_getElem?.mp ht
  rw [h.statements i, Option.map_eq_some_iff] at ht
  obtain ⟨t', ht', he⟩ := ht
  split at he
  · cases he
  · exact List.mem_of_getElem? (he ▸ ht')

theorem Step.spelled (h : m.Step m') (hm : m.Spelled) : m'.Spelled := by
  cases h with
  | move found moved =>
    obtain ⟨E', h⟩ := exists_moved found moved
    exact h.spelled hm
  | erase found => exact (erased_of_resolve found).spelled hm
  | rebound => exact ⟨hm.statements, hm.lines⟩
  | reread read => exact spelled_of_parseModel read

omit [Scalar α] in
theorem Spelled.survivingStatements_eq (h : m.Spelled) :
    survivingStatements m.statements = m.live.map (· ++ ";") := by
  rw [survivingStatements, live, List.map_filterMap]
  refine List.filterMap_congr fun t ht => ?_
  cases t with
  | none => rfl
  | some t => exact (h.statements t ht).closeStatement

omit [Scalar α] in
/-- With a statement left, whatever the source text is, the text of a document is that of the
statements that are left. -/
theorem Spelled.serialize_eq (h : m.Spelled) (hne : m.live ≠ []) (source : Option String) :
    serialize m.statements source = some (joinLines (m.live.map (· ++ ";"))) := by
  obtain ⟨t, ts, hts⟩ := List.exists_cons_of_ne_nil hne
  simp [serialize, h.survivingStatements_eq, hts]

omit [Scalar α] in
/-- With a statement left, the text of a document has the statements that are left, and it is what
is saved. With none left, both are the source text. -/
theorem Spelled.text_eq (h : m.Spelled) :
    (m.live ≠ [] → ∃ t, m.text = some t ∧ m.payload = t ∧ splitStatements t = m.live) ∧
      (m.live = [] → m.text = m.source.filter (!·.isEmpty) ∧ m.payload = m.source.getD "") := by
  refine ⟨fun hne => ⟨_, h.serialize_eq hne _, ?_, ?_⟩, fun he => ⟨?_, ?_⟩⟩
  · obtain ⟨t, ts, hts⟩ := List.exists_cons_of_ne_nil hne
    simp [payload, savedText, h.survivingStatements_eq, hts]
  · rw [← h.survivingStatements_eq, splitStatements_joinLines]
    exact flatMap_splitStatements (by simpa using h.statements)
  · simp [text, serialize, h.survivingStatements_eq, he]
  · simp [payload, savedText, h.survivingStatements_eq, he]

end WallModel

/-! ## The source text -/

theorem Builder.closeRouting_source (b : Builder α) :
    b.closeRouting.model.source = b.model.source := by
  rw [b.closeRouting_model]

theorem Builder.source_invariant [Scalar α] (source : Option String) :
    Invariant fun b : Builder α => b.model.source = source where
  panel _ h := h
  endPath b b' h he := by
    obtain ⟨-, rfl⟩ | ⟨run, -, ⟨_, _, -, -, rfl⟩ | ⟨-, rfl⟩⟩ := endPath_cases he <;> exact h
  place b b' r h hp := by
    cases r with
    | header => cases hp; exact b.closeRouting_source.trans h
    | foreign => cases hp; exact b.closeRouting_source.trans h
    | circle _ c => obtain ⟨_, rfl, rfl⟩ := Builder.exists_of_place_circle hp; exact h
    | member m => cases hp; cases hk : m.kind <;> simp only [pushMember, extend, hk] <;> exact h
    | _ => cases hp; exact h
  closeRouting b h := b.closeRouting_source.trans h

namespace WallModel

variable [Scalar α] {m : WallModel α} {text : String} {k : Int}

/-- A model that is read keeps its text, which is not empty. -/
theorem source_of_parseModel (hm : parseModel text k = .ok m) :
    m.source = some text ∧ text.isEmpty = false := by
  obtain ⟨b, hb, rfl⟩ := buildAll_of_parseModel hm
  refine ⟨(Builder.source_invariant (some text)).buildAll rfl hb, ?_⟩
  cases he : text.isEmpty with
  | false => rfl
  | true =>
    obtain rfl := String.isEmpty_iff.mp he
    cases hm

/-! ## Sessions -/

/-- Whatever an editor is asked, while a statement is left the text of its document, and what is
saved of it, has exactly the statements that are left, in order. Once moves and deletions have left
none, both are the text that was read, and that has every statement. -/
theorem saved_of_session (hm : parseModel text k = .ok m) (qs : List (EditRequest α)) :
    ((m.withIds.session qs).live ≠ [] → ∃ t, (m.withIds.session qs).text = some t ∧
        (m.withIds.session qs).payload = t ∧ splitStatements t = (m.withIds.session qs).live) ∧
      ((m.withIds.session qs).live = [] → (∀ q ∈ qs, q.rereads = false) →
        (m.withIds.session qs).text = some text ∧ (m.withIds.session qs).payload = text ∧
        (splitStatements text).map some = m.statements) := by
  obtain ⟨-, hids, hst⟩ := says_of_parseModel hm
  obtain ⟨hsource, hempty⟩ := source_of_parseModel hm
  rw [withIds_eq hids]
  have hspelled : (m.session qs).Spelled :=
    session_induction (fun _ _ hm hs => hs.spelled hm) (spelled_of_parseModel hm) qs
  obtain ⟨hleft, hnone⟩ := hspelled.text_eq
  refine ⟨hleft, fun he hq => ?_⟩
  obtain ⟨htext, hpayload⟩ := hnone he
  rw [(keepsRest_session hq).source, hsource] at htext hpayload
  exact ⟨by rw [htext]; simp [hempty], hpayload, hst.symm⟩

set_option maxRecDepth 100000 in
/-- A nail row is moved and a drilling deleted: the statement of the nail row is left. -/
theorem saved_of_session_of_two :
    ∃ (text : String) (m : WallModel Float) (qs : List (EditRequest Float)),
      text = "BOY 1,2,3,4;NR 0,0,9,9" ∧ parseModel text 1 = .ok m ∧
      qs = [.translate [⟨"nail_row", 2⟩] "x" (some 1.0), .delete [⟨"boy", 1⟩]] ∧
      (m.withIds.session qs).live = ["NR 1,0,10,9"] ∧
      ((m.withIds.session qs).live ≠ [] → ∃ t, (m.withIds.session qs).text = some t ∧
          (m.withIds.session qs).payload = t ∧ splitStatements t = (m.withIds.session qs).live) ∧
        ((m.withIds.session qs).live = [] → (∀ q ∈ qs, q.rereads = false) →
          (m.withIds.session qs).text = some text ∧ (m.withIds.session qs).payload = text ∧
          (splitStatements text).map some = m.statements) := by
  have heval : (do
      let m ← (parseModel (α := Float) "BOY 1,2,3,4;NR 0,0,9,9" 1).toOption
      let m' := m.withIds.session
        [.translate [⟨"nail_row", 2⟩] "x" (some 1.0), .delete [⟨"boy", 1⟩]]
      if m'.live = ["NR 1,0,10,9"]
      then some m else none).isSome = true := by
    decide +kernel
  obtain ⟨m, h⟩ := Option.isSome_iff_exists.mp heval
  simp only [Option.bind_eq_bind, Option.bind_eq_some_iff, Option.ite_none_right_eq_some] at h
  obtain ⟨m, hm, hlive, ⟨⟩⟩ := h
  have hm := eq_ok_of_toOption hm
  exact ⟨_, m, _, rfl, hm, rfl, hlive, saved_of_session hm _⟩

set_option maxRecDepth 100000 in
/-- The only statement of a document is deleted, and the text of the document has it still. -/
theorem text_of_deleted_nailRow :
    ∃ m m' : WallModel Float, parseModel "NR 0,0,0,100" 1 = .ok m ∧
      m' = m.withIds.session [.delete [⟨"nail_row", 1⟩]] ∧ m'.nailRows = [] ∧ m'.live = [] ∧
      m'.text = some "NR 0,0,0,100" ∧ m'.payload = "NR 0,0,0,100" ∧
      splitStatements "NR 0,0,0,100" = ["NR 0,0,0,100"] := by
  have heval : (do
      let m ← (parseModel (α := Float) "NR 0,0,0,100" 1).toOption
      let m' := m.withIds.session [.delete [⟨"nail_row", 1⟩]]
      if m'.nailRows.length = 0 ∧ m'.live = [] ∧ m'.text = some "NR 0,0,0,100" ∧
        m'.payload = "NR 0,0,0,100"
      then some m else none).isSome = true := by
    decide +kernel
  obtain ⟨m, h⟩ := Option.isSome_iff_exists.mp heval
  simp only [Option.bind_eq_bind, Option.bind_eq_some_iff, Option.ite_none_right_eq_some,
    List.length_eq_zero_iff] at h
  obtain ⟨m, hm, ⟨hrows, hlive, htext, hpayload⟩, ⟨⟩⟩ := h
  exact ⟨m, _, eq_ok_of_toOption hm, rfl, hrows, hlive, htext, hpayload, by decide +kernel⟩

end WallModel

end WallPanel
