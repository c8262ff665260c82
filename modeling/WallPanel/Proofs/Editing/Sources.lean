import WallPanel.Proofs.Editing.Entities
import WallPanel.Proofs.Editing.Lines
import WallPanel.Proofs.Reading.Starts

/-!
# The lines of an entity

An entity was read from lines: a nail row and a drilling from one, a routing from one for each of
its circles and vertices. Each of them is the line of a statement of the document
(`WallModel.Says.exists_line`), so the text of the statement says the line
(`Statement.says_line`).
-/

namespace WallPanel

open Reading

variable {α : Type}

/-! ## Lines -/

/-- The lines that a cut was read from. -/
def RoutingSegment.lines : RoutingSegment α → List (SourceEntry α)
  | circle c => [⟨"MP", c.source, c.statementIndex, none⟩]
  | path p => p.source

/-- The lines that an entity was read from. The header of a routing has no place in it. -/
def Entity.lines : Entity α → List (SourceEntry α)
  | nailRow r => [⟨NailRow.word, r.source, r.statementIndex, none⟩]
  | drilling d => [⟨Drilling.word, d.source, d.statementIndex, none⟩]
  | routing r => r.segments.flatMap RoutingSegment.lines

/-- The line of a statement. -/
def Statement.line (s : Statement α) : SourceEntry α :=
  { command := s.command.word, numbers := s.numbers, statementIndex := s.index
    flag := if s.command.kind = .curve then (tokens s.body)[3]? else none }

/-- A statement has the numbers of a line, and the flag of a curve. -/
structure Statement.HasLine (s : Statement α) : Prop where
  needs : 0 < s.command.kind.minNumbers
  numbers : s.command.kind.minNumbers ≤ s.numbers.length
  flag : s.command.kind = .curve → ((tokens s.body)[3]?).isSome = true

/-! ## Command words -/

namespace Command

/-- A word that stands for one command stands for no other, and no other word for it. -/
theorem kind_ofWord_iff {word w : String} {k : CommandKind} {c : Command}
    (hw : (w, k) ∈ fixedWords) (h : ofWord word = .ok c) : c.kind = k ↔ word = w := by
  have hlookup : ∀ p ∈ fixedWords, fixedWords.lookup p.1 = some p.2 := by decide
  have hinj : ∀ p ∈ fixedWords, ∀ q ∈ fixedWords, p.2 = q.2 → p.1 = q.1 := by decide
  have hother : ∀ p ∈ fixedWords, p.2 ≠ .unknown ∧ ∀ side, p.2 ≠ .panel side := by
    intro p hp
    refine ⟨?_, fun side => ?_⟩ <;> revert p <;> first | decide | (cases side <;> decide)
  unfold ofWord at h
  constructor
  · rintro rfl
    split at h
    · next kind hl =>
      cases h
      obtain ⟨l₁, l₂, hl, -⟩ := List.lookup_eq_some_iff.mp hl
      exact hinj (word, kind) (by rw [hl]; simp) _ hw rfl
    · split at h
      · cases h; exact absurd rfl (hother _ hw).1
      · cases h; exact absurd rfl ((hother _ hw).2 _)
      · split at h
        · cases h
        · cases h; exact absurd rfl ((hother _ hw).2 _)
  · rintro rfl
    rw [hlookup _ hw] at h
    cases h
    rfl

end Command

variable [Scalar α]

namespace Statement

variable {s : Statement α} {i : Nat} {text : String} {texts : List String}
  {ss : List (Statement α)}

theorem ofWord_read (h : read i text = .ok s) : Command.ofWord s.command.word = .ok s.command := by
  obtain ⟨c, hc, rfl⟩ := read_eq_ok_iff.mp h
  rw [Command.word_ofWord hc, hc]

/-- A text says the line of its statement. -/
theorem says_line (h : read i text = .ok s) : s.line.Says Eq text := by
  obtain rfl := index_read h
  refine ⟨s, h, rfl, ?_, fun hk => ?_⟩
  · rw [List.forall₂_eq_eq_eq]
    rfl
  · have hcurve : s.command.kind = .curve :=
      (Command.kind_ofWord_iff (by decide) (ofWord_read h)).mpr hk
    simp [line, hcurve]

/-- A statement of a document has a text. -/
theorem exists_text (h : readAll i texts = .ok ss) (hs : s ∈ ss) :
    ∃ n text, s.index = i + n ∧ texts[n]? = some text ∧ read s.index text = .ok s := by
  induction texts generalizing i ss with
  | nil => cases h; cases hs
  | cons text texts ih =>
    obtain ⟨t, ss', ht, hss, rfl⟩ := readAll_cons.mp h
    rcases List.mem_cons.mp hs with rfl | hs
    · have hi := index_read ht
      exact ⟨0, text, hi, rfl, by rwa [hi]⟩
    · obtain ⟨n, text', hi, hget, hread⟩ := ih hss hs
      exact ⟨n + 1, text', by omega, hget, hread⟩

end Statement

/-! ## The lines of a role -/

/-- The lines that a role gives to an entity. -/
def Role.lines : Role α → List (SourceEntry α)
  | .nailRow r => (Entity.nailRow r).lines
  | .drilling d => (Entity.drilling d).lines
  | .circle _ (.ok c) => (RoutingSegment.circle c).lines
  | .vertex _ _ v => [v.entry]
  | _ => []

omit [Scalar α] in
theorem NailRow.source_of_ofStatement? {s : Statement α} {layer : Option PanelLayer}
    {r : NailRow α} (h : NailRow.ofStatement? s layer = some r) : r.source = s.numbers := by
  unfold NailRow.ofStatement? at h
  split at h
  · cases h; rfl
  · cases h

theorem Drilling.source_of_ofStatement? {s : Statement α} {module? : Option (ModuleFrame α)}
    {member? : Option (FrameMember α)} {d : Drilling α}
    (h : Drilling.ofStatement? s module? member? = some d) : d.source = s.numbers := by
  unfold Drilling.ofStatement? at h
  split at h
  · cases h; rfl
  · cases h

theorem CircleCut.source_of_ofStatement? {s : Statement α} {c : CircleCut α}
    (h : CircleCut.ofStatement? s = some (.ok c)) : c.source = s.numbers := by
  obtain ⟨_, _, _, _, -, rfl⟩ := exists_of_ofStatement? h
  rfl

omit [Scalar α] in
theorem Statement.line_eq {s : Statement α} {w : String} {k : CommandKind}
    (hc : Command.ofWord s.command.word = .ok s.command) (hw : (w, k) ∈ Command.fixedWords)
    (hk : s.command.kind = k) (hcurve : k ≠ .curve) :
    s.line = ⟨w, s.numbers, s.index, none⟩ := by
  obtain rfl := (Command.kind_ofWord_iff hw hc).mp hk
  simp [line, hk, hcurve]

omit [Scalar α] in
theorem Statement.hasLine_of_isUsable {s : Statement α} (h : s.isUsable = true)
    (hk : 0 < s.command.kind.minNumbers) (hcurve : s.command.kind ≠ .curve) : s.HasLine where
  needs := hk
  numbers := by simpa [isUsable] using h
  flag hk := absurd hk hcurve

omit [Scalar α] in
theorem Statement.HasLine.numbers_ne_nil {s : Statement α} (h : s.HasLine) :
    s.line.numbers ≠ [] :=
  List.length_pos_iff.mp (Nat.lt_of_lt_of_le h.needs h.numbers)

omit [Scalar α] in
/-- A curve has three numbers and a flag. -/
theorem Statement.HasLine.curve {s : Statement α} (h : s.HasLine)
    (hc : Command.ofWord s.command.word = .ok s.command) (hk : s.line.command = "KB") :
    3 ≤ s.line.numbers.length ∧ s.line.flag.isSome = true := by
  have hcurve : s.command.kind = .curve := (Command.kind_ofWord_iff (by decide) hc).mpr hk
  have hnumbers := h.numbers
  rw [hcurve] at hnumbers
  exact ⟨hnumbers, by simpa [line, hcurve] using h.flag hcurve⟩

/-- The lines of a role are that of its statement. -/
theorem Context.Plays.eq_line {c : Context α} {s : Statement α} {r : Role α} (h : c.Plays s r)
    (hc : Command.ofWord s.command.word = .ok s.command) {e : SourceEntry α} (he : e ∈ r.lines) :
    e = s.line ∧ s.HasLine := by
  cases h with
  | nailRow kind entry usable =>
    obtain rfl := List.mem_singleton.mp he
    rw [s.line_eq (w := NailRow.word) hc (by decide) kind (by decide),
      NailRow.source_of_ofStatement? entry, (NailRow.of_ofStatement? entry).1]
    exact ⟨rfl, s.hasLine_of_isUsable usable (by rw [kind]; decide) (by simp [kind])⟩
  | drilling kind entry usable =>
    obtain rfl := List.mem_singleton.mp he
    rw [s.line_eq (w := Drilling.word) hc (by decide) kind (by decide),
      Drilling.source_of_ofStatement? entry, (Drilling.of_ofStatement? entry).1]
    exact ⟨rfl, s.hasLine_of_isUsable usable (by rw [kind]; decide) (by simp [kind])⟩
  | circle kind usable opened entry =>
    rename_i d
    cases d with
    | error => cases he
    | ok d =>
      obtain rfl := List.mem_singleton.mp he
      rw [s.line_eq (w := "MP") hc (by decide) kind (by decide),
        CircleCut.source_of_ofStatement? entry, CircleCut.of_ofStatement? entry]
      exact ⟨rfl, s.hasLine_of_isUsable usable (by rw [kind]; decide) (by simp [kind])⟩
  | point kind usable closed opened entry =>
    obtain rfl := List.mem_singleton.mp he
    rw [(Vertex.of_ofPoint? entry).1]
    exact ⟨by simp [Vertex.entryOf, Statement.line, kind],
      s.hasLine_of_isUsable usable (by rw [kind]; decide) (by simp [kind])⟩
  | curve kind usable opened entry =>
    obtain rfl := List.mem_singleton.mp he
    obtain ⟨⟨flag, hf, he⟩, -⟩ := Vertex.of_ofCurve? entry
    rw [he]
    exact ⟨by simp [Vertex.entryOf, Statement.line, kind, hf], by rw [kind]; decide,
      by simpa [Statement.isUsable] using usable, fun _ => by simp [hf]⟩
  | _ => cases he

/-! ## The lines of an entity -/

namespace WallModel

variable {m : WallModel α} {es : List (Placed α)} {ss : List (Statement α)} {E : Entity α}
  {e : SourceEntry α}

/-- The lines of a path are those of the vertices on it. -/
theorem exists_of_mem_cutOf? {k : Nat} {cut : PathCut α} (h : cutOf? es k = some (.ok cut))
    (he : e ∈ cut.source) : ∃ p ∈ es, ∃ j v, p.role = .vertex j k v ∧ v.entry = e := by
  obtain ⟨v, vs, hvs, hsource⟩ := source_of_cutOf? h
  rw [hsource, ← hvs] at he
  obtain ⟨u, hu, rfl⟩ := List.mem_map.mp he
  obtain ⟨p, hp, hr⟩ := List.mem_filterMap.mp hu
  obtain ⟨j, hrole⟩ := Role.vertex?_eq_some.mp hr
  exact ⟨p, hp, j, u, hrole, rfl⟩

/-- A line of a cut comes from a circle or from a vertex of the routing. -/
theorem exists_of_mem_cuts (hs : Sound es) {j : Nat} {segment : RoutingSegment α}
    (h : .ok segment ∈ cuts es none j) (he : e ∈ segment.lines) :
    ∃ p ∈ es, p.role.isOf j = true ∧ e ∈ p.role.lines := by
  obtain ⟨item, hitem, hcut⟩ := List.mem_filterMap.mp h
  obtain ⟨p, hp, hr⟩ := List.mem_filterMap.mp hitem
  cases item with
  | circle c =>
    cases c with
    | error => cases hcut
    | ok c =>
      cases hcut
      refine ⟨p, hp, ?_⟩
      cases hrole : p.role <;> simp_all [Role.item?, Role.lines, Role.isOf]
  | run k =>
    simp only [itemCut?, reduceCtorEq, ↓reduceIte, Option.map_eq_some_iff] at hcut
    obtain ⟨c, hc, hmap⟩ := hcut
    cases c with
    | error => cases hmap
    | ok c =>
      cases hmap
      obtain ⟨q, hq, j', v, hrole, rfl⟩ := exists_of_mem_cutOf? hc he
      obtain ⟨v', hrole'⟩ : ∃ v', p.role = .vertex j k v' := by
        cases hp : p.role <;> simp_all [Role.item?]
      obtain rfl := hs.routing p hp q hq _ _ _ _ _ hrole' hrole
      exact ⟨q, hq, by simp [hrole, Role.isOf], by simp [hrole, Role.lines]⟩

/-- A line of an entity comes from the role of one of its statements. -/
theorem Says.exists_role (h : m.Says es) (hs : Sound es) (hE : E ∈ m.entities)
    (he : e ∈ E.lines) : ∃ p ∈ es, p.statement.index ∈ E.statementIndices ∧ e ∈ p.role.lines := by
  obtain ⟨r, hr, rfl⟩ | ⟨d, hd, rfl⟩ | ⟨r, hr, rfl⟩ := entity_cases hE
  · obtain ⟨p, hp, hi, hrole⟩ := h.exists_nailRow hs hr
    exact ⟨p, hp, by simp [Entity.statementIndices, hi], by rw [hrole]; exact he⟩
  · obtain ⟨p, hp, hi, hrole⟩ := h.exists_drilling hs hd
    exact ⟨p, hp, by simp [Entity.statementIndices, hi], by rw [hrole]; exact he⟩
  · obtain ⟨w, -, hw, -⟩ := h.exists_header hr
    have hsegments : r.segments = (cuts es none w.statementIndex).filterMap Except.toOption :=
      congrArg Routing.segments hw
    have hindices : r.statementIndices = indices es w.statementIndex :=
      congrArg Routing.statementIndices hw
    obtain ⟨segment, hseg, he⟩ := List.mem_flatMap.mp he
    rw [hsegments] at hseg
    obtain ⟨c, hc, hseg⟩ := List.mem_filterMap.mp hseg
    rw [eq_ok_of_toOption hseg] at hc
    obtain ⟨p, hp, hof, he⟩ := exists_of_mem_cuts hs hc he
    refine ⟨p, hp, ?_, he⟩
    rw [Entity.statementIndices, hindices]
    exact mem_indices.mpr ⟨p, hp, hof, rfl⟩

/-- A line of an entity of a model that was read is the line of a statement of the document. -/
theorem exists_line {text : String} {k : Int} (hm : parseModel text k = .ok m)
    (hE : E ∈ m.entities) (he : e ∈ E.lines) :
    ∃ s t, e = s.line ∧ s.HasLine ∧ m.statements[e.statementIndex]? = some (some t) ∧
      IsStatement t ∧ Statement.read e.statementIndex t = .ok s := by
  obtain ⟨⟨ss, hss, hsaid⟩, -, hst⟩ := says_of_parseModel hm
  have hsound := Context.sound_read (Statement.sorted_readAll hss)
  obtain ⟨p, hp, -, he⟩ := hsaid.exists_role hsound hE he
  obtain ⟨c, hplays⟩ := hsound.plays p hp
  obtain ⟨n, t, hn, hget, hread⟩ := Statement.exists_text hss (Context.statement_mem hp)
  obtain ⟨rfl, hline⟩ := hplays.eq_line (Statement.ofWord_read hread) he
  have hi : p.statement.line.statementIndex = n := hn.trans (Nat.zero_add n)
  refine ⟨p.statement, t, rfl, hline, ?_, isStatement_of_mem (List.mem_of_getElem? hget), hread⟩
  rw [hst, hi, List.getElem?_map, hget, Option.map_some]

end WallModel

end WallPanel
