import WallPanel.Number.Binary64
import WallPanel.Proofs.Editing.Redrawing

/-!
# Lines that are written anew

Where a line cannot be moved as it is spelled, it is written from its numbers. What is written reads
back: the command, as many numbers, each of them close to the one that was written, and the flag of
a curve in its place (`WallModel.rewritten_of_parseModel`). A flag that is a plain number is one of
the numbers already, so it is not written a second time: the fourth number stands in its place. A
flag with a number in it is one of the numbers too, but is written beside them all, and the line
reads back with a number too many (`WallModel.numbers_of_flag_with_digit_not_kept`).
-/

namespace WallPanel

variable {α : Type} [Scalar α]

/-! ## Statements of numbers -/

/-- What is written of a command with finite numbers reads back. -/
theorem read_writeStatement {word : String} {c : Command} {xs : List α}
    (hword : ∀ a ∈ word.toList, Blank.isBlank a = false) (hc : Command.ofWord word = .ok c)
    (hne : xs ≠ []) (hfin : ∀ x ∈ xs, Scalar.isFinite x = true) (i : Nat) :
    ∃ s, Statement.read i (writeStatement word xs) = .ok s ∧ s.command = c ∧
      s.command.word = word ∧ List.Forall₂ Close s.numbers xs := by
  have hw : IsWord word := by
    refine ⟨Blank.trim_eq_self_iff.mpr ⟨fun a ha => ?_, fun a ha => ?_⟩, fun ha => ?_⟩
    · exact hword a (List.mem_of_head? ha)
    · exact hword a (List.mem_of_getLast? ha)
    · exact absurd (hword ' ' ha) (by decide)
  have hsplit := splitCommand_joinCommand hw (isToken_map_formatNumber xs)
  have hwrite : writeStatement word xs = joinCommand word (xs.map formatNumber) := by
    simp [writeStatement, hne]
  refine ⟨_, Statement.read_eq_ok_iff.mpr ⟨c, by rw [hwrite, hsplit]; exact hc, rfl⟩, rfl,
    Command.word_ofWord hc, ?_⟩
  rw [hwrite, hsplit, bodyNumbers_eq, tokens_joinTokens (isToken_map_formatNumber xs),
    flatMap_bodyNumbers_formatNumber]
  exact forall₂_close_rewritten hfin

/-! ## Lines of paths -/

namespace SourceEntry

variable {e : SourceEntry α}

/-- A line with the flag that stands in its text when it is written anew: a flag that is a plain
number gives way to the fourth number. -/
def reflagged (e : SourceEntry α) : SourceEntry α :=
  { e with flag := e.flag.bind fun f =>
      if isNumeral f then e.numbers[3]?.map formatNumber else some f }

/-- A line with finite numbers is said by what is written of it, if its flag is a plain number or
holds none. -/
theorem says_statement {c : Command} (hc : Command.ofWord e.command = .ok c)
    (hw : IsWord e.command) (hne : e.numbers ≠ [])
    (hcurve : e.command = "KB" → 3 ≤ e.numbers.length ∧ e.flag.isSome = true)
    (htoken : ∀ f ∈ e.flag, IsToken f) (hfin : ∀ x ∈ e.numbers, Scalar.isFinite x = true)
    (hflag : ∀ f ∈ e.flag, isNumeral f = true ∨ numeralCount f = 0) :
    e.reflagged.Says Close e.statement := by
  have hclose : List.Forall₂ Close (e.numbers.map rewritten) e.numbers :=
    forall₂_close_rewritten hfin
  by_cases hk : e.command = "KB"
  · obtain ⟨hthree, hsome⟩ := hcurve hk
    obtain ⟨f, hf⟩ := Option.isSome_iff_exists.mp hsome
    cases hnum : isNumeral f with
    | true =>
      rw [statement_of_isNumeral hk hf hnum]
      refine (says_formatNumbers (e := e.reflagged) hc hw).mpr ⟨hclose, fun _ => ?_⟩
      simp [reflagged, hf, hnum]
    | false =>
      have hself : e.reflagged = e := by
        cases e
        simp_all [reflagged]
      have hzero := (hflag f hf).resolve_left (by simp [hnum])
      rw [hself, says_writeCurve hk hc hw hthree hf (htoken f hf)]
      exact ⟨hclose, by simp [hnum, hzero]⟩
  · rw [statement_of_ne hk hne]
    exact (says_formatNumbers (e := e.reflagged) hc hw).mpr ⟨hclose, fun hk' => absurd hk' hk⟩

end SourceEntry

namespace WallModel

variable {m : WallModel α} {text : String} {k : Int}

/-- What is written anew of a line of a model that was read says the line. -/
theorem says_statement_of_parseModel (hm : parseModel text k = .ok m) {E : Entity α}
    (hE : E ∈ m.entities) {e : SourceEntry α} (he : e ∈ E.lines)
    (hfin : ∀ x ∈ e.numbers, Scalar.isFinite x = true)
    (hflag : ∀ f ∈ e.flag, isNumeral f = true ∨ numeralCount f = 0) :
    e.reflagged.Says Close e.statement := by
  obtain ⟨s, t, rfl, hline, -, hst, hread⟩ := exists_line hm hE he
  have hc := Statement.ofWord_read hread
  obtain ⟨hw, hb⟩ := isWord_splitCommand hst
  obtain ⟨c, hword, hs⟩ := Statement.read_eq_ok_iff.mp hread
  have hcommand : s.command.word = (splitCommand t).1 := by rw [hs, Command.word_ofWord hword]
  have hbody : s.body = (splitCommand t).2 := by rw [hs]
  rw [← hcommand] at hw
  refine SourceEntry.says_statement hc hw hline.numbers_ne_nil (hline.curve hc)
    (fun f hf => ?_) hfin hflag
  refine isToken_of_mem hb (List.mem_of_getElem? (i := 3) ?_)
  rw [← hbody]
  exact (Option.ite_none_right_eq_some.mp hf).2

/-- A line of a path with finite numbers reads back when it is written anew, if its flag is a plain
number or holds none: with its command, as many numbers close to its own, and the flag in its place.
A flag that is a plain number is not written, and the fourth number stands there. Any command with
finite numbers reads back like this too. -/
theorem rewritten_of_parseModel :
    (∀ {text : String} {k : Int} {m : WallModel α}, parseModel text k = .ok m →
      ∀ r ∈ m.routings, ∀ p, .path p ∈ r.segments → ∀ e ∈ p.source,
        (∀ x ∈ e.numbers, Scalar.isFinite x = true) →
        (∀ f ∈ e.flag, isNumeral f = true ∨ numeralCount f = 0) →
        e.reflagged.Says Close e.statement) ∧
    ∀ (i : Nat) (word : String) (c : Command) (xs : List α),
      (∀ a ∈ word.toList, Blank.isBlank a = false) → Command.ofWord word = .ok c → xs ≠ [] →
      (∀ x ∈ xs, Scalar.isFinite x = true) →
      ∃ s, Statement.read i (writeStatement word xs) = .ok s ∧ s.command = c ∧
        s.command.word = word ∧ List.Forall₂ Close s.numbers xs := by
  refine ⟨fun hm r hr p hp e he hfin hflag => ?_,
    fun i word c xs hword hc hne hfin => read_writeStatement hword hc hne hfin i⟩
  refine says_statement_of_parseModel hm (E := .routing r)
    (List.mem_append_right _ (List.mem_map_of_mem hr)) ?_ hfin hflag
  exact List.mem_flatMap.mpr ⟨.path p, hp, he⟩

/-- The first line of the first path. -/
def firstLine? (m : WallModel α) : Option (SourceEntry α) :=
  m.firstPath?.bind fun p => p.source.head?

theorem exists_firstLine {P : SourceEntry α → Prop} [DecidablePred P]
    (h : ((parseModel text k).toOption.bind firstLine?).any (fun e => P e) = true) :
    ∃ (m : WallModel α) (r : Routing α) (p : PathCut α) (e : SourceEntry α),
      parseModel text k = .ok m ∧ r ∈ m.routings ∧ .path p ∈ r.segments ∧ e ∈ p.source ∧ P e := by
  obtain ⟨e, he, hP⟩ := (Option.any_eq_true _ _).mp h
  obtain ⟨m, hm, hline⟩ := Option.bind_eq_some_iff.mp he
  obtain ⟨p, hp, hhead⟩ := Option.bind_eq_some_iff.mp hline
  obtain ⟨r, hr, hp⟩ := mem_of_firstPath? hp
  exact ⟨m, r, p, e, eq_ok_of_toOption hm, hr, hp, List.mem_of_head? hhead, of_decide_eq_true hP⟩

set_option maxRecDepth 100000 in
/-- A curve with a flag of letters, and a word that is no command. -/
theorem rewritten_of_parseModel_of_curve :
    ∃ (text : String) (m : WallModel Float) (r : Routing Float) (p : PathCut Float)
      (e : SourceEntry Float),
      text = "PAF;KB 0,0.0625,5,ccw,9;PP 10,0" ∧ parseModel text 1 = .ok m ∧ r ∈ m.routings ∧
      .path p ∈ r.segments ∧ e ∈ p.source ∧ e.flag = some "ccw" ∧ e.reflagged.flag = some "ccw" ∧
      e.reflagged.Says Close e.statement ∧
      ∃ s, Statement.read 7 (writeStatement "XY" [1.0005, (-0.0 : Float)]) = .ok s ∧
        s.command = ⟨.unknown, "XY", none⟩ ∧ s.command.word = "XY" ∧
        List.Forall₂ Close s.numbers [1.0005, (-0.0 : Float)] := by
  have hline : ((parseModel (α := Float) "PAF;KB 0,0.0625,5,ccw,9;PP 10,0" 1).toOption.bind
      firstLine?).any (fun e => e.flag = some "ccw" ∧
        ∀ x ∈ e.numbers, Scalar.isFinite x = true) = true := by
    decide +kernel
  obtain ⟨m, r, p, e, hm, hr, hp, he, hf, hfin⟩ := exists_firstLine hline
  obtain ⟨hlines, hwords⟩ := rewritten_of_parseModel (α := Float)
  have hletters : isNumeral "ccw" = false := by decide
  have hcount : numeralCount "ccw" = 0 := by decide +kernel
  have hpair := hwords 7 "XY" ⟨.unknown, "XY", none⟩ [1.0005, (-0.0 : Float)]
    (by simp [Blank.isBlank, Blank.blanks]) (by decide) (by simp) (by decide +kernel)
  have hsaid := hlines hm r hr p hp e he hfin (by simp [hf, hcount])
  have hkept : e.reflagged.flag = some "ccw" := by simp [SourceEntry.reflagged, hf, hletters]
  exact ⟨_, m, r, p, e, rfl, hm, hr, hp, he, hf, hkept, hsaid, hpair⟩

set_option maxRecDepth 100000 in
/-- The spelling of a flag that is a plain number is not kept. -/
theorem flag_of_numeral_not_kept :
    ∃ (text : String) (m : WallModel Float) (r : Routing Float) (p : PathCut Float)
      (e : SourceEntry Float),
      text = "PAF;KB 0,0,5,4.0;PP 10,0" ∧ parseModel text 1 = .ok m ∧ r ∈ m.routings ∧
      .path p ∈ r.segments ∧ e ∈ p.source ∧ (∀ x ∈ e.numbers, Scalar.isFinite x = true) ∧
      e.statement = "KB 0,0,5,4" ∧ ¬e.Says Close e.statement := by
  have hline : ((parseModel (α := Float) "PAF;KB 0,0,5,4.0;PP 10,0" 1).toOption.bind
      firstLine?).any (fun e => e.command = "KB" ∧ e.flag = some "4.0" ∧
        e.statement = "KB 0,0,5,4" ∧ ∀ x ∈ e.numbers, Scalar.isFinite x = true) = true := by
    decide +kernel
  obtain ⟨m, r, p, e, hm, hr, hp, he, hk, hf, hst, hfin⟩ := exists_firstLine hline
  refine ⟨_, m, r, p, e, rfl, hm, hr, hp, he, hfin, hst, ?_⟩
  rintro ⟨s, hread, -, -, hflag⟩
  rw [hst] at hread
  obtain ⟨c, -, rfl⟩ := Statement.read_eq_ok_iff.mp hread
  have htoken : (tokens (splitCommand "KB 0,0,5,4").2)[3]? = some "4" := by decide
  exact absurd (htoken.symm.trans ((hflag hk).trans hf)) (by decide)

set_option maxRecDepth 100000 in
/-- A flag of letters and a digit is written beside the number that was read from it, so the line
reads back with one number more. -/
theorem numbers_of_flag_with_digit_not_kept :
    ∃ (text : String) (m : WallModel Float) (r : Routing Float) (p : PathCut Float)
      (e : SourceEntry Float),
      text = "PAF;KB 0,0,5,cw2;PP 10,0" ∧ parseModel text 1 = .ok m ∧ r ∈ m.routings ∧
      .path p ∈ r.segments ∧ e ∈ p.source ∧ (∀ x ∈ e.numbers, Scalar.isFinite x = true) ∧
      e.flag = some "cw2" ∧ e.numbers.length = 4 ∧ e.statement = "KB 0,0,5,cw2,2" ∧
      (∀ (i : Nat) (s : Statement Float), Statement.read i e.statement = .ok s →
        s.numbers.length = e.numbers.length + 1) ∧
      ¬e.reflagged.Says Close e.statement := by
  have hline : ((parseModel (α := Float) "PAF;KB 0,0,5,cw2;PP 10,0" 1).toOption.bind
      firstLine?).any (fun e => e.flag = some "cw2" ∧ e.numbers.length = 4 ∧
        e.statement = "KB 0,0,5,cw2,2" ∧ ∀ x ∈ e.numbers, Scalar.isFinite x = true) = true := by
    decide +kernel
  obtain ⟨m, r, p, e, hm, hr, hp, he, hf, hfour, hst, hfin⟩ := exists_firstLine hline
  have hfive : (bodyNumbers (α := Float) (splitCommand "KB 0,0,5,cw2,2").2).length = 5 := by
    decide +kernel
  have hmore (i : Nat) (s : Statement Float) (hread : Statement.read i e.statement = .ok s) :
      s.numbers.length = e.numbers.length + 1 := by
    rw [hst] at hread
    obtain ⟨c, -, rfl⟩ := Statement.read_eq_ok_iff.mp hread
    rw [hfive, hfour]
  refine ⟨_, m, r, p, e, rfl, hm, hr, hp, he, hfin, hf, hfour, hst, hmore, ?_⟩
  rintro ⟨s, hread, -, hclose, -⟩
  have hsame : s.numbers.length = e.numbers.length := hclose.length_eq
  exact absurd ((hmore _ s hread).symm.trans hsame) (Nat.succ_ne_self _)

end WallModel

end WallPanel
