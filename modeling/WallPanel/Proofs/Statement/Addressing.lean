import WallPanel.Number.Binary64
import WallPanel.Proofs.Statement.Shift

/-!
# What moving numbers of a statement does to it

`shiftStatement` reads a statement, moves the tokens at some positions and writes it again. Where it
does so, what it writes is read token for token (`Addressed`): only the tokens at those positions are
new, and each is again a plain number, so that the statement can be moved once more. It does so for
every statement that is not empty and has plain numbers at the positions (`addressed_shiftStatement`).

The command word is that of the statement, but for one case: a statement without a space is all
command word, blanks around it included, and where nothing is moved in it a space is put after it
and it is read trimmed.
-/

namespace WallPanel

variable {α : Type} [Scalar α] {text new : String} {positions : List Nat} {d : α}

/-- What becomes of a statement when the numbers at some positions of its tokens are moved. -/
structure Addressed (text new : String) (positions : List Nat) (d : α) : Prop where
  /-- The word is that of the statement, trimmed. -/
  word : (splitCommand new).1 = String.ofList (Blank.trim (splitCommand text).1.toList)
  /-- The word is that of the statement wherever a number is moved, there is a space in the
  statement, or there are no blanks around it. -/
  sameWord : positions ≠ [] ∨ ' ' ∈ text.toList ∨ Blank.trim text.toList = text.toList →
    (splitCommand new).1 = (splitCommand text).1
  count : (tokens (splitCommand new).2).length = (tokens (splitCommand text).2).length
  kept : ∀ q, q ∉ positions → (tokens (splitCommand new).2)[q]? = (tokens (splitCommand text).2)[q]?
  moved : ∀ p ∈ positions, ∃ t, ∃ x : α, (tokens (splitCommand text).2)[p]? = some t ∧
    tokenNumber? t = some x ∧ (tokens (splitCommand new).2)[p]? = some (formatNumber (x + d)) ∧
    isNumeral (formatNumber (x + d)) = true
  /-- It can be moved again at the same positions, by any distance. -/
  again : ∀ e : α, ∃ next, shiftStatement new positions e = some next

theorem shiftTokens?_eq_none_iff {ts : List String} : shiftTokens? ts positions d = none ↔
    ∃ p ∈ positions, ¬IsNumeralAt ts p := by
  constructor
  · intro h
    by_contra hall
    push Not at hall
    obtain ⟨ts', hs, -⟩ := shiftTokens?_eq hall d
    rw [h] at hs
    cases hs
  · rintro ⟨p, hp, hnot⟩
    exact shiftTokens?_eq_none (fun hall => hnot (hall p hp)) d

theorem shiftStatement_eq_none_iff : shiftStatement text positions d = none ↔
    text = "" ∨ ∃ p ∈ positions, ¬IsNumeralAt (tokens (splitCommand text).2) p := by
  by_cases h : text = ""
  · simp [shiftStatement, h]
  · rw [shiftStatement_of_ne h, Option.map_eq_none_iff, shiftTokens?_eq_none_iff, or_iff_right h]

theorem shiftTokensAt_natCast (ts : List String) (positions : List Nat) (d : α) :
    shiftTokensAt ts d (positions.map (↑)) = .ok (shiftTokens? ts positions d) := by
  induction positions generalizing ts with
  | nil => rfl
  | cons p positions ih =>
    have hp : positionOf? ts.length (p : Int) = some p := by simp [positionOf?]
    rw [List.map_cons, shiftTokensAt, hp]
    cases hs : shiftToken? ts p d with
    | none => simp [shiftTokens?, hs]
    | some us => simp [ih, shiftTokens?, hs]

/-- Positions that count from the start mean themselves. -/
theorem shiftStatementAt_natCast (text : String) (positions : List Nat) (d : α) :
    shiftStatementAt text (positions.map (↑)) d = .ok (shiftStatement text positions d) := by
  rw [shiftStatementAt, shiftStatement]
  split
  · rfl
  · simp only [shiftTokensAt_natCast]
    rfl

/-- What is written from the word of a statement and moved tokens of its body is read again. -/
theorem splitCommand_shifted {ts : List String} (hend : terminator ∉ text.toList)
    (h : shiftTokens? (tokens (splitCommand text).2) positions d = some ts) :
    splitCommand (joinCommand (splitCommand text).1 ts) =
        (String.ofList (Blank.trim (splitCommand text).1.toList), joinTokens ts) ∧
      ∀ t ∈ ts, IsToken t := by
  by_cases hs : ' ' ∈ text.toList
  · obtain ⟨hw, hbody⟩ := splitCommand_of_spaced hs
    have htokens := isToken_of_mem_shiftTokens? (fun hc => hend (hbody.subset hc)) h
    exact ⟨splitCommand_joinCommand_of_unspaced hw.unspaced htokens, htokens⟩
  · rw [splitCommand_of_unspaced hs] at h ⊢
    have htokens := isToken_of_mem_shiftTokens? (by simp) h
    exact ⟨splitCommand_joinCommand_of_unspaced hs htokens, htokens⟩

/-- With a number moved, or with a space, a statement has a trimmed word. -/
theorem trim_word_of_shiftTokens? {ts : List String}
    (h : shiftTokens? (tokens (splitCommand text).2) positions d = some ts)
    (hw : positions ≠ [] ∨ ' ' ∈ text.toList ∨ Blank.trim text.toList = text.toList) :
    Blank.trim (splitCommand text).1.toList = (splitCommand text).1.toList := by
  by_cases hs : ' ' ∈ text.toList
  · exact (splitCommand_of_spaced hs).1.trimmed
  rw [splitCommand_of_unspaced hs] at h ⊢
  rcases hw with hp | hs' | htrim
  · -- without a body there is no token to move
    obtain ⟨p, hp⟩ := List.exists_mem_of_ne_nil positions hp
    exact absurd (isNumeralAt_of_shiftTokens? h p hp) not_isNumeralAt_empty
  · exact absurd hs' hs
  · exact htrim

theorem addressed_of_shiftStatement (hend : terminator ∉ text.toList) (hn : positions.Nodup)
    (h : shiftStatement text positions d = some new) : Addressed text new positions d := by
  obtain ⟨-, ts, hts, rfl⟩ := shiftStatement_eq_some_iff.mp h
  obtain ⟨hsplit, htokens⟩ := splitCommand_shifted hend hts
  have hread : tokens (splitCommand (joinCommand (splitCommand text).1 ts)).2 = ts := by
    rw [hsplit, tokens_joinTokens htokens]
  have hget := getElem?_shiftTokens? hn hts
  have hmoved : ∀ p ∈ positions, ∃ t, ∃ x : α, (tokens (splitCommand text).2)[p]? = some t ∧
      tokenNumber? t = some x ∧ ts[p]? = some (formatNumber (x + d)) ∧
      isNumeral (formatNumber (x + d)) = true := by
    intro p hp
    obtain ⟨t, ht, hnum⟩ := isNumeralAt_of_shiftTokens? hts p hp
    obtain ⟨x, hx⟩ := isNumeral_iff (α := α).mp hnum
    refine ⟨t, x, ht, hx, ?_, isNumeral_formatNumber _⟩
    rw [hget p, ht]
    simp [hp, shiftedToken, hx]
  refine ⟨?_, fun hw => ?_, ?_, fun q hq => ?_, ?_, fun e => ?_⟩
  · rw [hsplit]
  · rw [hsplit, trim_word_of_shiftTokens? hts hw, String.ofList_toList]
  · rw [hread, length_shiftTokens? hts]
  · rw [hread, hget q]
    simp [hq]
  · rwa [hread]
  · have hall : ∀ p ∈ positions, IsNumeralAt ts p := by
      intro p hp
      obtain ⟨t, x, -, -, ht, hnum⟩ := hmoved p hp
      exact ⟨_, ht, hnum⟩
    obtain ⟨us, hus, -⟩ := shiftTokens?_eq hall e
    have hne : joinCommand (splitCommand text).1 ts ≠ "" := fun he => by
      simpa [joinCommand] using congrArg String.toList he
    exact ⟨_, shiftStatement_eq_some_iff.mpr ⟨hne, us, by rw [hread]; exact hus, rfl⟩⟩

/-- Moving the numbers at some positions of a statement changes these tokens and nothing else. There
is no answer exactly if the statement is empty, or if a position is past its last token or that of a
token that is no plain number. It makes no difference whether the positions could have counted from
the end. -/
theorem addressed_shiftStatement (hend : terminator ∉ text.toList) (hn : positions.Nodup) (d : α) :
    shiftStatementAt text (positions.map (↑)) d = .ok (shiftStatement text positions d) ∧
    (shiftStatement text positions d = none ↔
      text = "" ∨ ∃ p ∈ positions, (tokens (splitCommand text).2).length ≤ p ∨
        ∃ t, (tokens (splitCommand text).2)[p]? = some t ∧ isNumeral t = false) ∧
    ∀ new, shiftStatement text positions d = some new → Addressed text new positions d := by
  refine ⟨shiftStatementAt_natCast .., shiftStatement_eq_none_iff.trans ?_,
    fun new h => addressed_of_shiftStatement hend hn h⟩
  have hnot : ∀ p, ¬IsNumeralAt (tokens (splitCommand text).2) p ↔
      (tokens (splitCommand text).2).length ≤ p ∨
        ∃ t, (tokens (splitCommand text).2)[p]? = some t ∧ isNumeral t = false := by
    intro p
    rw [IsNumeralAt, ← List.getElem?_eq_none_iff]
    cases (tokens (splitCommand text).2)[p]? <;> simp
  simp only [hnot]

/-- The flag of a curve stays, and the numbers before it move. -/
theorem addressed_shiftStatement_of_curve :
    shiftStatement "KB 500, 300,,150,cw,-15" [0, 1] (-0.5 : Float) =
        some "KB 499.5,299.5,150,cw,-15" ∧
      Addressed "KB 500, 300,,150,cw,-15" "KB 499.5,299.5,150,cw,-15" [0, 1] (-0.5 : Float) := by
  have h : shiftStatement "KB 500, 300,,150,cw,-15" [0, 1] (-0.5 : Float) =
      some "KB 499.5,299.5,150,cw,-15" := by decide +kernel
  exact ⟨h, (addressed_shiftStatement (by decide) (by decide) _).2.2 _ h⟩

/-- A statement without a space that is not trimmed loses its blanks where nothing is moved in it. -/
theorem word_shiftStatement_of_blank :
    terminator ∉ "\tNR".toList ∧ Scalar.isFinite (1.0 : Float) = true ∧
      shiftStatement "\tNR" [] (1.0 : Float) = some "\tNR " ∧
      (splitCommand "\tNR").1 = "\tNR" ∧ (splitCommand "\tNR ").1 = "NR" := by
  decide +kernel

end WallPanel
