import WallPanel.Editing.Translate
import WallPanel.Proofs.Statement.Shift

/-!
# Lines that are moved

A line of an entity is the numbers that it was read with and the statement they were read from. When
it is moved, the numbers move by their positions among the numbers of the statement, and the text
moves by the positions of its tokens. `SourceEntry.Faithful` says when the two agree:
`SourceEntry.says_shiftStatement`.
-/

namespace WallPanel

variable {α : Type} [Scalar α]

/-! ## What a text says of a line -/

namespace SourceEntry

/-- A text says a line: it has the command word of the line, as many numbers, each of them close to
that of the line, and the flag of a curve as its fourth token. -/
def Says (close : α → α → Prop) (text : String) (e : SourceEntry α) : Prop :=
  ∃ s, Statement.read e.statementIndex text = .ok s ∧ s.command.word = e.command ∧
    List.Forall₂ close s.numbers e.numbers ∧ (e.command = "KB" → (tokens s.body)[3]? = e.flag)

/-- A line with the numbers at some positions moved. -/
def shift (e : SourceEntry α) (positions : List Nat) (d : α) : SourceEntry α :=
  { e with numbers := positions.foldl (fun ns p => shiftNumber ns p d) e.numbers }

/-- The tokens that move hold the numbers that move. Where a token holds another number, or where
the token of a number is not among them, the move has to be too small to be seen. -/
structure Aligned (e : SourceEntry α) (ts : List String) (positions : List Nat) (d : α) :
    Prop where
  tokens : ∀ q ∈ positions.map (ordinal ts), q ∉ positions →
    ∀ x, e.numbers[q]? = some x → Close (rewritten (x + d)) x
  numbers : ∀ p ∈ positions, p ∉ positions.map (ordinal ts) →
    ∀ x, e.numbers[p]? = some x → Close x (x + d)

/-- A line can be written anew: the numbers that stay can be written, and the flag of a curve holds
no number, or else it is the fourth number as that is written. -/
structure Writable (e : SourceEntry α) (positions : List Nat) (d : α) : Prop where
  numbers : ∀ p, p ∉ positions → ∀ x, e.numbers[p]? = some x → Close (rewritten x) x
  flag : e.command = "KB" → ∀ f, e.flag = some f →
    if isNumeral f then (e.shift positions d).numbers[3]?.map formatNumber = some f
    else numeralCount f = 0

/-- The text of a line says the line still after both have been moved. -/
def Faithful (text : String) (e : SourceEntry α) (positions : List Nat) (d : α) : Prop :=
  let ts := WallPanel.tokens (splitCommand text).2
  ((∀ p ∈ positions, IsNumeralAt ts p) → e.Aligned ts positions d) ∧
    ((¬∀ p ∈ positions, IsNumeralAt ts p) → e.Writable positions d)

end SourceEntry

/-! ## Reading a line -/

theorem Command.word_ofWord {word : String} {c : Command} (h : Command.ofWord word = .ok c) :
    c.word = word := by
  unfold Command.ofWord at h
  split at h
  · cases h; rfl
  · split at h
    · cases h; rfl
    · cases h; rfl
    · split at h
      · cases h
      · cases h; rfl

/-- What a text says that has a known command word. -/
theorem SourceEntry.says_iff {close : α → α → Prop} {text : String} {e : SourceEntry α}
    {c : Command} (h : Command.ofWord (splitCommand text).1 = .ok c) :
    e.Says close text ↔ (splitCommand text).1 = e.command ∧
      List.Forall₂ close (bodyNumbers (splitCommand text).2) e.numbers ∧
      (e.command = "KB" → (tokens (splitCommand text).2)[3]? = e.flag) := by
  simp [Says, Statement.read_eq_ok_iff, h, Command.word_ofWord h]

theorem SourceEntry.Says.ofWord {close : α → α → Prop} {text : String} {e : SourceEntry α}
    (h : e.Says close text) : ∃ c, Command.ofWord (splitCommand text).1 = .ok c := by
  obtain ⟨s, hs, -⟩ := h
  obtain ⟨c, hc, -⟩ := Statement.read_eq_ok_iff.mp hs
  exact ⟨c, hc⟩

/-! ## Lists of close numbers -/

omit [Scalar α] in
theorem forall₂_iff_getElem? {close : α → α → Prop} {xs ys : List α}
    (hl : xs.length = ys.length) : List.Forall₂ close xs ys ↔
      ∀ (n : Nat) x y, xs[n]? = some x → ys[n]? = some y → close x y := by
  rw [List.forall₂_iff_get]
  constructor
  · rintro ⟨-, h⟩ n x y hx hy
    obtain ⟨hn, rfl⟩ := List.getElem?_eq_some_iff.mp hx
    obtain ⟨hn', rfl⟩ := List.getElem?_eq_some_iff.mp hy
    exact h n hn hn'
  · exact fun h => ⟨hl, fun n hn hn' =>
      h n _ _ (List.getElem?_eq_getElem hn) (List.getElem?_eq_getElem hn')⟩

section Moved

variable {e : SourceEntry α} {text : String} {positions : List Nat} {d : α}

theorem SourceEntry.getElem?_shift (hn : positions.Nodup) (p : Nat) :
    (e.shift positions d).numbers[p]? =
      (e.numbers[p]?).map fun x => if p ∈ positions then x + d else x :=
  getElem?_foldl_modify (· + d) e.numbers hn p

theorem SourceEntry.length_shift : (e.shift positions d).numbers.length = e.numbers.length :=
  length_foldl_modify (· + d) e.numbers positions

/-- The numbers of moved tokens are close to those of the line if the tokens hold these. -/
theorem forall₂_moves_iff {ts : List String} (hn : positions.Nodup)
    (hp : ∀ p ∈ positions, IsNumeralAt ts p)
    (hfin : ∀ p ∈ positions, ∀ x, e.numbers[p]? = some x → Scalar.isFinite (x + d) = true) :
    List.Forall₂ Close
        ((positions.map (ordinal ts)).foldl (fun ns q => ns.modify q fun x => rewritten (x + d))
          e.numbers)
        (e.shift positions d).numbers ↔
      e.Aligned ts positions d := by
  have hlen := length_foldl_modify (fun x => rewritten (x + d)) e.numbers
    (positions.map (ordinal ts))
  rw [forall₂_iff_getElem? (hlen.trans SourceEntry.length_shift.symm)]
  simp only [getElem?_foldl_modify _ _ (nodup_ordinals hn hp), SourceEntry.getElem?_shift hn]
  constructor
  · intro h
    constructor
    · intro q hq hq' x hx
      simpa [hq, hq'] using h q (rewritten (x + d)) x (by simp [hx, hq]) (by simp [hx, hq'])
    · intro p hp hp' x hx
      simpa using h p x (x + d) (by simp [hx, hp']) (by simp [hx, hp])
  · intro h n y z hy hz
    obtain ⟨x, hx, rfl⟩ := Option.map_eq_some_iff.mp hy
    rw [hx, Option.map_some] at hz
    cases hz
    by_cases hq : n ∈ positions.map (ordinal ts) <;> by_cases hm : n ∈ positions
    · simpa [hq, hm] using close_rewritten (hfin n hm x hx)
    · simpa [hq, hm] using h.tokens n hq hm x hx
    · simpa [hq, hm] using h.numbers n hm hq x hx
    · simpa [hq, hm] using Close.refl x

/-- Numbers that are written anew are close to those of the line if those that stay can be
written. -/
theorem forall₂_rewritten_iff (hn : positions.Nodup)
    (hfin : ∀ p ∈ positions, ∀ x, e.numbers[p]? = some x → Scalar.isFinite (x + d) = true) :
    List.Forall₂ Close ((e.shift positions d).numbers.map rewritten)
        (e.shift positions d).numbers ↔
      ∀ p, p ∉ positions → ∀ x, e.numbers[p]? = some x → Close (rewritten x) x := by
  rw [forall₂_iff_getElem? (List.length_map _)]
  simp only [List.getElem?_map, SourceEntry.getElem?_shift hn]
  constructor
  · intro h p hp x hx
    exact h p (rewritten x) x (by simp [hx, hp]) (by simp [hx, hp])
  · intro h n y z hy hz
    rw [hz] at hy
    cases hy
    obtain ⟨x, hx, rfl⟩ := Option.map_eq_some_iff.mp hz
    by_cases hm : n ∈ positions
    · simpa [hm] using close_rewritten (hfin n hm x hx)
    · simpa [hm] using h n hm x hx

end Moved

/-! ## The text of a moved line -/

section Text

variable {e : SourceEntry α} {text : String} {positions : List Nat} {d : α}

/-- What a statement says that is written from tokens. -/
theorem SourceEntry.says_joinCommand {close : α → α → Prop} {c : Command} {us : List String}
    (hc : Command.ofWord e.command = .ok c) (hw : IsWord e.command) (hu : ∀ u ∈ us, IsToken u) :
    e.Says close (joinCommand e.command us) ↔
      List.Forall₂ close (us.flatMap bodyNumbers) e.numbers ∧
        (e.command = "KB" → us[3]? = e.flag) := by
  have hsplit := splitCommand_joinCommand hw hu
  rw [says_iff (c := c) (by rw [hsplit]; exact hc), hsplit, bodyNumbers_eq, tokens_joinTokens hu]
  simp

theorem flatMap_bodyNumbers_formatNumber (xs : List α) :
    (xs.map formatNumber).flatMap bodyNumbers = xs.map rewritten := by
  rw [List.flatMap_map, List.map_eq_flatMap]
  simp only [bodyNumbers_formatNumber]

theorem isToken_map_formatNumber (xs : List α) : ∀ u ∈ xs.map formatNumber, IsToken u := by
  intro u hu
  obtain ⟨x, -, rfl⟩ := List.mem_map.mp hu
  exact isToken_formatNumber x

theorem forall₂_close_rewritten {xs : List α} (h : ∀ x ∈ xs, Scalar.isFinite x = true) :
    List.Forall₂ Close (xs.map rewritten) xs := by
  rw [List.forall₂_map_left_iff, List.forall₂_same]
  exact fun x hx => close_rewritten (h x hx)

/-- A line that is written as its numbers. -/
theorem SourceEntry.says_formatNumbers {c : Command} (hc : Command.ofWord e.command = .ok c)
    (hw : IsWord e.command) :
    e.Says Close (joinCommand e.command (e.numbers.map formatNumber)) ↔
      List.Forall₂ Close (e.numbers.map rewritten) e.numbers ∧
        (e.command = "KB" → e.numbers[3]?.map formatNumber = e.flag) := by
  rw [says_joinCommand hc hw (isToken_map_formatNumber _), flatMap_bodyNumbers_formatNumber,
    List.getElem?_map]

/-- A line of another command than a curve is written as its numbers. -/
theorem SourceEntry.statement_of_ne (hk : e.command ≠ "KB") (hne : e.numbers ≠ []) :
    e.statement = joinCommand e.command (e.numbers.map formatNumber) := by
  simp [statement, hk, writeStatement, hne]

/-- So is a curve whose flag is a plain number: that is one of the numbers. -/
theorem SourceEntry.statement_of_isNumeral {f : String} (hk : e.command = "KB")
    (hf : e.flag = some f) (hnum : isNumeral f = true) :
    e.statement = joinCommand e.command (e.numbers.map formatNumber) := by
  simp [statement, hk, writeCurve, hf, hnum]

/-- A curve that is written anew. -/
theorem SourceEntry.says_writeCurve {c : Command} {f : String} (hk : e.command = "KB")
    (hc : Command.ofWord e.command = .ok c) (hw : IsWord e.command) (hlen : 3 ≤ e.numbers.length)
    (hf : e.flag = some f) (ht : IsToken f) :
    e.Says Close e.statement ↔ List.Forall₂ Close (e.numbers.map rewritten) e.numbers ∧
      if isNumeral f then e.numbers[3]?.map formatNumber = some f else numeralCount f = 0 := by
  have hempty : f.isEmpty = false := by
    cases h : f.isEmpty with
    | false => rfl
    | true => exact absurd (by simpa using String.isEmpty_iff.mp h) ht.nonempty
  cases hnum : isNumeral f with
  | true =>
    rw [statement_of_isNumeral hk hf hnum, says_formatNumbers hc hw, hf]
    simp [hk]
  | false =>
    have hst : e.statement = joinCommand e.command
        ((e.numbers.map formatNumber).take 3 ++ f :: (e.numbers.map formatNumber).drop 3) := by
      simp [statement, hk, writeCurve, hf, hnum, hempty]
    have htok : ∀ u ∈ (e.numbers.map formatNumber).take 3 ++
        f :: (e.numbers.map formatNumber).drop 3, IsToken u := by
      intro u hu
      rcases List.mem_append.mp hu with hu | hu
      · exact isToken_map_formatNumber _ u (List.mem_of_mem_take hu)
      · rcases List.mem_cons.mp hu with rfl | hu
        · exact ht
        · exact isToken_map_formatNumber _ u (List.mem_of_mem_drop hu)
    have hthird : ((e.numbers.map formatNumber).take 3 ++
        f :: (e.numbers.map formatNumber).drop 3)[3]? = some f := by
      rw [List.getElem?_append_right (by simp)]
      simp [Nat.min_eq_left hlen]
    have hflat : ((e.numbers.map formatNumber).take 3 ++
        f :: (e.numbers.map formatNumber).drop 3).flatMap bodyNumbers =
          (e.numbers.map rewritten).take 3 ++ bodyNumbers f ++
            (e.numbers.map rewritten).drop 3 := by
      simp only [List.flatMap_append, List.flatMap_cons, ← List.map_take, ← List.map_drop,
        flatMap_bodyNumbers_formatNumber, List.append_assoc]
    rw [hst, says_joinCommand hc hw htok, hthird, hf, hflat]
    have hcount : (bodyNumbers (α := α) f).length = numeralCount f := List.length_map _
    constructor
    · rintro ⟨h, -⟩
      have hzero : numeralCount f = 0 := by
        have := h.length_eq
        simp only [List.length_append, List.length_take, List.length_drop, List.length_map] at this
        omega
      rw [List.length_eq_zero_iff.mp (hcount.trans hzero), List.append_nil,
        List.take_append_drop] at h
      exact ⟨h, hzero⟩
    · rintro ⟨h, hzero⟩
      rw [List.length_eq_zero_iff.mp (hcount.trans hzero), List.append_nil, List.take_append_drop]
      exact ⟨h, fun _ => rfl⟩

/-- After a move the text of a line says the line exactly if it is faithful: the tokens that move
hold the numbers that move, or else the line can be written anew. -/
theorem SourceEntry.says_shiftStatement (hst : IsStatement text) (hs : e.Says Eq text)
    (hne : e.numbers ≠ []) (hn : positions.Nodup)
    (hcurve : e.command = "KB" → 3 ≤ e.numbers.length ∧ e.flag.isSome = true ∧ 3 ∉ positions)
    (hfin : ∀ p ∈ positions, ∀ x, e.numbers[p]? = some x → Scalar.isFinite (x + d) = true) :
    (e.shift positions d).Says Close
        ((shiftStatement text positions d).getD (e.shift positions d).statement) ↔
      e.Faithful text positions d := by
  obtain ⟨c, hc⟩ := hs.ofWord
  obtain ⟨hword, hnums, hflag⟩ := (says_iff hc).mp hs
  obtain ⟨hw, hb⟩ := isWord_splitCommand hst
  have hshift := shiftStatement_of_ne hst.ne_empty positions d
  have htok := fun t => isToken_of_mem (t := t) hb
  rw [List.forall₂_eq_eq_eq, bodyNumbers_eq] at hnums
  rw [hword] at hc hw hshift
  have hlen : (e.shift positions d).numbers.length = e.numbers.length := length_shift
  have hne' : (e.shift positions d).numbers ≠ [] := fun h => hne <| by
    rwa [← List.length_eq_zero_iff, ← hlen, List.length_eq_zero_iff]
  by_cases hp : ∀ p ∈ positions, IsNumeralAt (tokens (splitCommand text).2) p
  · obtain ⟨ts', hs', hm⟩ := shiftTokens?_eq hp d
    have hts' : ∀ t ∈ ts', IsToken t := by
      intro t ht
      rcases hm.written t ht with ht | ⟨x, rfl⟩
      · exact htok t ht
      · exact isToken_formatNumber x
    have hnumbers := hm.numbers
    rw [hnums] at hnumbers
    have hsaid : (e.shift positions d).Says Close (joinCommand e.command ts') ↔ _ :=
      says_joinCommand hc hw hts'
    rw [hshift, hs', Option.map_some, Option.getD_some]
    refine hsaid.trans ?_
    rw [hnumbers, forall₂_moves_iff hn hp hfin]
    refine ⟨fun h => ⟨fun _ => h.1, fun h' => absurd hp h'⟩, fun h => ⟨h.1 hp, fun hk => ?_⟩⟩
    rw [hm.kept 3 (hcurve hk).2.2]
    exact hflag hk
  · rw [hshift, shiftTokens?_eq_none hp, Option.map_none, Option.getD_none]
    have hfaithful : e.Faithful text positions d ↔ e.Writable positions d :=
      ⟨fun h => h.2 hp, fun h => ⟨fun h' => absurd h' hp, fun _ => h⟩⟩
    rw [hfaithful]
    by_cases hk : e.command = "KB"
    · obtain ⟨hthree, hsome, -⟩ := hcurve hk
      obtain ⟨f, hf⟩ := Option.isSome_iff_exists.mp hsome
      have ht : IsToken f := htok f (List.mem_of_getElem? ((hflag hk).trans hf))
      have hsaid := says_writeCurve (e := e.shift positions d) hk hc hw (hlen ▸ hthree) hf ht
      rw [hsaid, forall₂_rewritten_iff hn hfin]
      refine ⟨fun h => ⟨h.1, fun _ f' hf' => ?_⟩, fun h => ⟨h.numbers, h.flag hk f hf⟩⟩
      obtain rfl : f = f' := Option.some.inj (hf.symm.trans hf')
      exact h.2
    · have hsaid := says_formatNumbers (e := e.shift positions d) hc hw
      rw [statement_of_ne (e := e.shift positions d) hk hne', hsaid, forall₂_rewritten_iff hn hfin]
      exact ⟨fun h => ⟨h.1, fun hk' => absurd hk' hk⟩,
        fun h => ⟨h.numbers, fun hk' => absurd hk' hk⟩⟩

end Text

end WallPanel
