import WallPanel.Number.Binary64
import WallPanel.Proofs.Statement.Addressing
import WallPanel.Statement.Basic

/-!
# Bodies of plain numbers

The numbers of a body are found in two ways: by a search of the whole body, and token by token. The
two can differ where a token holds no number or several. In a body whose tokens are all plain
numbers they do not (`numbers_of_plainTokens`): the number at a position is that of the token there,
and it stays so when the numbers at some positions are moved (`together_of_shiftStatement`).
-/

namespace WallPanel

namespace Numeral

/-- In a text that is a numeral as a whole there is nothing that is no part of one, but for the line
end after it. -/
theorem eq_newline_of_divides {cs : List Char} {n : Numeral} (h : ofWhole? cs = some n) {c : Char}
    (hc : c ∈ cs) (hd : Divides c) : c = '\n' := by
  obtain ⟨front, rest, rfl⟩ := List.append_of_mem hc
  unfold ofWhole? at h
  rw [scan?_append hd rest front] at h
  -- what divides a text is left when the numeral at its front is read
  cases hs : scan? front with
  | none => simp [hs] at h
  | some p =>
    rw [hs, Option.map_some] at h
    split at h
    · next he => simp at he
    · next he =>
      have hafter : p.2 ++ c :: rest = ['\n'] := congrArg Prod.snd (Option.some.inj he)
      exact List.mem_singleton.mp (hafter ▸ List.mem_append_right _ List.mem_cons_self)
    · cases h

end Numeral

variable {α : Type} [Scalar α] {body : String}

/-- Whether all tokens of a body are plain numbers. -/
def PlainTokens (body : String) : Prop :=
  ∀ t ∈ tokens body, isNumeral t = true

instance (body : String) : Decidable (PlainTokens body) :=
  inferInstanceAs (Decidable (∀ t ∈ tokens body, isNumeral t = true))

/-! ## The numbers of a body -/

theorem isToken_of_plainTokens (h : PlainTokens body) {t : String} (ht : t ∈ tokens body) :
    IsToken t := by
  obtain ⟨n, hn⟩ := Option.isSome_iff_exists.mp (h t ht)
  exact isToken_of_unended ht fun hc =>
    absurd (Numeral.eq_newline_of_divides hn hc (by decide)) (by decide)

/-- The numbers that are found in plain tokens are those of the tokens. -/
theorem map_tokenNumber?_of_isNumeral {ts : List String} (h : ∀ t ∈ ts, isNumeral t = true) :
    ts.map tokenNumber? = (ts.flatMap bodyNumbers).map (some : α → Option α) := by
  induction ts with
  | nil => rfl
  | cons t ts ih =>
    obtain ⟨ht, hts⟩ := List.forall_mem_cons.mp h
    obtain ⟨x, hx⟩ := isNumeral_iff (α := α).mp ht
    rw [List.map_cons, ih hts, List.flatMap_cons, bodyNumbers_of_tokenNumber? hx, hx]
    rfl

theorem map_tokenNumber?_of_plainTokens (h : PlainTokens body) :
    (tokens body).map tokenNumber? = (bodyNumbers body).map (some : α → Option α) := by
  rw [map_tokenNumber?_of_isNumeral h, ← bodyNumbers_eq]

/-- The number at a position of a plain body is that of the token there. -/
theorem getElem?_bodyNumbers_of_plainTokens (h : PlainTokens body) (p : Nat) :
    (bodyNumbers (α := α) body)[p]? = (tokens body)[p]?.bind tokenNumber? := by
  have hp := congrArg (fun l => l[p]?.join) (map_tokenNumber?_of_plainTokens (α := α) h)
  simp only [List.getElem?_map] at hp
  cases ht : (tokens body)[p]? <;> cases hx : (bodyNumbers (α := α) body)[p]? <;> simp_all

/-- All ways to read the numbers of a plain body agree. -/
theorem numbers_of_plainTokens (h : PlainTokens body) :
    tokenNumbers body = bodyNumbers (α := α) body ∧ label? body = none ∧
      lastNumber? body = (bodyNumbers (α := α) body).getLast? := by
  have hmap := map_tokenNumber?_of_plainTokens (α := α) h
  refine ⟨?_, by simpa [label?] using fun t ht => h t ht, ?_⟩
  · have hfilter : tokenNumbers body =
        ((tokens body).map tokenNumber?).filterMap (id : _ → Option α) := by
      rw [List.filterMap_map]
      rfl
    rw [hfilter, hmap, List.filterMap_map]
    exact List.filterMap_some
  · have hlast := congrArg List.getLast? hmap
    rw [List.getLast?_map, List.getLast?_map] at hlast
    rw [lastNumber?]
    cases ht : (tokens body).getLast? <;> cases hx : (bodyNumbers (α := α) body).getLast? <;>
      simp_all

/-! ## Numbers and tokens that move together -/

/-- A statement with the numbers at some positions moved: they are those of the tokens there. -/
structure MovesTogether (s s' : Statement α) (positions : List Nat) (d : α) : Prop where
  command : s'.command = s.command
  plain : PlainTokens s'.body
  tokens : ∀ q, (tokens s'.body)[q]? =
    (tokens s.body)[q]?.map fun t => if q ∈ positions then shiftedToken d t else t
  numbers : ∀ q, s'.number? q =
    (s.number? q).map fun x => if q ∈ positions then rewritten (x + d) else x

section Shift

variable {i : Nat} {text new : String} {s : Statement α} {positions : List Nat} {d : α}

/-- The number at a position of a plain statement is that of the token there. -/
theorem number?_of_plainTokens (hs : Statement.read i text = .ok s) (h : PlainTokens s.body)
    (p : Nat) : s.number? p = (tokens s.body)[p]?.bind tokenNumber? := by
  obtain ⟨c, -, rfl⟩ := Statement.read_eq_ok_iff.mp hs
  exact getElem?_bodyNumbers_of_plainTokens h p

theorem isNumeralAt_iff_of_plainTokens (hs : Statement.read i text = .ok s) (h : PlainTokens s.body)
    (p : Nat) : IsNumeralAt (tokens s.body) p ↔ s.number? p ≠ none := by
  rw [number?_of_plainTokens hs h, IsNumeralAt]
  cases ht : (tokens s.body)[p]? with
  | none => simp
  | some t =>
    obtain ⟨x, hx⟩ := isNumeral_iff (α := α).mp (h t (List.mem_of_getElem? ht))
    simp [isNumeral_iff (α := α), hx]

/-- There is nothing to move exactly where there is no such number. -/
theorem shiftStatement_eq_none_iff_of_plainTokens (hs : Statement.read i text = .ok s)
    (h : PlainTokens s.body) (hp : positions ≠ []) :
    shiftStatement text positions d = none ↔ ∃ p ∈ positions, s.number? p = none := by
  have hbody : s.body = (splitCommand text).2 := by
    obtain ⟨c, -, rfl⟩ := Statement.read_eq_ok_iff.mp hs
    rfl
  have hiff (p : Nat) := not_congr (isNumeralAt_iff_of_plainTokens hs h p)
  simp only [ne_eq, not_not] at hiff
  rw [shiftStatement_eq_none_iff, ← hbody]
  simp only [hiff, or_iff_right_iff_imp]
  rintro rfl
  -- an empty statement has no tokens
  obtain ⟨p, hmem⟩ := List.exists_mem_of_ne_nil positions hp
  refine ⟨p, hmem, (hiff p).mp ?_⟩
  rw [hbody]
  exact not_isNumeralAt_empty

theorem together_of_shiftStatement (hs : Statement.read i text = .ok s) (h : PlainTokens s.body)
    (hn : positions.Nodup) (hp : positions ≠ [])
    (hnew : shiftStatement text positions d = some new) :
    ∃ s', Statement.read i new = .ok s' ∧ MovesTogether s s' positions d := by
  obtain ⟨c, hc, rfl⟩ := Statement.read_eq_ok_iff.mp hs
  obtain ⟨-, ts, hts, rfl⟩ := shiftStatement_eq_some_iff.mp hnew
  have hmoves := getElem?_shiftTokens? hn hts
  -- what is moved is a plain number again
  have hplain : ∀ t ∈ ts, isNumeral t = true ∧ IsToken t := by
    intro t ht
    obtain ⟨us, hus, hm⟩ := shiftTokens?_eq (isNumeralAt_of_shiftTokens? hts) d
    obtain rfl := Option.some.inj (hus.symm.trans hts)
    rcases hm.written t ht with ht | ⟨x, rfl⟩
    · exact ⟨h t ht, isToken_of_plainTokens h ht⟩
    · exact ⟨isNumeral_formatNumber x, isToken_formatNumber x⟩
  have hspaced : ' ' ∈ text.toList := by
    obtain ⟨p, hmem⟩ := List.exists_mem_of_ne_nil positions hp
    by_contra hnone
    have hnum := isNumeralAt_of_shiftTokens? hts p hmem
    rw [splitCommand_of_unspaced hnone] at hnum
    exact not_isNumeralAt_empty hnum
  have hsplit := splitCommand_joinCommand (splitCommand_of_spaced hspaced).1
    fun t ht => (hplain t ht).2
  have hread : tokens (splitCommand (joinCommand (splitCommand text).1 ts)).2 = ts := by
    rw [hsplit, tokens_joinTokens fun t ht => (hplain t ht).2]
  have hs' : Statement.read i (joinCommand (splitCommand text).1 ts) = .ok
      (⟨i, c, (splitCommand (joinCommand (splitCommand text).1 ts)).2, bodyNumbers _⟩ :
        Statement α) :=
    Statement.read_eq_ok_iff.mpr ⟨c, by rw [hsplit]; exact hc, rfl⟩
  have hbody : PlainTokens (splitCommand (joinCommand (splitCommand text).1 ts)).2 := by
    intro t ht
    rw [hread] at ht
    exact (hplain t ht).1
  refine ⟨_, hs', rfl, hbody, fun q => by rw [hread]; exact hmoves q, fun q => ?_⟩
  rw [number?_of_plainTokens hs' hbody, number?_of_plainTokens hs h, hread, hmoves q]
  cases ht : (tokens (splitCommand text).2)[q]? with
  | none => rfl
  | some t =>
    obtain ⟨x, hx⟩ := isNumeral_iff (α := α).mp (h t (List.mem_of_getElem? ht))
    by_cases hq : q ∈ positions <;> simp [hq, hx, shiftedToken, tokenNumber?_formatNumber]

end Shift

/-- A body whose tokens are all plain numbers is read alike in every way: by a search of the body,
token by token, as the parameters of a panel without a label, and, at its end, as an offset. So in a
statement with such a body the number at a position and the token at it are the same field, also
when it is moved. -/
theorem fields_of_plainTokens (h : PlainTokens body) :
    (tokens body).map tokenNumber? = (bodyNumbers body).map (some : α → Option α) ∧
    tokenNumbers body = bodyNumbers (α := α) body ∧ label? body = none ∧
    lastNumber? body = (bodyNumbers (α := α) body).getLast? ∧
    ∀ (i : Nat) (text : String) (s : Statement α), Statement.read i text = .ok s →
      s.body = body →
      (∀ p, s.number? p = (tokens s.body)[p]?.bind tokenNumber?) ∧
      ∀ (positions : List Nat) (d : α), positions.Nodup → positions ≠ [] →
        (shiftStatement text positions d = none ↔ ∃ p ∈ positions, s.number? p = none) ∧
        ∀ new, shiftStatement text positions d = some new →
          ∃ s', Statement.read i new = .ok s' ∧ MovesTogether s s' positions d := by
  obtain ⟨htokens, hlabel, hlast⟩ := numbers_of_plainTokens (α := α) h
  refine ⟨map_tokenNumber?_of_plainTokens h, htokens, hlabel, hlast, fun i text s hs hbody => ?_⟩
  subst hbody
  exact ⟨number?_of_plainTokens hs h, fun positions d hn hp =>
    ⟨shiftStatement_eq_none_iff_of_plainTokens hs h hp,
      fun new hnew => together_of_shiftStatement hs h hn hp hnew⟩⟩

/-- Blanks, an empty token, a terminator and a digit of another script. -/
theorem fields_of_plainTokens_of_three :
    PlainTokens "1, -2.5 ,,٣;" ∧ tokens "1, -2.5 ,,٣;" = ["1", "-2.5", "٣"] ∧
      lastNumber? "1, -2.5 ,,٣;" = (bodyNumbers (α := Float) "1, -2.5 ,,٣;").getLast? ∧
      shiftStatement "NR 1, -2.5 ,,٣;" [0, 2] (0.25 : Float) = some "NR 1.25,-2.5,3.25" ∧
      ∃ s s' : Statement Float, Statement.read 0 "NR 1, -2.5 ,,٣;" = .ok s ∧
        s.body = "1, -2.5 ,,٣;" ∧ Statement.read 0 "NR 1.25,-2.5,3.25" = .ok s' ∧
        MovesTogether s s' [0, 2] 0.25 := by
  have hplain : PlainTokens "1, -2.5 ,,٣;" := by decide
  have hshift : shiftStatement "NR 1, -2.5 ,,٣;" [0, 2] (0.25 : Float) =
      some "NR 1.25,-2.5,3.25" := by decide +kernel
  have hread : Statement.read 0 "NR 1, -2.5 ,,٣;" = .ok (⟨0, ⟨.nailRow, "NR", none⟩,
      (splitCommand "NR 1, -2.5 ,,٣;").2, bodyNumbers (splitCommand "NR 1, -2.5 ,,٣;").2⟩ :
        Statement Float) :=
    Statement.read_eq_ok_iff.mpr ⟨_, by decide, rfl⟩
  obtain ⟨-, -, -, hlast, hfields⟩ := fields_of_plainTokens (α := Float) hplain
  obtain ⟨s', hread', hmoves⟩ :=
    ((hfields 0 _ _ hread (by decide)).2 [0, 2] 0.25 (by decide) (by decide)).2 _ hshift
  exact ⟨hplain, by decide, hlast, hshift, _, s', hread, by decide, hread', hmoves⟩

end WallPanel
