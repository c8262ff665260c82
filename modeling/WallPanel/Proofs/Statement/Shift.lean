import Mathlib.Data.List.Nodup
import WallPanel.Proofs.Statement.Tokens

/-!
# Tokens that are moved

Moving some tokens of a statement moves the numbers that stand in them, and these need not be the
numbers at the same positions: a token may hold no number or several. `ordinal` counts the numbers
before a token, and `shiftTokens?_eq` says which numbers the moved tokens hold.
-/

namespace WallPanel

/-! ## Changing the members of a list -/

section Lists

variable {β : Type}

theorem modify_append_add (front l : List β) (k : Nat) (f : β → β) :
    (front ++ l).modify (front.length + k) f = front ++ l.modify k f := by
  induction front with
  | nil => simp
  | cons b front ih => simp [Nat.succ_add, ih]

/-- Changing members at different positions changes each of them once. -/
theorem getElem?_foldl_modify (f : β → β) (l : List β) {is : List Nat} (h : is.Nodup) (n : Nat) :
    (is.foldl (fun l i => l.modify i f) l)[n]? = (l[n]?).map fun b => if n ∈ is then f b else b := by
  induction is generalizing l with
  | nil => simp
  | cons i is ih =>
    obtain ⟨hi, hn⟩ := List.nodup_cons.mp h
    rw [List.foldl_cons, ih _ hn, List.getElem?_modify, Option.map_eq_map, Option.map_map]
    congr 1
    funext b
    by_cases he : i = n
    · subst he
      simp [hi]
    · simp [he, Ne.symm he]

theorem length_foldl_modify (f : β → β) (l : List β) (is : List Nat) :
    (is.foldl (fun l i => l.modify i f) l).length = l.length := by
  induction is generalizing l with
  | nil => rfl
  | cons i is ih => rw [List.foldl_cons, ih, List.length_modify]

end Lists

/-! ## Numbers read back -/

section Numbers

variable {α : Type} [Scalar α]

/-- The number that is read where a number has been written. -/
def rewritten (x : α) : α := (tokenNumber? (formatNumber x)).getD x

theorem tokenNumber?_formatNumber (x : α) :
    tokenNumber? (formatNumber x) = some (rewritten x) := by
  obtain ⟨n, hn, -⟩ := (Scalar.reading x).ofWhole?_plain
  simp [rewritten, tokenNumber?, formatNumber, hn]

theorem bodyNumbers_of_tokenNumber? {t : String} {x : α} (h : tokenNumber? t = some x) :
    bodyNumbers t = [x] := by
  obtain ⟨n, hn, rfl⟩ := Option.map_eq_some_iff.mp h
  rw [bodyNumbers, Numeral.findAll_of_ofWhole? hn]
  rfl

theorem bodyNumbers_formatNumber (x : α) : bodyNumbers (formatNumber x) = [rewritten x] :=
  bodyNumbers_of_tokenNumber? (tokenNumber?_formatNumber x)

/-- A number stands for another one as text with three places can: it is the same, or that of a
numeral within half a thousandth of it. -/
def Close (x y : α) : Prop :=
  x = y ∨ ∃ (n : Numeral) (q : ℚ), x = n.value ∧ (Scalar.reading y).rational? = some q ∧
    |n.exact - q| ≤ 1 / 2000

theorem Close.refl (x : α) : Close x x := .inl rfl

theorem close_rewritten {x : α} (h : Scalar.isFinite x = true) : Close (rewritten x) x := by
  obtain ⟨n, hn, hle⟩ := (Scalar.reading x).ofWhole?_plain
  have hx : rewritten x = n.value := by simp [rewritten, tokenNumber?, formatNumber, hn]
  cases hr : Scalar.reading x with
  | finite negative magnitude =>
    rw [hr] at hle
    exact .inr ⟨n, _, hx, by rw [hr]; rfl, hle _ rfl⟩
  | _ => simp [Scalar.isFinite, hr, Reading.isFinite] at h

end Numbers

/-! ## Moved tokens -/

/-- How many numbers stand in a token. -/
def numeralCount (t : String) : Nat := (Numeral.findAll t.toList).length

/-- How many numbers stand before the token at a position. -/
def ordinal (ts : List String) (p : Nat) : Nat := ((ts.map numeralCount).take p).sum

/-- Whether the token at a position is a plain number. -/
def IsNumeralAt (ts : List String) (p : Nat) : Prop := ∃ t, ts[p]? = some t ∧ isNumeral t = true

/-- There is no token in an empty body. -/
theorem not_isNumeralAt_empty {p : Nat} : ¬IsNumeralAt (tokens "") p := by
  have htokens : tokens "" = [] := by decide
  simp [IsNumeralAt, htokens]

theorem numeralCount_of_isNumeral {t : String} (h : isNumeral t = true) : numeralCount t = 1 := by
  obtain ⟨n, hn⟩ := Option.isSome_iff_exists.mp h
  rw [numeralCount, Numeral.findAll_of_ofWhole? hn]
  rfl

/-- Later numbers come later. -/
theorem ordinal_lt {ts : List String} {p q : Nat} (h : IsNumeralAt ts p) (hpq : p < q) :
    ordinal ts p < ordinal ts q := by
  obtain ⟨t, ht, hnum⟩ := h
  have hsucc : ordinal ts (p + 1) = ordinal ts p + 1 := by
    rw [ordinal, List.take_add_one, List.sum_append, List.getElem?_map, ht]
    simp [numeralCount_of_isNumeral hnum, ordinal]
  obtain ⟨k, rfl⟩ := Nat.exists_eq_add_of_le (Nat.succ_le_of_lt hpq)
  have hmono : ordinal ts (p + 1) ≤ ordinal ts (p + 1 + k) := by
    rw [ordinal, ordinal, List.take_add (i := p + 1), List.sum_append]
    exact Nat.le_add_right ..
  exact Nat.lt_of_lt_of_le (by rw [hsucc]; exact Nat.lt_succ_self _) hmono

theorem nodup_ordinals {ts : List String} {positions : List Nat} (hn : positions.Nodup)
    (h : ∀ p ∈ positions, IsNumeralAt ts p) : (positions.map (ordinal ts)).Nodup := by
  refine hn.map_on fun p hp q hq he => ?_
  rcases Nat.lt_trichotomy p q with hpq | hpq | hpq
  · exact absurd he (Nat.ne_of_lt (ordinal_lt (h p hp) hpq))
  · exact hpq
  · exact absurd he (Nat.ne_of_gt (ordinal_lt (h q hq) hpq))

section Shift

variable {α : Type} [Scalar α] {ts : List String} {p : Nat} {d : α}

theorem isNumeral_iff {t : String} : isNumeral t = true ↔ ∃ x : α, tokenNumber? t = some x := by
  simp [isNumeral, tokenNumber?, Option.isSome_iff_exists]

theorem isNumeral_formatNumber (x : α) : isNumeral (formatNumber x) = true :=
  isNumeral_iff.mpr ⟨_, tokenNumber?_formatNumber x⟩

theorem shiftToken?_of_isNumeralAt (h : IsNumeralAt ts p) (d : α) :
    ∃ t x, ts[p]? = some t ∧ tokenNumber? t = some x ∧
      shiftToken? ts p d = some (ts.set p (formatNumber (x + d))) := by
  obtain ⟨t, ht, hnum⟩ := h
  obtain ⟨x, hx⟩ := isNumeral_iff (α := α).mp hnum
  exact ⟨t, x, ht, hx, by simp [shiftToken?, ht, hx]⟩

/-- The numbers of a token that is written anew. -/
theorem flatMap_bodyNumbers_set {t : String} {x : α} (f : α → α) (ht : ts[p]? = some t)
    (hx : tokenNumber? t = some x) :
    (ts.set p (formatNumber (f x))).flatMap bodyNumbers =
      (ts.flatMap bodyNumbers).modify (ordinal ts p) (rewritten ∘ f) := by
  induction ts generalizing p with
  | nil => cases ht
  | cons u ts ih =>
    cases p with
    | zero =>
      obtain rfl : u = t := by simpa using ht
      simp [ordinal, bodyNumbers_formatNumber, bodyNumbers_of_tokenNumber? hx]
    | succ p =>
      have hcount : ordinal (u :: ts) (p + 1) = (bodyNumbers (α := α) u).length + ordinal ts p := by
        simp [ordinal, numeralCount, bodyNumbers]
      rw [List.set_cons_succ, List.flatMap_cons, List.flatMap_cons, ih (by simpa using ht), hcount,
        modify_append_add]

/-- A token that is written anew holds one number as before. -/
theorem ordinal_set {t : String} (ht : ts[p]? = some t) (hnum : isNumeral t = true) (y : α) :
    ordinal (ts.set p (formatNumber y)) = ordinal ts := by
  have hone : (ts.map numeralCount)[p]? = some 1 := by
    rw [List.getElem?_map, ht, Option.map_some, numeralCount_of_isNumeral hnum]
  obtain ⟨hlt, he⟩ := List.getElem?_eq_some_iff.mp hone
  have hset : (ts.map numeralCount).set p 1 = ts.map numeralCount := by
    rw [← he, List.set_getElem_self]
  funext q
  rw [ordinal, List.map_set, numeralCount_of_isNumeral (isNumeral_formatNumber y), hset, ordinal]

theorem isNumeralAt_set (h : IsNumeralAt ts p) (y : α) (q : Nat) :
    IsNumeralAt (ts.set p (formatNumber y)) q ↔ IsNumeralAt ts q := by
  by_cases he : p = q
  · subst he
    refine iff_of_true ?_ h
    obtain ⟨t, ht, -⟩ := h
    obtain ⟨hlt, -⟩ := List.getElem?_eq_some_iff.mp ht
    exact ⟨_, by simp [hlt], isNumeral_formatNumber y⟩
  · simp [IsNumeralAt, List.getElem?_set_ne he]

/-- What moving tokens makes of them: those at the positions are written anew, and of the numbers
those move that stand in them. -/
structure Moves (ts : List String) (positions : List Nat) (d : α) (ts' : List String) : Prop where
  written : ∀ t ∈ ts', t ∈ ts ∨ ∃ x : α, t = formatNumber x
  kept : ∀ q, q ∉ positions → ts'[q]? = ts[q]?
  numbers : ts'.flatMap bodyNumbers =
    (positions.map (ordinal ts)).foldl (fun ns q => ns.modify q fun x => rewritten (x + d))
      (ts.flatMap bodyNumbers)

theorem shiftTokens?_eq {positions : List Nat} (h : ∀ p ∈ positions, IsNumeralAt ts p) (d : α) :
    ∃ ts', shiftTokens? ts positions d = some ts' ∧ Moves ts positions d ts' := by
  induction positions generalizing ts with
  | nil => exact ⟨ts, rfl, fun t ht => .inl ht, fun _ _ => rfl, rfl⟩
  | cons p positions ih =>
    have hp := h p List.mem_cons_self
    obtain ⟨t, x, ht, hx, hs⟩ := shiftToken?_of_isNumeralAt hp d
    have hnum : isNumeral t = true := isNumeral_iff.mpr ⟨x, hx⟩
    have hrest : ∀ q ∈ positions, IsNumeralAt (ts.set p (formatNumber (x + d))) q := fun q hq =>
      (isNumeralAt_set hp _ q).mpr (h q (List.mem_cons_of_mem _ hq))
    obtain ⟨ts', hs', hm⟩ := ih hrest
    refine ⟨ts', by simpa [shiftTokens?, hs] using hs', fun u hu => ?_, fun q hq => ?_, ?_⟩
    · rcases hm.written u hu with hu | hu
      · rcases List.mem_or_eq_of_mem_set hu with hu | rfl
        · exact .inl hu
        · exact .inr ⟨_, rfl⟩
      · exact .inr hu
    · rw [List.mem_cons, not_or] at hq
      rw [hm.kept q hq.2, List.getElem?_set_ne (Ne.symm hq.1)]
    · rw [hm.numbers, ordinal_set ht hnum, flatMap_bodyNumbers_set (· + d) ht hx]
      rfl

/-- Where one of the tokens is no plain number none of them is moved. -/
theorem shiftTokens?_eq_none {positions : List Nat} (h : ¬∀ p ∈ positions, IsNumeralAt ts p)
    (d : α) : shiftTokens? ts positions d = none := by
  induction positions generalizing ts with
  | nil => exact absurd nofun h
  | cons p positions ih =>
    by_cases hp : IsNumeralAt ts p
    · obtain ⟨t, x, ht, hx, hs⟩ := shiftToken?_of_isNumeralAt hp d
      have hrest : ¬∀ q ∈ positions, IsNumeralAt (ts.set p (formatNumber (x + d))) q := fun hall =>
        h <| List.forall_mem_cons.mpr
          ⟨hp, fun q hq => (isNumeralAt_set hp _ q).mp (hall q hq)⟩
      simpa [shiftTokens?, hs] using ih hrest
    · have hs : shiftToken? ts p d = none := by
        cases ht : ts[p]? with
        | none => simp [shiftToken?, ht]
        | some t =>
          cases hx : tokenNumber? (α := α) t with
          | none => simp [shiftToken?, ht, hx]
          | some x => exact absurd ⟨t, ht, isNumeral_iff.mpr ⟨x, hx⟩⟩ hp
      simp [shiftTokens?, hs]

variable {ts' : List String} {positions : List Nat}

theorem isNumeralAt_of_shiftTokens? (h : shiftTokens? ts positions d = some ts') :
    ∀ p ∈ positions, IsNumeralAt ts p := by
  by_contra hall
  rw [shiftTokens?_eq_none hall] at h
  cases h

theorem length_shiftTokens? (h : shiftTokens? ts positions d = some ts') :
    ts'.length = ts.length := by
  induction positions generalizing ts with
  | nil => cases h; rfl
  | cons p positions ih =>
    obtain ⟨us, hus, h⟩ := Option.bind_eq_some_iff.mp h
    obtain ⟨t, -, hus⟩ := Option.bind_eq_some_iff.mp hus
    obtain ⟨x, -, hus⟩ := Option.bind_eq_some_iff.mp hus
    cases hus
    rw [ih h, List.length_set]

/-- A token that is written anew with its number moved; one that is no plain number stays. -/
def shiftedToken (d : α) (t : String) : String :=
  match tokenNumber? (α := α) t with
  | some x => formatNumber (x + d)
  | none => t

/-- Of tokens that are moved those at the positions are written anew, each once, and the others are
left as they are spelled. -/
theorem getElem?_shiftTokens? (hn : positions.Nodup)
    (h : shiftTokens? ts positions d = some ts') (q : Nat) :
    ts'[q]? = (ts[q]?).map fun t => if q ∈ positions then shiftedToken d t else t := by
  induction positions generalizing ts with
  | nil =>
    cases h
    simp
  | cons p positions ih =>
    obtain ⟨hp, hn⟩ := List.nodup_cons.mp hn
    obtain ⟨us, hus, h⟩ := Option.bind_eq_some_iff.mp h
    obtain ⟨t, ht, hus⟩ := Option.bind_eq_some_iff.mp hus
    obtain ⟨x, hx, hus⟩ := Option.bind_eq_some_iff.mp hus
    obtain rfl := Option.some.inj hus
    rw [ih hn h]
    by_cases hq : p = q
    · subst hq
      obtain ⟨hlt, -⟩ := List.getElem?_eq_some_iff.mp ht
      rw [List.getElem?_set_self hlt, ht]
      simp [hp, hx, shiftedToken]
    · simp [List.getElem?_set_ne hq, Ne.symm hq]

/-- Tokens of a body of which some are moved can be written. -/
theorem isToken_of_mem_shiftTokens? {body : String} (hb : terminator ∉ body.toList)
    (h : shiftTokens? (tokens body) positions d = some ts') : ∀ t ∈ ts', IsToken t := by
  obtain ⟨us, hus, hm⟩ := shiftTokens?_eq (isNumeralAt_of_shiftTokens? h) d
  obtain rfl := Option.some.inj (hus.symm.trans h)
  intro t ht
  rcases hm.written t ht with ht | ⟨x, rfl⟩
  · exact isToken_of_mem hb ht
  · exact isToken_formatNumber x

/-! ## Moved statements -/

variable {text new : String}

theorem shiftStatement_of_ne (h : text ≠ "") (positions : List Nat) (d : α) :
    shiftStatement text positions d = (shiftTokens? (tokens (splitCommand text).2) positions d).map
      (joinCommand (splitCommand text).1) := by
  have hempty : text.isEmpty = false := by simpa using h
  simp [shiftStatement, hempty]

/-- What comes of a statement of which numbers are moved has its word and the moved tokens. -/
theorem shiftStatement_eq_some_iff : shiftStatement text positions d = some new ↔
    text ≠ "" ∧ ∃ ts, shiftTokens? (tokens (splitCommand text).2) positions d = some ts ∧
      joinCommand (splitCommand text).1 ts = new := by
  by_cases h : text = ""
  · simp [shiftStatement, h]
  · rw [shiftStatement_of_ne h, Option.map_eq_some_iff, and_iff_right h]

end Shift

end WallPanel
