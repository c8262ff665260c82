import Mathlib.Data.List.DropRight
import WallPanel.Text.Blank
import WallPanel.Text.Numeral

/-!
# Numerals in a text

A character that is no part of a numeral divides a text for the reading of its numerals
(`Numeral.findAll_append`): blanks, commas and terminators do not count.
-/

namespace WallPanel

namespace Digit

/-- A character that is no digit ends a row of digits. -/
theorem span_append {c : Char} (h : value? c = none) (cs rest : List Char) :
    span (cs ++ c :: rest) = ((span cs).1, (span cs).2 ++ c :: rest) := by
  induction cs with
  | nil => simp [span, h]
  | cons d cs ih =>
    simp only [List.cons_append, span, ih]
    cases value? d <;> rfl

end Digit

namespace Numeral

/-- Whether a character is no part of any numeral. -/
structure Divides (c : Char) : Prop where
  digit : Digit.value? c = none
  sign : c ≠ '-'
  point : c ≠ '.'

instance (c : Char) : Decidable (Divides c) :=
  decidable_of_iff (Digit.value? c = none ∧ c ≠ '-' ∧ c ≠ '.')
    ⟨fun ⟨h, h', h''⟩ => ⟨h, h', h''⟩, fun h => ⟨h.digit, h.sign, h.point⟩⟩

theorem divides_of_isBlank {c : Char} (h : Blank.isBlank c = true) : Divides c := by
  have hall : ∀ n ∈ Blank.blanks, Divides (Char.ofNat n) := by decide
  have hc := hall c.toNat (by simpa [Blank.isBlank] using h)
  rwa [Char.ofNat_toNat] at hc

theorem findAll_nil : findAll [] = [] := by
  rw [findAll]
  rfl

theorem findAll_of_scan? {cs after : List Char} {n : Numeral} (hs : scan? cs = some (n, after)) :
    findAll cs = n :: findAll after := by
  rw [findAll]
  split <;> simp_all

theorem findAll_of_scan?_none {d : Char} {cs : List Char} (hs : scan? (d :: cs) = none) :
    findAll (d :: cs) = findAll cs := by
  rw [findAll]
  split <;> simp_all

section Divided

variable {c : Char} (h : Divides c) (rest : List Char)
include h

theorem scanPlaces_append (cs : List Char) :
    scanPlaces (cs ++ c :: rest) = ((scanPlaces cs).1, (scanPlaces cs).2 ++ c :: rest) := by
  match cs with
  | [] => simp [scanPlaces, h.point]
  | d :: cs =>
    by_cases hd : d = '.'
    · subst hd
      simp only [List.cons_append, scanPlaces, Digit.span_append h.digit]
      rcases Digit.span cs with ⟨_ | _, _⟩ <;> rfl
    · simp [scanPlaces, hd]

theorem scanUnsigned?_append (negative : Bool) (cs : List Char) :
    scanUnsigned? negative (cs ++ c :: rest) =
      (scanUnsigned? negative cs).map fun (n, after) => (n, after ++ c :: rest) := by
  simp only [scanUnsigned?, Digit.span_append h.digit]
  rcases Digit.span cs with ⟨_ | _, _⟩ <;> simp [scanPlaces_append h]

theorem scan?_append (cs : List Char) :
    scan? (cs ++ c :: rest) = (scan? cs).map fun (n, after) => (n, after ++ c :: rest) := by
  match cs with
  | [] => simp [scan?, scanUnsigned?, Digit.span, h.digit, h.sign]
  | d :: cs =>
    by_cases hd : d = '-'
    · subst hd
      exact scanUnsigned?_append h rest true cs
    · simpa [scan?, hd] using scanUnsigned?_append h rest false (d :: cs)

/-- The numerals of a text are those before and those after a character that is no part of one. -/
theorem findAll_append (cs : List Char) :
    findAll (cs ++ c :: rest) = findAll cs ++ findAll rest := by
  induction cs using findAll.induct with
  | case1 cs n after hs _ ih =>
    have hs' := scan?_append h rest cs
    rw [hs, Option.map_some] at hs'
    rw [findAll_of_scan? hs', findAll_of_scan? hs, ih, List.cons_append]
  | case2 hs =>
    have hs' := scan?_append h rest []
    rw [hs, Option.map_none] at hs'
    rw [List.nil_append, findAll_of_scan?_none hs', findAll_nil, List.nil_append]
  | case3 d cs hs ih =>
    have hs' := scan?_append h rest (d :: cs)
    rw [hs, Option.map_none] at hs'
    rw [findAll_of_scan?_none hs, ← ih]
    exact findAll_of_scan?_none hs'

end Divided

theorem findAll_cons {c : Char} (h : Divides c) (rest : List Char) :
    findAll (c :: rest) = findAll rest := by
  simpa [findAll_nil] using findAll_append h rest []

/-- What stands around a text and is no part of a numeral does not count. -/
theorem findAll_dropWhile {p : Char → Bool} (h : ∀ c, p c = true → Divides c) (cs : List Char) :
    findAll (cs.dropWhile p) = findAll cs := by
  induction cs with
  | nil => rfl
  | cons c cs ih =>
    rw [List.dropWhile_cons]
    split
    · next hc => rw [ih, findAll_cons (h c hc)]
    · rfl

theorem findAll_append_of_divides {cs : List Char} (h : ∀ c ∈ cs, Divides c) (front : List Char) :
    findAll (front ++ cs) = findAll front := by
  induction cs with
  | nil => simp
  | cons c cs ih =>
    have hcs := ih fun c hc => h c (List.mem_cons_of_mem _ hc)
    have hnil : findAll cs = [] := by
      clear ih hcs
      induction cs with
      | nil => exact findAll_nil
      | cons d cs ih =>
        rw [findAll_cons (h d (by simp))]
        exact ih fun c hc => h c (by simp at hc ⊢; tauto)
    rw [findAll_append (h c List.mem_cons_self), hnil, List.append_nil]

theorem findAll_dropEndWhile {p : Char → Bool} (h : ∀ c, p c = true → Divides c)
    (cs : List Char) : findAll (Blank.dropEndWhile p cs) = findAll cs := by
  have hsplit : cs = Blank.dropEndWhile p cs ++ (cs.reverse.takeWhile p).reverse := by
    rw [Blank.dropEndWhile, ← List.reverse_append, List.takeWhile_append_dropWhile,
      List.reverse_reverse]
  conv => rhs; rw [hsplit]
  rw [findAll_append_of_divides]
  intro c hc
  exact h c (List.mem_takeWhile_imp (List.mem_reverse.mp hc))

theorem findAll_trim (cs : List Char) : findAll (Blank.trim cs) = findAll cs := by
  rw [Blank.trim, Blank.trimEnd, findAll_dropEndWhile fun _ => divides_of_isBlank, Blank.trimStart,
    findAll_dropWhile fun _ => divides_of_isBlank]

/-- A text that is a numeral as a whole has this one in it. -/
theorem findAll_of_ofWhole? {cs : List Char} {n : Numeral} (h : ofWhole? cs = some n) :
    findAll cs = [n] := by
  unfold ofWhole? at h
  split at h
  · next n' hs =>
    cases h
    rw [findAll_of_scan? hs, findAll_nil]
  · next n' hs =>
    cases h
    rw [findAll_of_scan? hs, findAll_cons (by decide), findAll_nil]
  · cases h

end Numeral

end WallPanel
