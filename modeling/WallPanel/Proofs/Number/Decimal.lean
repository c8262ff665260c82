import Mathlib.Algebra.Order.Field.Basic
import Mathlib.Algebra.Order.Ring.Rat
import Mathlib.Data.List.DropRight
import Mathlib.Tactic.FieldSimp
import Mathlib.Tactic.Linarith
import Mathlib.Tactic.Ring
import WallPanel.Proofs.Text.Numeral
import WallPanel.Statement.Written

/-!
# Decimal text read back

A count of thousandths is written as a numeral with at most three places, which reads as so many
(`Decimal.scanUnsigned?_thousandths`). A quotient is rounded to the nearest natural number, a tie to
the even one (`Decimal.roundDiv_bounds`, `Decimal.even_roundDiv`).
-/

namespace WallPanel

namespace Digit

theorem toNat_concat (ds : List Nat) (d : Nat) : toNat (ds ++ [d]) = 10 * toNat ds + d := by
  simp [toNat]

theorem toNat_append (ds es : List Nat) :
    toNat (ds ++ es) = toNat ds * 10 ^ es.length + toNat es := by
  induction es using List.reverseRecOn with
  | nil => simp [toNat]
  | append_singleton es e ih =>
    rw [← List.append_assoc, toNat_concat, ih, toNat_concat, List.length_append,
      List.length_singleton, pow_succ]
    ring

theorem toNat_replicate (k : Nat) : toNat (List.replicate k 0) = 0 := by
  induction k with
  | zero => rfl
  | succ k ih => rw [List.replicate_succ', toNat_concat, ih]

end Digit

namespace Decimal

open Digit (toNat)

theorem value?_digitChar : ∀ d < 10, Digit.value? (digitChar d) = some d := by decide

/-- Characters that are the digits of some values. -/
structure Row (cs : List Char) (ds : List Nat) : Prop where
  chars : cs = ds.map digitChar
  digits : ∀ d ∈ ds, d < 10

namespace Row

variable {cs cs' : List Char} {ds ds' : List Nat}

theorem append (h : Row cs ds) (h' : Row cs' ds') : Row (cs ++ cs') (ds ++ ds') where
  chars := by rw [h.chars, h'.chars, List.map_append]
  digits d hd := (List.mem_append.mp hd).elim (h.digits d) (h'.digits d)

theorem zeros (k : Nat) : Row (List.replicate k '0') (List.replicate k 0) where
  chars := by simp [digitChar]
  digits d hd := by simp [List.eq_of_mem_replicate hd]

theorem length_eq (h : Row cs ds) : cs.length = ds.length := by
  rw [h.chars, List.length_map]

/-- A row of digits is read up to where no digit stands. -/
theorem span_append (h : Row cs ds) {rest : List Char} (hr : Digit.span rest = ([], rest)) :
    Digit.span (cs ++ rest) = (ds, rest) := by
  obtain ⟨rfl, hd⟩ := h
  induction ds with
  | nil => exact hr
  | cons d ds ih =>
    have hd' := value?_digitChar d (hd d List.mem_cons_self)
    simp [Digit.span, hd', ih fun e he => hd e (List.mem_cons_of_mem _ he)]

/-- Without the zeros at its end a row is shorter by them. -/
theorem dropZeros (h : Row cs ds) :
    ∃ es k, Row (cs.rdropWhile (· == '0')) es ∧ ds = es ++ List.replicate k 0 := by
  obtain ⟨rfl, hd⟩ := h
  induction ds using List.reverseRecOn with
  | nil => exact ⟨[], 0, ⟨rfl, nofun⟩, rfl⟩
  | append_singleton ds d ih =>
    have hzero : ∀ d < 10, (digitChar d == '0') = true → d = 0 := by decide
    rw [List.map_append, List.map_singleton]
    by_cases hc : (digitChar d == '0') = true
    · obtain ⟨es, k, hrow, he⟩ := ih fun e he => hd e (by simp [he])
      refine ⟨es, k + 1, by rwa [List.rdropWhile_concat_pos (· == '0') _ _ hc], ?_⟩
      rw [hzero d (hd d (by simp)) hc, List.replicate_succ', ← List.append_assoc, ← he]
    · refine ⟨ds ++ [d], 0, ?_, by simp⟩
      rw [List.rdropWhile_concat_neg (· == '0') _ _ hc]
      exact ⟨by simp, hd⟩

end Row

theorem row_digits (n : Nat) :
    ∃ ds, Row (digits n) ds ∧ ds ≠ [] ∧ toNat ds = n := by
  induction n using digits.induct with
  | case1 n hn =>
    rw [digits, if_pos hn]
    exact ⟨[n], ⟨rfl, by simpa using hn⟩, by simp, Nat.zero_add n⟩
  | case2 n hn ih =>
    obtain ⟨ds, hrow, -, hv⟩ := ih
    rw [digits, if_neg hn]
    refine ⟨ds ++ [n % 10], hrow.append ⟨rfl, by simp; omega⟩, by simp, ?_⟩
    rw [Digit.toNat_concat, hv]
    omega

theorem length_digits_le {n k : Nat} (h : n < 10 ^ (k + 1)) : (digits n).length ≤ k + 1 := by
  induction k generalizing n with
  | zero =>
    rw [digits, if_pos (by simpa using h)]
    rfl
  | succ k ih =>
    rw [digits]
    split
    · simp
    · rw [List.length_append]
      exact Nat.succ_le_succ (ih (by rw [pow_succ] at h; omega))

theorem row_padded {n k : Nat} (h : n < 10 ^ (k + 1)) :
    ∃ ds, Row (padded (k + 1) n) ds ∧ ds.length = k + 1 ∧ toNat ds = n := by
  obtain ⟨ds, hrow, -, hv⟩ := row_digits n
  have hrow' := (Row.zeros (k + 1 - (digits n).length)).append hrow
  refine ⟨_, hrow', ?_, by rw [Digit.toNat_append, Digit.toNat_replicate, hv]; simp⟩
  have hle := length_digits_le h
  rw [← hrow'.length_eq, List.length_append, List.length_replicate]
  omega

end Decimal

/-- The exact worth of a numeral. -/
def Numeral.exact (n : Numeral) : ℚ :=
  let magnitude : ℚ := (Digit.toNat (n.whole ++ n.places) : ℚ) / 10 ^ n.places.length
  if n.negative then -magnitude else magnitude

/-- The exact worth of a finite reading. The sign stands beside the magnitude. -/
def Reading.rational? : Reading → Option ℚ
  | .finite negative magnitude => some (if negative then -|magnitude| else |magnitude|)
  | _ => none

namespace Decimal

open Digit (toNat)

/-! ## Thousandths -/

/-- The places of a count of thousandths that are written: all but the zeros at the end. -/
theorem thousandths_eq {units : Nat} {places : List Char}
    (h : (padded 3 (units % 1000)).rdropWhile (· == '0') = places) :
    thousandths units = digits (units / 1000) ++ if places = [] then [] else '.' :: places := by
  simp only [thousandths, ← List.rdropWhile.eq_1, h, List.isEmpty_iff]
  split <;> simp

/-- A count of thousandths reads as so many. -/
theorem scanUnsigned?_thousandths (negative : Bool) (units : Nat) :
    ∃ n : Numeral, Numeral.scanUnsigned? negative (thousandths units) = some (n, []) ∧
      n.negative = negative ∧ n.places.length ≤ 3 ∧
      (toNat (n.whole ++ n.places) : ℚ) / 10 ^ n.places.length = (units : ℚ) / 1000 := by
  obtain ⟨ws, hws, hne, hwv⟩ := row_digits (units / 1000)
  obtain ⟨qs, hqs, hlen, hqv⟩ := row_padded (n := units % 1000) (k := 2) (by omega)
  obtain ⟨ps, k, hps, rfl⟩ := hqs.dropZeros
  have hvalue : toNat (ws ++ ps) * 10 ^ k = units := by
    have := Digit.toNat_append (ws ++ ps) (List.replicate k 0)
    rw [List.append_assoc, Digit.toNat_append, hwv, hqv, hlen, Digit.toNat_replicate,
      List.length_replicate] at this
    omega
  have hpow : (10 : ℚ) ^ ps.length * 10 ^ k = 1000 := by
    rw [← pow_add]
    simp only [List.length_append, List.length_replicate] at hlen
    rw [hlen]
    norm_num
  have hle : ps.length ≤ 3 := by
    rw [List.length_append] at hlen
    exact (Nat.le_add_right ..).trans_eq hlen
  refine ⟨⟨negative, ws, ps⟩, ?_, rfl, hle, ?_⟩
  · rw [thousandths_eq hps.chars]
    obtain ⟨w, ws, rfl⟩ := List.exists_cons_of_ne_nil hne
    by_cases hp : ps = []
    · subst hp
      have hspan : Digit.span (_ ++ []) = _ := hws.span_append rfl
      rw [List.append_nil] at hspan
      simp [Numeral.scanUnsigned?, hspan, Numeral.scanPlaces]
    · have hspan : Digit.span (_ ++ []) = _ := hps.span_append rfl
      obtain ⟨p, ps, rfl⟩ := List.exists_cons_of_ne_nil hp
      rw [List.append_nil, hps.chars, List.map_cons] at hspan
      have hwhole (ds : List Char) : Digit.span (_ ++ '.' :: ds) = _ := hws.span_append rfl
      simp [Numeral.scanUnsigned?, hwhole, Numeral.scanPlaces, hspan]
  · rw [div_eq_div_iff (by positivity) (by norm_num), ← hpow, ← hvalue]
    push_cast
    ring

/-! ## Rounding -/

theorem roundDiv_bounds (num : Nat) {den : Nat} (h : 0 < den) :
    2 * (roundDiv num den * den) ≤ 2 * num + den ∧
      2 * num ≤ 2 * (roundDiv num den * den) + den := by
  have hdiv := Nat.div_add_mod' num den
  have hlt := Nat.mod_lt num h
  have hsucc : (num / den + 1) * den = num / den * den + den := Nat.succ_mul ..
  unfold roundDiv
  dsimp only
  split
  · omega
  · split
    · omega
    · split <;> omega

/-- Where a quotient lies halfway between two numbers, the even one is taken. -/
theorem even_roundDiv {num den : Nat} (h : 0 < den)
    (htie : 2 * num = 2 * (roundDiv num den * den) + den ∨
      2 * (roundDiv num den * den) = 2 * num + den) : Even (roundDiv num den) := by
  have hdiv := Nat.div_add_mod' num den
  have hlt := Nat.mod_lt num h
  have hsucc : (num / den + 1) * den = num / den * den + den := Nat.succ_mul ..
  rw [Nat.even_iff]
  revert htie
  unfold roundDiv
  dsimp only
  split
  · omega
  · split
    · omega
    · split <;> omega

end Decimal

theorem Decimal.Row.not_divides {cs : List Char} {ds : List Nat} (h : Row cs ds) {c : Char}
    (hc : c ∈ cs) : ¬Numeral.Divides c := by
  obtain ⟨rfl, hd⟩ := h
  obtain ⟨d, hmem, rfl⟩ := List.mem_map.mp hc
  exact fun hdiv => by simpa [value?_digitChar d (hd d hmem)] using hdiv.digit

theorem Decimal.not_divides_of_mem_thousandths {units : Nat} {c : Char}
    (h : c ∈ thousandths units) : ¬Numeral.Divides c := by
  obtain ⟨ws, hws, -⟩ := row_digits (units / 1000)
  obtain ⟨qs, hqs, -⟩ := row_padded (n := units % 1000) (k := 2) (by omega)
  have hplaces : ∀ c ∈ ((padded 3 (units % 1000)).reverse.dropWhile (· == '0')).reverse,
      ¬Numeral.Divides c := fun c hc =>
    hqs.not_divides (by simpa using (List.dropWhile_sublist _).subset (List.mem_reverse.mp hc))
  simp only [thousandths] at h
  split at h
  · exact hws.not_divides h
  · rcases List.mem_append.mp h with h | h
    · exact hws.not_divides h
    · rcases List.mem_cons.mp h with rfl | h
      · decide
      · exact hplaces c h

/-- What is written of a number has nothing in it that is no part of a numeral. -/
theorem Reading.not_divides_of_mem_plain {r : Reading} {c : Char} (h : c ∈ r.plain) :
    ¬Numeral.Divides c := by
  cases r with
  | finite negative magnitude =>
    rcases List.mem_append.mp h with h | h
    · split at h
      · obtain rfl := List.mem_singleton.mp h
        decide
      · cases h
    · exact Decimal.not_divides_of_mem_thousandths h
  | _ =>
    obtain rfl := List.mem_singleton.mp h
    decide

theorem Numeral.scan?_of_scanUnsigned? {cs rest : List Char} {n : Numeral}
    (h : scanUnsigned? false cs = some (n, rest)) : scan? cs = some (n, rest) := by
  unfold scan?
  split
  · simp [scanUnsigned?, Digit.span, show Digit.value? '-' = none from rfl] at h
  · exact h

end WallPanel
