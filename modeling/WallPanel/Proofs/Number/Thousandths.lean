import WallPanel.Proofs.Number.Decimal

/-!
# Thousandths

A number is written as the count of thousandths nearest to it, a tie going to the even one
(`Decimal.IsNearest`). There is one such count (`Decimal.IsNearest.unique`), it grows with the
number (`Decimal.IsNearest.mono`), and a number that is no farther from it has the same
(`Decimal.IsNearest.of_closer`). What is written of it are the three places that it has without the
zeros at their end (`Decimal.exists_dropped`).
-/

namespace WallPanel

namespace Decimal

variable {p q : ℚ} {y z : Int}

/-! ## The nearest count -/

/-- A count of thousandths is the nearest to a number, and the even one of two that are as near. -/
structure IsNearest (q : ℚ) (z : Int) : Prop where
  half : |1000 * q - z| ≤ 1 / 2
  even : |1000 * q - z| = 1 / 2 → Even z

namespace IsNearest

theorem neg (h : IsNearest q z) : IsNearest (-q) (-z) := by
  have hflip : |1000 * -q - ((-z : Int) : ℚ)| = |1000 * q - z| := by
    rw [← abs_neg]
    congr 1
    push_cast
    ring
  exact ⟨hflip.trans_le h.half, fun he => (h.even (hflip.symm.trans he)).neg⟩

/-- Of two numbers the greater one has the greater count. Both can be half a thousandth off only if
they tie between two counts, of which one is even. -/
theorem mono (hp : IsNearest p y) (hq : IsNearest q z) (h : p ≤ q) : y ≤ z := by
  by_contra hlt
  have hy : (z : ℚ) + 1 ≤ y := by exact_mod_cast not_le.mp hlt
  obtain ⟨hp₁, hp₂⟩ := abs_le.mp hp.half
  obtain ⟨hq₁, hq₂⟩ := abs_le.mp hq.half
  have hnext : (y : ℚ) = z + 1 := by linarith
  have hydist : |1000 * p - y| = 1 / 2 := by
    rw [show 1000 * p - y = -(1 / 2) by linarith, abs_neg]
    norm_num
  have hzdist : |1000 * q - z| = 1 / 2 := by
    rw [show 1000 * q - z = 1 / 2 by linarith]
    norm_num
  have hnext : y = z + 1 := by exact_mod_cast hnext
  have heven := hp.even hydist
  rw [hnext, Int.even_add_one] at heven
  exact heven (hq.even hzdist)

theorem unique (hy : IsNearest q y) (hz : IsNearest q z) : y = z :=
  le_antisymm (hy.mono hz le_rfl) (hz.mono hy le_rfl)

/-- A number that is no farther from a count has the same. -/
theorem of_closer (h : IsNearest q z) (hp : |p - (z : ℚ) / 1000| ≤ |q - (z : ℚ) / 1000|) :
    IsNearest p z := by
  have hscale (r : ℚ) : |1000 * r - z| = 1000 * |r - (z : ℚ) / 1000| := by
    rw [← abs_of_pos (show (0 : ℚ) < 1000 by norm_num), ← abs_mul,
      abs_of_pos (show (0 : ℚ) < 1000 by norm_num)]
    congr 1
    ring
  have hle : |1000 * p - z| ≤ |1000 * q - z| := by
    rw [hscale, hscale]
    linarith
  exact ⟨hle.trans h.half, fun he => h.even (le_antisymm h.half (he ▸ hle))⟩

end IsNearest

theorem isNearest_self (z : Int) : IsNearest ((z : ℚ) / 1000) z := by
  have hself : (1000 : ℚ) * (z / 1000) - z = 0 := by ring
  constructor <;> norm_num [hself]

/-! ## The count that is written -/

theorem isNearest_scaled (q : ℚ) : IsNearest |q| (scaled 3 q) := by
  have hden : (0 : ℚ) < q.den := by exact_mod_cast q.den_pos
  have hround : scaled 3 q = roundDiv (q.num.natAbs * 1000) q.den := rfl
  obtain ⟨hlow, hhigh⟩ := roundDiv_bounds (q.num.natAbs * 1000) q.den_pos
  have heven := @even_roundDiv (q.num.natAbs * 1000) q.den q.den_pos
  rw [← hround] at hlow hhigh heven
  have hvalue : 1000 * |q| = ((q.num.natAbs * 1000 : Nat) : ℚ) / q.den := by
    rw [Rat.abs_def, Rat.divInt_eq_div, Int.cast_natCast, Int.cast_natCast, Nat.cast_mul,
      Nat.cast_ofNat]
    ring
  have hoff : 1000 * |q| - ((scaled 3 q : Int) : ℚ) =
      (((q.num.natAbs * 1000 : Nat) : ℚ) - scaled 3 q * q.den) / q.den := by
    rw [hvalue, Int.cast_natCast, sub_div, mul_div_cancel_right₀ _ hden.ne']
  generalize q.num.natAbs * 1000 = num at *
  generalize scaled 3 q = units at *
  have hlow : 2 * ((units : ℚ) * q.den) ≤ 2 * num + q.den := by exact_mod_cast hlow
  have hhigh : 2 * (num : ℚ) ≤ 2 * (units * q.den) + q.den := by exact_mod_cast hhigh
  refine ⟨?_, fun htie => ?_⟩
  · rw [hoff, abs_div, abs_of_pos hden, div_le_iff₀ hden, abs_le]
    constructor <;> linarith
  · rw [hoff, abs_div, abs_of_pos hden, div_eq_iff hden.ne', abs_eq (by positivity)] at htie
    rw [Int.even_coe_nat]
    refine heven ?_
    rcases htie with h | h
    · left
      have h : 2 * (num : ℚ) = 2 * (units * q.den) + q.den := by linarith
      exact_mod_cast h
    · right
      have h : 2 * ((units : ℚ) * q.den) = 2 * num + q.den := by linarith
      exact_mod_cast h

/-- A count of thousandths with its sign. -/
def signedThousandths (z : Int) : List Char :=
  (if z < 0 then ['-'] else []) ++ thousandths z.natAbs

/-! ## Zeros that are left out -/

theorem Row.not_mem_point {cs : List Char} {ds : List Nat} (h : Row cs ds) : '.' ∉ cs := by
  intro hmem
  rw [h.chars] at hmem
  obtain ⟨d, hd, he⟩ := List.mem_map.mp hmem
  have hvalue := value?_digitChar d (h.digits d hd)
  rw [he] at hvalue
  cases hvalue

/-- What is left out of a number with three places, behind what is kept of it: zeros after a place,
or the point with all three places. -/
inductive Dropped (kept : List Char) : List Char → Prop
  | zeros (k : Nat) (point : '.' ∈ kept) : Dropped kept (List.replicate k '0')
  | places (whole : '.' ∉ kept) : Dropped kept ['.', '0', '0', '0']

theorem Dropped.cons {kept dropped : List Char} {c : Char} (h : Dropped kept dropped)
    (hc : c ≠ '.') : Dropped (c :: kept) dropped := by
  cases h with
  | zeros k point => exact .zeros k (List.mem_cons_of_mem _ point)
  | places whole => exact .places (by simp [whole, hc.symm])

/-- The digits of a count: those of the whole part, and the places without the zeros at their
end. -/
theorem exists_places (units : Nat) : ∃ places k,
    padded 3 (units % 1000) = places ++ List.replicate k '0' ∧ '.' ∉ places ∧
      (∀ c ∈ places.getLast?, c ≠ '0') ∧
      thousandths units = digits (units / 1000) ++ if places = [] then [] else '.' :: places := by
  obtain ⟨qs, hqs, -⟩ := row_padded (n := units % 1000) (k := 2) (by omega)
  obtain ⟨ps, k, hps, rfl⟩ := hqs.dropZeros
  refine ⟨(padded 3 (units % 1000)).rdropWhile (· == '0'), k, ?_, hps.not_mem_point, ?_,
    thousandths_eq rfl⟩
  · rw [hps.chars]
    conv => lhs; rw [hqs.chars]
    simp [digitChar]
  · intro c hc
    obtain ⟨hne, rfl⟩ := List.mem_getLast?_eq_getLast hc
    simpa using List.rdropWhile_last_not (· == '0') _ hne

theorem not_mem_point_digits (n : Nat) : '.' ∉ digits n := by
  obtain ⟨ds, hrow, -⟩ := row_digits n
  exact hrow.not_mem_point

/-- A count that is written ends in neither the point nor a zero after it. -/
theorem getLast?_thousandths {units : Nat} {c : Char} (hc : (thousandths units).getLast? = some c) :
    c ≠ '.' ∧ ('.' ∈ thousandths units → c ≠ '0') := by
  obtain ⟨places, k, -, hpoint, hlast, hchars⟩ := exists_places units
  have hdigits := not_mem_point_digits (units / 1000)
  rw [hchars] at hc ⊢
  split at hc
  · next hnil =>
    rw [List.append_nil] at hc
    refine ⟨fun he => hdigits (he ▸ List.mem_of_getLast? hc), fun hmem => ?_⟩
    simp [hnil, hdigits] at hmem
  · next hne =>
    have hc : places.getLast? = some c := by
      rwa [List.getLast?_append_of_ne_nil _ (by simp), List.getLast?_cons_of_ne_nil hne] at hc
    exact ⟨fun he => hpoint (he ▸ List.mem_of_getLast? hc), fun _ => hlast c hc⟩

/-- The same with a sign. -/
theorem getLast?_signedThousandths {z : Int} {c : Char}
    (hc : (signedThousandths z).getLast? = some c) :
    c ≠ '.' ∧ ('.' ∈ signedThousandths z → c ≠ '0') := by
  have hne : thousandths z.natAbs ≠ [] := by
    obtain ⟨places, -, -, -, -, hchars⟩ := exists_places z.natAbs
    obtain ⟨ds, hrow, hds, -⟩ := row_digits (z.natAbs / 1000)
    simp [hchars, hrow.chars, hds]
  rw [signedThousandths, List.getLast?_append_of_ne_nil _ hne] at hc
  refine (getLast?_thousandths hc).imp_right fun h hmem => h ?_
  rcases List.mem_append.mp hmem with hmem | hmem
  · split at hmem <;> simp at hmem
  · exact hmem

theorem thousandths_zero : thousandths 0 = ['0'] := by
  simp [thousandths, padded, digits, digitChar]

/-- A count with three places is what is written of it and what is left out. -/
theorem exists_dropped (units : Nat) : ∃ dropped,
    fixedChars 3 units = thousandths units ++ dropped ∧ Dropped (thousandths units) dropped := by
  obtain ⟨places, k, hpadded, -, -, hchars⟩ := exists_places units
  have hfixed : fixedChars 3 units = digits (units / 1000) ++ '.' :: padded 3 (units % 1000) := rfl
  rw [hfixed, hpadded, hchars]
  by_cases hnil : places = []
  · have hlength : k = 3 := by
      obtain ⟨qs, hqs, hlen, -⟩ := row_padded (n := units % 1000) (k := 2) (by omega)
      rw [← hqs.length_eq, hpadded, hnil] at hlen
      simpa using hlen
    subst hnil hlength
    refine ⟨['.', '0', '0', '0'], by simp, ?_⟩
    exact .places (by simpa using not_mem_point_digits (units / 1000))
  · refine ⟨List.replicate k '0', by simp [hnil], .zeros k ?_⟩
    simp [hnil]

end Decimal

open Decimal

/-! ## What is written of a number -/

/-- A count reads as a numeral with up to three places. -/
theorem Numeral.scan?_signedThousandths (z : Int) :
    ∃ n, scan? (signedThousandths z) = some (n, []) ∧ n.places.length ≤ 3 ∧
      n.exact = (z : ℚ) / 1000 := by
  obtain ⟨n, hn, hs, hplaces, hv⟩ := scanUnsigned?_thousandths (decide (z < 0)) z.natAbs
  refine ⟨n, ?_, hplaces, ?_⟩
  · rw [signedThousandths]
    by_cases hz : z < 0
    · simpa [hz, scan?] using hn
    · simpa [hz] using scan?_of_scanUnsigned? (by simpa [hz] using hn)
  · rw [exact, hv, hs, Nat.cast_natAbs, Int.cast_abs]
    by_cases hz : z < 0
    · have hz' : (z : ℚ) < 0 := by exact_mod_cast hz
      simp only [hz, decide_true, ↓reduceIte, abs_of_neg hz']
      ring
    · have hz' : (0 : ℚ) ≤ z := by exact_mod_cast not_lt.mp hz
      simp [hz, abs_of_nonneg hz']

namespace Reading

variable {r : Reading} {q : ℚ}

/-- What is written of a number is the count nearest to it. -/
theorem exists_isNearest (h : r.rational? = some q) :
    ∃ z, IsNearest q z ∧ r.plain = signedThousandths z := by
  cases r with
  | finite negative magnitude =>
    have hz := isNearest_scaled magnitude
    cases negative with
    | true =>
      obtain rfl : -|magnitude| = q := Option.some.inj h
      refine ⟨_, hz.neg, ?_⟩
      by_cases hu : scaled 3 magnitude = 0
      · simp [plain, signedThousandths, hu]
      · have hpos := Nat.pos_of_ne_zero hu
        simp [plain, signedThousandths, hu, hpos]
    | false =>
      obtain rfl : |magnitude| = q := Option.some.inj h
      exact ⟨_, hz, by simp [plain, signedThousandths]⟩
  | _ => cases h

/-- With three places a number has nothing more but what is left out, and the sign of a zero. -/
theorem exists_fixed (h : r.isFinite = true) : ∃ sign dropped,
    r.fixed 3 = sign ++ r.plain ++ dropped ∧ Dropped r.plain dropped ∧
      (sign = [] ∨ sign = ['-'] ∧ r.plain = ['0']) := by
  cases r with
  | finite negative magnitude =>
    obtain ⟨dropped, hfixed, hdropped⟩ := exists_dropped (scaled 3 magnitude)
    have hchars : (finite negative magnitude).fixed 3 =
        (if negative then ['-'] else []) ++ fixedChars 3 (scaled 3 magnitude) := rfl
    rw [hchars, hfixed]
    cases negative with
    | false => exact ⟨[], dropped, by simp [plain], by simpa [plain] using hdropped, .inl rfl⟩
    | true =>
      by_cases hu : scaled 3 magnitude = 0
      · have hplain : (finite true magnitude).plain = ['0'] := by
          simp [plain, hu, thousandths_zero]
        rw [hplain]
        rw [hu, thousandths_zero] at hdropped ⊢
        exact ⟨['-'], dropped, by simp, hdropped, .inr ⟨rfl, rfl⟩⟩
      · have hplain : (finite true magnitude).plain = '-' :: thousandths (scaled 3 magnitude) := by
          simp [plain, hu]
        rw [hplain]
        exact ⟨[], dropped, by simp, hdropped.cons (by decide), .inl rfl⟩
  | _ => cases h

/-- It is a numeral within half a thousandth of the number. -/
theorem ofWhole?_plain (r : Reading) : ∃ n, Numeral.ofWhole? r.plain = some n ∧
    ∀ q, r.rational? = some q → |n.exact - q| ≤ 1 / 2000 := by
  cases hr : r.rational? with
  | none =>
    have hplain : r.plain = ['0'] := by cases r <;> first | rfl | cases hr
    exact ⟨⟨false, [0], []⟩, by rw [hplain]; rfl, nofun⟩
  | some q =>
    obtain ⟨z, hz, hplain⟩ := exists_isNearest hr
    obtain ⟨n, hscan, -, hexact⟩ := Numeral.scan?_signedThousandths z
    refine ⟨n, by simp [Numeral.ofWhole?, hplain, hscan], fun q' hq => ?_⟩
    obtain rfl := Option.some.inj hq
    have hhalf := abs_le.mp hz.half
    rw [hexact, abs_le]
    constructor <;> linarith

end Reading

end WallPanel
