import WallPanel.Number.Binary64
import WallPanel.Proofs.Number.Nearest
import WallPanel.Proofs.Number.Thousandths
import WallPanel.Proofs.Statement.Shift

/-!
# Printed numbers

What is written of a finite number is a plain numeral with up to three places that keeps all that
the number has in front of the point (`Printed`). The count of thousandths behind it (`Counted`)
carries the rest: the number that is read back is no farther from the count than the one that was
written, so it is written in the same way, and greater numbers have greater counts.

* `formatNumber_rewritten`: to write the number that is read back gives the same text.
* `rewritten_le_rewritten`: the numbers that are read back are in the order of those written.
-/

namespace WallPanel

open Decimal

variable {α : Type} [Scalar α] {x y : α} {q r : ℚ} {z z' : Int} {n n' : Numeral}

/-- A text is a numeral that stands for a number as closely as three places allow, and is written as
shortly as that can be done. -/
structure Printed (x : α) (text : String) (n : Numeral) : Prop where
  isNumeral : isNumeral text = true
  scan : Numeral.scan? text.toList = some (n, [])
  places_le : n.places.length ≤ 3
  /-- It ends in neither the point nor a zero after it. -/
  ending {c : Char} (h : text.toList.getLast? = some c) : c ≠ '.' ∧ ('.' ∈ text.toList → c ≠ '0')
  /-- A zero has no sign and no places. -/
  zero (h : n.exact = 0) : text = "0"
  /-- With all three places the number has only zeros more, and the sign of a zero. -/
  fixed : ∃ sign dropped, (Scalar.reading x).fixed 3 = sign ++ text.toList ++ dropped ∧
    Dropped text.toList dropped ∧ (sign = [] ∨ sign = ['-'] ∧ text = "0")
  close : ∃ q, (Scalar.reading x).rational? = some q ∧ |n.exact - q| ≤ 1 / 2000
  /-- What is worth as much as the numeral is written in the same way. -/
  again {r : Reading} (h : r.rational? = some n.exact) : String.ofList r.plain = text

/-! ## The count that is written -/

/-- What is written of a number that is worth `q`: a count of thousandths, as a numeral. -/
structure Counted (x : α) (q : ℚ) (z : Int) (n : Numeral) : Prop where
  worth : (Scalar.reading x).rational? = some q
  nearest : IsNearest q z
  plain : (Scalar.reading x).plain = signedThousandths z
  scan : Numeral.scan? (signedThousandths z) = some (n, [])
  places_le : n.places.length ≤ 3
  exact : n.exact = (z : ℚ) / 1000

theorem exists_counted (h : (Scalar.reading x).rational? = some q) : ∃ z n, Counted x q z n := by
  obtain ⟨z, hz, hplain⟩ := Reading.exists_isNearest h
  obtain ⟨n, hscan, hplaces, hexact⟩ := Numeral.scan?_signedThousandths z
  exact ⟨z, n, h, hz, hplain, hscan, hplaces, hexact⟩

theorem exists_counted_of_isFinite (h : Scalar.isFinite x = true) : ∃ q z n, Counted x q z n := by
  have hworth : ∃ q, (Scalar.reading x).rational? = some q := by
    cases hr : Scalar.reading x <;> simp [Scalar.isFinite, hr, Reading.isFinite] at h
    exact ⟨_, rfl⟩
  exact hworth.imp fun _ => exists_counted

namespace Counted

theorem toList_formatNumber (h : Counted x q z n) :
    (formatNumber x).toList = signedThousandths z := by
  rw [formatNumber, String.toList_ofList, h.plain]

/-- Numbers with the same count are written alike. -/
theorem formatNumber_eq (h : Counted x q z n) (h' : Counted y r z n') :
    formatNumber x = formatNumber y := by
  rw [formatNumber, formatNumber, h.plain, h'.plain]

theorem numeral_eq (h : Counted x q z n) (h' : Counted y r z n') : n = n' :=
  (Prod.mk.inj (Option.some.inj (h.scan.symm.trans h'.scan))).1

theorem abs_sub_le (h : Counted x q z n) : |n.exact - q| ≤ 1 / 2000 := by
  obtain ⟨hlow, hhigh⟩ := abs_le.mp h.nearest.half
  rw [h.exact, abs_le]
  constructor <;> linarith

theorem rewritten_eq (h : Counted x q z n) : rewritten x = n.value := by
  simp [rewritten, tokenNumber?, Numeral.ofWhole?, h.toList_formatNumber, h.scan]

theorem printed (h : Counted x q z n) : Printed x (formatNumber x) n where
  isNumeral := isNumeral_formatNumber x
  scan := h.toList_formatNumber ▸ h.scan
  places_le := h.places_le
  ending hc := by
    rw [h.toList_formatNumber] at hc ⊢
    exact getLast?_signedThousandths hc
  zero hzero := by
    rw [h.exact, div_eq_zero_iff, or_iff_left (by norm_num), Int.cast_eq_zero] at hzero
    rw [formatNumber, h.plain, hzero]
    simp [signedThousandths, thousandths_zero]
  fixed := by
    have hfinite : (Scalar.reading x).isFinite = true := by
      have := h.worth
      cases hr : Scalar.reading x <;> simp [hr, Reading.rational?, Reading.isFinite] at this ⊢
    obtain ⟨sign, dropped, hfixed, hdropped, hsign⟩ := Reading.exists_fixed hfinite
    rw [formatNumber, String.toList_ofList]
    refine ⟨sign, dropped, hfixed, hdropped, hsign.imp_right (And.imp_right fun hp => ?_)⟩
    rw [hp]
  close := ⟨q, h.worth, h.abs_sub_le⟩
  again {r} hr := by
    obtain ⟨z', hz', hplain⟩ := Reading.exists_isNearest hr
    rw [h.exact] at hz'
    rw [formatNumber, h.plain, hplain, hz'.unique (isNearest_self z)]

end Counted

/-! ## The number that is read back -/

section Nearest

variable [Scalar.Nearest α]

/-- No number is closer to the count than the one that is read back. -/
theorem Counted.exists_rewritten (h : Counted x q z n) :
    ∃ p, (Scalar.reading (rewritten x)).rational? = some p ∧
      ∀ (y : α) (r : ℚ), (Scalar.reading y).rational? = some r →
        |p - n.exact| ≤ |r - n.exact| := by
  have hworth := h.worth
  rw [← Scalar.Nearest.value?_eq_rational?] at hworth
  obtain ⟨p, hp, hnearest⟩ := Scalar.Nearest.exists_value h.places_le hworth h.abs_sub_le
  simp only [Scalar.Nearest.value?_eq_rational?] at hp hnearest
  exact ⟨p, h.rewritten_eq ▸ hp, hnearest⟩

theorem isFinite_rewritten (h : Scalar.isFinite x = true) :
    Scalar.isFinite (rewritten x) = true := by
  obtain ⟨q, z, n, hx⟩ := exists_counted_of_isFinite h
  obtain ⟨p, hp, -⟩ := hx.exists_rewritten
  rw [← Scalar.Nearest.value?_eq_rational?] at hp
  exact Reading.isFinite_iff.mpr ⟨p, hp⟩

/-- To write the number that is read back gives the same text. -/
theorem formatNumber_rewritten (h : Scalar.isFinite x = true) :
    formatNumber (rewritten x) = formatNumber x := by
  obtain ⟨q, z, n, hx⟩ := exists_counted_of_isFinite h
  obtain ⟨p, hp, hnearest⟩ := hx.exists_rewritten
  obtain ⟨z', n', hback⟩ := exists_counted hp
  have hcloser := hnearest x q hx.worth
  rw [hx.exact] at hcloser
  obtain rfl : z' = z := hback.nearest.unique (hx.nearest.of_closer hcloser)
  exact hback.formatNumber_eq hx

/-- What is no farther from the lesser of two points, and what is no farther from the greater, are
in the order of the points: the middle between them would lie on the wrong side of a point. -/
theorem le_of_closer {p p' t t' : ℚ} (hlt : t < t') (h : |p - t| ≤ |p' - t|)
    (h' : |p' - t'| ≤ |p - t'|) : p ≤ p' := by
  by_contra hgt
  have hlow : p + p' ≤ 2 * t := by
    by_contra hmiddle
    have hpos : |p' - t| < p - t := abs_lt.mpr ⟨by linarith, by linarith⟩
    exact absurd (h.trans_lt hpos) (not_lt.mpr (le_abs_self _))
  have hhigh : 2 * t' ≤ p + p' := by
    by_contra hmiddle
    have hpos : |p - t'| < t' - p' := abs_lt.mpr ⟨by linarith, by linarith⟩
    exact absurd (h'.trans_lt hpos) (not_lt.mpr (abs_sub_comm t' p' ▸ le_abs_self _))
  linarith

variable [Scalar.Ordered α]

theorem Counted.le (hx : Counted x q z n) (hy : Counted y r z' n') (h : x ≤ y) : z ≤ z' := by
  have hq := hx.worth
  have hr := hy.worth
  rw [← Scalar.Nearest.value?_eq_rational?] at hq hr
  exact hx.nearest.mono hy.nearest ((Scalar.Ordered.le_iff hq hr).mp h)

/-- The numbers that are read back are in the order of those that were written. -/
theorem Counted.rewritten_le (hx : Counted x q z n) (hy : Counted y r z' n') (h : x ≤ y) :
    rewritten x ≤ rewritten y := by
  obtain ⟨p, hp, hnearest⟩ := hx.exists_rewritten
  obtain ⟨p', hp', hnearest'⟩ := hy.exists_rewritten
  have hcloser := hnearest _ p' hp'
  have hcloser' := hnearest' _ p hp
  rw [← Scalar.Nearest.value?_eq_rational?] at hp hp'
  rcases (hx.le hy h).eq_or_lt with rfl | hlt
  · -- the same numeral is read, as which number does not matter
    have hsame : rewritten x = rewritten y := by
      rw [hx.rewritten_eq, hy.rewritten_eq, hx.numeral_eq hy]
    rw [hsame]
    exact Scalar.le_self (Reading.isFinite_iff.mpr ⟨p', hp'⟩)
  · have hexact : n.exact < n'.exact := by
      rw [hx.exact, hy.exact]
      gcongr
    exact (Scalar.Ordered.le_iff hp hp').mpr (le_of_closer hexact hcloser hcloser')

/-- A finite number is printed faithfully: as a numeral of up to three places within half a
thousandth of it, which is read as a finite number that is printed in the same way. Both the numeral
and the number that is read keep the order of what is printed. -/
theorem printed_formatNumber (hx : Scalar.isFinite x = true) :
    ∃ n, Printed x (formatNumber x) n ∧ tokenNumber? (formatNumber x) = some (rewritten x) ∧
      Scalar.isFinite (rewritten x) = true ∧ formatNumber (rewritten x) = formatNumber x ∧
      ∀ y, Scalar.isFinite y = true → x ≤ y → ∃ n', Printed y (formatNumber y) n' ∧
        n.exact ≤ n'.exact ∧ rewritten x ≤ rewritten y := by
  obtain ⟨q, z, n, hcount⟩ := exists_counted_of_isFinite hx
  refine ⟨n, hcount.printed, tokenNumber?_formatNumber x, isFinite_rewritten hx,
    formatNumber_rewritten hx, fun y hy hle => ?_⟩
  obtain ⟨r, z', n', hcount'⟩ := exists_counted_of_isFinite hy
  refine ⟨n', hcount'.printed, ?_, hcount.rewritten_le hcount' hle⟩
  have hz : (z : ℚ) ≤ z' := by exact_mod_cast hcount.le hcount' hle
  rw [hcount.exact, hcount'.exact]
  gcongr

end Nearest

/-- What rounds to zero from below has no sign, and a tie goes to the even place. -/
theorem printed_formatNumber_of_tie :
    ∃ x y : Float, x = -0.0004 ∧ y = 0.0625 ∧ formatNumber x = "0" ∧ formatNumber y = "0.062" ∧
      ∃ n n', Printed x "0" n ∧ Printed y "0.062" n' ∧ n.exact ≤ n'.exact ∧
        rewritten x ≤ rewritten y := by
  have hzero : formatNumber (-0.0004 : Float) = "0" := by decide +kernel
  have htie : formatNumber (0.0625 : Float) = "0.062" := by decide +kernel
  obtain ⟨n, hx, -, -, -, hmono⟩ :=
    printed_formatNumber (x := (-0.0004 : Float)) (by decide +kernel)
  obtain ⟨n', hy, hle⟩ := hmono 0.0625 (by decide +kernel) (by decide +kernel)
  rw [hzero] at hx
  rw [htie] at hy
  exact ⟨_, _, rfl, rfl, hzero, htie, n, n', hx, hy, hle⟩

end WallPanel
