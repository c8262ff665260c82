import WallPanel.Proofs.Geometry.Paths
import WallPanel.Proofs.Statement.Plain

/-!
# What a flag asks for

The flag of a curve asks for the larger of two arcs if it is its own upper-case form, and for a
clockwise one by the letters in it. It need not have letters: a plain number is its own upper-case
form and has none, so it asks for the larger arc against the clock (`ArcFlag.of_isNumeral`). An arc
is solved as its flag asks (`Arc.askedBy_of_solve?`), whatever the flag is.
-/

namespace WallPanel

/-! ## Letters and digits -/

/-- What holds of every code of a range holds of every character with a code there. -/
theorem char_of_range (P : Char → Prop) {first count : Nat}
    (h : ∀ n ∈ List.range' first count, P (Char.ofNat n)) {c : Char} (hle : first ≤ c.toNat)
    (hlt : c.toNat < first + count) : P c := by
  have hc := h c.toNat (List.mem_range'_1.mpr ⟨hle, hlt⟩)
  rwa [Char.ofNat_toNat] at hc

theorem Digit.exists_zero_of_value? {c : Char} {d : Nat} (h : value? c = some d) :
    ∃ z ∈ zeros, z ≤ c.toNat ∧ c.toNat < z + 10 := by
  unfold value? at h
  split at h
  · next hc =>
    exact ⟨0x30, by decide, hc.1, Nat.lt_succ_of_le hc.2⟩
  split at h
  · cases h
  · obtain ⟨z, hz, -⟩ := Option.map_eq_some_iff.mp h
    have hrange := List.find?_some hz
    rw [Bool.and_eq_true, decide_eq_true_eq, decide_eq_true_eq] at hrange
    exact ⟨z, List.mem_of_find?_eq_some hz, hrange⟩

namespace LetterCase

/-- The digits of no script lie among the characters with upper-case forms of their own. -/
theorem hasUpper_of_digit {c : Char} {d : Nat} (h : Digit.value? c = some d) :
    hasUpper c = false := by
  have hapart : ∀ z ∈ Digit.zeros, ∀ range ∈ raised, range.2.1 < z ∨ z + 10 ≤ range.1 := by
    decide +kernel
  obtain ⟨z, hz, hle, hlt⟩ := Digit.exists_zero_of_value? h
  refine List.any_eq_false.mpr fun ⟨first, last, step⟩ hrange => ?_
  have hends : last < z ∨ z + 10 ≤ first := hapart z hz _ hrange
  simp only [Bool.and_eq_true, decide_eq_true_eq]
  omega

theorem hasUpper_of_not_divides {c : Char} (h : ¬Numeral.Divides c) : hasUpper c = false := by
  by_cases hsign : c = '-'
  · subst hsign
    decide
  by_cases hpoint : c = '.'
  · subst hpoint
    decide
  cases hc : Digit.value? c with
  | none => exact absurd ⟨hc, hsign, hpoint⟩ h
  | some d => exact hasUpper_of_digit hc

/-- A Latin letter is an upper-case one or has an upper-case form of its own. -/
theorem isUpper_of_isAlpha {c : Char} (h : c.isAlpha = true) (hc : hasUpper c = false) :
    c.isUpper = true := by
  have hall : ∀ n ∈ List.range' 0x61 26, hasUpper (Char.ofNat n) = true := by decide
  have hcase : c.isUpper = true ∨ c.isLower = true := Bool.or_eq_true_iff.mp h
  refine hcase.resolve_right fun hletter => ?_
  have hlower : 0x61 ≤ c.toNat ∧ c.toNat ≤ 0x7A := by
    obtain ⟨hle, hge⟩ := Bool.and_eq_true_iff.mp hletter
    exact ⟨of_decide_eq_true hle, of_decide_eq_true hge⟩
  have hlt : c.toNat < 0x61 + 26 := Nat.lt_succ_of_le hlower.2
  have hraised := char_of_range (hasUpper · = true) hall hlower.1 hlt
  exact Bool.false_ne_true (hc.symm.trans hraised)

end LetterCase

/-! ## Flags -/

namespace ArcFlag

variable {f body : String} {cs : List Char}

theorem isLarge_some_iff : isLarge (some f) = true ↔
    Blank.trim f.toList ≠ [] ∧ ∀ c ∈ Blank.trim f.toList, LetterCase.hasUpper c = false := by
  simp [isLarge, LetterCase.isUpper]

theorem mem_of_hasPair {a b : Char} (h : hasPair a b cs = true) : a ∈ cs := by
  induction cs with
  | nil => simp [hasPair] at h
  | cons c cs ih =>
    cases cs with
    | nil => simp [hasPair] at h
    | cons d cs =>
      simp only [hasPair, Bool.or_eq_true, Bool.and_eq_true, beq_iff_eq] at h
      rcases h with ⟨rfl, -⟩ | h
      · exact List.mem_cons_self
      · exact List.mem_cons_of_mem _ (ih h)

/-- A token has no blanks around it. -/
theorem trim_of_mem_tokens (h : f ∈ tokens body) :
    Blank.trim f.toList = f.toList ∧ f.toList ≠ [] := by
  obtain ⟨piece, -, hchars, hne⟩ := exists_piece_of_mem h
  refine ⟨?_, hne⟩
  rw [hchars]
  exact Blank.trim_trim _

/-- A flag that is a token asks for the larger arc if it is its own upper-case form. -/
theorem isLarge_iff_of_mem_tokens (h : f ∈ tokens body) :
    isLarge (some f) = true ↔ ∀ c ∈ f.toList, LetterCase.hasUpper c = false := by
  obtain ⟨htrim, hne⟩ := trim_of_mem_tokens h
  rw [isLarge_some_iff, htrim, and_iff_right hne]

/-- A plain number has no letters that a lower-case form changes. -/
theorem map_toLower_of_isNumeral (h : isNumeral f = true) :
    f.toList.map Char.toLower = f.toList := by
  have hall : ∀ n ∈ List.range' 0x41 26,
      Numeral.Divides (Char.ofNat n) ∧ Char.ofNat n ≠ '\n' := by
    decide
  obtain ⟨n, hn⟩ := Option.isSome_iff_exists.mp h
  refine (List.map_congr_left fun d hd => ?_).trans (List.map_id _)
  unfold Char.toLower
  refine dif_neg fun ⟨hge, hle⟩ => ?_
  have hlt : d.toNat < 0x41 + 26 := Nat.lt_succ_of_le hle
  obtain ⟨hdivides, hnewline⟩ :=
    char_of_range (fun c => Numeral.Divides c ∧ c ≠ '\n') hall hge hlt
  exact hnewline (Numeral.eq_newline_of_divides hn hd hdivides)

/-- A plain number asks for the larger arc, against the clock. -/
theorem of_isNumeral (h : f ∈ tokens body) (hnum : isNumeral f = true) :
    isLarge (some f) = true ∧ isClockwise (some f) = false := by
  obtain ⟨n, hn⟩ := Option.isSome_iff_exists.mp hnum
  constructor
  · refine (isLarge_iff_of_mem_tokens h).mpr fun c hc => ?_
    by_cases hd : Numeral.Divides c
    · rw [Numeral.eq_newline_of_divides hn hc hd]
      decide
    · exact LetterCase.hasUpper_of_not_divides hd
  · -- only a line break divides a text and may stand in a plain number
    have hletter : 'c' ∉ f.toList ∧ 'w' ∉ f.toList := by
      constructor <;> intro hc <;>
        exact absurd (Numeral.eq_newline_of_divides hn hc (by decide)) (by decide)
    have hpair (b : Char) : hasPair 'c' b f.toList = false :=
      Bool.eq_false_iff.mpr fun hp => hletter.1 (mem_of_hasPair hp)
    have hlast : f.toList.getLast? ≠ some 'w' := fun hl => hletter.2 (List.mem_of_getLast? hl)
    simp [isClockwise, (trim_of_mem_tokens h).1, map_toLower_of_isNumeral hnum, hpair, hlast]

end ArcFlag

/-! ## Solved arcs -/

variable {α : Type}

/-- An arc is as a flag asks. -/
structure Arc.AskedBy (a : Arc α) (f : String) : Prop where
  flag : a.flag = some f
  clockwise : a.clockwise = ArcFlag.isClockwise (some f)
  /-- It is the larger one if no character of the flag has an upper-case form of its own. -/
  large : a.large = true ↔ ∀ c ∈ f.toList, LetterCase.hasUpper c = false
  /-- The Latin letters in the flag of the larger arc are upper-case ones. -/
  letters : a.large = true → ∀ c ∈ f.toList, c.isAlpha = true → c.isUpper = true
  /-- A plain number asks for the larger arc, against the clock. -/
  numeral : isNumeral f = true → a.large = true ∧ a.clockwise = false

variable [Scalar α]

theorem Arc.askedBy_of_solve? {start stop : Point α} {radius : α} {f body : String} {a : Arc α}
    (hf : f ∈ tokens body) (h : solve? start stop (.ofFlag radius (some f)) = some a) :
    a.AskedBy f := by
  obtain ⟨-, hclockwise, hlarge, hflag⟩ := of_solve? h
  have hiff := ArcFlag.isLarge_iff_of_mem_tokens hf
  rw [← show a.large = ArcFlag.isLarge (some f) from hlarge] at hiff
  refine ⟨hflag, hclockwise, hiff, fun hl c hc halpha => ?_, fun hnum => ?_⟩
  · exact LetterCase.isUpper_of_isAlpha halpha (hiff.mp hl c hc)
  · obtain ⟨hl, hc⟩ := ArcFlag.of_isNumeral hf hnum
    exact ⟨hlarge.trans hl, hclockwise.trans hc⟩

/-! ## Arcs of a path -/

namespace Trace

variable {pen? : Option (Point α)} {cs : List (PathCommand α)} {a : Arc α}

/-- An arc of a path was asked for by one of its commands, from where the pen was. -/
theorem exists_of_arc_mem (h : .arc a ∈ (drawFrom pen? cs).segments) :
    ∃ c ∈ cs, ∃ pen request, c.request = some request ∧
      Arc.solve? pen c.point request = some a := by
  induction cs generalizing pen? with
  | nil => simp [drawFrom] at h
  | cons c cs ih =>
    have hrest {pen? : Option (Point α)} (h : .arc a ∈ (drawFrom pen? cs).segments) :
        ∃ c' ∈ c :: cs, ∃ pen request, c'.request = some request ∧
          Arc.solve? pen c'.point request = some a := by
      obtain ⟨c', hc', hasked⟩ := ih h
      exact ⟨c', List.mem_cons_of_mem _ hc', hasked⟩
    cases pen? with
    | none => exact hrest h
    | some pen =>
      rw [drawFrom] at h
      cases hm : c.motion with
      | move => exact hrest (by simpa [hm] using h)
      | line => exact hrest (by simpa [hm] using h)
      | other => exact hrest (by simpa [hm] using h)
      | arc =>
        simp only [hm, List.mem_cons] at h
        rcases h with h | h
        · unfold arcFrom at h
          split at h
          · next b hb =>
            cases h
            obtain ⟨request, hrequest, hsolve⟩ := Option.bind_eq_some_iff.mp hb
            exact ⟨c, List.mem_cons_self, pen, request, hrequest, hsolve⟩
          · cases h
        · exact hrest h

end Trace

end WallPanel
