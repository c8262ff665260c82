import WallPanel.Number.Scalar
import WallPanel.Text.Digit

/-!
# Numerals

The decimal numerals of a document: an optional minus sign, digits, and optionally a point with
digits after it. There is no plus sign and no exponent, and the point needs digits on both sides.

* `Numeral.scan?`: the longest numeral at the front of a text.
* `Numeral.findAll`: the numerals found from left to right in any text.
* `Numeral.ofWhole?`: the numeral that a text is as a whole.
* `Numeral.value`: the number of a numeral.
-/

namespace WallPanel

/-- A decimal numeral, by the values of its digits. -/
structure Numeral where
  negative : Bool
  whole : List Nat
  places : List Nat
deriving DecidableEq, Repr

namespace Numeral

/-- A point with at least one digit after it: the digits, and the rest. Nothing is taken if the
text does not go on that way. -/
def scanPlaces (cs : List Char) : List Nat × List Char :=
  match cs with
  | '.' :: rest =>
    match Digit.span rest with
    | ([], _) => ([], cs)
    | (ds, after) => (ds, after)
  | _ => ([], cs)

/-- A numeral without its sign. -/
def scanUnsigned? (negative : Bool) (cs : List Char) : Option (Numeral × List Char) :=
  match Digit.span cs with
  | ([], _) => none
  | (ds, rest) =>
    let (places, after) := scanPlaces rest
    some (⟨negative, ds, places⟩, after)

/-- The longest numeral at the front of a text, and the rest. -/
def scan? (cs : List Char) : Option (Numeral × List Char) :=
  match cs with
  | '-' :: rest => scanUnsigned? true rest
  | _ => scanUnsigned? false cs

theorem length_scanPlaces_le (cs : List Char) : (scanPlaces cs).2.length ≤ cs.length := by
  unfold scanPlaces
  split
  · next rest =>
    have h := Digit.length_span_le rest
    split
    · exact Nat.le_refl _
    · next ds after _ hs =>
      rw [hs] at h
      exact Nat.le_succ_of_le h
  · exact Nat.le_refl _

theorem length_lt_of_scanUnsigned? {negative : Bool} {cs rest : List Char} {n : Numeral}
    (h : scanUnsigned? negative cs = some (n, rest)) : rest.length < cs.length := by
  cases cs with
  | nil => simp [scanUnsigned?, Digit.span] at h
  | cons c cs =>
    unfold scanUnsigned? at h
    rw [Digit.span] at h
    cases hc : Digit.value? c with
    | none => simp [hc] at h
    | some d =>
      simp only [hc, Option.some.injEq, Prod.mk.injEq] at h
      rw [← h.2]
      exact Nat.lt_succ_of_le
        (Nat.le_trans (length_scanPlaces_le _) (Digit.length_span_le cs))

/-- A numeral has at least one character. -/
theorem length_lt_of_scan? {cs rest : List Char} {n : Numeral} (h : scan? cs = some (n, rest)) :
    rest.length < cs.length := by
  unfold scan? at h
  split at h
  · exact Nat.lt_succ_of_lt (length_lt_of_scanUnsigned? h)
  · exact length_lt_of_scanUnsigned? h

/-- The numerals found in a text from left to right, each as long as possible; a character that
starts none is passed over. -/
def findAll (cs : List Char) : List Numeral :=
  match h : scan? cs with
  | some (n, rest) =>
    have : rest.length < cs.length := length_lt_of_scan? h
    n :: findAll rest
  | none =>
    match cs with
    | [] => []
    | _ :: rest => findAll rest
termination_by cs.length

/-- The numeral that a text is as a whole. One line end after it does not count. -/
def ofWhole? (cs : List Char) : Option Numeral :=
  match scan? cs with
  | some (n, []) => some n
  | some (n, ['\n']) => some n
  | _ => none

/-- The number of a numeral. -/
def value {α : Type} [Scalar α] (n : Numeral) : α :=
  let magnitude : α :=
    OfScientific.ofScientific (Digit.toNat (n.whole ++ n.places)) true n.places.length
  if n.negative then -magnitude else magnitude

end Numeral

end WallPanel
