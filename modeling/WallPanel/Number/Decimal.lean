import WallPanel.Number.Scalar

/-!
# Decimal text

Numbers as decimal text, each rounded from the exact value of its reading.

* `Decimal.digits`: a natural number in base ten.
* `Decimal.roundDiv`: a quotient to the nearest natural number, a tie to the even one.
* `Reading.fixed`: a number of places after the point.
* `Reading.scientific`: one digit before the point and an exponent.
* `Reading.general`: six significant digits, in whichever of the two forms is shorter to read.
-/

namespace WallPanel

namespace Decimal

/-- The character of a digit value below ten. -/
def digitChar (d : Nat) : Char :=
  Char.ofNat (48 + d)

/-- A power of ten. -/
def tenTo (n : Nat) : Nat :=
  Nat.pow 10 n

/-- A natural number in base ten, without leading zeros. -/
def digits (n : Nat) : List Char :=
  if n < 10 then [digitChar n] else digits (n / 10) ++ [digitChar (n % 10)]
termination_by n

/-- A natural number in base ten, with zeros in front up to a least width. -/
def padded (width n : Nat) : List Char :=
  List.replicate (width - (digits n).length) '0' ++ digits n

/-- The natural number nearest to `num / den`; a tie goes to the even one. -/
def roundDiv (num den : Nat) : Nat :=
  let quotient := num / den
  let remainder := num % den
  if 2 * remainder < den then quotient
  else if den < 2 * remainder then quotient + 1
  else if quotient % 2 = 0 then quotient
  else quotient + 1

/-- The number of units of the last of `places` decimal places nearest to a magnitude. -/
def scaled (places : Nat) (magnitude : Rat) : Nat :=
  roundDiv (magnitude.num.natAbs * tenTo places) magnitude.den

/-- `units` of the last of `places` decimal places, with all the places written. -/
def fixedChars (places units : Nat) : List Char :=
  if places = 0 then digits units
  else digits (units / tenTo places) ++ '.' :: padded places (units % tenTo places)

/-- The exponent `e` with `10 ^ e ≤ magnitude < 10 ^ (e + 1)`, for a positive magnitude. The count
of digits of numerator and denominator leaves two candidates. -/
def exponent (magnitude : Rat) : Int :=
  let num := magnitude.num.natAbs
  let e : Int := (digits num).length - (digits magnitude.den).length
  if num * tenTo (-e).toNat < magnitude.den * tenTo e.toNat then e - 1 else e

/-- The magnitude rounded to `places + 1` significant digits: the digits as one number, and the
exponent of the first. -/
def significant (places : Nat) (magnitude : Rat) : Nat × Int :=
  if magnitude.num = 0 then (0, 0)
  else
    let e := exponent magnitude
    let shift : Int := places - e
    let n := roundDiv (magnitude.num.natAbs * tenTo shift.toNat)
      (magnitude.den * tenTo (-shift).toNat)
    if n < tenTo (places + 1) then (n, e) else (n / 10, e + 1)

/-- An exponent with its sign and at least two digits. -/
def exponentChars (e : Int) : List Char :=
  (if e < 0 then '-' else '+') :: padded 2 e.natAbs

/-- Drop the zeros at the end of the places, and the point if no place is left. -/
def trimPlaces (cs : List Char) : List Char :=
  if cs.contains '.' then
    let kept := cs.reverse.dropWhile (· == '0')
    (if kept.head? = some '.' then kept.tail else kept).reverse
  else cs

end Decimal

namespace Reading

/-- The text of a reading, given how its magnitude is written. -/
def text (write : Rat → List Char) : Reading → List Char
  | finite negative magnitude => (if negative then ['-'] else []) ++ write magnitude
  | infinite negative => if negative then ['-', 'i', 'n', 'f'] else ['i', 'n', 'f']
  | undefined => ['n', 'a', 'n']

/-- The number with `places` decimal places. -/
def fixed (places : Nat) (r : Reading) : List Char :=
  r.text fun q => Decimal.fixedChars places (Decimal.scaled places q)

/-- The number with one digit before the point, `places` after it, and an exponent. -/
def scientific (places : Nat) (r : Reading) : List Char :=
  r.text fun q =>
    let (n, e) := Decimal.significant places q
    Decimal.fixedChars places n ++ 'e' :: Decimal.exponentChars e

/-- The number with six significant digits and no zeros at the end: positional while the exponent
is between -4 and 5, with an exponent otherwise. -/
def general (r : Reading) : List Char :=
  r.text fun q =>
    let (n, e) := Decimal.significant 5 q
    if -4 ≤ e ∧ e < 6 then
      Decimal.trimPlaces (Decimal.fixedChars (5 - e).toNat n)
    else
      Decimal.trimPlaces (Decimal.fixedChars 5 n) ++ 'e' :: Decimal.exponentChars e

end Reading

end WallPanel
