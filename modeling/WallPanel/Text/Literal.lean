import WallPanel.Text.Blank
import WallPanel.Text.Digit

/-!
# Number literals

The numbers of options, which may be written in more ways than those of a document: with white
space around them, a sign, single underscores between digits, the digits of any script, an
exponent, and words for what is not finite.

* `Literal.scan?`: the parts of the number that characters are.
* `Literal.value`: the float of such a number.
* `Literal.float?`, `Literal.floatOfOctets?`: the float that a text is, or that octets are.
-/

namespace WallPanel.Literal

/-! ## Characters -/

/-- A decimal digit of any script as the plain digit. -/
def plainDigit (c : Char) : Char :=
  match Digit.value? c with
  | some d => Char.ofNat (48 + d)
  | none => c

/-- Drop the underscores of a text, each of which has to stand between two digits. -/
def joinDigits? : List Char → Option (List Char)
  | [] => some []
  | '_' :: _ => none
  | [c] => some [c]
  | c :: '_' :: d :: cs =>
    if Digit.isDigit c && Digit.isDigit d then (joinDigits? (d :: cs)).map (c :: ·) else none
  | c :: d :: cs => (joinDigits? (d :: cs)).map (c :: ·)

/-- A text without the white space around it and the underscores in it, its digits plain. -/
def clean? (text : String) : Option (List Char) :=
  joinDigits? ((Blank.trimSpace text.toList).map plainDigit)

/-- A sign, whether it is a minus, and the rest. -/
def scanSign : List Char → Bool × List Char
  | '-' :: cs => (true, cs)
  | '+' :: cs => (false, cs)
  | cs => (false, cs)

/-! ## Floats -/

/-- The parts of a number without its sign. -/
inductive Magnitude where
  /-- `digits * 10 ^ exponent`. -/
  | decimal (digits : List Nat) (exponent : Int)
  | infinite
  | undefined
deriving DecidableEq, Repr

/-- The exponent that a text is as a whole; none at all counts as zero. -/
def scanExponent? : List Char → Option Int
  | [] => some 0
  | c :: cs =>
    if c = 'e' ∨ c = 'E' then
      let (negative, rest) := scanSign cs
      match Digit.span rest with
      | (d :: ds, []) =>
        let n : Int := Digit.toNat (d :: ds)
        some (if negative then -n else n)
      | _ => none
    else none

/-- A decimal number as a text is one as a whole. There is a digit before the point or after it. -/
def scanDecimal? (cs : List Char) : Option Magnitude := do
  let (whole, rest) := Digit.span cs
  let (places, after) := match rest with
    | '.' :: cs => Digit.span cs
    | _ => ([], rest)
  let exponent ← scanExponent? after
  if whole.isEmpty && places.isEmpty then none
  else return .decimal (whole ++ places) (exponent - places.length)

/-- The words for numbers that are not finite; the case of letters does not count. -/
def scanWord? (cs : List Char) : Option Magnitude :=
  let word := String.ofList (cs.map Char.toLower)
  if word = "inf" ∨ word = "infinity" then some .infinite
  else if word = "nan" then some .undefined
  else none

/-- The parts of the number that characters are: whether it has a minus sign, and its magnitude. -/
def scan? (cs : List Char) : Option (Bool × Magnitude) := do
  let (negative, rest) := scanSign cs
  let magnitude ← scanWord? rest <|> scanDecimal? rest
  return (negative, magnitude)

/-- The float nearest to `digits * 10 ^ exponent`. Magnitudes that are out of reach are told by the
place of the first digit that counts. -/
def decimalFloat (digits : List Nat) (exponent : Int) : Float :=
  let ds := digits.dropWhile (· = 0)
  let top : Int := exponent + ds.length
  if ds.isEmpty || top < -400 then 0.0
  else if 400 < top then 1.0 / 0.0
  else if exponent < 0 then Float.ofScientific (Digit.toNat ds) true exponent.natAbs
  else Float.ofScientific (Digit.toNat ds) false exponent.natAbs

/-- The float of a magnitude. -/
def Magnitude.toFloat : Magnitude → Float
  | .decimal digits exponent => decimalFloat digits exponent
  | .infinite => 1.0 / 0.0
  | .undefined => 0.0 / 0.0

/-- The float of a number given by its parts. -/
def value : Bool × Magnitude → Float
  | (negative, magnitude) => if negative then -magnitude.toFloat else magnitude.toFloat

/-- The float that a text is. -/
def float? (text : String) : Option Float :=
  ((clean? text).bind scan?).map value

/-- The float that octets are as ASCII. -/
def floatOfOctets? (values : List Nat) : Option Float :=
  if values.all (· < 128) then float? (String.ofList (values.map Char.ofNat)) else none

end WallPanel.Literal
