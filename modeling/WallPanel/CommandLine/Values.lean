import WallPanel.Text.Literal
import WallPanel.Text.Separated

/-!
# Numbers among arguments

How the numbers of the command line may be written. Digits are the plain ones, white space around a
number does not count, and a single underscore may stand anywhere but at the ends.

* `Argument.int?`: the integer that an argument is; a plus sign, zeros in front and a fraction of
  zeros say nothing.
* `Argument.float?`: the float that an argument is.
-/

namespace WallPanel.Argument

/-- Drop the underscores of a text. One of them at an end, or beside another, keeps them all. -/
def joinDigits (cs : List Char) : List Char :=
  let pieces := Separated.split '_' cs
  if pieces.all (!·.isEmpty) then pieces.flatten else cs

/-! ## Integers -/

/-- Drop a plus sign. No other sign may follow it. -/
def dropPlus? : List Char → Option (List Char)
  | '+' :: '-' :: _ => none
  | '+' :: cs => some cs
  | cs => some cs

/-- Drop the zeros in front of a number, and the underscores among them. The last of them stays
where no other digit follows. -/
def dropZeros? : List Char → Option (List Char)
  | [] => none
  | '0' :: cs =>
    let zeros := ('0' :: cs).takeWhile fun c => c = '0' || c = '_'
    let rest := cs.dropWhile fun c => c = '0' || c = '_'
    match rest with
    | [] => some (zeros.drop (zeros.length - 1))
    | '.' :: _ => some (zeros.drop (zeros.length - 1) ++ rest)
    | c :: _ => if c.isDigit then some rest else none
  | c :: cs => if c = '-' || c.isDigit then some (c :: cs) else none

/-- Drop a fraction of zeros, of which there has to be one. -/
def dropFraction (cs : List Char) : List Char :=
  match cs.dropWhile (· ≠ '.') with
  | '.' :: '0' :: zeros => if zeros.all (· = '0') then cs.takeWhile (· ≠ '.') else cs
  | _ => cs

/-- The most characters that an integer may have. -/
def lengthLimit : Nat := 4300

/-- The natural number of plain digits, the first of which is a zero only if it is alone. -/
def plainNat? (cs : List Char) : Option Nat :=
  if cs.isEmpty || !cs.all Char.isDigit || (cs.head? = some '0' && 1 < cs.length) then none
  else some (Digit.toNat (cs.map fun c => c.toNat - 48))

/-- The integer of plain digits after an optional minus sign. -/
def plainInt? : List Char → Option Int
  | '-' :: cs => (plainNat? cs).map fun n => -n
  | cs => (plainNat? cs).map fun n => n

/-- The integer that an argument is. -/
def int? (text : String) : Option Int := do
  let cs ← dropZeros? (← dropPlus? (Blank.trimSpace text.toList))
  let digits := joinDigits (dropFraction cs)
  if lengthLimit < digits.length then none else plainInt? digits

/-! ## Floats -/

/-- The float that characters are, with white space around it. -/
def plainFloat? (cs : List Char) : Option Float :=
  let cs := Blank.trimSpace cs
  if cs.all fun c => c.toNat < 128 then (Literal.scan? cs).map Literal.value else none

/-- The float that an argument is, as it stands or without its underscores. -/
def float? (text : String) : Option Float :=
  plainFloat? text.toList <|> plainFloat? (joinDigits text.toList)

end WallPanel.Argument
