import WallPanel.Data.Datum
import WallPanel.Data.Yaml.Flaw
import WallPanel.Data.Yaml.Spelling
import WallPanel.Text.LetterCase
import WallPanel.Text.Literal

/-!
# Values of scalars

What a scalar stands for, given what it is taken for. Texts are given by their code points.

* `Spelling.value`: the value of a text.
-/

namespace WallPanel.Yaml

/-- The text of code points. -/
def textOf (codes : List Nat) : Datum :=
  if codes.all fun n => n.isValidChar then .text (String.ofList (charactersOf codes))
  else .codes codes

/-- The code points of characters. -/
def toCodes (cs : List Char) : List Nat :=
  cs.map Char.toNat

/-- A text without underscores. -/
def dropUnderscores (codes : List Nat) : List Nat :=
  codes.filter (· ≠ 0x5F)

namespace Spelling

/-! ## Integers -/

/-- The value of a digit of a base, which may be of any script. -/
def digitOf? (base : Nat) (c : Char) : Option Nat :=
  let value? := Digit.value? c <|>
    (if 'a' ≤ c ∧ c ≤ 'z' then some (c.toNat - 87)
    else if 'A' ≤ c ∧ c ≤ 'Z' then some (c.toNat - 55)
    else none)
  value?.filter (· < base)

/-- Digits without the mark in front that tells their base. -/
def dropBaseMark (base : Nat) : List Char → List Char
  | '0' :: c :: cs =>
    if (base, c.toLower) = (2, 'b') || (base, c.toLower) = (8, 'o') || (base, c.toLower) = (16, 'x')
    then cs
    else '0' :: c :: cs
  | cs => cs

/-- The integer of digits of a base, with white space around them and a sign. Only in a base that is
no power of two the number of digits is limited. -/
def basedInt (base : Nat) (codes : List Nat) : Except ValueProblem Int :=
  let cs := Blank.trimSpace (charactersOf codes)
  let (negative, digits) := (Literal.scanSign cs).map id (dropBaseMark base)
  let values := digits.map (digitOf? base)
  if base = 10 && Fault.digitLimit < (values.takeWhile (·.isSome)).length then
    .error (.tooManyDigits (values.takeWhile (·.isSome)).length)
  else if digits.isEmpty || values.any (·.isNone) then .error (.noInteger base codes)
  else
    let size := (values.filterMap id).foldl (fun n d => base * n + d) 0
    .ok (if negative then -(size : Int) else size)

/-- Split a sign off a text, which is not empty. -/
def splitSign : List Nat → Except ValueProblem (Bool × List Nat)
  | [] => .error .emptyNumber
  | 0x2D :: rest => .ok (true, rest)
  | 0x2B :: rest => .ok (false, rest)
  | codes => .ok (false, codes)

/-- The pieces between colons. -/
def splitColons (codes : List Nat) : List (List Nat) :=
  (Separated.split ':' (charactersOf codes)).map toCodes

/-- The integer of digits without a sign. -/
def unsignedInt (codes : List Nat) : Except ValueProblem Int := do
  match codes with
  | [] => .error .emptyNumber
  | [0x30] => return 0
  | 0x30 :: 0x62 :: digits => basedInt 2 digits
  | 0x30 :: 0x78 :: digits => basedInt 16 digits
  | 0x30 :: _ => basedInt 8 codes
  | _ =>
    if codes.contains 0x3A then
      let parts ← (splitColons codes).mapM (basedInt 10)
      return parts.foldl (fun n d => 60 * n + d) 0
    else basedInt 10 codes

/-- The integer that a text is taken for. -/
def int? (codes : List Nat) : Except ValueProblem Datum := do
  let (negative, rest) ← splitSign (dropUnderscores codes)
  let n ← unsignedInt rest
  return .int (if negative then -n else n)

/-! ## Floats -/

/-- The float that a text is as it stands. -/
def plainFloat (codes : List Nat) : Except ValueProblem Float :=
  match Literal.float? (String.ofList (charactersOf codes)) with
  | some x => .ok x
  | none => .error (.noNumber codes)

/-- The number of a row of numbers, the last of which counts once and each before it sixty times as
much as the one after it. -/
def sexagesimal (parts : List Float) : Except ValueProblem Float := do
  let (sum, _) ← parts.reverse.foldlM (fun (sum, base) x =>
    if (Float.ofNat base).isFinite then .ok (sum + x * Float.ofNat base, 60 * base)
    else .error .tooLarge) (0.0, 1)
  return sum

/-- The float of a text without a sign. -/
def unsignedFloat (codes : List Nat) : Except ValueProblem Float := do
  let word := String.ofList (charactersOf codes)
  if word = ".inf" then return 1.0 / 0.0
  else if word = ".nan" then return 0.0 / 0.0
  else if codes.contains 0x3A then
    sexagesimal (← (splitColons codes).mapM plainFloat)
  else plainFloat codes

/-- The float that a text is taken for. The case of its letters does not count. -/
def float? (codes : List Nat) : Except ValueProblem Datum := do
  let (negative, rest) ← splitSign (dropUnderscores (LetterCase.lowerCodes codes))
  let x ← unsignedFloat rest
  return .float (if negative then -x else x)

/-! ## Others -/

/-- The truth value that a word is taken for. The case of its letters does not count. -/
def bool? (codes : List Nat) : Except ValueProblem Datum :=
  let lower := LetterCase.lowerCodes codes
  let word := String.ofList (charactersOf lower)
  if [ "yes", "true", "on" ].contains word then .ok (.bool true)
  else if [ "no", "false", "off" ].contains word then .ok (.bool false)
  else .error (.noBool lower)

/-- The number of plain digits. -/
def number (cs : List Char) : Nat :=
  Digit.toNat (cs.map fun c => c.toNat - 48)

/-- The day or moment that a text is taken for. A line feed may end the text. -/
def moment? (codes : List Nat) : Except ValueProblem Datum :=
  let line := if codes.getLast? = some 0xA then codes.dropLast else codes
  match scanMoment? (charactersOf line) with
  | none => .error .noMoment
  | some ⟨year, month, day, none, _, _⟩ =>
    ((Day.ofNumbers (number year) (number month) (number day)).map Datum.date).mapError .calendar
  | some ⟨year, month, day, some (hour, minute, second), fraction, ahead⟩ =>
    let micro := number ((fraction ++ List.replicate 6 '0').take 6)
    let minutesAhead : Option Int := ahead.map fun (sign, hours, minutes) =>
      let n : Int := 60 * number hours + number minutes
      if sign = '-' then -n else n
    ((Moment.ofNumbers (number year) (number month) (number day) (number hour) (number minute)
      (number second) micro minutesAhead).map Datum.moment).mapError .calendar

/-- What a text stands for that is taken for a value of some kind; none if there is no such
value. -/
def value? (codes : List Nat) : Spelling → Option (Except ValueProblem Datum)
  | null => some (.ok .null)
  | bool => some (bool? codes)
  | int => some (int? codes)
  | float => some (float? codes)
  | moment => some (moment? codes)
  | text => some (.ok (textOf codes))
  | merge => none
  | value => none

end Spelling

end WallPanel.Yaml
