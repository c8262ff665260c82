import WallPanel.Fault
import WallPanel.Number.Decimal
import WallPanel.Statement.Tokens

/-!
# Writing statements

How numbers and statements are written back after an edit.

* `formatNumber`: a number with at most three decimal places.
* `writeStatement`, `writeCurve`: a command with its numbers; a curve keeps its flag as the fourth
  token.
* `shiftStatement`: a statement with some of its numbers moved and all else kept as it is spelled.
* `shiftStatementAt`: the same with positions that may count from the end.
-/

namespace WallPanel

namespace Decimal

/-- A count of thousandths without zeros at the end: the point is written only before a digit that
counts. -/
def thousandths (units : Nat) : List Char :=
  let whole := digits (units / 1000)
  let places := ((padded 3 (units % 1000)).reverse.dropWhile (· == '0')).reverse
  if places.isEmpty then whole else whole ++ '.' :: places

end Decimal

/-- A reading with at most three decimal places and no zeros at the end. What rounds to zero has no
sign, and what is not finite is written as zero. -/
def Reading.plain : Reading → List Char
  | .finite negative magnitude =>
    let units := Decimal.scaled 3 magnitude
    (if negative && units != 0 then ['-'] else []) ++ Decimal.thousandths units
  | _ => ['0']

section Numbers

variable {α : Type} [Scalar α]

/-- A number as statements write it. -/
def formatNumber (x : α) : String :=
  String.ofList (Scalar.reading x).plain

/-- Tokens with a comma between each two. -/
def joinTokens (ts : List String) : String :=
  String.ofList (Separated.join ',' (ts.map String.toList))

/-- A command word with its tokens. -/
def joinCommand (word : String) (ts : List String) : String :=
  word ++ " " ++ joinTokens ts

/-- A statement of a command with numbers. -/
def writeStatement (word : String) (numbers : List α) : String :=
  if numbers.isEmpty then word else joinCommand word (numbers.map formatNumber)

/-- A statement of a curve. The flag follows the third number; one that is empty or a plain number
is left out. -/
def writeCurve (word : String) (numbers : List α) (flag : Option String) : String :=
  let parts := numbers.map formatNumber
  match flag with
  | some f =>
    if f.isEmpty || isNumeral f then joinCommand word parts
    else joinCommand word (parts.take 3 ++ f :: parts.drop 3)
  | none => joinCommand word parts

/-- Move the number at one position of a list of tokens. -/
def shiftToken? (ts : List String) (i : Nat) (distance : α) : Option (List String) := do
  let token ← ts[i]?
  let x : α ← tokenNumber? token
  return ts.set i (formatNumber (x + distance))

/-- Move the numbers at some positions of a list of tokens, one after the other. -/
def shiftTokens? (ts : List String) (positions : List Nat) (distance : α) : Option (List String) :=
  positions.foldlM (fun ts i => shiftToken? ts i distance) ts

/-- The statement with `distance` added to the tokens at some positions. There is no answer if the
statement is empty, or if one of those tokens is missing or no plain number. -/
def shiftStatement (statement : String) (positions : List Nat) (distance : α) : Option String :=
  if statement.isEmpty then none
  else
    let (word, body) := splitCommand statement
    (shiftTokens? (tokens body) positions distance).map (joinCommand word)

/-! ## Positions from the end -/

/-- The position that an integer means in a list of some length: a negative one counts from the
end. There is none before the start. -/
def positionOf? (length : Nat) (i : Int) : Option Nat :=
  if 0 ≤ i then some i.toNat
  else if 0 ≤ length + i then some (length + i).toNat
  else none

/-- Move the numbers at some positions of a list of tokens, one after the other, up to the first
that cannot be moved. -/
def shiftTokensAt (ts : List String) (distance : α) : List Int → Except Fault (Option (List String))
  | [] => .ok (some ts)
  | i :: positions =>
    match positionOf? ts.length i with
    | none => .error .noPosition
    | some k =>
      match shiftToken? ts k distance with
      | some ts => shiftTokensAt ts distance positions
      | none => .ok none

/-- The statement with `distance` added to the tokens at some positions, which may count from the
end. -/
def shiftStatementAt (statement : String) (positions : List Int) (distance : α) :
    Except Fault (Option String) :=
  if statement.isEmpty then .ok none
  else do
    let (word, body) := splitCommand statement
    return (← shiftTokensAt (tokens body) distance positions).map (joinCommand word)

end Numbers

end WallPanel
