/-!
# Base 64

Octets written as digits of base 64, four digits for three octets. Padding fills the last group, and
nothing after it counts. Other characters are skipped.

* `Base64.decode`: the octets of a text.
-/

namespace WallPanel

/-- Why a text has no octets. -/
inductive Base64Fault where
  /-- The last group is not full. -/
  | padding
  /-- The last group has a single digit, of which there are so many in all. -/
  | digitCount (count : Nat)
deriving DecidableEq, Repr

namespace Base64Fault

/-- The wording of a fault. -/
def message : Base64Fault → String
  | padding => "Incorrect padding"
  | digitCount count =>
    "Invalid base64-encoded string: number of data characters (" ++ toString count ++
      ") cannot be 1 more than a multiple of 4"

end Base64Fault

namespace Base64

/-- The value of a digit. -/
def digit? (code : Nat) : Option Nat :=
  if 0x41 ≤ code ∧ code ≤ 0x5A then some (code - 0x41)
  else if 0x61 ≤ code ∧ code ≤ 0x7A then some (code - 0x61 + 26)
  else if 0x30 ≤ code ∧ code ≤ 0x39 then some (code - 0x30 + 52)
  else if code = 0x2B then some 62
  else if code = 0x2F then some 63
  else none

/-- The digits of a text, and whether padding ends them: of the current group there are `placed`
digits, and padding for `padded` more. Padding counts only after two digits of a group. -/
def digits (placed padded : Nat) : List Nat → List Nat × Bool
  | [] => ([], false)
  | code :: codes =>
    if code = 0x3D then
      if placed < 2 then digits placed padded codes
      else if 4 ≤ placed + padded + 1 then ([], true)
      else digits placed (padded + 1) codes
    else
      match digit? code with
      | none => digits placed padded codes
      | some d =>
        let (ds, isEnded) := digits ((placed + 1) % 4) 0 codes
        (d :: ds, isEnded)

/-- The octets of digits. -/
def octets : List Nat → List Nat
  | a :: b :: c :: d :: ds =>
    (4 * a + b / 16) :: (16 * (b % 16) + c / 4) :: (64 * (c % 4) + d) :: octets ds
  | [a, b, c] => [4 * a + b / 16, 16 * (b % 16) + c / 4]
  | [a, b] => [4 * a + b / 16]
  | _ => []

/-- The octets of a text, which is given by its code points. -/
def decode (codes : List Nat) : Except Base64Fault (List Nat) :=
  let (ds, isEnded) := digits 0 0 codes
  if isEnded || ds.length % 4 = 0 then .ok (octets ds)
  else if ds.length % 4 = 1 then .error (.digitCount ds.length)
  else .error .padding

end Base64

end WallPanel
