/-!
# UTF-8

Texts written as octets, from one to four for a character. A character has one way to be written.

* `Utf8.decode`: the text of octets, or the first octets that are none.
* `Utf8Reason.message`: the wording of what is wrong with them.
-/

namespace WallPanel

/-- Why octets are no text. -/
inductive Utf8Reason where
  /-- No character starts like this. -/
  | start
  /-- A character does not go on like this. -/
  | continuation
  /-- The octets end within a character. -/
  | ending
deriving DecidableEq, Repr

/-- Octets that are no text: they are given, and the number of those before them. -/
structure Utf8Fault where
  reason : Utf8Reason
  position : Nat
  octets : List Nat
deriving DecidableEq, Repr

namespace Utf8

/-- Whether an octet goes on with a character. -/
def isTail (n : Nat) : Bool :=
  0x80 ≤ n && n ≤ 0xBF

/-- What the first octet of a character says: its part of the code point, the tests of the octets
that follow, and nothing if no character starts with it. The test of the second octet leaves out
what has a shorter form, the halves of pairs, and what is beyond all characters. -/
def lead? (n : Nat) : Option (Nat × List (Nat → Bool)) :=
  if n < 0x80 then some (n, [])
  else if n < 0xC2 then none
  else if n < 0xE0 then some (n - 0xC0, [isTail])
  else if n < 0xF0 then
    some (n - 0xE0,
      [fun m => isTail m && !(n = 0xE0 && m < 0xA0) && !(n = 0xED && 0xA0 ≤ m), isTail])
  else if n < 0xF5 then
    some (n - 0xF0,
      [fun m => isTail m && !(n = 0xF0 && m < 0x90) && !(n = 0xF4 && 0x90 ≤ m), isTail, isTail])
  else none

/-- The code point that octets go on to make, with the octets left. Otherwise why they do not, and
how many of them could still. -/
def tail (code : Nat) : List (Nat → Bool) → List Nat → Except (Utf8Reason × Nat) (Nat × List Nat)
  | [], ns => .ok (code, ns)
  | _ :: _, [] => .error (.ending, 0)
  | test :: tests, n :: ns =>
    if test n then
      (tail (64 * code + (n - 0x80)) tests ns).mapError fun (reason, count) => (reason, count + 1)
    else .error (.continuation, 0)

/-- The text of octets that so many stand before; the fuel is at least their number. -/
def decodeFrom : Nat → Nat → List Nat → Except Utf8Fault (List Char)
  | _, _, [] => .ok []
  | 0, _, _ => .ok []
  | fuel + 1, position, n :: ns =>
    match lead? n with
    | none => .error ⟨.start, position, [n]⟩
    | some (code, tests) =>
      match tail code tests ns with
      | .error (reason, count) => .error ⟨reason, position, n :: ns.take count⟩
      | .ok (code, rest) => do
        let cs ← decodeFrom fuel (position + 1 + tests.length) rest
        return Char.ofNat code :: cs

/-- The text of octets. -/
def decode (ns : List Nat) : Except Utf8Fault (List Char) :=
  decodeFrom ns.length 0 ns

end Utf8

namespace Utf8Reason

def message : Utf8Reason → String
  | start => "invalid start byte"
  | continuation => "invalid continuation byte"
  | ending => "unexpected end of data"

end Utf8Reason

end WallPanel
