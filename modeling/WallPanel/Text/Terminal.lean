/-!
# Terminal text

Texts may hold control sequences, which set colours and the like where they are shown on a terminal.
Elsewhere they are left out.

* `Terminal.plain`: a text without its control sequences.
-/

namespace WallPanel.Terminal

/-- Whether a character is one of the parameters of a control sequence. -/
def isParameter (c : Char) : Bool :=
  c = ';' || c = '?' || c.isDigit

/-- What is left after a control sequence that starts a text: an escape, a bracket, parameters and
the letter that names it. -/
def afterSequence? : List Char → Option (List Char)
  | '\x1b' :: '[' :: cs =>
    match cs.dropWhile isParameter with
    | c :: rest => if c.isAlpha then some rest else none
    | [] => none
  | _ => none

/-- Leave out the control sequences of a text; the fuel is at least its length. -/
def plainFrom : Nat → List Char → List Char
  | _, [] => []
  | 0, cs => cs
  | fuel + 1, c :: cs =>
    match afterSequence? (c :: cs) with
    | some rest => plainFrom fuel rest
    | none => c :: plainFrom fuel cs

/-- A text without its control sequences. -/
def plain (s : String) : String :=
  String.ofList (plainFrom s.length s.toList)

end WallPanel.Terminal
