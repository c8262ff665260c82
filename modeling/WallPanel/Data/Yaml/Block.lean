import WallPanel.Data.Yaml.Flaw

/-!
# Block scalars

Texts of whole lines that stand further in than the line they belong to. After a bar the lines are
kept, after an angle they are joined. Marks after it say what becomes of the line ends at the end,
and how far in the lines stand.

* `BlockHeader`: the marks.
* `Cursor.blockScalar`: the text that starts here.
-/

namespace WallPanel.Yaml

/-- What becomes of the line ends at the end of a text. -/
inductive Chomping where
  | clip
  | keep
  | strip
deriving DecidableEq, Repr

/-- The marks of a text of whole lines. -/
structure BlockHeader where
  chomping : Chomping
  /-- How much further in the lines stand, if it is given. -/
  increment : Option Nat
deriving DecidableEq, Repr

namespace Cursor

/-- The mark for the line ends. -/
def chomping? (c : Cursor) : Option Chomping :=
  match c.peek with
  | some '+' => some .keep
  | some '-' => some .strip
  | _ => none

/-- The digit for how much further in the lines stand, none if there is none. It is not zero. -/
def increment? (start : Mark) (c : Cursor) : Except Flaw (Option Nat) :=
  match c.peek with
  | some '0' => .error (.scan .blockScalar start .zeroIndent c.mark)
  | some d => .ok (if d.isDigit then some (d.toNat - 48) else none)
  | none => .ok none

/-- What is left after a mark that may be there. -/
def advanceIf (c : Cursor) (there : Bool) : Cursor :=
  if there then c.advance else c

/-- The marks of a text, in either order, and what is left. -/
def blockHeader (start : Mark) (c : Cursor) : Except Flaw (BlockHeader × Cursor) := do
  let before := c.chomping?
  let c := c.advanceIf before.isSome
  let increment ← c.increment? start
  let c := c.advanceIf increment.isSome
  let behind := if before.isNone && increment.isSome then c.chomping? else none
  let c := c.advanceIf behind.isSome
  if endsPart c.peek then return (⟨(before <|> behind).getD .clip, increment⟩, c)
  else .error (.scan .blockScalar start (.expected .blockIndicator c.peek) c.mark)

/-- The empty lines before a text, the greatest column in them, and what is left. -/
def blockStart : Nat → Cursor → List Nat × Int × Cursor
  | 0, c => ([], 0, c)
  | fuel + 1, c =>
    match c.peek, c.takeBreak? with
    | some ' ', _ =>
      let (breaks, column, rest) := blockStart fuel c.advance
      (breaks, max c.advance.column column, rest)
    | _, some (lineEnd, c) =>
      let (breaks, column, rest) := blockStart fuel c
      (lineEnd.toNat :: breaks, column, rest)
    | _, none => ([], 0, c)

/-- The empty lines between the lines of a text that stand at a column, and what is left. -/
def blockBreaks (indent : Int) : Nat → Cursor → List Nat × Cursor
  | 0, c => ([], c)
  | fuel + 1, c =>
    let c := c.skipIndent indent c.fuel
    match c.takeBreak? with
    | none => ([], c)
    | some (lineEnd, c) =>
      let (breaks, c) := blockBreaks indent fuel c
      (lineEnd.toNat :: breaks, c)

/-- Whether a line of a text starts here. -/
def atBlockLine (indent : Int) (c : Cursor) : Bool :=
  c.column = indent && c.peek.isSome

/-- What the end of a line stands for that another line follows. Lines that start with a blank are
not joined. -/
def blockJoint (folded : Bool) (first next : Option Char) (lineEnd : List Nat)
    (breaks : List Nat) : List Nat :=
  if folded && lineEnd = [0xA] && !first.any isGap && !next.any isGap then
    if breaks.isEmpty then [0x20] else []
  else lineEnd

/-- The end of a text. -/
def blockEnd (chomping : Chomping) (lineEnd breaks : List Nat) : List Nat :=
  match chomping with
  | .clip => lineEnd
  | .keep => lineEnd ++ breaks
  | .strip => []

/-- The lines of a text, the first of which starts here, and what is left. -/
def blockLines (folded : Bool) (chomping : Chomping) (indent : Int) : Nat → Cursor →
    List Nat × Cursor
  | 0, c => ([], c)
  | fuel + 1, c =>
    let first := c.peek
    let (line, c) := c.span (!isBreak ·)
    let (lineEnd, c) := match c.takeBreak? with
      | some (lineEnd, c) => ([lineEnd.toNat], c)
      | none => ([], c)
    let (breaks, c) := blockBreaks indent c.fuel c
    if c.atBlockLine indent then
      let (rest, after) := blockLines folded chomping indent fuel c
      let joint := blockJoint folded first c.peek lineEnd breaks
      (line.map Char.toNat ++ joint ++ breaks ++ rest, after)
    else (line.map Char.toNat ++ blockEnd chomping lineEnd breaks, c)

/-- The text of whole lines that starts at its bar or angle, below a line of some indentation, and
what is left. -/
def blockScalar (folded : Bool) (outer : Int) (c : Cursor) : Except Flaw (List Nat × Cursor) := do
  let start := c.mark
  let (header, c) ← c.advance.blockHeader start
  let c ← c.endLine .blockScalar start
  let least := max (outer + 1) 1
  let (breaks, indent, c) := match header.increment with
    | some n =>
      let (breaks, c) := blockBreaks (least + n - 1) c.fuel c
      (breaks, least + n - 1, c)
    | none =>
      let (breaks, column, c) := c.blockStart c.fuel
      (breaks, max least column, c)
  if c.atBlockLine indent then
    let (text, c) := blockLines folded header.chomping indent c.fuel c
    return (breaks ++ text, c)
  else return (blockEnd header.chomping [] breaks, c)

end Cursor

end WallPanel.Yaml
