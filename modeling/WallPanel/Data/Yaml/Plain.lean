import WallPanel.Data.Yaml.Flaw

/-!
# Plain scalars

Texts without quotes. A colon before a blank ends one, and so does a comment; within brackets the
characters that structure what stands there do as well. A text goes on over the lines that stand
further in.

* `Cursor.startsPlain`: whether such a text can start here.
* `Cursor.plainScalar`: the text that starts here.
-/

namespace WallPanel.Yaml

/-- The characters that no text without quotes starts with, unless a dash, a question mark or a
colon has a text right after it. -/
def plainIndicators : List Char :=
  ['-', '?', ':', ',', '[', ']', '\x7b', '\x7d', '#', '&', '*', '!', '|', '>', '\x27', '"', '%',
    '@', '\x60']

/-- The characters that structure what stands in brackets. -/
def flowIndicators : List Char :=
  [',', '[', ']', '\x7b', '\x7d']

/-- Whether a text without quotes ends before a character. -/
def endsPlain (inFlow : Bool) (c : Char) (next : Option Char) : Bool :=
  isGap c || isBreak c ||
    (c = ':' && (endsWord next || (inFlow && next.any flowIndicators.contains))) ||
    (inFlow && (c = '?' || flowIndicators.contains c))

/-- What stands between two runs of a text without quotes. -/
structure PlainGap where
  /-- What it stands for, nothing if the text cannot go on after it. -/
  codes : List Nat
  /-- Whether a line ends in it. -/
  hasBreak : Bool
  after : Cursor
deriving Repr

/-- A text without quotes. -/
structure PlainText where
  codes : List Nat
  /-- The place after its last character. -/
  stop : Mark
  /-- Whether a line ends between it and what is left. -/
  hasBreak : Bool
  after : Cursor
deriving Repr

namespace Cursor

/-- Whether a text without quotes can start here. -/
def startsPlain (inFlow : Bool) (c : Cursor) : Bool :=
  match c.rest with
  | [] => false
  | ch :: rest =>
    !(isGap ch || isBreak ch || plainIndicators.contains ch) ||
      (!endsWord rest.head? && (ch = '-' || (!inFlow && (ch = '?' || ch = ':'))))

/-- The line ends up to the next line that says something, none if a document ends on the way, and
what is left. -/
def plainBreaks : Nat → Cursor → Option (List Nat) × Cursor
  | 0, c => (some [], c)
  | fuel + 1, c =>
    let c := c.skipSpaces
    match c.takeBreak? with
    | none => (some [], c)
    | some (lineEnd, c) =>
      if c.atSeparator then (none, c)
      else
        let (breaks, c) := plainBreaks fuel c
        (breaks.map (lineEnd.toNat :: ·), c)

/-- What stands after a run of a text without quotes. -/
def plainGap (c : Cursor) : PlainGap :=
  let (spaces, c) := c.span (· = ' ')
  match c.takeBreak? with
  | none => ⟨spaces.map Char.toNat, false, c⟩
  | some (lineEnd, c) =>
    if c.atSeparator then ⟨[], true, c⟩
    else
      match plainBreaks c.fuel c with
      | (some breaks, c) => ⟨foldedBreak lineEnd breaks ++ breaks, true, c⟩
      | (none, c) => ⟨[], true, c⟩

/-- The runs of a text without quotes that stand at a least column. -/
def plainRuns (inFlow : Bool) (indent : Int) : Nat → Cursor → PlainText
  | 0, c => ⟨[], c.mark, false, c⟩
  | fuel + 1, c =>
    let (run, stop) := c.spanUntil (endsPlain inFlow)
    let gap := stop.plainGap
    let more := if gap.codes.isEmpty || gap.after.peek = some '#' ||
        (!inFlow && gap.after.column < indent) then none
      else if (gap.after.spanUntil (endsPlain inFlow)).1.isEmpty then none
      else some (plainRuns inFlow indent fuel gap.after)
    match more with
    | none => ⟨run.map Char.toNat, stop.mark, gap.hasBreak, gap.after⟩
    | some text => { text with codes := run.map Char.toNat ++ gap.codes ++ text.codes }

/-- The text without quotes that starts here. -/
def plainScalar (inFlow : Bool) (indent : Int) (c : Cursor) : PlainText :=
  plainRuns inFlow indent c.fuel c

end Cursor

end WallPanel.Yaml
