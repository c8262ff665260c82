/-!
# Places in a text

A text is read from front to back. A cursor is what is left of it together with its place, which is
counted in characters, lines and columns.

* `Mark`: a place.
* `Cursor.advance`, `Cursor.spanUntil`, `Cursor.takeBreak?`: the ways to go on.
* `Cursor.atSeparator`: whether a document ends here.
-/

namespace WallPanel.Yaml

/-! ## Characters -/

/-- Whether a character ends a line. -/
def isBreak (c : Char) : Bool :=
  c = '\n' || c = '\r' || c = '\u0085' || c = '\u2028' || c = '\u2029'

/-- Whether a character is a blank within a line. -/
def isGap (c : Char) : Bool :=
  c = ' ' || c = '\t'

/-- Whether a line ends before what comes next. -/
def endsLine (next : Option Char) : Bool :=
  next.all isBreak

/-- Whether a part ends before what comes next: at a space or with the line. -/
def endsPart (next : Option Char) : Bool :=
  next.all fun c => c = ' ' || isBreak c

/-- Whether a word ends before what comes next: at a blank or with the line. -/
def endsWord (next : Option Char) : Bool :=
  next.all fun c => isGap c || isBreak c

/-- Whether a character may stand in a name. -/
def isNameCharacter (c : Char) : Bool :=
  c.isAlphanum || c = '-' || c = '_'

/-! ## Marks -/

/-- A place in a text: the number of characters before it, of lines before its own, and of
characters before it in its line. -/
structure Mark where
  index : Nat
  line : Nat
  column : Nat
deriving DecidableEq, Repr

namespace Mark

/-- The place of the first character. -/
def origin : Mark := ⟨0, 0, 0⟩

/-- The place after a character that stands at a place and has `next` after it. A byte order mark
takes no column. -/
def after (m : Mark) (c : Char) (next : Option Char) : Mark :=
  if isBreak c && !(c = '\r' && next = some '\n') then ⟨m.index + 1, m.line + 1, 0⟩
  else if c = '\ufeff' then ⟨m.index + 1, m.line, m.column⟩
  else ⟨m.index + 1, m.line, m.column + 1⟩

end Mark

/-! ## Cursors -/

/-- What is left of a text, and its place. -/
structure Cursor where
  rest : List Char
  mark : Mark
deriving Repr

namespace Cursor

def ofText (text : String) : Cursor :=
  ⟨text.toList, .origin⟩

/-- The next character. -/
def peek (c : Cursor) : Option Char :=
  c.rest.head?

/-- The character after so many. -/
def ahead (c : Cursor) (n : Nat) : Option Char :=
  c.rest[n]?

/-- The column as an integer, to be compared with an indentation. -/
def column (c : Cursor) : Int :=
  c.mark.column

/-- Go on by one character. -/
def advance (c : Cursor) : Cursor :=
  match c.rest with
  | [] => c
  | ch :: rest => ⟨rest, c.mark.after ch rest.head?⟩

/-- Go on by a number of characters. -/
def advanceBy : Nat → Cursor → Cursor
  | 0, c => c
  | n + 1, c => advanceBy n c.advance

/-- The characters from a place up to one that stops, which is judged with the one after it. -/
def spanFrom (stops : Char → Option Char → Bool) : List Char → Mark → List Char × Cursor
  | [], m => ([], ⟨[], m⟩)
  | ch :: rest, m =>
    if stops ch rest.head? then ([], ⟨ch :: rest, m⟩)
    else
      let (cs, c) := spanFrom stops rest (m.after ch rest.head?)
      (ch :: cs, c)

/-- The characters up to one that stops, and what is left. -/
def spanUntil (stops : Char → Option Char → Bool) (c : Cursor) : List Char × Cursor :=
  spanFrom stops c.rest c.mark

/-- The characters of a class, and what is left. -/
def span (p : Char → Bool) (c : Cursor) : List Char × Cursor :=
  c.spanUntil fun ch _ => !p ch

/-- What is left after the characters of a class. -/
def skip (p : Char → Bool) (c : Cursor) : Cursor :=
  (c.span p).2

/-- What is left after spaces. -/
def skipSpaces (c : Cursor) : Cursor :=
  c.skip (· = ' ')

/-- What is left after the spaces before a column. -/
def skipIndent (indent : Int) : Nat → Cursor → Cursor
  | 0, c => c
  | fuel + 1, c =>
    if c.column < indent && c.peek = some ' ' then skipIndent indent fuel c.advance else c

/-- What is left after a comment. -/
def skipComment (c : Cursor) : Cursor :=
  if c.peek = some '#' then c.skip (!isBreak ·) else c

/-- The line end that comes next, and what is left. Only separators of lines and of paragraphs are
kept as they are; the others all are a line feed. -/
def takeBreak? (c : Cursor) : Option (Char × Cursor) :=
  match c.rest with
  | '\r' :: '\n' :: _ => some ('\n', c.advance.advance)
  | ch :: _ =>
    if ch = '\u2028' || ch = '\u2029' then some (ch, c.advance)
    else if isBreak ch then some ('\n', c.advance)
    else none
  | [] => none

/-- Whether three characters stand here as a word. -/
def atMarker (c : Cursor) (ch : Char) : Bool :=
  [ch, ch, ch].isPrefixOf c.rest && endsWord (c.ahead 3)

/-- Whether a document starts or ends here. -/
def atSeparator (c : Cursor) : Bool :=
  c.atMarker '-' || c.atMarker '.'

/-- A number of steps that is enough for what is left. -/
def fuel (c : Cursor) : Nat :=
  c.rest.length + 1

end Cursor

/-- How a line end within a text over several lines is read, given those of the empty lines after
it: a single line feed is a space. -/
def foldedBreak (lineEnd : Char) (breaks : List Nat) : List Nat :=
  if lineEnd ≠ '\n' then [lineEnd.toNat]
  else if breaks.isEmpty then [0x20]
  else []

end WallPanel.Yaml
