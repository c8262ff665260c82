import WallPanel.Data.Yaml.Flaw

/-!
# Scalars in quotes

Texts within single or double quotes, by their code points. A line end within them is a space, and
an empty line a line feed. Only double quotes have escapes, which may give code points that are no
characters.

* `Cursor.quotedScalar`: the text that starts at a quote.
-/

namespace WallPanel.Yaml

/-- The quotes of a scalar. -/
inductive QuoteStyle where
  | single
  | double
deriving DecidableEq, Repr

/-! ## Escapes -/

/-- The code points that a character after a backslash stands for. -/
def escapeCodes : List (Char × Nat) :=
  [('0', 0x0), ('a', 0x7), ('b', 0x8), ('t', 0x9), ('\t', 0x9), ('n', 0xA), ('v', 0xB), ('f', 0xC),
    ('r', 0xD), ('e', 0x1B), (' ', 0x20), ('"', 0x22), ('\\', 0x5C), ('/', 0x2F), ('N', 0x85),
    ('_', 0xA0), ('L', 0x2028), ('P', 0x2029)]

/-- The number of hexadecimal digits after a letter that needs them. -/
def escapeWidths : List (Char × Nat) :=
  [('x', 2), ('u', 4), ('U', 8)]

/-- The value of a hexadecimal digit. -/
def hexValue? (c : Char) : Option Nat :=
  if '0' ≤ c ∧ c ≤ '9' then some (c.toNat - 48)
  else if 'a' ≤ c ∧ c ≤ 'f' then some (c.toNat - 87)
  else if 'A' ≤ c ∧ c ≤ 'F' then some (c.toNat - 55)
  else none

/-- The number of hexadecimal digits, as far as they go. -/
def hexNumber (cs : List Char) : Nat :=
  (cs.filterMap hexValue?).foldl (fun n d => 16 * n + d) 0

namespace Cursor

/-- The code point of a number of hexadecimal digits. -/
def hexEscape (start : Mark) (width : Nat) (c : Cursor) : Except Flaw (List Nat × Cursor) :=
  match (List.range width).find? fun k => !(c.ahead k).any fun d => (hexValue? d).isSome with
  | some k =>
    .error (.scan .doubleQuoted start (.expected (.escapeDigits width) (c.ahead k)) c.mark)
  | none =>
    let code := hexNumber (c.rest.take width)
    if code < 0x110000 then .ok ([code], c.advanceBy width)
    else .error (.value (.noCharacter code))

/-- The line ends up to the next line that says something. A document cannot end there. -/
def quotedBreaks (start : Mark) : Nat → Cursor → Except Flaw (List Nat × Cursor)
  | 0, c => .ok ([], c)
  | fuel + 1, c =>
    if c.atSeparator then .error (.scan .quotedScalar start .unexpectedSeparator c.mark)
    else
      let c := c.skip isGap
      match c.takeBreak? with
      | none => .ok ([], c)
      | some (lineEnd, c) => do
        let (breaks, c) ← quotedBreaks start fuel c
        return (lineEnd.toNat :: breaks, c)

/-- What an escape stands for, given what is left after its backslash. A line end that is escaped
stands for nothing. -/
def escape (start : Mark) (c : Cursor) : Except Flaw (List Nat × Cursor) :=
  let code? := c.peek.bind fun letter => escapeCodes.lookup letter
  let width? := c.peek.bind fun letter => escapeWidths.lookup letter
  match code?, width?, c.takeBreak? with
  | some code, _, _ => .ok ([code], c.advance)
  | none, some width, _ => c.advance.hexEscape start width
  | none, none, some (_, c) => c.quotedBreaks start c.fuel
  | none, none, none => .error (.scan .doubleQuoted start (.unknownEscape c.peek) c.mark)

/-- What blanks and line ends stand for. -/
def quotedBlanks (start : Mark) (c : Cursor) : Except Flaw (List Nat × Cursor) :=
  let (blanks, c) := c.span isGap
  match c.peek, c.takeBreak? with
  | none, _ => .error (.scan .quotedScalar start .unexpectedEnd c.mark)
  | some _, none => .ok (blanks.map Char.toNat, c)
  | some _, some (lineEnd, c) => do
    let (breaks, c) ← c.quotedBreaks start c.fuel
    return (foldedBreak lineEnd breaks ++ breaks, c)

/-- The next piece of a text in quotes; none if the text ends here. -/
def quotedPiece? (style : QuoteStyle) (start : Mark) (c : Cursor) :
    Except Flaw (Option (List Nat × Cursor)) :=
  match style, c.rest with
  | .single, '\x27' :: '\x27' :: _ => .ok (some ([0x27], c.advance.advance))
  | .single, '\x27' :: _ => .ok none
  | .double, '"' :: _ => .ok none
  | .double, '\\' :: _ => (c.advance.escape start).map some
  | _, ch :: _ =>
    if isGap ch || isBreak ch then (c.quotedBlanks start).map some
    else .ok (some ([ch.toNat], c.advance))
  | _, [] => (c.quotedBlanks start).map some

/-- The text up to the quote that ends it, and what is left after that. -/
def quotedBody (style : QuoteStyle) (start : Mark) : Nat → Cursor → Except Flaw (List Nat × Cursor)
  | 0, c => .ok ([], c)
  | fuel + 1, c => do
    match ← c.quotedPiece? style start with
    | none => return ([], c.advance)
    | some (piece, c) =>
      let (rest, c) ← quotedBody style start fuel c
      return (piece ++ rest, c)

/-- The text that starts at a quote, and what is left after it. -/
def quotedScalar (style : QuoteStyle) (c : Cursor) : Except Flaw (List Nat × Cursor) :=
  quotedBody style c.mark c.fuel c.advance

end Cursor

end WallPanel.Yaml
