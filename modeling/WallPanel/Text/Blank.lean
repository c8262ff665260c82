/-!
# White space

Which characters count as blank, and the trimming built on it.

* `Blank.blanks`: the 29 blank characters: the separators of Unicode (spaces, lines and
  paragraphs) and the control characters that move the position or separate records.
* `Blank.isSpace`: whether a character is white space in the narrower sense of Unicode.
* `Blank.trim`, `Blank.trimEnd`: a text without the blanks around it, or after it.
* `Blank.trimSpace`: a text without the white space around it.

The zero-width space and the byte order mark are not blank.
-/

namespace WallPanel.Blank

/-- The code points of the blank characters, in order. -/
def blanks : List Nat :=
  [
    0x9, 0xA, 0xB, 0xC, 0xD, 0x1C, 0x1D, 0x1E, 0x1F, 0x20, 0x85, 0xA0, 0x1680, 0x2000, 0x2001,
    0x2002, 0x2003, 0x2004, 0x2005, 0x2006, 0x2007, 0x2008, 0x2009, 0x200A, 0x2028, 0x2029,
    0x202F, 0x205F, 0x3000
  ]

/-- Whether a character is blank. -/
def isBlank (c : Char) : Bool :=
  blanks.contains c.toNat

/-- Whether a character is white space: a blank that does not separate records. -/
def isSpace (c : Char) : Bool :=
  isBlank c && !('\x1c' ≤ c && c ≤ '\x1f')

/-- Drop the blanks in front. -/
def trimStart (cs : List Char) : List Char :=
  cs.dropWhile isBlank

/-- Drop the characters at the end that satisfy `p`. -/
def dropEndWhile (p : Char → Bool) (cs : List Char) : List Char :=
  (cs.reverse.dropWhile p).reverse

/-- Drop the blanks at the end. -/
def trimEnd (cs : List Char) : List Char :=
  dropEndWhile isBlank cs

/-- Drop the blanks on both sides. -/
def trim (cs : List Char) : List Char :=
  trimEnd (trimStart cs)

/-- Drop the white space on both sides. -/
def trimSpace (cs : List Char) : List Char :=
  dropEndWhile isSpace (cs.dropWhile isSpace)

end WallPanel.Blank

namespace WallPanel

/-- The text without the blanks on both sides. -/
def trimmed (s : String) : String :=
  String.ofList (Blank.trim s.toList)

/-- The text without the blanks at its end. -/
def trimmedEnd (s : String) : String :=
  String.ofList (Blank.trimEnd s.toList)

end WallPanel
