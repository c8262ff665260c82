import WallPanel.Data.Json
import WallPanel.Text.Printable

/-!
# Quoted text

Texts within single quotes, as messages show them. What does not show is escaped by its code
point.
-/

namespace WallPanel.Quoted

/-- The low `width` digits of a number in base sixteen. -/
def hexDigits : Nat → Nat → List Char
  | 0, _ => []
  | width + 1, n => hexDigits width (n / 16) ++ [Json.hexDigit (n % 16)]

/-- The escape of a code point, with as few digits as its size needs. -/
def escapedCode (code : Nat) : List Char :=
  if code < 0x100 then '\\' :: 'x' :: hexDigits 2 code
  else if code < 0x10000 then '\\' :: 'u' :: hexDigits 4 code
  else '\\' :: 'U' :: hexDigits 8 code

/-- A code point within quotes. -/
def escaped (quote : Char) (code : Nat) : List Char :=
  let c := Char.ofNat code
  if c = quote ∨ c = '\\' then ['\\', c]
  else if c = '\n' then ['\\', 'n']
  else if c = '\r' then ['\\', 'r']
  else if c = '\t' then ['\\', 't']
  else if Printable.isPrintable code then [c]
  else escapedCode code

/-- The quotes of a text: single ones, unless it holds these and no double ones. -/
def quoteOf (codes : List Nat) : Char :=
  if codes.contains 0x27 && !codes.contains 0x22 then '"' else '\x27'

/-- A text by its code points with its quotes. -/
def renderCodes (codes : List Nat) : String :=
  let quote := quoteOf codes
  String.ofList (quote :: codes.flatMap (escaped quote) ++ [quote])

/-- An octet within quotes. Only those of ASCII show. -/
def escapedOctet (quote : Char) (value : Nat) : List Char :=
  if value < 0x7F then escaped quote value else escapedCode value

/-- Octets with their quotes, and a mark in front that they are no text. -/
def renderOctets (values : List Nat) : String :=
  let quote := quoteOf values
  String.ofList ('b' :: quote :: values.flatMap (escapedOctet quote) ++ [quote])

/-- A text with its quotes. -/
def render (cs : List Char) : String :=
  renderCodes (cs.map Char.toNat)

end WallPanel.Quoted
