import WallPanel.Data.Datum
import WallPanel.Number.Binary64

/-!
# JSON

Data as JSON text. Each item stands on a line of its own, two spaces further in than what holds it;
what is empty stays on one line. Texts are ASCII: any other character is escaped by its UTF-16
units.

* `Json.quoted`: a text with its quotes.
* `Datum.json`: a value.
-/

namespace WallPanel

namespace Json

/-- A digit of base sixteen. -/
def hexDigit (n : Nat) : Char :=
  Char.ofNat (if n < 10 then 48 + n else 87 + n)

/-- The escape of a UTF-16 unit. -/
def escapedUnit (unit : Nat) : List Char :=
  ['\\', 'u', hexDigit (unit / 4096 % 16), hexDigit (unit / 256 % 16), hexDigit (unit / 16 % 16),
    hexDigit (unit % 16)]

/-- The UTF-16 units of a code point. -/
def units (code : Nat) : List Nat :=
  if code < 0x10000 then [code]
  else [0xD800 + (code - 0x10000) / 0x400, 0xDC00 + (code - 0x10000) % 0x400]

/-- The characters that are escaped by one more character after a backslash. -/
def shortEscapes : List (Char × Char) :=
  [('"', '"'), ('\\', '\\'), ('\n', 'n'), ('\r', 'r'), ('\t', 't'), ('\x08', 'b'), ('\x0c', 'f')]

/-- A code point within quotes. -/
def escaped (code : Nat) : List Char :=
  match shortEscapes.lookup (Char.ofNat code) with
  | some letter => ['\\', letter]
  | none =>
    if 0x20 ≤ code ∧ code < 0x7F then [Char.ofNat code] else (units code).flatMap escapedUnit

/-- A text by its code points, with its quotes. -/
def quotedCodes (codes : List Nat) : String :=
  String.ofList ('"' :: codes.flatMap escaped ++ ['"'])

/-- A text with its quotes. -/
def quoted (s : String) : String :=
  quotedCodes (s.toList.map Char.toNat)

/-- A float, with the fewest digits that read back. -/
def ofFloat (x : Float) : String :=
  if x.isNaN then "NaN"
  else if x.isFinite then Binary64.shortest x
  else if x < 0.0 then "-Infinity"
  else "Infinity"

/-- A line end, and the blanks in front of what stands at a depth. -/
def newLine (depth : Nat) : String :=
  String.ofList ('\n' :: List.replicate (2 * depth) ' ')

/-- Items between brackets. -/
def bracketed (opening closing : String) (depth : Nat) (items : List String) : String :=
  if items.isEmpty then opening ++ closing
  else
    opening ++ newLine (depth + 1) ++ ("," ++ newLine (depth + 1)).intercalate items ++
      newLine depth ++ closing

end Json

namespace Datum

mutual

/-- A value that stands at a depth. -/
def jsonAt (depth : Nat) : Datum → String
  | null => "null"
  | bool b => if b then "true" else "false"
  | int n => toString n
  | float x => Json.ofFloat x
  | text s => Json.quoted s
  | codes points => Json.quotedCodes points
  | octets values => Json.quotedCodes values
  | date d => Json.quoted d.text
  | moment m => Json.quoted m.text
  | list items => Json.bracketed "[" "]" depth (jsonItems (depth + 1) items)
  | set items => Json.bracketed "[" "]" depth (jsonItems (depth + 1) items)
  | mapping entries => Json.bracketed "\x7b" "\x7d" depth (jsonEntries (depth + 1) entries)

/-- The items of a list. -/
def jsonItems (depth : Nat) : List Datum → List String
  | [] => []
  | d :: ds => jsonAt depth d :: jsonItems depth ds

/-- The entries of a mapping. -/
def jsonEntries (depth : Nat) : List (String × Datum) → List String
  | [] => []
  | (key, d) :: entries => (Json.quoted key ++ ": " ++ jsonAt depth d) :: jsonEntries depth entries

end

/-- A value as JSON text. -/
def json (d : Datum) : String :=
  jsonAt 0 d

end Datum

end WallPanel
