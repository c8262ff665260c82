import WallPanel.Text.Separated

/-!
# Spellings

How the values of scalars without quotes are spelled: truth values, numbers, days and moments. A
text that is spelled otherwise is a text.

* `Spelling`: what a scalar is by its spelling.
* `Spelling.ofChars`: the spelling of a text.
-/

namespace WallPanel.Yaml

/-- What a scalar is by its spelling. -/
inductive Spelling where
  | null
  | bool
  | int
  | float
  | moment
  /-- The entries of another mapping. -/
  | merge
  /-- The value that stands for a whole mapping. -/
  | value
  | text
deriving DecidableEq, Repr

namespace Spelling

/-! ## Words -/

/-- The words of one meaning, as they may be spelled: in small letters, with a capital, or all in
capitals. -/
def spellings (word : String) : List String :=
  [word, word.capitalize, word.toUpper]

def boolWords : List String :=
  ["yes", "no", "true", "false", "on", "off"].flatMap spellings

def nullWords : List String :=
  ["", "~"] ++ spellings "null"

/-! ## Numbers -/

/-- A text without a sign in front. -/
def dropSign : List Char → List Char
  | '-' :: cs => cs
  | '+' :: cs => cs
  | cs => cs

/-- Whether a character is an underscore or of a class of digits. -/
def isFiller (p : Char → Bool) (c : Char) : Bool :=
  c = '_' || p c

/-- Whether a text is a row of digits and underscores that a digit starts. -/
def isDigitRow (cs : List Char) : Bool :=
  cs.head?.any Char.isDigit && cs.all (isFiller Char.isDigit)

/-- Whether a text is a number below sixty. -/
def isSixtieth : List Char → Bool
  | [d] => d.isDigit
  | [d, e] => '0' ≤ d && d ≤ '5' && e.isDigit
  | _ => false

/-- Whether a text is a row of numbers with colons between them, the first of which may be any and
the others are below sixty. -/
def isSexagesimal (cs : List Char) : Bool :=
  match Separated.split ':' cs with
  | first :: part :: parts => isDigitRow first && (part :: parts).all isSixtieth
  | _ => false

/-- Whether a text without its sign is an integer. A zero in front makes it octal. -/
def isUnsignedInt : List Char → Bool
  | '0' :: 'b' :: cs => !cs.isEmpty && cs.all (isFiller fun c => c = '0' || c = '1')
  | '0' :: 'x' :: cs =>
    !cs.isEmpty && cs.all (isFiller fun c =>
      c.isDigit || ('a' ≤ c && c ≤ 'f') || ('A' ≤ c && c ≤ 'F'))
  | '0' :: cs => cs.all (isFiller fun c => '0' ≤ c && c ≤ '7')
  | cs => isDigitRow cs || isSexagesimal cs

/-- Whether a text is an exponent, which needs a sign, or nothing. -/
def isExponent : List Char → Bool
  | [] => true
  | c :: s :: cs =>
    (c = 'e' || c = 'E') && (s = '+' || s = '-') && !cs.isEmpty && cs.all Char.isDigit
  | _ => false

/-- Whether a text without its sign is a number with a point. One that starts with the point has no
sign. -/
def isUnsignedFloat (signed : Bool) (cs : List Char) : Bool :=
  let whole := cs.takeWhile (· ≠ '.')
  match cs.dropWhile (· ≠ '.') with
  | '.' :: rest =>
    let places := rest.takeWhile (isFiller Char.isDigit)
    let after := rest.dropWhile (isFiller Char.isDigit)
    if whole.isEmpty then
      if [ "inf", "Inf", "INF" ].contains (String.ofList rest) then true
      else !signed && ([ "nan", "NaN", "NAN" ].contains (String.ofList rest) ||
        (places.head?.any Char.isDigit && isExponent after))
    else (isDigitRow whole && isExponent after) || (isSexagesimal whole && after.isEmpty)
  | _ => false

/-! ## Days and moments -/

/-- Whether a text has a width between two and is of digits. -/
def isDigits (least most : Nat) (cs : List Char) : Bool :=
  least ≤ cs.length && cs.length ≤ most && cs.all Char.isDigit

/-- The parts of a moment as they are written. A day alone has no hour. -/
structure MomentParts where
  year : List Char
  month : List Char
  day : List Char
  /-- Hour, minute and second. -/
  clock : Option (List Char × List Char × List Char)
  fraction : List Char
  /-- The sign of how far a clock is ahead, the hours and the minutes. -/
  ahead : Option (Char × List Char × List Char)
deriving DecidableEq, Repr

/-- How far a clock is ahead, if that is what a text says. -/
def scanAhead? : List Char → Option (Option (Char × List Char × List Char))
  | [] => some none
  | ['Z'] => some (some ('+', [], []))
  | sign :: cs =>
    if sign = '+' || sign = '-' then
      match Separated.split ':' cs with
      | [hours] => if isDigits 1 2 hours then some (some (sign, hours, [])) else none
      | [hours, minutes] =>
        if isDigits 1 2 hours && isDigits 2 2 minutes then some (some (sign, hours, minutes))
        else none
      | _ => none
    else none

/-- Whether a character is a space or a tab. -/
def isBlankOrTab (c : Char) : Bool :=
  c = ' ' || c = '\t'

/-- The clock that a text is, with its fraction and how far it is ahead. -/
def scanClock? (cs : List Char) :
    Option ((List Char × List Char × List Char) × List Char ×
      Option (Char × List Char × List Char)) := do
  let hour := cs.takeWhile Char.isDigit
  let ':' :: cs := cs.dropWhile Char.isDigit | none
  let minute := cs.take 2
  let ':' :: cs := cs.drop 2 | none
  let second := cs.take 2
  let rest := cs.drop 2
  let (fraction, rest) := match rest with
    | '.' :: cs => (cs.takeWhile Char.isDigit, cs.dropWhile Char.isDigit)
    | _ => ([], rest)
  let ahead ← scanAhead? (rest.dropWhile isBlankOrTab)
  if rest.all isBlankOrTab && !rest.isEmpty then none
  else if isDigits 1 2 hour && isDigits 2 2 minute && isDigits 2 2 second then
    some ((hour, minute, second), fraction, ahead)
  else none

/-- The day or moment that a text is. The clock follows the day after a letter or blanks. -/
def scanMoment? (cs : List Char) : Option MomentParts := do
  let year := cs.take 4
  let '-' :: cs := cs.drop 4 | none
  let month := cs.takeWhile Char.isDigit
  let '-' :: cs := cs.dropWhile Char.isDigit | none
  let day := cs.takeWhile Char.isDigit
  let rest := cs.dropWhile Char.isDigit
  let isDay := isDigits 4 4 year && isDigits 1 2 month && isDigits 1 2 day
  if !isDay then none
  else
    match rest with
    | [] => some ⟨year, month, day, none, [], none⟩
    | c :: cs =>
      let afterDay := if c = 'T' || c = 't' then some cs
        else if isBlankOrTab c then some (cs.dropWhile isBlankOrTab)
        else none
      match afterDay.bind scanClock? with
      | some (clock, fraction, ahead) => some ⟨year, month, day, some clock, fraction, ahead⟩
      | none => none

/-- Whether a text is a day or a moment. A day alone has two digits for month and day. -/
def isMoment (cs : List Char) : Bool :=
  match scanMoment? cs with
  | some parts => parts.clock.isSome || (parts.month.length = 2 && parts.day.length = 2)
  | none => false

/-! ## Spellings -/

/-- What a line is by its spelling. -/
def ofLine (cs : List Char) : Spelling :=
  let word := String.ofList cs
  let unsigned := dropSign cs
  if nullWords.contains word then null
  else if boolWords.contains word then bool
  else if isUnsignedFloat (unsigned.length < cs.length) unsigned then float
  else if isUnsignedInt unsigned then int
  else if isMoment cs then moment
  else if word = "<<" then merge
  else if word = "=" then value
  else text

/-- What a scalar is by its spelling. A line feed may end it, unless it is all there is. -/
def ofChars (cs : List Char) : Spelling :=
  if 1 < cs.length && cs.getLast? = some '\n' then ofLine cs.dropLast else ofLine cs

end Spelling

end WallPanel.Yaml
