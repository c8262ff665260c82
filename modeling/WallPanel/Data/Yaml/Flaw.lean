import WallPanel.Data.Calendar
import WallPanel.Data.Yaml.Cursor
import WallPanel.Fault
import WallPanel.Text.Base64
import WallPanel.Text.Quoted
import WallPanel.Text.Utf8

/-!
# Flaws

Why a text is no document: what was being read, what is wrong, and where.

* `Activity`: what was being read.
* `Problem`: what is wrong.
* `ValueProblem`: why a scalar is not the value it is marked as.
* `Flaw`: a problem with its places; `Flaw.message` is the wording, with the lines it is about.
-/

namespace WallPanel.Yaml

/-! ## Causes -/

/-- What was being read when a problem was met. -/
inductive Activity where
  | nextToken
  | simpleKey
  | directive
  | directiveAddress
  | reference
  | anchor
  | tag
  | tagAddress
  | blockScalar
  | quotedScalar
  | doubleQuoted
  | node
  | blockNode
  | flowNode
  | blockList
  | blockMapping
  | flowList
  | flowMapping
  | anchored (name : String)
  | document
  | mapping
  | orderedMapping
  | pairs
deriving DecidableEq, Repr

/-- What should have come next. -/
inductive Expectation where
  | name
  | digit
  | digitOrPoint
  | digitOrSpace
  | space
  | exclamation
  | angle
  | address
  | addressDigits
  | escapeDigits (width : Nat)
  | lineEnd
  | blockIndicator
deriving DecidableEq, Repr

/-- The kinds of nodes. -/
inductive NodeKind where
  | scalar
  | sequence
  | mapping
deriving DecidableEq, Repr

/-- What is wrong with a text. Tokens are given by their names. -/
inductive Problem where
  | badStart (found : Char)
  | missingColon
  | misplacedItem
  | misplacedKey
  | misplacedValue
  | expected (what : Expectation) (found : Option Char)
  | zeroIndent
  | unknownEscape (found : Option Char)
  | badAddress (fault : Utf8Fault)
  | unexpectedEnd
  | unexpectedSeparator
  | expectedDocument (token : String)
  | duplicateVersion
  | unknownVersion
  | duplicateHandle (handle : String)
  | unknownHandle (handle : String)
  | expectedContent (token : String)
  | expectedBlockEnd (token : String)
  | expectedItem (closing : Char) (token : String)
  | unknownAlias (name : String)
  | secondAnchor
  | secondDocument
  | unknownTag (tag : String)
  | otherNode (wanted found : NodeKind)
  | compoundKey
  | badMerge (found : NodeKind)
  | badMergeItem (found : NodeKind)
  | noSequence (found : NodeKind)
  | noEntry (found : NodeKind)
  | entryCount (count : Nat)
  /-- Code points from a place to another are not ASCII. -/
  | noAscii (codes : List Nat) (first last : Nat)
  | base64 (fault : Base64Fault)
deriving DecidableEq, Repr

/-- Why a text is not the value it is marked as. Texts are given by their code points. -/
inductive ValueProblem where
  /-- A code point is beyond all characters. -/
  | noCharacter (code : Nat)
  | noInteger (base : Nat) (codes : List Nat)
  | noNumber (codes : List Nat)
  | tooManyDigits (count : Nat)
  | emptyNumber
  | noBool (codes : List Nat)
  | noMoment
  /-- A list or a mapping is no text; its type is given. -/
  | noText (type : String)
  /-- A mapping stands for itself. -/
  | endless
  /-- A place of a sexagesimal number is beyond the range of floats. -/
  | tooLarge
  | calendar (fault : CalendarFault)
deriving DecidableEq, Repr

/-- The step of reading that met a problem. -/
inductive Stage where
  | scanning
  | parsing
  | composing
  | constructing
deriving DecidableEq, Repr

/-- Why a text is no document. -/
inductive Flaw where
  /-- A character cannot stand in a text. -/
  | character (c : Char) (index : Nat)
  | problem (stage : Stage) (activity : Option (Activity × Option Mark)) (problem : Problem)
      (place : Mark)
  | value (problem : ValueProblem)
deriving DecidableEq, Repr

/-! ## Wording -/

/-- A character within quotes; the end of the text is shown as the null character. -/
def shownCharacter (c : Option Char) : String :=
  Quoted.render [c.getD '\x00']

/-- A name within quotes. -/
def shownName (name : String) : String :=
  Quoted.render name.toList

namespace Activity

def message : Activity → String
  | nextToken => "while scanning for the next token"
  | simpleKey => "while scanning a simple key"
  | directive => "while scanning a directive"
  | directiveAddress => "while parsing a directive"
  | reference => "while scanning an alias"
  | anchor => "while scanning an anchor"
  | tag => "while scanning a tag"
  | tagAddress => "while parsing a tag"
  | blockScalar => "while scanning a block scalar"
  | quotedScalar => "while scanning a quoted scalar"
  | doubleQuoted => "while scanning a double-quoted scalar"
  | node => "while parsing a node"
  | blockNode => "while parsing a block node"
  | flowNode => "while parsing a flow node"
  | blockList => "while parsing a block collection"
  | blockMapping => "while parsing a block mapping"
  | flowList => "while parsing a flow sequence"
  | flowMapping => "while parsing a flow mapping"
  | anchored name => "found duplicate anchor " ++ shownName name ++ "; first occurrence"
  | document => "expected a single document in the stream"
  | mapping => "while constructing a mapping"
  | orderedMapping => "while constructing an ordered map"
  | pairs => "while constructing pairs"

end Activity

namespace Expectation

def message : Expectation → String
  | name => "alphabetic or numeric character"
  | digit => "a digit"
  | digitOrPoint => "a digit or '.'"
  | digitOrSpace => "a digit or ' '"
  | space => "' '"
  | exclamation => "'!'"
  | angle => "'>'"
  | address => "URI"
  | addressDigits => "URI escape sequence of 2 hexadecimal numbers"
  | escapeDigits width => "escape sequence of " ++ toString width ++ " hexadecimal numbers"
  | lineEnd => "a comment or a line break"
  | blockIndicator => "chomping or indentation indicators"

end Expectation

namespace NodeKind

def name : NodeKind → String
  | scalar => "scalar"
  | sequence => "sequence"
  | mapping => "mapping"

end NodeKind

/-- The wording of octets that are no text. -/
def octetsMessage (fault : Utf8Fault) : String :=
  let first := toString fault.position
  let place := match fault.octets with
    | [n] => "byte 0x" ++ String.ofList (Quoted.hexDigits 2 n) ++ " in position " ++ first
    | ns => "bytes in position " ++ first ++ "-" ++ toString (fault.position + ns.length - 1)
  "'utf-8' codec can't decode " ++ place ++ ": " ++ fault.reason.message

namespace Problem

def message : Problem → String
  | badStart found => "found character " ++ shownCharacter found ++ " that cannot start any token"
  | missingColon => "could not find expected ':'"
  | misplacedItem => "sequence entries are not allowed here"
  | misplacedKey => "mapping keys are not allowed here"
  | misplacedValue => "mapping values are not allowed here"
  | expected what found => "expected " ++ what.message ++ ", but found " ++ shownCharacter found
  | zeroIndent => "expected indentation indicator in the range 1-9, but found 0"
  | unknownEscape found => "found unknown escape character " ++ shownCharacter found
  | badAddress fault => octetsMessage fault
  | unexpectedEnd => "found unexpected end of stream"
  | unexpectedSeparator => "found unexpected document separator"
  | expectedDocument token => "expected '<document start>', but found " ++ shownName token
  | duplicateVersion => "found duplicate YAML directive"
  | unknownVersion => "found incompatible YAML document (version 1.* is required)"
  | duplicateHandle handle => "duplicate tag handle " ++ shownName handle
  | unknownHandle handle => "found undefined tag handle " ++ shownName handle
  | expectedContent token => "expected the node content, but found " ++ shownName token
  | expectedBlockEnd token => "expected <block end>, but found " ++ shownName token
  | expectedItem closing token =>
    "expected ',' or " ++ shownCharacter closing ++ ", but got " ++ shownName token
  | unknownAlias name => "found undefined alias " ++ shownName name
  | secondAnchor => "second occurrence"
  | secondDocument => "but found another document"
  | unknownTag tag => "could not determine a constructor for the tag " ++ shownName tag
  | otherNode wanted found => "expected a " ++ wanted.name ++ " node, but found " ++ found.name
  | compoundKey => "found unhashable key"
  | badMerge found => "expected a mapping or list of mappings for merging, but found " ++ found.name
  | badMergeItem found => "expected a mapping for merging, but found " ++ found.name
  | noSequence found => "expected a sequence, but found " ++ found.name
  | noEntry found => "expected a mapping of length 1, but found " ++ found.name
  | entryCount count =>
    "expected a single mapping item, but found " ++ toString count ++ " items"
  | noAscii codes first last =>
    "failed to convert base64 data into ascii: 'ascii' codec can't encode " ++
      (match codes with
      | [code] =>
        "character '" ++ String.ofList (Quoted.escapedCode code) ++ "' in position " ++
          toString first
      | _ => "characters in position " ++ toString first ++ "-" ++ toString last) ++
      ": ordinal not in range(128)"
  | base64 fault => "failed to decode base64 data: " ++ fault.message

end Problem

namespace ValueProblem

/-- The greatest code point that is refused for having no character, and not for its size. -/
def codeLimit : Nat := 0x7FFFFFFF

/-- The most characters of a text that are shown where an integer is expected. -/
def shownLimit : Nat := 200

/-- The wording of a problem with a value. -/
def message : ValueProblem → String
  | noCharacter code =>
    if codeLimit < code then "Python int too large to convert to C int"
    else "chr() arg not in range(0x110000)"
  | noInteger base codes =>
    "invalid literal for int() with base " ++ toString base ++ ": " ++
      String.ofList ((Quoted.renderCodes codes).toList.take shownLimit)
  | noNumber codes => "could not convert string to float: " ++ Quoted.renderCodes codes
  | tooManyDigits count => (Fault.integerDigits count).message
  | emptyNumber => "string index out of range"
  | noBool codes => Quoted.renderCodes codes
  | noMoment => "'NoneType' object has no attribute 'groupdict'"
  | noText type => "expected string or bytes-like object, got '" ++ type ++ "'"
  | endless => "maximum recursion depth exceeded"
  | tooLarge => "int too large to convert to float"
  | calendar fault => fault.message

end ValueProblem

/-! ## Places -/

namespace Mark

/-- The most characters that are shown on either side of a place. -/
def shownWidth : Nat := 36

/-- The characters at the front of a line that are shown, and whether others are left out. Of a long
line five fewer are shown than are looked at. -/
def shownPart (cs : List Char) : List Char × Bool :=
  let line := cs.takeWhile (!isBreak ·)
  if shownWidth < line.length then (line.take (shownWidth - 4), true) else (line, false)

/-- What stands for characters that are left out. -/
def ellipsis : List Char := " ... ".toList

/-- The part of its line around a place, and a caret below it. -/
def snippet (m : Mark) (source : List Char) : String :=
  let (before, cutBefore) := shownPart (source.take m.index).reverse
  let (after, cutAfter) := shownPart (source.drop m.index)
  let head := (if cutBefore then ellipsis else []) ++ before.reverse
  let tail := after ++ (if cutAfter then ellipsis else [])
  "    " ++ String.ofList (head ++ tail) ++ "\n" ++
    String.ofList (List.replicate (4 + head.length) ' ') ++ "^"

/-- The wording of a place. -/
def message (m : Mark) (source : List Char) : String :=
  "  in \"<unicode string>\", line " ++ toString (m.line + 1) ++ ", column " ++
    toString (m.column + 1) ++ ":\n" ++ m.snippet source

end Mark

namespace Flaw

/-- A problem at a place, met while the characters after another place were read. -/
def scan (activity : Activity) (start : Mark) (problem : Problem) (place : Mark) : Flaw :=
  .problem .scanning (some (activity, some start)) problem place

/-- The lines on what was being read. Its place is left out if it is that of the problem. -/
def activityLines (source : List Char) (place : Mark) : Option (Activity × Option Mark) →
    List String
  | none => []
  | some (activity, none) => [activity.message]
  | some (activity, some m) =>
    if m.line = place.line && m.column = place.column then [activity.message]
    else [activity.message, m.message source]

/-- The wording of a flaw in a text. -/
def message (source : String) : Flaw → String
  | character c index =>
    "unacceptable character #x" ++ String.ofList (Quoted.hexDigits 4 c.toNat) ++
      ": special characters are not allowed\n  in \"<unicode string>\", position " ++ toString index
  | problem _ activity p place =>
    "\n".intercalate
      (activityLines source.toList place activity ++ [p.message, place.message source.toList])
  | value p => p.message

end Flaw

namespace Cursor

/-- What is left after the rest of a line, which says nothing. -/
def endLine (activity : Activity) (start : Mark) (c : Cursor) : Except Flaw Cursor :=
  let c := c.skipSpaces.skipComment
  if endsLine c.peek then .ok ((c.takeBreak?.map (·.2)).getD c)
  else .error (.scan activity start (.expected .lineEnd c.peek) c.mark)

end Cursor

end WallPanel.Yaml
