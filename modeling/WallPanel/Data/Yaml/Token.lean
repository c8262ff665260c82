import WallPanel.Data.Yaml.Block
import WallPanel.Data.Yaml.Label
import WallPanel.Data.Yaml.Plain

/-!
# Tokens

A text as the marks that structure it and the scalars between them. Where a collection starts or
ends by indentation there is a token of its own. A key is known as one only when its colon is met:
its token is then put in front of it.

* `Token`: a token with its places.
* `Outline`: what is known of a text while its tokens are found.
* `Tokens.ofText`: the tokens of a text, up to a flaw.
-/

namespace WallPanel.Yaml

/-- What a token is. -/
inductive TokenKind where
  | streamEnd
  | directive (d : Directive)
  | documentStart
  | documentEnd
  | blockListStart
  | blockMappingStart
  | blockEnd
  | flowListStart
  | flowMappingStart
  | flowListEnd
  | flowMappingEnd
  | key
  | value
  | blockItem
  | flowItem
  | reference (name : String)
  | anchor (name : String)
  | tag (tag : Tag)
  | scalar (codes : List Nat) (isPlain : Bool)
deriving DecidableEq, Repr

/-- The name of a kind of tokens. -/
def TokenKind.name : TokenKind → String
  | streamEnd => "<stream end>"
  | directive _ => "<directive>"
  | documentStart => "<document start>"
  | documentEnd => "<document end>"
  | blockListStart => "<block sequence start>"
  | blockMappingStart => "<block mapping start>"
  | blockEnd => "<block end>"
  | flowListStart => "["
  | flowMappingStart => "\x7b"
  | flowListEnd => "]"
  | flowMappingEnd => "\x7d"
  | key => "?"
  | value => ":"
  | blockItem => "-"
  | flowItem => ","
  | reference _ => "<alias>"
  | anchor _ => "<anchor>"
  | tag _ => "<tag>"
  | scalar .. => "<scalar>"

/-- A token with the places where it starts and ends. -/
structure Token where
  kind : TokenKind
  start : Mark
  stop : Mark
deriving DecidableEq, Repr

/-- A token that may turn out to be a key. -/
structure KeyCandidate where
  /-- How many brackets are open around it. -/
  level : Nat
  /-- The number of tokens before it. -/
  position : Nat
  /-- Whether nothing but a key can stand there. -/
  isRequired : Bool
  mark : Mark
deriving DecidableEq, Repr

/-- What is known of a text while its tokens are found. -/
structure Outline where
  cursor : Cursor
  /-- The tokens up to the cursor. -/
  tokens : Array Token
  /-- The tokens that may be keys, at most one at each level. -/
  candidates : List KeyCandidate
  /-- How many brackets are open. -/
  level : Nat
  /-- The column of the innermost collection that is not in brackets, -1 if there is none. -/
  indent : Int
  /-- The columns of the collections around it. -/
  outer : List Int
  /-- Whether a key may start at the cursor. -/
  allowsKey : Bool
deriving Repr

namespace Outline

/-- What is known at the start of a text. -/
def ofCursor (c : Cursor) : Outline :=
  ⟨c, #[], [], 0, -1, [], true⟩

def inFlow (o : Outline) : Bool :=
  o.level ≠ 0

def mark (o : Outline) : Mark :=
  o.cursor.mark

/-- Put a token at the end that takes no characters. -/
def push (o : Outline) (kind : TokenKind) : Outline :=
  { o with tokens := o.tokens.push ⟨kind, o.mark, o.mark⟩ }

/-- Put a token at the end that goes up to a cursor, where the text goes on. -/
def pushTo (o : Outline) (kind : TokenKind) (after : Cursor) : Outline :=
  { o with tokens := o.tokens.push ⟨kind, o.mark, after.mark⟩, cursor := after }

/-- Put a token at the end that takes a number of characters. -/
def pushMark (o : Outline) (kind : TokenKind) (width : Nat) : Outline :=
  o.pushTo kind (o.cursor.advanceBy width)

/-- Put a token in front of the one at a position, or at the end. -/
def insert (o : Outline) (position : Nat) (t : Token) : Outline :=
  { o with tokens := o.tokens.insertIdxIfInBounds position t }

/-! ## Keys -/

/-- The most characters between the start of a key and its colon. -/
def keyLimit : Nat := 1024

/-- Whether a candidate can no longer be a key at a place: a key stands on one line. -/
def isStale (place : Mark) (k : KeyCandidate) : Bool :=
  k.mark.line ≠ place.line || k.mark.index + keyLimit < place.index

/-- Give up candidates. One that has to be a key cannot be given up. -/
def giveUp (o : Outline) (p : KeyCandidate → Bool) : Except Flaw Outline :=
  match o.candidates.find? fun k => p k && k.isRequired with
  | some k => .error (.scan .simpleKey k.mark .missingColon o.mark)
  | none => .ok { o with candidates := o.candidates.filter (!p ·) }

/-- Give up the candidates that can no longer be keys. -/
def dropStale (o : Outline) : Except Flaw Outline :=
  o.giveUp (isStale o.mark)

/-- Give up the candidate within the innermost brackets. -/
def dropCandidate (o : Outline) : Except Flaw Outline :=
  o.giveUp (·.level = o.level)

/-- Take the next token for one that may be a key. -/
def addCandidate (o : Outline) : Except Flaw Outline :=
  if o.allowsKey then do
    let o ← o.dropCandidate
    let k : KeyCandidate :=
      ⟨o.level, o.tokens.size, !o.inFlow && o.indent = o.cursor.column, o.mark⟩
    return { o with candidates := o.candidates ++ [k] }
  else .ok o

/-- The tokens that are certain: those before the first that may be a key. -/
def settled (o : Outline) : List Token :=
  o.tokens.toList.take (o.candidates.foldl (fun n k => min n k.position) o.tokens.size)

/-! ## Indentation -/

/-- End the collections by indentation that stand further in than a column. -/
def closeBlocksFrom (column indent : Int) (o : Outline) : List Int → Outline
  | [] => { o with indent, outer := [] }
  | next :: outer =>
    if column < indent then closeBlocksFrom column next (o.push .blockEnd) outer
    else { o with indent, outer := next :: outer }

/-- End the collections by indentation that stand further in than a column. Brackets keep all
open. -/
def closeBlocks (o : Outline) (column : Int) : Outline :=
  if o.inFlow then o else closeBlocksFrom column o.indent o o.outer

/-- Start a collection by indentation at a column, unless one is open there. The token is put in
front of the one at a position. -/
def openBlock (o : Outline) (kind : TokenKind) (position : Nat) (m : Mark) : Outline :=
  if !o.inFlow && o.indent < m.column then
    { o.insert position ⟨kind, m, m⟩ with indent := m.column, outer := o.indent :: o.outer }
  else o

/-! ## Single tokens -/

/-- Skip blanks, comments and line ends. After a line end a key may start. -/
def skipFrom (o : Outline) : Nat → Outline
  | 0 => o
  | fuel + 1 =>
    let c := o.cursor.skipSpaces.skipComment
    match c.takeBreak? with
    | none => { o with cursor := c }
    | some (_, c) => skipFrom { o with cursor := c, allowsKey := o.allowsKey || !o.inFlow } fuel

/-- Skip what stands before the next token. A byte order mark may start the text. -/
def skipToToken (o : Outline) : Outline :=
  let c := o.cursor
  let c := if c.mark.index = 0 && c.peek = some '\ufeff' then c.advance else c
  skipFrom { o with cursor := c } c.fuel

/-- End all that is open by indentation, and allow no key. -/
def endBlocks (o : Outline) : Except Flaw Outline := do
  let o ← (o.closeBlocks (-1)).dropCandidate
  return { o with allowsKey := false }

/-- The marks at the start and the end of a document. -/
def documentMark (o : Outline) (kind : TokenKind) : Except Flaw Outline := do
  return (← o.endBlocks).pushMark kind 3

/-- A directive. -/
def directive (o : Outline) : Except Flaw Outline := do
  let o ← o.endBlocks
  let (d, after) ← o.cursor.directive
  return o.pushTo (.directive d) after

/-- A bracket that opens. The whole collection may be a key. -/
def openBracket (o : Outline) (kind : TokenKind) : Except Flaw Outline := do
  let o ← o.addCandidate
  return { o.pushMark kind 1 with level := o.level + 1, allowsKey := true }

/-- A bracket that closes. -/
def closeBracket (o : Outline) (kind : TokenKind) : Except Flaw Outline := do
  let o ← o.dropCandidate
  return { o.pushMark kind 1 with level := o.level - 1, allowsKey := false }

/-- A comma. -/
def flowItem (o : Outline) : Except Flaw Outline := do
  let o ← o.dropCandidate
  return { o.pushMark .flowItem 1 with allowsKey := true }

/-- Refuse what starts an entry where no key may start, unless in brackets. -/
def checkAllowed (o : Outline) (problem : Problem) : Except Flaw Unit :=
  if !o.inFlow && !o.allowsKey then .error (.problem .scanning none problem o.mark) else .ok ()

/-- A dash before an item. -/
def blockItem (o : Outline) : Except Flaw Outline := do
  o.checkAllowed .misplacedItem
  let o ← (o.openBlock .blockListStart o.tokens.size o.mark).dropCandidate
  return { o.pushMark .blockItem 1 with allowsKey := true }

/-- A question mark before a key. -/
def explicitKey (o : Outline) : Except Flaw Outline := do
  o.checkAllowed .misplacedKey
  let o ← (o.openBlock .blockMappingStart o.tokens.size o.mark).dropCandidate
  return { o.pushMark .key 1 with allowsKey := !o.inFlow }

/-- A colon before a value. It makes the candidate within the innermost brackets a key. -/
def value (o : Outline) : Except Flaw Outline :=
  match o.candidates.find? (·.level = o.level) with
  | some k =>
    let o := { o with candidates := o.candidates.filter (·.level ≠ o.level) }
    let o := (o.insert k.position ⟨.key, k.mark, k.mark⟩).openBlock .blockMappingStart k.position
      k.mark
    .ok { o.pushMark .value 1 with allowsKey := false }
  | none => do
    o.checkAllowed .misplacedValue
    let o := o.openBlock .blockMappingStart o.tokens.size o.mark
    let o ← { o with allowsKey := !o.inFlow }.dropCandidate
    return o.pushMark .value 1

/-- A token that may be a key and after which none may start. -/
def keyLike (o : Outline) (read : Cursor → Except Flaw (TokenKind × Cursor)) :
    Except Flaw Outline := do
  let o ← o.addCandidate
  let (kind, after) ← read o.cursor
  return { o.pushTo kind after with allowsKey := false }

/-- A text in quotes. -/
def quotedScalar (o : Outline) (style : QuoteStyle) : Except Flaw Outline :=
  o.keyLike fun c => do
    let (codes, after) ← c.quotedScalar style
    return (.scalar codes false, after)

/-- A text of whole lines. -/
def blockScalar (o : Outline) (folded : Bool) : Except Flaw Outline := do
  let o ← o.dropCandidate
  let (codes, after) ← o.cursor.blockScalar folded o.indent
  return { o.pushTo (.scalar codes false) after with allowsKey := true }

/-- A text without quotes. -/
def plainScalar (o : Outline) : Except Flaw Outline := do
  let o ← o.addCandidate
  let text := o.cursor.plainScalar o.inFlow (o.indent + 1)
  let t : Token := ⟨.scalar text.codes true, o.mark, text.stop⟩
  return { o with tokens := o.tokens.push t, cursor := text.after, allowsKey := text.hasBreak }

/-- The end of the text. -/
def streamEnd (o : Outline) : Except Flaw Outline := do
  let o ← o.endBlocks
  return { o with candidates := [] }.push .streamEnd

/-- The token that a character starts, which is the next one. -/
def tokenAt (o : Outline) (ch : Char) : Except Flaw Outline :=
  let c := o.cursor
  let isWord := endsWord (c.ahead 1)
  if ch = '%' && c.mark.column = 0 then o.directive
  else if c.mark.column = 0 && c.atMarker '-' then o.documentMark .documentStart
  else if c.mark.column = 0 && c.atMarker '.' then o.documentMark .documentEnd
  else if ch = '[' then o.openBracket .flowListStart
  else if ch = '\x7b' then o.openBracket .flowMappingStart
  else if ch = ']' then o.closeBracket .flowListEnd
  else if ch = '\x7d' then o.closeBracket .flowMappingEnd
  else if ch = ',' then o.flowItem
  else if ch = '-' && isWord then o.blockItem
  else if ch = '?' && (o.inFlow || isWord) then o.explicitKey
  else if ch = ':' && (o.inFlow || isWord) then o.value
  else if ch = '*' then
    o.keyLike fun c => (c.anchorName .reference).map fun (s, c) => (.reference s, c)
  else if ch = '&' then o.keyLike fun c => (c.anchorName .anchor).map fun (s, c) => (.anchor s, c)
  else if ch = '!' then o.keyLike fun c => c.tag.map fun (t, c) => (.tag t, c)
  else if ch = '|' && !o.inFlow then o.blockScalar false
  else if ch = '>' && !o.inFlow then o.blockScalar true
  else if ch = '\x27' then o.quotedScalar .single
  else if ch = '"' then o.quotedScalar .double
  else if c.startsPlain o.inFlow then o.plainScalar
  else .error (.problem .scanning (some (.nextToken, none)) (.badStart ch) c.mark)

/-- Find the next token. -/
def next (o : Outline) : Except Flaw Outline := do
  let o ← o.skipToToken.dropStale
  let o := o.closeBlocks o.cursor.column
  match o.cursor.peek with
  | none => o.streamEnd
  | some ch => (← o.tokenAt ch).dropStale

end Outline

/-! ## Texts -/

/-- The tokens of a text, in order. If a flaw stops them, it stands for those that are missing. -/
structure Tokens where
  list : List Token
  flaw : Option Flaw
deriving Repr

namespace Tokens

/-- The tokens that are found from what is known. What may still become a key does not count if a
flaw is met. -/
def ofOutline : Nat → Outline → Tokens
  | 0, o => ⟨o.tokens.toList, none⟩
  | fuel + 1, o =>
    if o.tokens.back?.any (·.kind = .streamEnd) then ⟨o.tokens.toList, none⟩
    else
      match o.next with
      | .ok o => ofOutline fuel o
      | .error flaw => ⟨o.settled, some flaw⟩

/-- Whether a character may stand in a text. -/
def isAllowed (c : Char) : Bool :=
  c = '\t' || c = '\n' || c = '\r' || (' ' ≤ c && c ≤ '~') || c = '\u0085' ||
    ('\u00a0' ≤ c && c.toNat ≠ 0xFFFE && c.toNat ≠ 0xFFFF)

/-- The first character of a text that may not stand there, with the number of those before it. -/
def disallowed? (cs : List Char) : Option (Char × Nat) :=
  let before := cs.takeWhile isAllowed
  (cs[before.length]?).map fun c => (c, before.length)

/-- The tokens of a text. -/
def ofText (text : String) : Tokens :=
  match disallowed? text.toList with
  | some (c, index) => ⟨[], some (.character c index)⟩
  | none => ofOutline (text.length + 2) (.ofCursor (.ofText text))

end Tokens

end WallPanel.Yaml
