import WallPanel.Statement.Tokens

/-!
# Writing documents

A document is written with one statement a line. An edit keeps a place for each deleted statement,
so the statements here are optional texts.

* `closeStatement`: a statement with its terminator.
* `survivingStatements`: the statements that are left.
* `serialize`: the text of the document.
* `saveDocument`: that text with what stands in for it, and `savedText`: what is written of the two.
-/

namespace WallPanel

/-- A statement trimmed and ended by a terminator; none if it is blank. -/
def closeStatement (statement : String) : Option String :=
  let cs := Blank.trim statement.toList
  match cs.getLast? with
  | none => none
  | some last =>
    some (String.ofList (if last = terminator then cs else cs ++ [terminator]))

/-- The statements that are neither deleted nor blank, each ended by a terminator. -/
def survivingStatements (statements : List (Option String)) : List String :=
  statements.filterMap fun statement => statement.bind closeStatement

/-- Statements one a line. -/
def joinLines (lines : List String) : String :=
  String.ofList (lines.flatMap fun line => line.toList ++ ['\n'])

/-- The text of a document. With no statement left it is the source text, if that is not empty. -/
def serialize (statements : List (Option String)) (source : Option String) : Option String :=
  match survivingStatements statements with
  | [] => source.filter (!·.isEmpty)
  | lines => some (joinLines lines)

/-- What is saved of a document: the text of the statements, if any is left, and a text to write
where there is none. -/
structure SavedDocument where
  text : Option String
  fallback : Option String
deriving DecidableEq, Repr

/-- The text that is written. -/
def SavedDocument.payload (s : SavedDocument) : String :=
  match s.text with
  | some text => text
  | none => s.fallback.getD ""

/-- What is saved of statements. Where none is left the source text stands in for them. -/
def saveDocument (statements : List (Option String)) (source : Option String) : SavedDocument :=
  match survivingStatements statements with
  | [] => { text := none, fallback := some (source.getD "") }
  | lines => { text := some (joinLines lines), fallback := source }

/-- The text that is saved for a document: with no statement left it is the source text. -/
def savedText (statements : List (Option String)) (source : Option String) : String :=
  match survivingStatements statements with
  | [] => source.getD ""
  | lines => joinLines lines

end WallPanel
