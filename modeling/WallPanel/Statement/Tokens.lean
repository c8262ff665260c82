import WallPanel.Text.Blank
import WallPanel.Text.Numeral
import WallPanel.Text.Separated

/-!
# Statements and tokens

A document is a row of statements, each ended by a semicolon. A statement is a command word and,
after the first space, a body of parameters that commas separate.

* `splitStatements`: the statements of a document.
* `splitCommand`: the word and the body of a statement.
* `tokens`: the parameters of a body.
* `bodyNumbers`: the numerals found anywhere in a body.
* `tokenNumbers`, `label?`: the tokens that are numerals, and the first that is none.
-/

namespace WallPanel

/-- The character that ends a statement. -/
def terminator : Char := ';'

/-- The statements of a document, trimmed and in order; blank ones are dropped. -/
def splitStatements (text : String) : List String :=
  (((Separated.split terminator text.toList).map Blank.trim).filter (!·.isEmpty)).map String.ofList

/-- The command word and the body of a statement: what stands before and after the first space. A
statement without a space is all command word. -/
def splitCommand (statement : String) : String × String :=
  let word := statement.toList.takeWhile (· ≠ ' ')
  match statement.toList.dropWhile (· ≠ ' ') with
  | [] => (statement, "")
  | _ :: body => (String.ofList (Blank.trim word), String.ofList (Blank.trim body))

/-- The tokens of a body: the pieces between the commas, without the terminators at their end and
the blanks around them; empty ones are dropped. -/
def tokens (body : String) : List String :=
  (((Separated.split ',' body.toList).map fun piece =>
    Blank.trim (Blank.dropEndWhile (· == terminator) piece)).filter (!·.isEmpty)).map String.ofList

/-- Whether a token is a plain number. -/
def isNumeral (token : String) : Bool :=
  (Numeral.ofWhole? token.toList).isSome

/-- The first token of a body that is no plain number. -/
def label? (body : String) : Option String :=
  (tokens body).find? (!isNumeral ·)

section Numbers

variable {α : Type} [Scalar α]

/-- The number of a token that is a plain number. -/
def tokenNumber? (token : String) : Option α :=
  (Numeral.ofWhole? token.toList).map Numeral.value

/-- The numbers found anywhere in a body, those inside longer words included. -/
def bodyNumbers (body : String) : List α :=
  (Numeral.findAll body.toList).map Numeral.value

/-- The numbers of the tokens that are plain numbers. -/
def tokenNumbers (body : String) : List α :=
  (tokens body).filterMap tokenNumber?

/-- The number of the last token, if that is a plain number. A frame member has its offset through
the thickness of the wall there. -/
def lastNumber? (body : String) : Option α :=
  (tokens body).getLast?.bind tokenNumber?

end Numbers

end WallPanel
