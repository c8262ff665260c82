import WallPanel.Statement.Command
import WallPanel.Statement.Tokens

/-!
# Statements

One statement of a document with its position, and its reading: `Statement.read`.
-/

namespace WallPanel

/-- A statement that has been read. -/
structure Statement (α : Type) where
  /-- The position of the statement in the document, from zero. -/
  index : Nat
  command : Command
  body : String
  /-- The numbers found anywhere in the body. -/
  numbers : List α

namespace Statement

variable {α : Type} [Scalar α]

/-- Read the statement at a position. -/
def read (index : Nat) (text : String) : Except Fault (Statement α) := do
  let (word, body) := splitCommand text
  let command ← Command.ofWord word
  return { index, command, body, numbers := bodyNumbers body }

/-- A statement is read if its word stands for a command. -/
theorem read_eq_ok_iff {index : Nat} {text : String} {s : Statement α} :
    read index text = .ok s ↔ ∃ c, Command.ofWord (splitCommand text).1 = .ok c ∧
      s = ⟨index, c, (splitCommand text).2, bodyNumbers (splitCommand text).2⟩ := by
  simp only [read, bind, Except.bind, pure, Except.pure]
  cases Command.ofWord (splitCommand text).1 with
  | error => simp
  | ok c => simp [eq_comm]

/-- The number at a position of the body, if there are that many. -/
def number? (s : Statement α) (i : Nat) : Option α :=
  s.numbers[i]?

/-- Whether the statement has as many numbers as its command needs. -/
def isUsable (s : Statement α) : Bool :=
  s.command.kind.minNumbers ≤ s.numbers.length

end Statement

end WallPanel
