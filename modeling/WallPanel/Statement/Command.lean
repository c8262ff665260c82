import WallPanel.Fault
import WallPanel.Text.Digit

/-!
# Commands

The command words of a document and what they stand for.

* `CommandKind`: what a command does.
* `CommandKind.minNumbers`: how many numbers it needs to be usable.
* `Command.ofWord`: the command of a word.

A panel command names its layer by a number after the word: `PLI2` opens a panel of the second
inner layer.
-/

namespace WallPanel

/-- The face of the frame that a sheathing layer lies on. -/
inductive Side where
  | inner
  | outer
deriving DecidableEq, Repr

/-- What a command does. -/
inductive CommandKind where
  /-- Declares the size of the wall. -/
  | wall
  | moduleBegin
  | moduleEnd
  | stud
  | blocking
  | topPlate
  | bottomPlate
  /-- Opens a routing. -/
  | routing
  /-- Cuts a circle in the open routing. -/
  | circle
  /-- Opens a sheathing panel. -/
  | panel (side : Side)
  /-- A vertex, of the open panel or else of the open routing. -/
  | point
  /-- A vertex of the open routing that an arc leads to. -/
  | curve
  | nailRow
  | drilling
  | unknown
deriving DecidableEq, Repr

/-- The least count of numbers with which a command is usable. -/
def CommandKind.minNumbers : CommandKind → Nat
  | wall => 2
  | moduleBegin => 5
  | moduleEnd => 0
  | stud | blocking | topPlate | bottomPlate => 5
  | routing => 0
  | circle => 3
  | panel _ => 6
  | point => 2
  | curve => 3
  | nailRow => 4
  | drilling => 4
  | unknown => 0

/-- A command word, what it stands for, and the layer number of a panel command. -/
structure Command where
  kind : CommandKind
  word : String
  layerIndex : Option Nat := none
deriving DecidableEq, Repr

namespace Command

/-- The words that stand for one command each. -/
def fixedWords : List (String × CommandKind) :=
  [("ELM", .wall), ("MODUL", .moduleBegin), ("ENDMODUL", .moduleEnd), ("QS", .stud),
    ("LS", .blocking), ("OG", .topPlate), ("UG", .bottomPlate), ("PAF", .routing),
    ("MP", .circle), ("PP", .point), ("KB", .curve), ("NR", .nailRow), ("BOY", .drilling)]

/-- The side that a panel word names, and what follows it. -/
def panelSide? (word : List Char) : Option (Side × List Char) :=
  match word with
  | 'P' :: 'L' :: 'I' :: rest => some (.inner, rest)
  | 'P' :: 'L' :: 'A' :: rest => some (.outer, rest)
  | _ => none

/-- The layer number after a panel word: the values of its digits, perhaps none. One line end after
them does not count. -/
def layerDigits? (rest : List Char) : Option (List Nat) :=
  match Digit.span rest with
  | (ds, []) => some ds
  | (ds, ['\n']) => some ds
  | _ => none

/-- The command that a word stands for. It fails only for a layer number of too many digits. -/
def ofWord (word : String) : Except Fault Command :=
  match fixedWords.lookup word with
  | some kind => .ok { kind, word }
  | none =>
    match (panelSide? word.toList).bind fun (side, rest) => (layerDigits? rest).map (side, ·) with
    | none => .ok { kind := .unknown, word }
    | some (side, []) => .ok { kind := .panel side, word }
    | some (side, ds) =>
      if Fault.digitLimit < ds.length then .error (.integerDigits ds.length)
      else .ok { kind := .panel side, word, layerIndex := some (Digit.toNat ds) }

end Command

end WallPanel
