import WallPanel.Model.Builder

/-!
# Reading a document

`parseDocument` reads the model of a wall from the text of a document, and keeps what it noted on
the way; `parseModel` is the model alone.
-/

namespace WallPanel

variable {α : Type} [Scalar α]

/-- A document that has been read, or why it could not be, with the notes of the pass. -/
structure Parsed (α : Type) where
  outcome : Except Fault (WallModel α)
  notes : List Note

/-- The counts of a model. -/
def WallModel.summary (m : WallModel α) : Note :=
  .finished m.statements.length m.studs.length m.plates.length m.blocking.length m.sheathing.length
    m.nailRows.length m.routings.length m.drillings.length m.unhandled.length

/-- The pass over all statements of a text, up to its end. -/
def buildAll (text : String) (firstId : Int) : Except Interruption (Builder α) := do
  let statements := splitStatements text
  let b ← (Builder.start statements text firstId).feedAll 0 statements
  b.finish

/-- Read a document. The ids of the entities count up from `firstId`. A blank text is refused, and
so is one that gives the wall no extent. -/
def parseDocument (text : String) (firstId : Int) : Parsed α :=
  if (trimmed text).isEmpty then ⟨.error (.refused .emptyText), []⟩
  else
    match buildAll text firstId with
    | .error i => ⟨.error i.fault, i.notes⟩
    | .ok b =>
      if b.model.bounds.isFinite then
        let model := { b.model with nextEditorId := b.nextId }
        ⟨.ok model, b.notes ++ [model.summary]⟩
      else ⟨.error (.refused .noMembers), b.notes⟩

/-- The model of a document. -/
def parseModel (text : String) (firstId : Int) : Except Fault (WallModel α) :=
  (parseDocument text firstId).outcome

end WallPanel
