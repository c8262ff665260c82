import WallPanel.Editing.Translate
import WallPanel.Model.Parse
import WallPanel.Number.Binary64
import WallPanel.Statement.Document

/-!
# Editing a document

An edit finds entities by kind and id, changes a copy of the model, and hands it over only when the
edit is done. An edit that cannot be done is declined with a warning, and the model stays.

* `WallModel.translate`: move entities along an axis.
* `WallModel.delete`: delete entities.
* `WallModel.replaceStatements`, `WallModel.replaceEntity`: write other statements in place of some,
  and read the document again.
* `WallModel.reparse`: read the document again.
-/

namespace WallPanel

/-- An entity as a request names it; there may be no such kind. -/
structure EntityRef where
  kind : String
  id : Int
deriving DecidableEq, Repr

/-- Why an edit, or a part of it, is declined. -/
inductive Warning (α : Type) where
  | badDistance (distance : Option α)
  | noAxis (kind axis : String)
  | noEntity (ref : EntityRef)
  | statementGone (index : Nat) (ref : EntityRef)
  | noIndices
  | emptyDocument
  | refused (refusal : Refusal)
deriving Repr

/-- What an edit came to: the new model if there is one, how many entities it changed, and its
warnings in order. -/
structure Edit (α : Type) where
  model : Option (WallModel α)
  count : Nat
  warnings : List (Warning α)

/-- The wording of a warning. -/
def Warning.message : Warning Float → String
  | badDistance distance =>
    "edit declined: translation distance must be a non-zero number, got " ++
      (match distance with
        | some x => Binary64.shortest x
        | none => "None")
  | noAxis kind axis => "edit declined: " ++ kind ++ " cannot move along " ++ axis
  | noEntity ref =>
    "edit declined: no " ++ ref.kind ++ " with editor id " ++ toString ref.id
  | statementGone index ref =>
    "edit declined: statement " ++ toString index ++ " of " ++ ref.kind ++ " #" ++
      toString ref.id ++ " is gone"
  | noIndices => "replacement declined: none of the statement indices resolve"
  | emptyDocument => "replacement declined: the document would be empty"
  | refused refusal => "replacement declined: " ++ refusal.message

variable {α : Type} [Scalar α]

/-- An edit that changes nothing. -/
def Edit.declined (warning : Warning α) : Edit α :=
  ⟨none, 0, [warning]⟩

/-- A copy of a model that an edit of several entities works on. -/
structure Working (α : Type) where
  model : WallModel α
  count : Nat
  warnings : List (Warning α)

namespace Working

/-- Decline the part of an edit. -/
def warn (w : Working α) (warning : Warning α) : Working α :=
  { w with warnings := w.warnings ++ [warning] }

/-- Go on with a model in which one more entity has been changed. -/
def advance (w : Working α) (model : WallModel α) : Working α :=
  { w with model, count := w.count + 1 }

/-- End an edit: with any entity changed the bounds are recomputed and the model is handed over. -/
def toEdit (w : Working α) : Edit α :=
  ⟨if w.count = 0 then none else some w.model.withBounds, w.count, w.warnings⟩

end Working

namespace WallModel

/-! ## Finding entities -/

/-- Whether a statement is still there. -/
def isLive (m : WallModel α) (index : Nat) : Bool :=
  (m.statements[index]?.join).isSome

/-- The entity that a request names, with all its statements still there. -/
def resolve (m : WallModel α) (ref : EntityRef) : Except (Warning α) (Entity α) :=
  match (EntityKind.ofName? ref.kind).bind fun kind => m.find? kind ref.id with
  | none => .error (.noEntity ref)
  | some entity =>
    match entity.statementIndices.find? fun i => !m.isLive i with
    | some i => .error (.statementGone i ref)
    | none => .ok entity

/-! ## Moving and deleting -/

/-- Move one entity. -/
def translateStep (axisName : String) (distance : α) (w : Working α) (ref : EntityRef) :
    Working α :=
  match (EntityKind.ofName? ref.kind).bind fun kind => kind.axis? axisName with
  | none => w.warn (.noAxis ref.kind axisName)
  | some axis =>
    match w.model.resolve ref with
    | .error warning => w.warn warning
    | .ok entity =>
      match w.model.translateEntity? entity axis distance with
      | none => w
      | some model => w.advance model

/-- Move entities by a distance along an axis. -/
def translate (m : WallModel α) (refs : List EntityRef) (axisName : String) (distance : Option α) :
    Edit α :=
  match distance with
  | none => .declined (.badDistance none)
  | some d =>
    if Scalar.isFinite d && !(d == 0.0) then
      (refs.foldl (translateStep axisName d) ⟨m, 0, []⟩).toEdit
    else .declined (.badDistance (some d))

/-- The model without an entity and its statements. The bounds are left as they are. -/
def deleteEntity (m : WallModel α) (entity : Entity α) : WallModel α :=
  let m := match entity with
    | .nailRow r => { m with nailRows := m.nailRows.eraseP (·.editorId == r.editorId) }
    | .drilling d => { m with drillings := m.drillings.eraseP (·.editorId == d.editorId) }
    | .routing r => { m with routings := m.routings.eraseP (·.editorId == r.editorId) }
  { m with statements := entity.statementIndices.foldl (fun ss i => ss.set i none) m.statements }

/-- Delete one entity. -/
def deleteStep (w : Working α) (ref : EntityRef) : Working α :=
  match w.model.resolve ref with
  | .error warning => w.warn warning
  | .ok entity => w.advance (w.model.deleteEntity entity)

/-- Delete entities. -/
def delete (m : WallModel α) (refs : List EntityRef) : Edit α :=
  (refs.foldl deleteStep ⟨m, 0, []⟩).toEdit

/-! ## Texts -/

/-- The text of the document as it stands. -/
def text (m : WallModel α) : Option String :=
  serialize m.statements m.source

/-- The text that is saved for the document. -/
def payload (m : WallModel α) : String :=
  savedText m.statements m.source

/-! ## Reading again -/

/-- The document read again. Ids go on from where they are. -/
def reparse (m : WallModel α) : Except Fault (WallModel α) :=
  match serialize m.statements none with
  | none => .error (.refused .nothingLeft)
  | some text => parseModel text m.nextEditorId

/-- The positions among the statements that a list of indices names. -/
def knownIndices (m : WallModel α) (indices : List (Option Int)) : List Nat :=
  (List.range m.statements.length).filter fun i => indices.contains (some (Int.ofNat i))

/-- The live statements at the positions, counted from `start`, that satisfy `p`. -/
def liveStatements (p : Nat → Bool) (start : Nat) (statements : List (Option String)) :
    List String :=
  (((List.range statements.length).zip statements).filterMap fun (i, s) =>
    if p (start + i) then s else none)

/-- The live statements with those at some positions dropped and others put where the first of the
positions is. -/
def replacedStatements (m : WallModel α) (dropped : List Nat) (first : Nat) (new : List String) :
    List String :=
  liveStatements (fun _ => true) 0 (m.statements.take first) ++ new ++
    liveStatements (fun i => !dropped.contains i) first (m.statements.drop first)

/-- Drop the statements at some indices, put others where the first of them was, and read the
document again. An index that names no statement is passed over; one has to name one. -/
def replaceStatements (m : WallModel α) (indices : List (Option Int)) (new : List String) :
    Except Fault (Edit α) :=
  match m.knownIndices indices with
  | [] => .ok (.declined .noIndices)
  | first :: rest =>
    match serialize ((m.replacedStatements (first :: rest) first new).map some) none with
    | none => .ok (.declined .emptyDocument)
    | some text =>
      match parseModel text m.nextEditorId with
      | .ok model => .ok ⟨some model, 1, []⟩
      | .error (.refused refusal) => .ok (.declined (.refused refusal))
      | .error fault => .error fault

/-- Write other statements in place of those of an entity, and read the document again. -/
def replaceEntity (m : WallModel α) (ref : EntityRef) (new : List String) : Except Fault (Edit α) :=
  match m.resolve ref with
  | .error warning => .ok (.declined warning)
  | .ok entity =>
    m.replaceStatements (entity.statementIndices.map fun i => some (Int.ofNat i)) new

end WallModel

end WallPanel
