import WallPanel.Editing.Editor

/-!
# A session of edits

An editor holds one model. A request either hands over a new model, which the editor then holds, or
leaves the one that it has: when it is declined, and when it fails.

* `EditRequest`: what an editor can be asked to do.
* `WallModel.answer`: what a request comes to.
* `WallModel.after`, `WallModel.session`: the model that the editor holds after a request, and after
  several.
-/

namespace WallPanel

/-- What an editor is asked to do. -/
inductive EditRequest (α : Type) where
  | translate (refs : List EntityRef) (axisName : String) (distance : Option α)
  | delete (refs : List EntityRef)
  | replaceStatements (indices : List (Option Int)) (new : List String)
  | replaceEntity (ref : EntityRef) (new : List String)
  | reparse
deriving Repr

namespace WallModel

variable {α : Type} [Scalar α]

/-- What a request comes to. -/
def answer (m : WallModel α) : EditRequest α → Except Fault (Edit α)
  | .translate refs axisName distance => .ok (m.translate refs axisName distance)
  | .delete refs => .ok (m.delete refs)
  | .replaceStatements indices new => m.replaceStatements indices new
  | .replaceEntity ref new => m.replaceEntity ref new
  | .reparse => m.reparse.map fun m' => ⟨some m', 1, []⟩

/-- The model after a request: the one that is handed over, or else the one that was there. -/
def after (m : WallModel α) (q : EditRequest α) : WallModel α :=
  match m.answer q with
  | .ok edit => edit.model.getD m
  | .error _ => m

/-- The model after requests, one after the other. -/
def session (m : WallModel α) (qs : List (EditRequest α)) : WallModel α :=
  qs.foldl after m

end WallModel

end WallPanel
