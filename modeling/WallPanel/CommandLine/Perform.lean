import WallPanel.CommandLine.Arguments
import WallPanel.CommandLine.Folder
import WallPanel.CommandLine.Options
import WallPanel.CommandLine.Outcome
import WallPanel.Data.Json
import WallPanel.Drawing.Picture
import WallPanel.Model.Check
import WallPanel.Model.Record

/-!
# Commands

What each command does with files.

* `WallModel.cutReport`, `WallModel.issueReport`: the lines of a check.
* `Request.perform`: what a request comes to.
* `commandLine`: what the command line answers.

The options are read before the document, and the document before the kind of an edit is looked at:
of several faults the first in this order is reported.
-/

namespace WallPanel

/-! ## Reports -/

/-- A line on the size of a path. -/
def PathCut.reportLine (p : PathCut Float) (id : Option Int) (code : ControlCode)
    (footprint : Footprint Float) : String :=
  "paf #" ++ (match id with
      | some n => toString n
      | none => "None") ++ " " ++ p.kind.name ++ ": " ++ code.radiusMode ++ ", " ++ code.edgeMode ++
    ", " ++ formatMillimetres (some footprint.width) 1 ++ " x " ++
    formatMillimetres (some footprint.height) 1

/-- The lines on a cut: one for a path that has a size. -/
def RoutingSegment.report (toolRadius : Float) (id : Option Int) :
    RoutingSegment Float → Except NoInteger (List String)
  | circle _ => .ok []
  | path p => do
    let code := ControlCode.ofCode Float (← p.code?)
    return ((Footprint.ofPoints? p.points code toolRadius).map (p.reportLine id code)).toList

/-- A line on a statement that has no place in the model. -/
def Unhandled.reportLine (u : Unhandled Float) : String :=
  trimmedEnd ("unhandled [" ++ toString u.statementIndex ++ "] " ++ u.command ++ " " ++ u.body)

/-- A line on an issue, with the entity it is about, or else the statement. -/
def Issue.reportLine (i : Issue Float) : String :=
  i.defect.kind ++ " " ++ (match i.editorId with
      | some n => "#" ++ toString n
      | none => "[" ++ toString i.statementIndex ++ "]") ++ ": " ++ i.defect.message

namespace WallModel

/-- The lines on the cuts of a model. -/
def cutReport (m : WallModel Float) (toolRadius : Float) : Except NoInteger (List String) := do
  let lines ← m.routings.mapM fun r => r.segments.mapM (RoutingSegment.report toolRadius r.editorId)
  return lines.flatten.flatten

/-- The lines on the issues of a model. -/
def issueReport (m : WallModel Float) : List String :=
  m.issues.map Issue.reportLine

end WallModel

/-! ## Steps of a command -/

/-- Go on with the result of a step that may fail. -/
def orFail {β : Type} (output : List String) (log : List LogLine) (r : Except Failure β)
    (next : β → Outcome) : Outcome :=
  match r with
  | .ok b => next b
  | .error failure => .failed output log failure

/-- Go on with the document at a path and the log of its reading. A document that is refused ends
the command. -/
def withDocument (files : Files) (path : String)
    (next : WallModel Float → List LogLine → Outcome) : Outcome :=
  let parsed : Parsed Float := parseDocument ((files.text? path).getD "") 1
  let log := parsed.notes.map LogLine.ofNote
  match parsed.outcome with
  | .ok m => next m log
  | .error (.refused refusal) =>
    .declined [] log
      [String.ofList (FilePath.parse path.toList).render ++ ": " ++ refusal.message]
  | .error fault => .failed [] log (.fault fault)

/-- Go on with the options at a path. Options that are no mapping are not understood. -/
def withOptions (files : Files) (path : Option String) (next : Options → Outcome) : Outcome :=
  match path with
  | none => next []
  | some path =>
    orFail [] [] (Options.ofText ((files.text? path).getD "")) fun options? =>
      match options? with
      | some options => next options
      | none => .usage

/-- Compute the content of a file whose directories are made, and write it. `report` is what the
output says of the path. -/
def writing (files : Files) (path : FilePath) (log : List LogLine)
    (content : Except Failure Content) (report : String → String) (note : List LogLine) : Outcome :=
  orFail [] log content fun content =>
    orFail [] log (files.openFile path) fun _ =>
      match content.fault? with
      | some fault => .failed [] log (.fault fault)
      | none => .wrote [report (String.ofList path.render)] (log ++ note) path content

/-- Save an edited document beside the one that was read. -/
def saveEdited (files : Files) (input : String) (edit : Edit Float) (log : List LogLine)
    (declined : String) (report : String → String) : Outcome :=
  let log := log ++ edit.warnings.map LogLine.ofWarning
  match edit.model with
  | none => .declined [] log [declined]
  | some m =>
    let name := modifiedName (String.ofList (FilePath.parse input.toList).render)
    let path := FilePath.parse name.toList
    orFail [] log (files.makeParents path) fun _ =>
      writing files path log (.ok (.text m.payload)) report [.saved path]

/-! ## Commands -/

namespace Request

/-- Write the model as data. -/
def performParse (files : Files) (input : String) (output : Option String) : Outcome :=
  withDocument files input fun m log =>
    match output with
    | none => .done [m.datum.json] log
    | some output =>
      let path := FilePath.parse output.toList
      orFail [] log (files.makeParents path) fun _ =>
        writing files path log (.ok (.text m.datum.json)) ("Wrote model to " ++ ·) []

/-- Write a picture. -/
def performPreview (files : Files) (input output : String) : Outcome :=
  withDocument files input fun m log =>
    let path := FilePath.parse output.toList
    let content := ((m.picture .standard).map Content.text).mapError Failure.fault
    orFail [] log (files.makeParents path) fun _ =>
      writing files path log content ("Wrote " ++ ·) []

/-- Write a layered drawing. Units and names that it cannot have are not understood. -/
def performDraw (files : Files) (input output : String) (asked options : Option String) :
    Outcome :=
  withOptions files options fun options =>
    withDocument files input fun m log =>
      let path := FilePath.parse output.toList
      let content := (options.drawing m asked).map Content.drawing
      orFail [] log (files.makeParents path) fun _ =>
        (writing files path log content ("Wrote DXF: " ++ ·) [.drawn path]).blamingRequest

/-- Report the cuts, the statements without a place, and the issues. Any issue makes the command
end as one that was declined. -/
def performCheck (files : Files) (input : String) (options : Option String) : Outcome :=
  withOptions files options fun options =>
    orFail [] [] options.toolRadius fun toolRadius =>
      withDocument files input fun m log =>
        match m.cutReport toolRadius with
        | .error e => .failed [] log (.fault e.toFault)
        | .ok cuts =>
          let lines := cuts ++ m.unhandled.map Unhandled.reportLine
          match m.issueReport with
          | [] => .done (lines ++ ["OK"]) log
          | issues => .declined (lines ++ issues) log []

/-- Go on with references to entities of a kind. -/
def withKind (kind : String) (ids : List Int) (next : List EntityRef → Outcome) : Outcome :=
  if (EntityKind.ofName? kind).isSome then next (ids.map (⟨kind, ·⟩)) else .usage

/-- Move entities. -/
def performTranslate (files : Files) (input kind : String) (ids : List Int) (axis : String)
    (distance : Float) : Outcome :=
  withDocument files input fun m log =>
    withKind kind ids fun refs =>
      let edit := m.withIds.translate refs axis (some distance)
      saveEdited files input edit log "Nothing moved" fun path =>
        "Moved " ++ toString edit.count ++ " " ++ kind ++ "; wrote " ++ path

/-- Delete entities. -/
def performDelete (files : Files) (input kind : String) (ids : List Int) : Outcome :=
  withDocument files input fun m log =>
    withKind kind ids fun refs =>
      let edit := m.withIds.delete refs
      saveEdited files input edit log "Nothing deleted" fun path =>
        "Deleted " ++ toString edit.count ++ " " ++ kind ++ "; wrote " ++ path

/-- What a request comes to. The files it reads have to be there. -/
def perform (r : Request) (files : Files) : Outcome :=
  if r.reads.all fun path => (files.text? path).isSome then
    match r with
    | parse input output => performParse files input output
    | preview input output => performPreview files input output
    | draw input output units options => performDraw files input output units options
    | check input options => performCheck files input options
    | translate input kind ids axis distance => performTranslate files input kind ids axis distance
    | delete input kind ids => performDelete files input kind ids
  else .usage

end Request

/-- What the command line answers. -/
structure Answer where
  exitCode : Nat
  output : String
  errors : String
  failure : Option Failure
  written : Option (FilePath × Content)

/-- The answer to the arguments of the command line. -/
def commandLine (args : List String) (files : Files) : Answer :=
  let (verbose, o) := match Invocation.ofArguments? args with
    | none => (false, Outcome.usage)
    | some i => (i.verbose, i.request.perform files)
  { exitCode := o.exitCode, output := o.outputText, errors := o.errorText verbose
    failure := o.failure, written := o.written }

end WallPanel
