import WallPanel.Model.Role

/-!
# Building the model

The model is built in one pass over the statements. Some of them open a context for those that
follow: a module, a panel, a routing, a path within the routing. Any command but a point closes the
panel, and any command but points and curves ends the path. Statements without a place are collected
as unhandled.

* `Builder`: the model so far and what is open.
* `Builder.settle`: what ends before a statement is taken in.
* `Builder.context`: what is open, from which a statement gets its role.
* `Builder.place`, `Builder.accept`: take in a statement by its role.
* `Builder.feed`, `Builder.finish`: a step of the pass, and its end.
-/

namespace WallPanel

/-- What a pass over a document notes down. -/
inductive Note where
  | unhandled (index : Nat) (word body : String)
  /-- A path without two usable points, by its first statement. -/
  | shortPath (index : Nat)
  /-- The counts of a finished model. -/
  | finished (statements studs plates blocking panels nailRows routings drillings rejected : Nat)
deriving DecidableEq, Repr

/-- The wording of a note. -/
def Note.message : Note → String
  | unhandled index word body =>
    "unhandled statement " ++ toString index ++ ": " ++ word ++ " " ++ body
  | shortPath index => "path at statement " ++ toString index ++ " has fewer than 2 usable points"
  | finished statements studs plates blocking panels nailRows routings drillings rejected =>
    "parsed " ++ toString statements ++ " statements: " ++ toString studs ++ " studs, " ++
      toString plates ++ " plates, " ++ toString blocking ++ " blocking, " ++
      toString panels ++ " panels, " ++ toString nailRows ++ " nail rows, " ++
      toString routings ++ " routings, " ++ toString drillings ++ " drillings, " ++
      toString rejected ++ " unhandled"

/-- A model in the making, with the contexts that are open. -/
structure Builder (α : Type) where
  model : WallModel α
  /-- The module whose frame statements are relative to. -/
  activeModule : Option (ModuleFrame α)
  /-- Whether the last panel of the model takes the points that follow. -/
  panelOpen : Bool
  activeRouting : Option (Routing α)
  /-- The path of the open routing. -/
  run : Option (VertexRun α)
  /-- The member that a drilling goes into. -/
  lastMember : Option (FrameMember α)
  /-- The layer of the last panel. -/
  panelLayer : Option PanelLayer
  nextId : Int
  notes : List Note

/-- A pass that had to stop, with what it had noted down. -/
structure Interruption where
  fault : Fault
  notes : List Note

variable {α : Type} [Scalar α]

/-- A number that has no integer part, as a fault. -/
def NoInteger.toFault : NoInteger → Fault
  | infinite => .infiniteInteger
  | undefined => .undefinedInteger

namespace Builder

/-- The start of a pass over the statements of a text. -/
def start (statements : List String) (source : String) (firstId : Int) : Builder α :=
  { model := {
      wall := none, modules := [], studs := [], blocking := [], plates := [], sheathing := []
      nailRows := [], routings := [], drillings := [], bounds := .empty, unhandled := []
      statements := statements.map some, source := some source, nextEditorId := 1 }
    activeModule := none, panelOpen := false, activeRouting := none, run := none
    lastMember := none, panelLayer := none, nextId := firstId, notes := [] }

/-! ## Small steps -/

def note (b : Builder α) (n : Note) : Builder α :=
  { b with notes := b.notes ++ [n] }

/-- Add to the unhandled records. -/
def record (b : Builder α) (u : Unhandled α) : Builder α :=
  { b with model := { b.model with unhandled := b.model.unhandled ++ [u] } }

/-- Record a statement as unhandled, and note it. -/
def reject (b : Builder α) (u : Unhandled α) : Builder α :=
  (b.note (.unhandled u.statementIndex u.command u.body)).record u

/-- Take points into the bounds. -/
def extend (b : Builder α) (ps : List (Point α)) : Builder α :=
  { b with model := { b.model with bounds := b.model.bounds.extendAll ps } }

/-- Put a cut at the end of a routing, with the statements it was read from. -/
def pushSegment (r : Routing α) (segment : RoutingSegment α) (indices : List Nat) : Routing α :=
  { r with
    segments := r.segments ++ [segment]
    statementIndices := r.statementIndices ++ indices }

/-- Add a statement to those of a routing. -/
def pushIndex (r : Routing α) (index : Nat) : Routing α :=
  { r with statementIndices := r.statementIndices ++ [index] }

/-- Record a path as unhandled by its first vertex, and note it. -/
def rejectRun (b : Builder α) (run : VertexRun α) : Builder α :=
  (b.note (.shortPath run.first.entry.statementIndex)).record run.first.unhandled

/-! ## Ends of contexts -/

/-- End the open path. A path with fewer than two usable points is recorded as unhandled by its
first vertex; any other becomes a cut of the open routing. -/
def endPath (b : Builder α) : Except Fault (Builder α) :=
  match b.run with
  | none => .ok b
  | some run =>
    let b := { b with run := none }
    let t := run.trace
    let deduped := dedupe t.samples
    match b.activeRouting with
    | some routing =>
      if 2 ≤ deduped.length then
        let (points, closed) := closePath deduped
        let b := b.extend t.samples
        match PathKind.of? points.length closed with
        | none => .ok b
        | some kind =>
          match run.cut kind points t with
          | .ok cut => .ok { b with activeRouting := some (pushSegment routing (.path cut) []) }
          | .error e => .error e.toFault
      else .ok (b.rejectRun run)
    | none => .ok (b.rejectRun run)

/-- End the open routing, whose path has ended. A routing without cuts is recorded as unhandled. -/
def closeRouting (b : Builder α) : Builder α :=
  match b.activeRouting with
  | none => b
  | some routing =>
    let b := { b with activeRouting := none }
    if routing.segments.isEmpty then b.record routing.unhandled
    else
      { b with
        nextId := b.nextId + 1
        model := { b.model with
          routings := b.model.routings ++ [{ routing with editorId := some b.nextId }] } }

/-- What ends before a statement is taken in: anything but a point closes the panel, and anything
but points and curves ends the path. -/
def settle (b : Builder α) (kind : CommandKind) : Except Fault (Builder α) :=
  match kind with
  | .point => .ok b
  | .curve => .ok { b with panelOpen := false }
  | _ => endPath { b with panelOpen := false }

/-! ## Statements -/

/-- The panel that takes points, if one is open, as its header describes it. -/
def openPanel? (b : Builder α) : Option (SheathingPanel α) :=
  if b.panelOpen then b.model.sheathing.getLast?.map fun p => { p with points := [] } else none

/-- What is open. -/
def context (b : Builder α) : Context α :=
  { setting := {
      hasWall := b.model.wall.isSome
      module := b.activeModule
      member := b.lastMember
      layer := b.panelLayer }
    panel := b.openPanel?
    routing := b.activeRouting.map (·.statementIndex)
    run := b.run.map (·.first.entry.statementIndex) }

/-- Declare the size of the wall. -/
def setWall (b : Builder α) (w : WallSize α) : Builder α :=
  { b with model := { b.model with wall := some w } }

/-- Begin a module. -/
def beginModule (b : Builder α) (m : ModuleFrame α) : Builder α :=
  { b with
    model := { b.model with modules := b.model.modules ++ [m] }
    activeModule := some m
    lastMember := none }

/-- End the module. -/
def endModule (b : Builder α) : Builder α :=
  { b with activeModule := none, lastMember := none }

/-- Add a member of the frame to its collection. -/
def pushMember (b : Builder α) (member : FrameMember α) : Builder α :=
  let m := b.model
  let model := match member.kind with
    | .stud => { m with studs := m.studs ++ [member] }
    | .blocking => { m with blocking := m.blocking ++ [member] }
    | .plate => { m with plates := m.plates ++ [member] }
  let b := { b with model, lastMember := some member }
  b.extend member.corners

/-- Open a panel. -/
def openPanel (b : Builder α) (panel : SheathingPanel α) : Builder α :=
  let b := { b with
    model := { b.model with sheathing := b.model.sheathing ++ [panel] }
    panelOpen := true
    panelLayer := some panel.layer }
  b.extend panel.corners

/-- Put a point on the boundary of the last panel. -/
def pushPanelPoint (b : Builder α) (p : PanelPoint α) : Builder α :=
  let last := b.model.sheathing.getLast?.map fun panel =>
    { panel with points := panel.points ++ [p] }
  let b := { b with
    model := { b.model with sheathing := b.model.sheathing.dropLast ++ last.toList } }
  b.extend [p.position]

/-- Open a routing, after ending the one before. -/
def openRouting (b : Builder α) (routing : Routing α) : Builder α :=
  { b.closeRouting with activeRouting := some routing }

/-- Cut a circle in the open routing. -/
def pushCircle (b : Builder α) (c : CircleCut α) : Builder α :=
  let b := { b with
    activeRouting := b.activeRouting.map fun routing =>
      pushSegment routing (.circle c) [c.statementIndex] }
  b.extend (CircleCut.corners c.position c.radius)

/-- Put a vertex at the end of the path of the open routing. -/
def pushVertex (b : Builder α) (v : Vertex α) : Builder α :=
  let b := { b with
    run := some (VertexRun.extend b.run v)
    activeRouting := b.activeRouting.map fun routing =>
      pushIndex routing v.entry.statementIndex }
  b.extend [v.command.point]

/-- Add a nail row, with the next id. -/
def pushNailRow (b : Builder α) (row : NailRow α) : Builder α :=
  let b := { b with
    nextId := b.nextId + 1
    model := { b.model with
      nailRows := b.model.nailRows ++ [{ row with editorId := some b.nextId }] } }
  b.extend [row.start, row.stop]

/-- Add a drilling, with the next id. -/
def pushDrilling (b : Builder α) (drilling : Drilling α) : Builder α :=
  let b := { b with
    nextId := b.nextId + 1
    model := { b.model with
      drillings := b.model.drillings ++ [{ drilling with editorId := some b.nextId }] } }
  b.extend (Drilling.sides drilling.x drilling.z (drilling.diameter / 2.0))

/-- Take in a statement by its role. -/
def place (b : Builder α) : Role α → Except Fault (Builder α)
  | .wall w => .ok (b.setWall w)
  | .moduleBegin m => .ok (b.beginModule m)
  | .moduleEnd => .ok b.endModule
  | .member m => .ok (b.pushMember m)
  | .panel p => .ok (b.openPanel p)
  | .boundary _ p => .ok (b.pushPanelPoint p)
  | .header r => .ok (b.openRouting r)
  | .circle _ (.ok c) => .ok (b.pushCircle c)
  | .circle _ (.error e) => .error e.toFault
  | .vertex _ _ v => .ok (b.pushVertex v)
  | .nailRow r => .ok (b.pushNailRow r)
  | .drilling d => .ok (b.pushDrilling d)
  | .unhandled u => .ok (b.reject u)
  | .foreign u => .ok (b.closeRouting.reject u)

/-- Take in a statement, after what it ends. -/
def accept (b : Builder α) (s : Statement α) : Except Fault (Builder α) :=
  b.place (b.context.role s)

/-! ## The pass -/

/-- A result that is a fault becomes an interruption with what had been noted. -/
def interruptible {β : Type} (b : Builder α) (r : Except Fault β) : Except Interruption β :=
  r.mapError fun fault => ⟨fault, b.notes⟩

/-- Take in one statement. -/
def feed (b : Builder α) (s : Statement α) : Except Interruption (Builder α) := do
  let b ← b.interruptible (b.settle s.command.kind)
  b.interruptible (b.accept s)

/-- Read the statements from a position on, and take them in. -/
def feedAll (b : Builder α) (index : Nat) : List String → Except Interruption (Builder α)
  | [] => .ok b
  | text :: texts => do
    let s ← b.interruptible (Statement.read index text)
    let b ← b.feed s
    b.feedAll (index + 1) texts

/-- End the pass: the open path and the open routing end. -/
def finish (b : Builder α) : Except Interruption (Builder α) := do
  let b ← b.interruptible b.endPath
  return b.closeRouting

end Builder

end WallPanel
