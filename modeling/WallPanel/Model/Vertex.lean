import WallPanel.Geometry.Path
import WallPanel.Model.Routing
import WallPanel.Statement.Basic

/-!
# Vertices of a routing

A path of a routing is read vertex by vertex. Each vertex moves the pen and contributes a depth, an
offset, an orientation and a height to the means of the path.

* `cutDepth`: which of two numbers of a vertex is its depth.
* `Vertex.ofPoint?`, `Vertex.ofCurve?`: the vertex of a statement.
* `VertexRun`: the vertices of a path, at least one.
* `SourceEntry.commands`: the path that the lines of a cut draw again.
-/

namespace WallPanel

variable {α : Type} [Scalar α]

/-- The size below which a depth counts as zero. -/
def depthTolerance : α := 1e-6

/-- The depth of a vertex, of two numbers that may give it. The first wins unless it counts as zero;
then the second does, if its magnitude is greater. -/
def cutDepth (first second : Option α) : Option α :=
  match first, second with
  | none, second => second
  | first, none => first
  | some p, some t =>
    if depthTolerance < Scalar.abs p then some p
    else if Scalar.abs p ≤ depthTolerance && Scalar.abs p < Scalar.abs t then some t
    else if Scalar.abs t ≤ depthTolerance && Scalar.abs t < Scalar.abs p then some p
    else if Scalar.abs p ≤ Scalar.abs t then some p
    else some t

/-- A vertex of a path. -/
structure Vertex (α : Type) where
  command : PathCommand α
  entry : SourceEntry α
  body : String
  depth : Option α
  offset : Option α
  orientation : Option α
  z : Option α
deriving Repr

namespace Vertex

/-- The line of a statement that gives a vertex. -/
def entryOf (s : Statement α) (flag : Option String) : SourceEntry α :=
  { command := s.command.word, numbers := s.numbers, statementIndex := s.index, flag }

/-- The vertex of a point statement. The first of a path puts the pen down, any other draws. -/
def ofPoint? (s : Statement α) (isFirst : Bool) : Option (Vertex α) := do
  let x ← s.number? 0
  let y ← s.number? 1
  return {
    command := { motion := if isFirst then .move else .line, point := ⟨x, y⟩ }
    entry := entryOf s none
    body := s.body
    depth := cutDepth (s.number? 2) (s.number? 5)
    offset := s.number? 3
    orientation := s.number? 4
    z := s.number? 2 }

/-- The vertex of a curve statement. The flag is the fourth token; without it there is none. -/
def ofCurve? (s : Statement α) : Option (Vertex α) := do
  let flag ← (tokens s.body)[3]?
  let x ← s.number? 0
  let y ← s.number? 1
  let radius ← s.number? 2
  return {
    command := .arcTo ⟨x, y⟩ radius (some flag)
    entry := entryOf s (some flag)
    body := s.body
    depth := cutDepth (s.number? 3) (s.number? 6)
    offset := s.number? 4
    orientation := s.number? 5
    z := s.number? 6 }

end Vertex

/-- The vertices of a path in order. There is always a first one. -/
structure VertexRun (α : Type) where
  first : Vertex α
  rest : List (Vertex α)
deriving Repr

namespace VertexRun

def toList (r : VertexRun α) : List (Vertex α) :=
  r.first :: r.rest

/-- Put a vertex at the end. -/
def push (r : VertexRun α) (v : Vertex α) : VertexRun α :=
  { r with rest := r.rest ++ [v] }

/-- The vertex at the end of a run, or the first of a new one. -/
def extend (r? : Option (VertexRun α)) (v : Vertex α) : VertexRun α :=
  match r? with
  | some r => r.push v
  | none => ⟨v, []⟩

/-- The path that the vertices draw. -/
def trace (r : VertexRun α) : Trace α :=
  WallPanel.trace (r.toList.map (·.command))

/-- The path of a given shape that is cut along the vertices. It fails if the mean offset, which is
the control code of the path, is not finite. -/
def cut (r : VertexRun α) (kind : PathKind) (points : List (Point α)) (t : Trace α) :
    Except NoInteger (PathCut α) := do
  let vs := r.toList
  let depths := vs.filterMap (·.depth)
  let offset := Scalar.mean? (vs.filterMap (·.offset))
  let controlCode ← offset.mapM Scalar.roundHalfUp
  return {
    kind, points, offset, controlCode
    segments := t.segments
    depth := Scalar.mean? (depths.map Scalar.abs)
    depthRaw := Scalar.mean? depths
    orientation := Scalar.mean? (vs.filterMap (·.orientation))
    z := Scalar.mean? (vs.filterMap (·.z))
    source := vs.map (·.entry)
    samples := t.samples }

end VertexRun

/-! ## Drawing a cut again -/

namespace SourceEntry

/-- The command of a line, if it has the numbers it needs. -/
def command? (e : SourceEntry α) : Option (PathCommand α) :=
  match e.numbers with
  | x :: y :: rest =>
    if e.command = "KB" then rest.head?.map fun radius => .arcTo ⟨x, y⟩ radius e.flag
    else if e.command = "PP" then some { motion := .line, point := ⟨x, y⟩ }
    else none
  | _ => none

/-- The path commands of lines. The first command puts the pen down. -/
def commands (entries : List (SourceEntry α)) : List (PathCommand α) :=
  match entries.filterMap command? with
  | [] => []
  | c :: cs => { c with motion := .move } :: cs

end SourceEntry

namespace PathCut

/-- The path drawn again from its lines, and whether anything could be drawn. If not, no vertices
are left. -/
def redrawn (p : PathCut α) : PathCut α × Bool :=
  let t := WallPanel.trace (SourceEntry.commands p.source)
  match dedupe t.samples with
  | [] => ({ p with points := [], segments := [] }, false)
  | deduped =>
    let points := match p.kind with
      | .polygon => (closePath deduped).1
      | .polyline => deduped
    ({ p with points, segments := t.segments, samples := t.samples }, true)

end PathCut

end WallPanel
