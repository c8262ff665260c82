import WallPanel.Geometry.Arc

/-!
# Paths

A path is drawn by a pen that commands move: to a point, in a straight line, or along an arc.

* `Segment`: a piece of a path.
* `PathCommand`: a move of the pen.
* `trace`: the samples and the pieces of a path.

An arc that has no solution is drawn as a straight piece and marked as such, so that a path always
ends where its last command says.
-/

namespace WallPanel

/-- A piece of a path. -/
inductive Segment (α : Type) where
  /-- A straight piece; `fallback` marks one that stands for an arc without a solution. -/
  | line (start stop : Point α) (fallback : Bool)
  | arc (a : Arc α)
deriving Repr

namespace Segment

variable {α : Type}

def start : Segment α → Point α
  | line p _ _ => p
  | arc a => a.start

def stop : Segment α → Point α
  | line _ p _ => p
  | arc a => a.stop

end Segment

/-- How the pen gets to the point of a command. -/
inductive Motion where
  | move
  | line
  | arc
  /-- An unknown motion, which is passed over unless the path begins there. -/
  | other
deriving DecidableEq, Repr

/-- A move of the pen to a point. -/
structure PathCommand (α : Type) where
  motion : Motion
  point : Point α
  /-- What is asked of the arc, for a command that comes from a curve. -/
  request : Option (ArcRequest α) := none
deriving Repr

/-- The samples along a path, and its pieces. -/
structure Trace (α : Type) where
  samples : List (Point α)
  segments : List (Segment α)
deriving Repr

variable {α : Type} [Scalar α]

/-- The command that draws an arc to a point. -/
def PathCommand.arcTo (point : Point α) (radius : α) (flag : Option String) : PathCommand α :=
  { motion := .arc, point, request := some (.ofFlag radius flag) }

namespace Trace

/-- The samples after `pen` and the piece from there to the point of an arc command. -/
def arcFrom (pen : Point α) (c : PathCommand α) : List (Point α) × Segment α :=
  match c.request.bind (Arc.solve? pen c.point) with
  | some a => (a.sample.tail, .arc a)
  | none => ([c.point], .line pen c.point true)

/-- The path that commands with usable points draw with the pen at a point, or not yet down. -/
def drawFrom : Option (Point α) → List (PathCommand α) → Trace α
  | _, [] => ⟨[], []⟩
  | none, c :: cs =>
    let t := drawFrom (some c.point) cs
    ⟨c.point :: t.samples, t.segments⟩
  | some pen, c :: cs =>
    match c.motion with
    | .move =>
      let t := drawFrom (some c.point) cs
      ⟨c.point :: t.samples, t.segments⟩
    | .line =>
      let t := drawFrom (some c.point) cs
      ⟨c.point :: t.samples, .line pen c.point false :: t.segments⟩
    | .arc =>
      let (samples, segment) := arcFrom pen c
      let t := drawFrom (some c.point) cs
      ⟨samples ++ t.samples, segment :: t.segments⟩
    | .other => drawFrom (some pen) cs

end Trace

/-- The path that commands draw. A command whose point is not finite is passed over. -/
def trace (commands : List (PathCommand α)) : Trace α :=
  Trace.drawFrom none (commands.filter (·.point.isFinite))

end WallPanel
