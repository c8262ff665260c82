import WallPanel.Fault
import WallPanel.Geometry.Point
import WallPanel.Text.Blank
import WallPanel.Text.LetterCase

/-!
# Circular arcs

A curve statement gives the end of an arc, its radius and a flag; the start is where the path
stands. Two circles of that radius pass through both ends, and the sense of rotation together with
the size asked for picks one of them.

* `ArcFlag.isClockwise`, `ArcFlag.isLarge`: what a flag asks for.
* `unsignedSweep`, `signedSweep`: the angle from one direction to another in a sense of rotation.
* `candidateCenters`: the centres of the two circles.
* `Arc.solve?`: the arc that fits the request, if there is one.
* `Arc.sample`: points along an arc, its ends included exactly.
* `Arc.trySample`: the same for an arc of any numbers, which may be beyond sampling.
-/

namespace WallPanel

/-! ## Flags -/

namespace ArcFlag

/-- Whether two characters stand next to each other in a text. -/
def hasPair (a b : Char) : List Char → Bool
  | c :: d :: cs => (c == a && d == b) || hasPair a b (d :: cs)
  | _ => false

/-- Whether a flag asks for a clockwise arc. `cc` asks for a counter-clockwise one and `cw` for a
clockwise one, in either case of letters; failing both, a `w` at the end asks for a clockwise
one. -/
def isClockwise (flag : Option String) : Bool :=
  match flag with
  | none => false
  | some f =>
    let cs := (Blank.trim f.toList).map Char.toLower
    if hasPair 'c' 'c' cs then false
    else hasPair 'c' 'w' cs || cs.getLast? == some 'w'

/-- Whether a flag asks for the larger of the two arcs: it does so in upper case. -/
def isLarge (flag : Option String) : Bool :=
  match flag with
  | none => false
  | some f =>
    let cs := Blank.trim f.toList
    !cs.isEmpty && LetterCase.isUpper cs

end ArcFlag

variable {α : Type} [Scalar α]

/-! ## Angles -/

/-- A full turn. -/
def fullTurn : α := 2.0 * Scalar.pi

/-- Add turns to an angle while it is not far enough, at most so many times. -/
def addTurns (isShort : α → Bool) : Nat → α → α
  | 0, angle => angle
  | n + 1, angle => if isShort angle then addTurns isShort n (angle + fullTurn) else angle

/-- A number of turns that makes any angle positive. -/
def turnsNeeded (angle : α) : Nat :=
  (Scalar.floor (-(angle / fullTurn))).toNat + 3

/-- The angle from one direction to another in a sense of rotation, as a difference. -/
def directedDifference (start stop : α) (clockwise : Bool) : α :=
  if clockwise then start - stop else stop - start

/-- The angle from one direction to another, with turns added until it is not negative. -/
def unsignedSweep (start stop : α) (clockwise : Bool) : α :=
  let d := directedDifference start stop clockwise
  addTurns (fun angle => decide (angle < 0.0)) (turnsNeeded d) d

/-- The angle from one direction to another, with turns added until it is positive; negative for a
clockwise sense. -/
def signedSweep (start stop : α) (clockwise : Bool) : α :=
  let d := directedDifference start stop clockwise
  let sweep := addTurns (fun angle => decide (angle ≤ 0.0)) (turnsNeeded d) d
  if clockwise then -sweep else sweep

/-! ## Solving -/

/-- The least chord, radius and sweep that count. -/
def arcTolerance : α := 1e-6

/-- How far a sweep may miss a half turn and still be one. -/
def sweepTolerance : α := 1e-5

/-- The centres of the two circles of a radius through two points, the one left of the chord first.
There are none if the points are too near each other or too far apart. -/
def candidateCenters (start stop : Point α) (radius : α) : Option (Point α × Point α) :=
  let dx := stop.x - start.x
  let dy := stop.y - start.y
  let chord := Scalar.hypot dx dy
  if chord < arcTolerance then none
  else
    let half := chord / 2.0
    if radius < half - arcTolerance then none
    else
      let mx := (start.x + stop.x) / 2.0
      let my := (start.y + stop.y) / 2.0
      let normal := Scalar.atan2 dy dx + Scalar.pi / 2.0
      let h := Scalar.sqrt (Scalar.greatest (radius * radius - half * half) 0.0)
      let ox := h * Scalar.cos normal
      let oy := h * Scalar.sin normal
      some (⟨mx + ox, my + oy⟩, ⟨mx - ox, my - oy⟩)

/-- An arc with its centre and angles. -/
structure Arc (α : Type) where
  start : Point α
  stop : Point α
  center : Point α
  radius : α
  startAngle : α
  stopAngle : α
  /-- The angle of the arc, negative if it runs clockwise. -/
  signedSweep : α
  clockwise : Bool
  /-- Whether the larger arc was asked for. -/
  large : Bool
  /-- The flag that the arc was asked for with. -/
  flag : Option String
deriving Repr

/-- What is asked of an arc, its ends apart. -/
structure ArcRequest (α : Type) where
  radius : α
  clockwise : Bool
  large : Bool
  flag : Option String
deriving Repr

/-- The request that a radius and a flag make. -/
def ArcRequest.ofFlag (radius : α) (flag : Option String) : ArcRequest α :=
  { radius := Scalar.abs radius
    clockwise := ArcFlag.isClockwise flag
    large := ArcFlag.isLarge flag
    flag }

/-- A centre that an arc may have, with the angles seen from there. -/
structure ArcCandidate (α : Type) where
  center : Point α
  startAngle : α
  stopAngle : α
  sweep : α

namespace ArcCandidate

/-- The candidate of a centre. -/
def ofCenter (start stop center : Point α) (clockwise : Bool) : ArcCandidate α :=
  let a := Scalar.atan2 (start.y - center.y) (start.x - center.x)
  let b := Scalar.atan2 (stop.y - center.y) (stop.x - center.x)
  ⟨center, a, b, unsignedSweep a b clockwise⟩

/-- Whether the candidate has the size asked for. A half turn has both sizes. -/
def fits (large : Bool) (c : ArcCandidate α) : Bool :=
  let halfTurn := decide (Scalar.abs (c.sweep - Scalar.pi) ≤ sweepTolerance)
  let isLarge := decide (Scalar.pi + sweepTolerance < c.sweep)
  Scalar.isFinite c.sweep && !(decide (c.sweep < sweepTolerance)) && (large == isLarge || halfTurn)

/-- Whether the candidate is an arc at all. -/
def isArc (c : ArcCandidate α) : Bool :=
  Scalar.isFinite c.sweep && decide (sweepTolerance < c.sweep)

/-- The first candidate of the size asked for, or else the first that is an arc at all. -/
def choose? (large : Bool) (candidates : List (ArcCandidate α)) : Option (ArcCandidate α) :=
  candidates.find? (·.fits large) <|> candidates.find? (·.isArc)

end ArcCandidate

namespace Arc

/-- The angle of the arc without its sign. -/
def sweep (a : Arc α) : α :=
  Scalar.abs a.signedSweep

/-- The arc between two points that a request asks for. There is none if the chord vanishes, or if
the radius does not reach across half of it. -/
def solve? (start stop : Point α) (request : ArcRequest α) : Option (Arc α) :=
  if Scalar.isFinite request.radius then do
    let radius := Scalar.greatest (Scalar.abs request.radius) arcTolerance
    let (left, right) ← candidateCenters start stop radius
    let chosen ← ArcCandidate.choose? request.large
      [.ofCenter start stop left request.clockwise, .ofCenter start stop right request.clockwise]
    return {
      start, stop, radius
      center := chosen.center
      startAngle := chosen.startAngle
      stopAngle := chosen.stopAngle
      signedSweep := WallPanel.signedSweep chosen.startAngle chosen.stopAngle request.clockwise
      clockwise := request.clockwise
      large := request.large
      flag := request.flag }
  else none

/-! ## Sampling -/

/-- The greatest angle between two samples of an arc. -/
def stepAngle : α := Scalar.pi / 24.0

/-- The number of steps in which an arc is sampled. -/
def steps (a : Arc α) : Nat :=
  min (max (Scalar.ceil (Scalar.abs a.signedSweep / stepAngle)).toNat 4) 160

/-- The point of an arc at an angle. -/
def pointAt (a : Arc α) (angle : α) : Point α :=
  ⟨a.center.x + a.radius * Scalar.cos angle, a.center.y + a.radius * Scalar.sin angle⟩

/-- The points of an arc strictly between its ends. -/
def interior (a : Arc α) : List (Point α) :=
  let delta := a.signedSweep / Scalar.ofInt a.steps
  (List.range (a.steps - 1)).map fun i =>
    a.pointAt (a.startAngle + delta * Scalar.ofInt (i + 1 : Nat))

/-- Whether an arc has nothing between its ends. -/
def isBare (a : Arc α) : Bool :=
  !Scalar.isFinite a.signedSweep || decide (Scalar.abs a.signedSweep < arcTolerance) ||
    decide (a.radius ≤ 0.0)

/-- Points along an arc in equal steps. The first and the last are its ends, exactly. -/
def sample (a : Arc α) : List (Point α) :=
  if a.isBare then [a.start, a.stop] else a.start :: (a.interior ++ [a.stop])

/-- The angles at which an arc is sampled, those of its ends included. -/
def sampledAngles (a : Arc α) : List α :=
  let delta := a.signedSweep / Scalar.ofInt a.steps
  (List.range (a.steps + 1)).map fun i => a.startAngle + delta * Scalar.ofInt (i : Nat)

/-- Points along an arc whose angles may be any numbers. Its steps have to be countable, and no
angle may be infinite. A solved arc meets both. -/
def trySample (a : Arc α) : Except Fault (List (Point α)) :=
  if a.isBare then .ok a.sample
  else if Scalar.isInfinite (Scalar.abs a.signedSweep / stepAngle) then .error .infiniteInteger
  else if a.sampledAngles.any Scalar.isInfinite then .error .infiniteAngle
  else .ok a.sample

end Arc

end WallPanel
