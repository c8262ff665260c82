import WallPanel.Geometry.Lattice

/-!
# Winding numbers

The region that a closed ring winds around at least once counter-clockwise, as polygons.

A ring that does not touch itself is its own boundary. Any other is cut into chains at the points
where it meets itself (`Ring.chains`). The winding number is the same all along either side of a
chain (`windings`), so the chains between a side inside the region and a side outside are its
boundary; with the inside on their left they link up to polygons (`linkLoops`).

Of polygons that are equally large, `largestPolygon` takes the one that a sweep from the top down
comes upon first (`Crest.before`).
-/

namespace WallPanel

/-! ## Tidy polygons -/

/-- Put a vertex after a path given with its last vertex first. A repeated vertex is dropped,
and so is one in line with its neighbours. -/
def tidyPush : List LatticePoint → LatticePoint → List LatticePoint
  | [], p => [p]
  | [q], p => if p = q then [q] else [p, q]
  | q :: r :: rest, p =>
    if p = q then q :: r :: rest
    else if LatticePoint.turn r q p = 0 then tidyPush (r :: rest) p
    else p :: q :: r :: rest

/-- One pass over a polygon from its third vertex on. -/
def tidyPass (ps : List LatticePoint) : List LatticePoint :=
  ((ps.drop 2 ++ ps.take 2).foldl tidyPush []).reverse

/-- Two passes, again and again until nothing changes, at most so many times. Two passes see every
vertex between its neighbours. -/
def tidyRounds : Nat → List LatticePoint → List LatticePoint
  | 0, ps => ps
  | n + 1, ps =>
    let qs := tidyPass (tidyPass ps)
    if qs.length = ps.length then qs else tidyRounds n qs

/-- A polygon without repeated vertices and vertices in line with their neighbours; nothing if fewer
than three are left. -/
def tidyPolygon (ps : List LatticePoint) : List LatticePoint :=
  let qs := tidyRounds ps.length ps
  if qs.length < 3 then [] else qs

/-! ## Where a ring meets itself -/

/-- A point with rational coordinates. -/
structure RationalPoint where
  x : Rat
  y : Rat
deriving DecidableEq

namespace RationalPoint

def ofLattice (p : LatticePoint) : RationalPoint :=
  ⟨p.x, p.y⟩

/-- The order along a line from left to right, and from bottom to top on an upright one. -/
def before (p q : RationalPoint) : Bool :=
  p.x < q.x || (p.x == q.x && p.y ≤ q.y)

/-- The nearest lattice point, away from zero for a half. -/
def toLattice (p : RationalPoint) : LatticePoint :=
  let round (q : Rat) : Int :=
    if q < 0 then -((1 / 2 - q).floor) else (q + 1 / 2).floor
  ⟨round p.x, round p.y⟩

end RationalPoint

namespace Edge

/-- Whether a lattice point on the line of an edge lies on the edge. -/
def spans (e : Edge) (p : LatticePoint) : Bool :=
  rangesMeet e.start.x e.stop.x p.x p.x && rangesMeet e.start.y e.stop.y p.y p.y

/-- The points that two edges share; of a common stretch, its ends. -/
def commonPoints (e f : Edge) : List RationalPoint :=
  if !e.boxesMeet f then []
  else
    let den := LatticePoint.cross e.start e.stop f.start f.stop
    if den = 0 then
      if LatticePoint.turn e.start e.stop f.start = 0 then
        (([f.start, f.stop].filter e.spans) ++ ([e.start, e.stop].filter f.spans)).map
          RationalPoint.ofLattice
      else []
    else
      let t : Rat := mkRat (LatticePoint.cross e.start f.start f.start f.stop * den.sign) den.natAbs
      let u : Rat := mkRat (LatticePoint.cross e.start f.start e.start e.stop * den.sign) den.natAbs
      if 0 ≤ t && t ≤ 1 && 0 ≤ u && u ≤ 1 then
        [⟨e.start.x + t * (e.stop.x - e.start.x : Int),
          e.start.y + t * (e.stop.y - e.start.y : Int)⟩]
      else []

end Edge

namespace Ring

/-- Whether two of the `count` edges of a ring are neighbours, or the same. -/
def adjacent (count i j : Nat) : Bool :=
  i == j || i + 1 == j || j + 1 == i || (i == 0 && j + 1 == count) || (j == 0 && i + 1 == count)

/-- The points where one of the `count` edges of a ring meets edges that are not its neighbours. -/
def meetings (count : Nat) (es : List (Nat × Edge)) (e : Nat × Edge) : List RationalPoint :=
  es.flatMap fun f => if adjacent count e.1 f.1 then [] else e.2.commonPoints f.2

/-- Points of an edge in the order of its direction, each once. -/
def alongEdge (e : Edge) (ps : List RationalPoint) : List RationalPoint :=
  let forward := RationalPoint.before (.ofLattice e.start) (.ofLattice e.stop)
  let sorted := ps.mergeSort fun p q => if forward then p.before q else q.before p
  sorted.foldr (fun p rest => if rest.head? = some p then rest else p :: rest) []

/-- The vertices of a ring and the points where it meets itself, in order; the latter are marked. -/
def nodes (es : List (Nat × Edge)) : List (RationalPoint × Bool) :=
  let count := es.length
  es.flatMap fun e =>
    let start := RationalPoint.ofLattice e.2.start
    let stop := RationalPoint.ofLattice e.2.stop
    let met := alongEdge e.2 (meetings count es e)
    (start, met.contains start) ::
      ((met.filter fun p => p ≠ start && p ≠ stop).map fun p => (p, true))

/-- Cut a marked row at its marks. `current` is the chain so far, its last point first. -/
def cutChains (current : List RationalPoint) :
    List (RationalPoint × Bool) → List (List RationalPoint)
  | [] => [current.reverse]
  | (p, true) :: rest => (p :: current).reverse :: cutChains [p] rest
  | (p, false) :: rest => cutChains (p :: current) rest

/-- The chains of a marked ring from mark to mark; none if there is no mark. -/
def chains (marked : List (RationalPoint × Bool)) : List (List RationalPoint) :=
  match marked.dropWhile fun p => !p.2 with
  | [] => []
  | (p, _) :: rest =>
    cutChains [p] (rest ++ marked.takeWhile (fun p => !p.2) ++ [(p, false)])

end Ring

/-! ## Winding numbers beside a chain -/

/-- A point as a pair of numerators over one positive denominator. -/
structure Homogeneous where
  x : Int
  y : Int
  den : Int

namespace Homogeneous

/-- The point halfway between two. -/
def midpoint (p q : RationalPoint) : Homogeneous :=
  let x := (p.x + q.x) / 2
  let y := (p.y + q.y) / 2
  ⟨x.num * y.den, y.num * x.den, x.den * y.den⟩

/-- On which side of an edge the point lies: positive on the left, negative on the right. -/
def side (m : Homogeneous) (e : Edge) : Int :=
  (e.stop.x - e.start.x) * (m.y - e.start.y * m.den) -
    (e.stop.y - e.start.y) * (m.x - e.start.x * m.den)

/-- Whether an edge rises past the height just above the point. -/
def risesAbove (m : Homogeneous) (a b : LatticePoint) : Bool :=
  a.y * m.den ≤ m.y && m.y < b.y * m.den

/-- Whether an edge rises past the height just below the point. -/
def risesBelow (m : Homogeneous) (a b : LatticePoint) : Bool :=
  a.y * m.den < m.y && m.y ≤ b.y * m.den

/-- The winding number beside a point: the edges that pass right of it at a height, those that
rise less those that fall. `reaches` says from the side of an edge whether it passes there. -/
def winding (m : Homogeneous) (rises : Homogeneous → LatticePoint → LatticePoint → Bool)
    (reaches : Int → Bool) (es : List Edge) : Int :=
  total (es.map fun e =>
    if rises m e.start e.stop then (if reaches (m.side e) then 1 else 0)
    else if rises m e.stop e.start then (if reaches (-m.side e) then -1 else 0)
    else 0)

end Homogeneous

/-- The winding numbers on the left and on the right of the way from one point to another, along
which no edge ends or crosses. Edges on the way count for the point west of them and not for the
one east. -/
def windings (es : List Edge) (p q : RationalPoint) : Int × Int :=
  let m := Homogeneous.midpoint p q
  if p.y = q.y then
    let above := m.winding Homogeneous.risesAbove (fun s => 0 < s) es
    let below := m.winding Homogeneous.risesBelow (fun s => 0 < s) es
    if p.x < q.x then (above, below) else (below, above)
  else
    let west := m.winding Homogeneous.risesAbove (fun s => 0 ≤ s) es
    let east := m.winding Homogeneous.risesAbove (fun s => 0 < s) es
    if p.y < q.y then (west, east) else (east, west)

/-- The chain with the region on its left, if it is part of the boundary. -/
def boundaryChain? (es : List Edge) (chain : List RationalPoint) : Option (List RationalPoint) :=
  match chain with
  | p :: q :: _ =>
    let (left, right) := windings es p q
    if 1 ≤ left && right < 1 then some chain
    else if left < 1 && 1 ≤ right then some chain.reverse
    else none
  | _ => none

/-! ## Linking chains -/

/-- Whether, seen from `v` and turning clockwise from `u`, the direction of `p` comes before that of
`q`. -/
def comesFirst (v u p q : RationalPoint) : Bool :=
  let cross (a b : RationalPoint) := (a.x - v.x) * (b.y - v.y) - (a.y - v.y) * (b.x - v.x)
  let dot (a b : RationalPoint) := (a.x - v.x) * (b.x - v.x) + (a.y - v.y) * (b.y - v.y)
  let sector (a : RationalPoint) : Nat :=
    if cross u a < 0 then 0
    else if cross u a = 0 then (if dot u a < 0 then 1 else 3)
    else 2
  if sector p = sector q then cross p q < 0 else sector p < sector q

/-- The chain that goes on where a chain ends, with the same part of the region on its left: the
first one clockwise from where the chain came. -/
def successor? (chains : List (List RationalPoint)) (chain : List RationalPoint) :
    Option (List RationalPoint) :=
  match chain.reverse with
  | v :: u :: _ =>
    (chains.filter (·.head? = some v)).foldl
      (fun best c =>
        match best with
        | none => some c
        | some b => if comesFirst v u (c.getD 1 v) (b.getD 1 v) then some c else some b)
      none
  | _ => none

/-- The chains that follow a chain until the first one comes again, at most so many. -/
def followChains (chains : List (List RationalPoint)) (first : List RationalPoint) :
    Nat → List RationalPoint → List (List RationalPoint)
  | 0, _ => []
  | n + 1, chain =>
    match successor? chains chain with
    | none => []
    | some next => if next = first then [] else next :: followChains chains first n next

/-- The polygons that boundary chains link up to. -/
def linkLoops (chains : List (List RationalPoint)) :
    Nat → List (List RationalPoint) → List (List LatticePoint)
  | 0, _ => []
  | _, [] => []
  | n + 1, chain :: rest =>
    let loop := chain :: followChains chains chain chains.length chain
    (loop.flatMap fun c => c.dropLast.map RationalPoint.toLattice) ::
      linkLoops chains n (rest.filter fun c => !loop.contains c)

/-- The polygons around the region that a ring winds around at least once counter-clockwise. -/
def positiveRegion (ring : List LatticePoint) : List (List LatticePoint) :=
  let ring := tidyPolygon ring
  let es := (polygonPairs ring).map fun (p, q) => Edge.mk p q
  match Ring.chains (Ring.nodes ((List.range es.length).zip es)) with
  | [] => if 0 < doubledArea ring then [ring] else []
  | chains =>
    let kept := (chains.filterMap (boundaryChain? es)).eraseDups
    ((linkLoops kept kept.length kept).map tidyPolygon).filter (!·.isEmpty)

/-! ## The largest polygon -/

/-- Where a polygon reaches highest: in single points, or only along level edges. `x` is the
leftmost of those points, or the right end of those edges. -/
structure Crest where
  height : Int
  isLevel : Bool
  x : Int
deriving DecidableEq, Repr

namespace Crest

/-- The crest of a polygon with a vertex `first`. -/
def ofPolygon (first : LatticePoint) (ps : List LatticePoint) : Crest :=
  let height := ps.foldl (fun h p => max h p.y) first.y
  let level := (polygonPairs ps).flatMap fun (p, q) =>
    if p.y = height && q.y = height then [p, q] else []
  let tips := ps.filter fun p => p.y == height && !level.contains p
  match tips, level with
  | p :: rest, _ => ⟨height, false, rest.foldl (fun x q => min x q.x) p.x⟩
  | [], p :: rest => ⟨height, true, rest.foldl (fun x q => max x q.x) p.x⟩
  | [], [] => ⟨height, false, first.x⟩

/-- The order of crests from the top down. At one height, points come before level edges, points
from left to right and level edges from right to left. -/
def before (a b : Crest) : Bool :=
  b.height < a.height ||
    (a.height == b.height &&
      (if a.isLevel == b.isLevel then (if a.isLevel then b.x < a.x else a.x < b.x)
      else b.isLevel))

end Crest

/-- Whether the first of two polygons is the larger one, or has the first crest if their areas are
the same. -/
def outranks : List LatticePoint → List LatticePoint → Bool
  | [], _ => false
  | _ :: _, [] => true
  | p :: ps, q :: qs =>
    let a := (doubledArea (p :: ps)).natAbs
    let b := (doubledArea (q :: qs)).natAbs
    b < a || (a == b && (Crest.ofPolygon p (p :: ps)).before (Crest.ofPolygon q (q :: qs)))

/-- The polygon of the largest area, of several the one with the first crest. -/
def largestPolygon (polygons : List (List LatticePoint)) : List LatticePoint :=
  polygons.foldl (fun best p => if outranks p best then p else best) []

end WallPanel
