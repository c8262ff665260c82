import WallPanel.Model.Role

/-!
# What the statements of a document belong to

The panels, the routings and what has no place in a document, by the statements that stand between
others and without any state that is carried along.

* A point belongs to the panel before it that only points separate from it
  (`Attribution.PanelReaches`), or else to the last routing before it that no unknown command ends
  (`Attribution.RoutingReaches`). So do curves and circles.
* Two vertices of a routing are on one path when only points and curves separate them
  (`Attribution.SameRun`).
* The module, the member to drill and the layer at a position are found by looking back from it
  (`Attribution.moduleAt`, `Attribution.memberAt`, `Attribution.layerAt`).

From these, `Attribution.panel?`, `Attribution.routing?` and `Attribution.unhandled` say what a
document says.
-/

namespace WallPanel

variable {α : Type} [Scalar α]

namespace Statement

/-- Whether a statement opens a panel. -/
def opensPanel (s : Statement α) : Bool :=
  s.isUsable && match s.command.kind with
    | .panel _ => true
    | _ => false

omit [Scalar α] in
/-- Whether a statement keeps a panel open. -/
def isPoint (s : Statement α) : Bool := s.command.kind = .point

omit [Scalar α] in
/-- Whether a statement keeps a path open. -/
def isPathPart (s : Statement α) : Bool := s.command.kind = .point || s.command.kind = .curve

omit [Scalar α] in
/-- Whether a statement ends the routing before it. -/
def endsRouting (s : Statement α) : Bool := s.command.kind = .routing || s.command.kind = .unknown

/-- Whether a statement has the numbers, and the flag, that a vertex needs. -/
def isVertexLike (s : Statement α) : Bool :=
  s.isUsable && (s.command.kind = .point ||
    s.command.kind = .curve && ((tokens s.body)[3]?).isSome)

/-- What a statement says of the module for those after it, if anything. -/
def moduleMark? (s : Statement α) : Option (Option (ModuleFrame α)) :=
  match s.command.kind with
  | .moduleBegin => if s.isUsable then (ModuleFrame.ofNumbers? s.numbers).map some else none
  | .moduleEnd => some none
  | _ => none

/-- The member of the frame that a statement describes. Only studs and blocking are placed relative to
a module. -/
def member? (s : Statement α) (module? : Option (ModuleFrame α)) : Option (FrameMember α) :=
  match s.command.kind with
  | .stud => FrameMember.ofStatement? s .stud .vertical module? none
  | .blocking => FrameMember.ofStatement? s .blocking .horizontal module? none
  | .topPlate => FrameMember.ofStatement? s .plate .horizontal none (some .top)
  | .bottomPlate => FrameMember.ofStatement? s .plate .horizontal none (some .bottom)
  | _ => none

/-- The layer that a statement opens a panel in. -/
def layer? (s : Statement α) : Option PanelLayer :=
  match s.command.kind with
  | .panel side => if s.isUsable then some (SheathingPanel.layerOf s.command side) else none
  | _ => none

end Statement

namespace Attribution

variable (ss : List (Statement α))

/-! ## What reaches a position -/

/-- All statements strictly between two positions satisfy a condition. -/
def Between (passes : Statement α → Bool) (j i : Nat) : Prop :=
  ∀ s ∈ ss, j < s.index → s.index < i → passes s = true

/-- A panel begins at `j`, and only points stand between it and `i`. -/
def PanelReaches (j i : Nat) : Prop :=
  j < i ∧ (∃ s ∈ ss, s.index = j ∧ s.opensPanel = true) ∧ Between ss Statement.isPoint j i

/-- A routing begins at `j`, and neither another one nor an unknown command stands between it and
`i`. -/
def RoutingReaches (j i : Nat) : Prop :=
  j < i ∧ (∃ s ∈ ss, s.index = j ∧ s.command.kind = .routing) ∧ Between ss (!·.endsRouting) j i

/-- Whether a panel takes a point at `i`. -/
def OnPanel (i : Nat) : Prop := ∃ j < i, PanelReaches ss j i

/-- Whether a routing is open at `i`. -/
def OnRouting (i : Nat) : Prop := ∃ j < i, RoutingReaches ss j i

/-- Only points and curves stand between two positions. -/
def SameRun (i k : Nat) : Prop :=
  Between ss Statement.isPathPart i k ∧ Between ss Statement.isPathPart k i

/-- A statement is a vertex of the routing that begins at `j`. -/
def VertexOf (j : Nat) (s : Statement α) : Prop :=
  s.isVertexLike = true ∧ RoutingReaches ss j s.index ∧
    ¬(s.command.kind = .point ∧ OnPanel ss s.index)

/-- A statement is a circle of the routing that begins at `j`. -/
def CircleOf (j : Nat) (s : Statement α) : Prop :=
  s.command.kind = .circle ∧ s.isUsable = true ∧ RoutingReaches ss j s.index

/-- A statement is the first vertex of a path of the routing that begins at `j`. -/
def BeginsRun (j : Nat) (s : Statement α) : Prop :=
  VertexOf ss j s ∧ ∀ t ∈ ss, VertexOf ss j t → t.index < s.index → ¬SameRun ss t.index s.index

instance (passes : Statement α → Bool) (j i : Nat) : Decidable (Between ss passes j i) :=
  inferInstanceAs (Decidable (∀ _ ∈ _, _))

instance (j i : Nat) : Decidable (PanelReaches ss j i) := inferInstanceAs (Decidable (_ ∧ _))

instance (j i : Nat) : Decidable (RoutingReaches ss j i) := inferInstanceAs (Decidable (_ ∧ _))

instance (i : Nat) : Decidable (OnPanel ss i) := inferInstanceAs (Decidable (∃ _ < _, _))

instance (i : Nat) : Decidable (OnRouting ss i) := inferInstanceAs (Decidable (∃ _ < _, _))

instance (i k : Nat) : Decidable (SameRun ss i k) := inferInstanceAs (Decidable (_ ∧ _))

instance (j : Nat) (s : Statement α) : Decidable (VertexOf ss j s) :=
  inferInstanceAs (Decidable (_ ∧ _))

instance (j : Nat) (s : Statement α) : Decidable (CircleOf ss j s) :=
  inferInstanceAs (Decidable (_ ∧ _))

instance (j : Nat) (s : Statement α) : Decidable (BeginsRun ss j s) :=
  inferInstanceAs (Decidable (_ ∧ _))

/-! ## What the document says -/

/-- The statements before a position. -/
def before (i : Nat) : List (Statement α) := ss.filter (·.index < i)

/-- The module that is open at a position. -/
def moduleAt (i : Nat) : Option (ModuleFrame α) :=
  ((before ss i).reverse.findSome? Statement.moduleMark?).join

/-- The member of the frame that a statement places. -/
def member? (s : Statement α) : Option (FrameMember α) :=
  if s.isUsable then s.member? (moduleAt ss s.index) else none

/-- What a statement says of the member to drill for those after it, if anything. -/
def memberMark? (s : Statement α) : Option (Option (FrameMember α)) :=
  if s.moduleMark?.isSome then some none else (Attribution.member? ss s).map some

/-- The member that a drilling at a position goes into. -/
def memberAt (i : Nat) : Option (FrameMember α) :=
  ((before ss i).reverse.findSome? (memberMark? ss)).join

/-- The layer of the last panel before a position. -/
def layerAt (i : Nat) : Option PanelLayer := (before ss i).reverse.findSome? Statement.layer?

/-- The nail row of a statement. -/
def nailRow? (s : Statement α) : Option (NailRow α) :=
  if s.command.kind = .nailRow ∧ s.isUsable = true then
    NailRow.ofStatement? s (layerAt ss s.index)
  else none

/-- The drilling of a statement. -/
def drilling? (s : Statement α) : Option (Drilling α) :=
  if s.command.kind = .drilling ∧ s.isUsable = true then
    Drilling.ofStatement? s (moduleAt ss s.index) (memberAt ss s.index)
  else none

/-- The panel that a statement opens, without its boundary. -/
def header? (s : Statement α) : Option (SheathingPanel α) :=
  match s.command.kind with
  | .panel side =>
    if s.isUsable then SheathingPanel.ofStatement? s side (moduleAt ss s.index) else none
  | _ => none

/-- The statements on the boundary of the panel that begins at `j`. -/
def boundary (j : Nat) : List (Statement α) :=
  ss.filter fun s => s.isPoint && s.isUsable && PanelReaches ss j s.index

/-- The panel that a statement opens, with its boundary. -/
def panel? (s : Statement α) : Option (SheathingPanel α) :=
  (header? ss s).map fun p => { p with
    points := (boundary ss s.index).filterMap fun t =>
      PanelPoint.ofNumbers? t.numbers p (moduleAt ss t.index) }

/-- The statements that are on the path with a first vertex. -/
def run (j : Nat) (first : Statement α) : List (Statement α) :=
  ss.filter fun s => VertexOf ss j s ∧ SameRun ss first.index s.index

/-- The vertex of a statement. The first of a path puts the pen down. -/
def vertex? (j : Nat) (s : Statement α) : Option (Vertex α) :=
  if s.isPoint then Vertex.ofPoint? s (BeginsRun ss j s) else Vertex.ofCurve? s

/-- The path with a first vertex. -/
def path? (j : Nat) (first : Statement α) : Option (VertexRun α) :=
  match (run ss j first).filterMap (vertex? ss j) with
  | [] => none
  | v :: vs => some ⟨v, vs⟩

/-- The cut of a path. It has one if two of its samples are apart. -/
def pathCut? (path : VertexRun α) : Option (Except NoInteger (RoutingSegment α)) :=
  let t := path.trace
  let deduped := dedupe t.samples
  if 2 ≤ deduped.length then
    let (points, closed) := closePath deduped
    let kind := if closed && 3 ≤ points.length then .polygon else .polyline
    some ((path.cut kind points t).map .path)
  else none

/-- What a statement begins to cut in the routing that begins at `j`: a circle or a path. -/
def cut? (j : Nat) (s : Statement α) : Option (Except NoInteger (RoutingSegment α)) :=
  if CircleOf ss j s then (CircleCut.ofStatement? s).map (·.map .circle)
  else if BeginsRun ss j s then (path? ss j s).bind pathCut?
  else none

/-- The cuts of the routing that begins at `j`, by their first statements. -/
def cuts (j : Nat) : List (Except NoInteger (RoutingSegment α)) := ss.filterMap (cut? ss j)

/-- The statements of the routing that begins at `j`. -/
def members (j : Nat) : List Nat :=
  (ss.filter fun s => s.index = j ∨ CircleOf ss j s ∨ VertexOf ss j s).map (·.index)

/-- The routing that begins with a statement, if it has cuts. -/
def routing? (s : Statement α) : Option (Routing α) :=
  if s.command.kind = .routing ∧ !(cuts ss s.index).isEmpty then
    some { Routing.ofHeader s (layerAt ss s.index) with
      segments := (cuts ss s.index).filterMap Except.toOption
      statementIndices := members ss s.index }
  else none

/-! ## What has no place -/

/-- Whether a statement has a place. Only the first size of the wall counts. -/
def IsPlaced (s : Statement α) : Prop :=
  s.isUsable = true ∧
    match s.command.kind with
    | .point => OnPanel ss s.index ∨ OnRouting ss s.index
    | .curve => s.isVertexLike = true ∧ OnRouting ss s.index
    | .circle => OnRouting ss s.index
    | .wall => ∀ t ∈ ss, t.index < s.index → t.command.kind = .wall → t.isUsable = false
    | .unknown => False
    | _ => True

instance (s : Statement α) : Decidable (IsPlaced ss s) := by
  unfold IsPlaced
  cases s.command.kind <;> infer_instance

/-- Whether a statement begins a path that has no cut. -/
def BeginsShortRun (s : Statement α) : Prop :=
  ∃ j < s.index, BeginsRun ss j s ∧ (cut? ss j s).isNone = true

instance (s : Statement α) : Decidable (BeginsShortRun ss s) :=
  inferInstanceAs (Decidable (∃ _ < _, _))

/-- What has no place: statements, paths without a cut by their first vertices, and routings
without cuts. -/
def unhandled : List (Unhandled α) :=
  (ss.filter fun s => ¬IsPlaced ss s).map .ofStatement ++
    (ss.filter fun s => BeginsShortRun ss s).map .ofStatement ++
    (ss.filter fun s => s.command.kind = .routing ∧ (cuts ss s.index).isEmpty).map fun s =>
      (Routing.ofHeader s (layerAt ss s.index)).unhandled

end Attribution

end WallPanel
