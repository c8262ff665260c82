import Mathlib.Data.List.Basic
import WallPanel.Proofs.Reading.Basic

/-!
# The contents of a reading

What a reading says of the wall, gathered from the roles of its statements: a
panel has the points that name it (`Reading.sheathing`), a routing has one cut
for each of its circles and for each of its paths with two usable points
(`Reading.cuts`, `Reading.routings`), and what has no place is unhandled
(`Reading.unhandled`). A path that is still open has no cut yet, and a routing
that is still open is in no collection yet, so those are left out by name.

The lemmas `…_concat` say what one more statement adds to each.
-/

namespace WallPanel

variable {α : Type}

namespace Role

def wall? : Role α → Option (WallSize α)
  | .wall w => some w
  | _ => none

def module? : Role α → Option (ModuleFrame α)
  | .moduleBegin m => some m
  | _ => none

/-- The member of a kind. -/
def member? (kind : MemberKind) : Role α → Option (FrameMember α)
  | .member m => if m.kind = kind then some m else none
  | _ => none

def panel? : Role α → Option (SheathingPanel α)
  | .panel p => some p
  | _ => none

/-- The point on the boundary of the panel with a header. -/
def point? (header : Nat) : Role α → Option (PanelPoint α)
  | .boundary j p => if j = header then some p else none
  | _ => none

def header? : Role α → Option (Routing α)
  | .header r => some r
  | _ => none

/-- The vertex on the path with a first vertex. -/
def vertex? (first : Nat) : Role α → Option (Vertex α)
  | .vertex _ k v => if k = first then some v else none
  | _ => none

/-- The vertex that begins a path. -/
def first? : Role α → Option (Vertex α)
  | .vertex _ k v => if v.entry.statementIndex = k then some v else none
  | _ => none

def nailRow? : Role α → Option (NailRow α)
  | .nailRow r => some r
  | _ => none

def drilling? : Role α → Option (Drilling α)
  | .drilling d => some d
  | _ => none

def unhandled? : Role α → Option (Unhandled α)
  | .unhandled u | .foreign u => some u
  | _ => none

/-- Whether a statement belongs to the routing with a header. -/
def isOf (header : Nat) : Role α → Bool
  | .header r => r.statementIndex = header
  | .circle j _ => j = header
  | .vertex j _ _ => j = header
  | _ => false

/-- The positions by which a role names panels, routings and paths. -/
def keys : Role α → List Nat
  | .panel p => [p.statementIndex]
  | .boundary j _ => [j]
  | .header r => [r.statementIndex]
  | .circle j _ => [j]
  | .vertex j k v => [j, k, v.entry.statementIndex]
  | _ => []

end Role

/-- What a routing cuts: a circle, or the path with a first vertex. -/
inductive Item (α : Type) where
  | circle (c : Except NoInteger (CircleCut α))
  | run (first : Nat)

/-- What a statement begins to cut in the routing with a header. -/
def Role.item? (header : Nat) : Role α → Option (Item α)
  | .circle j c => if j = header then some (.circle c) else none
  | .vertex j k v => if j = header ∧ v.entry.statementIndex = k then some (.run k) else none
  | _ => none

namespace Role

/-- Whether a statement belongs to no routing. -/
def isApart : Role α → Bool
  | .header _ | .circle .. | .vertex .. => false
  | _ => true

variable {r : Role α}

theorem isOf_of_isApart (h : r.isApart = true) (j : Nat) : r.isOf j = false := by
  cases r <;> first | rfl | cases h

theorem header?_of_isApart (h : r.isApart = true) : r.header? = none := by
  cases r <;> first | rfl | cases h

theorem item?_of_isApart (h : r.isApart = true) (j : Nat) : r.item? j = none := by
  cases r <;> first | rfl | cases h

theorem vertex?_of_isApart (h : r.isApart = true) (k : Nat) : r.vertex? k = none := by
  cases r <;> first | rfl | cases h

theorem first?_of_isApart (h : r.isApart = true) : r.first? = none := by
  cases r <;> first | rfl | cases h

theorem vertex?_eq_some {k : Nat} {v : Vertex α} :
    r.vertex? k = some v ↔ ∃ j, r = .vertex j k v := by
  cases r <;> simp [vertex?]

end Role

variable [Scalar α]

/-- The cut of a path with two usable points. -/
def VertexRun.cut? (r : VertexRun α) : Option (Except NoInteger (PathCut α)) :=
  let deduped := dedupe r.trace.samples
  if 2 ≤ deduped.length then
    let (points, closed) := closePath deduped
    (PathKind.of? points.length closed).map fun kind => r.cut kind points r.trace
  else none

namespace Reading

variable (es : List (Placed α))

/-- The panels as their headers describe them. -/
def panels : List (SheathingPanel α) := es.filterMap (·.role.panel?)

/-- The routings as their headers open them. -/
def headers : List (Routing α) := es.filterMap (·.role.header?)

/-- The vertices that begin a path. -/
def firsts : List (Vertex α) := es.filterMap (·.role.first?)

/-- The vertices of the path with a first vertex. -/
def vertices (first : Nat) : List (Vertex α) := es.filterMap (·.role.vertex? first)

/-- The boundary of the panel with a header. -/
def points (header : Nat) : List (PanelPoint α) := es.filterMap (·.role.point? header)

/-- What the routing with a header cuts, in order. -/
def items (header : Nat) : List (Item α) := es.filterMap (·.role.item? header)

/-- The statements of the routing with a header. -/
def indices (header : Nat) : List Nat :=
  (es.filter (·.role.isOf header)).map (·.statement.index)

/-- The cut of the path with a first vertex. -/
def cutOf? (first : Nat) : Option (Except NoInteger (PathCut α)) :=
  match vertices es first with
  | [] => none
  | v :: vs => VertexRun.cut? ⟨v, vs⟩

/-- The cut of an item, none for a path that is open. -/
def itemCut? (openRun : Option Nat) : Item α → Option (Except NoInteger (RoutingSegment α))
  | .circle c => some (c.map .circle)
  | .run first =>
    if openRun = some first then none else (cutOf? es first).map (·.map .path)

/-- The cuts of the routing with a header, each as far as it can be read. -/
def cuts (openRun : Option Nat) (header : Nat) : List (Except NoInteger (RoutingSegment α)) :=
  (items es header).filterMap (itemCut? es openRun)

/-- A routing with its cuts and its statements. -/
def filled (openRun : Option Nat) (r : Routing α) : Routing α :=
  { r with
    segments := (cuts es openRun r.statementIndex).filterMap Except.toOption
    statementIndices := indices es r.statementIndex }

/-- The routing of a header, if it is not open and has a cut. -/
def emitted? (openRouting : Option Nat) (r : Routing α) : Option (Routing α) :=
  if openRouting = some r.statementIndex ∨ cuts es none r.statementIndex = [] then none
  else some (filled es none r)

/-- The record of a routing that is not open and has no cut. -/
def emptyHeader? (openRouting : Option Nat) (r : Routing α) : Option (Unhandled α) :=
  if openRouting = some r.statementIndex ∨ cuts es none r.statementIndex ≠ [] then none
  else some r.unhandled

/-- The record of a path that is not open and has no cut. -/
def shortRun? (openRun : Option Nat) (v : Vertex α) : Option (Unhandled α) :=
  if openRun = some v.entry.statementIndex ∨ (cutOf? es v.entry.statementIndex).isSome then none
  else some v.unhandled

/-- The sheathing. -/
def sheathing : List (SheathingPanel α) :=
  (panels es).map fun p => { p with points := points es p.statementIndex }

/-- The routings that have cuts. -/
def routings (openRouting : Option Nat) : List (Routing α) :=
  (headers es).filterMap (emitted? es openRouting)

/-- What has no place: statements, paths without two usable points, and routings without cuts. -/
def unhandled (openRun openRouting : Option Nat) : List (Unhandled α) :=
  es.filterMap (·.role.unhandled?) ++ (firsts es).filterMap (shortRun? es openRun) ++
    (headers es).filterMap (emptyHeader? es openRouting)

variable {es : List (Placed α)} {p : Placed α}

/-! ## Membership -/

theorem emitted?_none_eq_some {w r : Routing α} : emitted? es none w = some r ↔
    cuts es none w.statementIndex ≠ [] ∧ filled es none w = r := by
  simp [emitted?]

theorem mem_routings {r : Routing α} : r ∈ routings es none ↔
    ∃ w ∈ headers es, cuts es none w.statementIndex ≠ [] ∧ filled es none w = r := by
  simp only [routings, List.mem_filterMap, emitted?_none_eq_some]

/-- The path of a routing is the cut of a path that begins among the items of its header. -/
theorem exists_cutOf?_of_mem {w : Routing α} {cut : PathCut α}
    (hs : .path cut ∈ (filled es none w).segments) :
    ∃ k, .run k ∈ items es w.statementIndex ∧ cutOf? es k = some (.ok cut) := by
  obtain ⟨c, hc, hok⟩ := List.mem_filterMap.mp hs
  obtain ⟨item, hitem, hic⟩ := List.mem_filterMap.mp hc
  cases item with
  | circle d =>
    obtain rfl : d.map .circle = c := by simpa [itemCut?] using hic
    cases d <;> cases hok
  | run k =>
    obtain ⟨d, hd, rfl⟩ : ∃ d, cutOf? es k = some d ∧ d.map .path = c := by
      simpa [itemCut?] using hic
    cases d with
    | error e => cases hok
    | ok cut' => cases hok; exact ⟨k, hitem, hd⟩

/-! ## One more statement -/

omit [Scalar α] in
theorem filterMap_concat {β γ : Type} (f : β → Option γ) (l : List β) (x : β) :
    (l ++ [x]).filterMap f = l.filterMap f ++ (f x).toList := by
  cases h : f x <;> simp [h]

omit [Scalar α] in
theorem panels_concat : panels (es ++ [p]) = panels es ++ p.role.panel?.toList :=
  filterMap_concat ..

omit [Scalar α] in
theorem headers_concat : headers (es ++ [p]) = headers es ++ p.role.header?.toList :=
  filterMap_concat ..

omit [Scalar α] in
theorem firsts_concat : firsts (es ++ [p]) = firsts es ++ p.role.first?.toList :=
  filterMap_concat ..

omit [Scalar α] in
theorem vertices_concat (k : Nat) :
    vertices (es ++ [p]) k = vertices es k ++ (p.role.vertex? k).toList :=
  filterMap_concat ..

omit [Scalar α] in
theorem points_concat (j : Nat) :
    points (es ++ [p]) j = points es j ++ (p.role.point? j).toList :=
  filterMap_concat ..

omit [Scalar α] in
theorem items_concat (j : Nat) : items (es ++ [p]) j = items es j ++ (p.role.item? j).toList :=
  filterMap_concat ..

omit [Scalar α] in
theorem indices_concat (j : Nat) :
    indices (es ++ [p]) j = indices es j ++ if p.role.isOf j then [p.statement.index] else [] := by
  cases h : p.role.isOf j <;> simp [indices, h]

theorem cutOf?_concat {k : Nat} (h : p.role.vertex? k = none) :
    cutOf? (es ++ [p]) k = cutOf? es k := by
  simp [cutOf?, vertices_concat, h]

/-- A statement adds its circle to the cuts. Its path has no cut while it is open. -/
theorem cuts_concat {o : Option Nat} {j : Nat}
    (hk : ∀ k, .run k ∈ items es j → o ≠ some k → p.role.vertex? k = none)
    (hi : ∀ k, p.role.item? j = some (.run k) → o = some k) :
    cuts (es ++ [p]) o j =
      cuts es o j ++ ((p.role.item? j).bind (itemCut? es o)).toList := by
  have hkeep : ∀ i ∈ items es j, itemCut? (es ++ [p]) o i = itemCut? es o i := by
    intro i hmem
    cases i with
    | circle c => rfl
    | run k =>
      by_cases ho : o = some k
      · simp [itemCut?, ho]
      · simp [itemCut?, ho, cutOf?_concat (hk k hmem ho)]
  rw [cuts, cuts, items_concat, List.filterMap_append, List.filterMap_congr hkeep]
  congr 1
  cases hi' : p.role.item? j with
  | none => rfl
  | some i =>
    cases i with
    | circle c => rfl
    | run k => simp [itemCut?, hi k hi']

/-! ## A statement apart from the routings -/

section Apart

variable (h : p.role.isApart = true)
include h

theorem cuts_apart (o : Option Nat) (j : Nat) : cuts (es ++ [p]) o j = cuts es o j := by
  rw [cuts_concat (fun k _ _ => Role.vertex?_of_isApart h k)
    (fun k hk => by simp [Role.item?_of_isApart h j] at hk), Role.item?_of_isApart h j]
  simp

omit [Scalar α] in
theorem indices_apart (j : Nat) : indices (es ++ [p]) j = indices es j := by
  simp [indices_concat, Role.isOf_of_isApart h]

theorem filled_apart (o : Option Nat) (r : Routing α) :
    filled (es ++ [p]) o r = filled es o r := by
  simp only [filled, cuts_apart h, indices_apart h]

theorem routings_apart (o : Option Nat) : routings (es ++ [p]) o = routings es o := by
  have hf : emitted? (es ++ [p]) o = emitted? es o := by
    funext r
    simp only [emitted?, cuts_apart h, filled_apart h]
  rw [routings, headers_concat, Role.header?_of_isApart h, hf]
  simp [routings]

theorem unhandled_apart (o o' : Option Nat) :
    (unhandled (es ++ [p]) o o').Perm (unhandled es o o' ++ p.role.unhandled?.toList) := by
  have hs : shortRun? (es ++ [p]) o = shortRun? es o := by
    funext v
    simp only [shortRun?, cutOf?_concat (Role.vertex?_of_isApart h _)]
  have he : emptyHeader? (es ++ [p]) o' = emptyHeader? es o' := by
    funext r
    simp only [emptyHeader?, cuts_apart h]
  simp only [unhandled, firsts_concat, headers_concat, Role.first?_of_isApart h,
    Role.header?_of_isApart h, hs, he, filterMap_concat, Option.toList_none, List.append_nil, List.append_assoc]
  exact (List.perm_append_comm ..).append_left _ |>.trans (by simp)

end Apart

end Reading

end WallPanel
