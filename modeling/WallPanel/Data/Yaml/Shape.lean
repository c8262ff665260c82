import WallPanel.Data.Yaml.Merge
import WallPanel.Data.Yaml.Scalar

/-!
# Shapes

The values of nodes. The content of a collection is looked at after all that was met before it, so
that of several flaws the one nearest to the root is reported, and of these the first. A collection
that holds itself has no value that ends; its value is given down to a depth.

* `Shape`: the value of a node, with nodes in place of what it holds.
* `Shapes.ofNodes`: the shapes of the nodes that one holds.
* `Shapes.datum`: the value of a node, down to a depth.
-/

namespace WallPanel.Yaml

/-- The value of a node. What it holds is given by the numbers of nodes. -/
inductive Shape where
  | single (d : Datum)
  | list (items : List Nat)
  | pairs (entries : List (Nat × Nat))
  | set (items : List Nat)
  | mapping (entries : List (Nat × Nat))

namespace Shape

/-- Whether a value can be a key: no collection can. -/
def isKey : Shape → Bool
  | single _ => true
  | _ => false

end Shape

/-! ## Scalars -/

/-- What a tag takes a scalar for. -/
inductive ScalarKind where
  | spelled (s : Spelling)
  /-- Octets in base 64. -/
  | binary
deriving DecidableEq, Repr

/-- What the tags of the format take scalars for. -/
def scalarKinds : List (String × ScalarKind) :=
  (coreTag "binary", .binary) ::
    [Spelling.null, .bool, .int, .float, .moment, .text].map fun s => (s.tag, .spelled s)

/-- The octets that a scalar is taken for. -/
def octets? (n : Node) (codes : List Nat) : Except Flaw Datum :=
  let plain := codes.takeWhile (· < 128)
  let others := (codes.drop plain.length).takeWhile fun code => 128 ≤ code
  if others.isEmpty then
    ((Base64.decode codes).map Datum.octets).mapError fun fault => n.refusal (.base64 fault)
  else
    .error (n.refusal (.noAscii others plain.length (plain.length + others.length - 1)))

namespace Nodes

/-- The code points of a scalar. A mapping stands for the value that it names as its own. -/
def codes (nodes : Nodes) : Nat → Nat → Except Flaw (List Nat)
  | fuel, n =>
    let node := nodes.node n
    match fuel, node.content with
    | _, .scalar codes => .ok codes
    | 0, _ => .error (.value .endless)
    | fuel + 1, .mapping es =>
      match es.find? (nodes.hasKeyTag .value) with
      | some (_, value) => nodes.codes fuel value
      | none => .error (node.refusal (.otherNode .scalar .mapping))
    | _, content => .error (node.refusal (.otherNode .scalar content.kind))

/-- The value of a node that its tag takes for a scalar. -/
def single (nodes : Nodes) (n : Nat) : Except Flaw Datum :=
  let node := nodes.node n
  match scalarKinds.lookup node.tag with
  | none => .error (node.refusal (.unknownTag node.tag))
  | some kind => do
    let codes ← nodes.codes (nodes.size + 1) n
    match kind, node.content with
    | .binary, _ => octets? node codes
    | .spelled .moment, .mapping _ => .error (.value (.noText "list"))
    | .spelled s, _ => ((s.value? codes).getD (.ok .null)).mapError .value

end Nodes

/-! ## Collections -/

/-- What a tag takes a collection for. -/
inductive CollectionKind where
  | list
  | mapping
  | set
  /-- A list of mappings with one entry each, in which all keys should differ. -/
  | orderedMapping
  /-- A list of mappings with one entry each. -/
  | pairs
deriving DecidableEq, Repr

namespace CollectionKind

/-- The kinds by the tags of the format. -/
def tags : List (String × CollectionKind) :=
  [(coreTag "seq", list), (coreTag "map", mapping), (coreTag "set", set),
    (coreTag "omap", orderedMapping), (coreTag "pairs", pairs)]

/-- A collection of a kind without its content. -/
def emptyShape : CollectionKind → Shape
  | list => .list []
  | mapping => .mapping []
  | set => .set []
  | orderedMapping => .pairs []
  | pairs => .pairs []

end CollectionKind

/-! ## Drafts -/

/-- The values of nodes, as far as they are known. -/
abbrev Shapes := Array (Option Shape)

/-- What is known while values are found. -/
structure Draft where
  nodes : Nodes
  shapes : Shapes
  /-- The collections whose content has not been looked at. -/
  waiting : List (Nat × CollectionKind)

/-- A step that finds values. -/
abbrev Drafting := StateT Draft (Except Flaw)

namespace Drafting

/-- The node of a number, as it is by now. -/
def node (n : Nat) : Drafting Node := do
  return (← get).nodes.node n

/-- Note the value of a node. -/
def setShape (n : Nat) (s : Shape) : Drafting Unit :=
  modify fun d => { d with shapes := d.shapes.modify n fun _ => some s }

/-- Meet a node: a collection then waits for its content, and a scalar has its value. -/
def meet (n : Nat) : Drafting Shape := do
  match (← get).shapes[n]?.join with
  | some s => return s
  | none =>
    match CollectionKind.tags.lookup (← node n).tag with
    | some kind =>
      setShape n kind.emptyShape
      modify fun d => { d with waiting := d.waiting ++ [(n, kind)] }
      return kind.emptyShape
    | none =>
      let s := Shape.single (← (← get).nodes.single n)
      setShape n s
      return s

/-- Meet the items of a list. -/
def meetItems (n : Nat) : Drafting (List Nat) := do
  let list ← node n
  match list.content with
  | .sequence items =>
    let _ ← items.mapM meet
    return items
  | other => throw (list.refusal (.otherNode .sequence other.kind))

/-- Meet the entries of a mapping, those that it takes in before its own. -/
def meetEntries (n : Nat) : Drafting (List (Nat × Nat)) := do
  let mapping ← node n
  match mapping.content with
  | .mapping _ =>
    let nodes ← (← get).nodes.merged n
    modify fun d => { d with nodes }
    let es := nodes.entries n
    es.forM fun (key, value) => do
      let s ← meet key
      if s.isKey then
        let _ ← meet value
      else throw (mapping.partRefusal .mapping .compoundKey (← node key))
    return es
  | other => throw (mapping.refusal (.otherNode .mapping other.kind))

/-- Meet the only entry of an item. -/
def meetEntry (activity : Activity) (list : Node) (item : Nat) : Drafting (Nat × Nat) := do
  let part ← node item
  match part.content with
  | .mapping [(key, value)] =>
    let _ ← meet key
    let _ ← meet value
    return (key, value)
  | .mapping es => throw (list.partRefusal activity (.entryCount es.length) part)
  | other => throw (list.partRefusal activity (.noEntry other.kind) part)

/-- Meet the entries of a list of mappings with one each. -/
def meetPairs (activity : Activity) (n : Nat) : Drafting (List (Nat × Nat)) := do
  let list ← node n
  match list.content with
  | .sequence items => items.mapM (meetEntry activity list)
  | other => throw (list.partRefusal activity (.noSequence other.kind) list)

/-- Look at the content of a collection. -/
def fill (n : Nat) : CollectionKind → Drafting Unit
  | .list => do setShape n (.list (← meetItems n))
  | .mapping => do setShape n (.mapping (← meetEntries n))
  | .set => do setShape n (.set ((← meetEntries n).map (·.1)))
  | .orderedMapping => do setShape n (.pairs (← meetPairs .orderedMapping n))
  | .pairs => do setShape n (.pairs (← meetPairs .pairs n))

/-- Look at the content of the collections that wait, the first to be met first. -/
def fillAll : Nat → Drafting Unit
  | 0 => return
  | fuel + 1 => do
    match (← get).waiting with
    | [] => return
    | (n, kind) :: waiting =>
      modify fun d => { d with waiting }
      fill n kind
      fillAll fuel

end Drafting

namespace Shapes

/-- The shapes of a node and of those that it holds. Each collection waits once. -/
def ofNodes (nodes : Nodes) (root : Nat) : Except Flaw Shapes :=
  let run : Drafting Unit := do
    let _ ← Drafting.meet root
    Drafting.fillAll nodes.size
  (run ⟨nodes, Array.replicate nodes.size none, []⟩).map (·.2.shapes)

/-! ## Values -/

/-- Put an entry at the end of a mapping, or its value in the place of an earlier one. -/
def putEntry (es : List (String × Datum)) (e : String × Datum) : List (String × Datum) :=
  if es.any (·.1 == e.1) then es.map fun old => if old.1 == e.1 then e else old else es ++ [e]

/-- The text that a node is, if it is one. -/
def text? (shapes : Shapes) (n : Nat) : Option String :=
  match shapes[n]?.join with
  | some (.single (.text s)) => some s
  | _ => none

/-- The value of a node with what it holds down to a depth. Entries with a key that is no text are
left out. -/
def datum (shapes : Shapes) (depth n : Nat) : Datum :=
  match depth, shapes[n]?.join with
  | _, none => .null
  | _, some (.single d) => d
  | 0, some (.list _) => .list []
  | 0, some (.pairs _) => .list []
  | 0, some (.set _) => .set []
  | 0, some (.mapping _) => .mapping []
  | depth + 1, some (.list items) => .list (items.map (shapes.datum depth))
  | depth + 1, some (.pairs es) =>
    .list (es.map fun (key, value) => .list [shapes.datum depth key, shapes.datum depth value])
  | depth + 1, some (.set items) => .set (items.map (shapes.datum depth))
  | depth + 1, some (.mapping es) =>
    .mapping ((es.filterMap fun (key, value) =>
      (shapes.text? key).map fun s => (s, shapes.datum depth value)).foldl putEntry [])

end Shapes

end WallPanel.Yaml
