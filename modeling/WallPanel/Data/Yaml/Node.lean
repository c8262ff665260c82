import WallPanel.Data.Yaml.Cursor
import WallPanel.Data.Yaml.Flaw
import WallPanel.Data.Yaml.Spelling

/-!
# Nodes

What a document is made of: scalars, lists and mappings, each with its tag. Nodes have numbers, by
which others refer to them. An alias is the number of a node that is there already, so a collection
may be in several places, and within itself.

* `Node`: a node.
* `Nodes`: the nodes of a document by their numbers.
-/

namespace WallPanel.Yaml

/-- What a node holds. Other nodes are given by their numbers. -/
inductive NodeContent where
  | scalar (codes : List Nat)
  | sequence (items : List Nat)
  | mapping (entries : List (Nat × Nat))
deriving DecidableEq, Repr

/-- The kind of nodes that hold something. -/
def NodeContent.kind : NodeContent → NodeKind
  | scalar _ => .scalar
  | sequence _ => .sequence
  | mapping _ => .mapping

/-- A node. Its tag is written out, and it starts where its labels do. -/
structure Node where
  tag : String
  content : NodeContent
  start : Mark
deriving DecidableEq, Repr

/-! ## Tags -/

/-- The address that the tags of the format start with. -/
def coreAddress : String := "tag:yaml.org,2002:"

/-- A tag of the format. -/
def coreTag (name : String) : String :=
  coreAddress ++ name

namespace Spelling

/-- The name of the tag of a spelling. -/
def name : Spelling → String
  | null => "null"
  | bool => "bool"
  | int => "int"
  | float => "float"
  | moment => "timestamp"
  | merge => "merge"
  | value => "value"
  | text => "str"

/-- The tag of a spelling. -/
def tag (s : Spelling) : String :=
  coreTag s.name

end Spelling

namespace Node

/-- A tag that says nothing. -/
def anyTag : String := "!"

/-- The tag of a scalar: the one it is marked with, or else that of its spelling. A text in quotes
is a text. -/
def scalarTag (tag : Option String) (codes : List Nat) (isPlain : Bool) : String :=
  match tag with
  | some t => if t = anyTag then bySpelling else t
  | none => if isPlain then bySpelling else Spelling.text.tag
where
  bySpelling : String :=
    if codes.all fun n => n.isValidChar then (Spelling.ofChars (codes.map Char.ofNat)).tag
    else Spelling.text.tag

/-- The tag of a collection. -/
def collectionTag (tag : Option String) (name : String) : String :=
  match tag with
  | some t => if t = anyTag then coreTag name else t
  | none => coreTag name

/-- A scalar with its labels. -/
def ofScalar (tag : Option String) (codes : List Nat) (isPlain : Bool) (m : Mark) : Node :=
  ⟨scalarTag tag codes isPlain, .scalar codes, m⟩

/-- A node that nothing stands for. -/
def absent (m : Mark) : Node :=
  ofScalar none [] true m

end Node

/-! ## Numbers -/

/-- The nodes of a document by their numbers. -/
abbrev Nodes := Array Node

namespace Nodes

/-- The node of a number. -/
def node (nodes : Nodes) (n : Nat) : Node :=
  nodes[n]?.getD (.absent .origin)

/-- The entries of a mapping. -/
def entries (nodes : Nodes) (n : Nat) : List (Nat × Nat) :=
  match (nodes.node n).content with
  | .mapping es => es
  | _ => []

/-- Change a node. -/
def change (nodes : Nodes) (n : Nat) (f : Node → Node) : Nodes :=
  nodes.modify n f

/-- Change what a node holds. -/
def setContent (nodes : Nodes) (n : Nat) (content : NodeContent) : Nodes :=
  nodes.change n fun node => { node with content }

end Nodes

end WallPanel.Yaml
