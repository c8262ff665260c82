import WallPanel.Data.Yaml.Node

/-!
# Mappings within mappings

An entry of a mapping whose key says so stands for all entries of another mapping, or of those in a
list. They come before the own ones, so that the own ones count.

* `Nodes.takeIn`: a mapping with the entries that it takes in.
-/

namespace WallPanel.Yaml

/-- A problem with a node. -/
def Node.refusal (n : Node) (problem : Problem) : Flaw :=
  .problem .constructing none problem n.start

/-- A problem with a part of a node, met while a value of some kind was made of it. -/
def Node.partRefusal (n : Node) (activity : Activity) (problem : Problem) (part : Node) : Flaw :=
  .problem .constructing (some (activity, some n.start)) problem part.start

namespace Nodes

/-- Whether the key of an entry has a tag. -/
def hasKeyTag (nodes : Nodes) (s : Spelling) (e : Nat × Nat) : Bool :=
  (nodes.node e.1).tag = s.tag

/-- Split the entries of a mapping at the first that stands for others. -/
def splitMerge (nodes : Nodes) (n : Nat) : List (Nat × Nat) × List (Nat × Nat) :=
  (nodes.entries n).span fun e => !nodes.hasKeyTag .merge e

/-- Take the key that stands for the value of a whole mapping for a text. -/
def nameValueKeys (nodes : Nodes) (n : Nat) : Nodes :=
  ((nodes.entries n).filter (nodes.hasKeyTag .value)).foldl
    (fun nodes e => nodes.change e.1 fun key => { key with tag := Spelling.text.tag }) nodes

/-- Put entries before those of a mapping. -/
def putBefore (nodes : Nodes) (n : Nat) (es : List (Nat × Nat)) : Nodes :=
  if es.isEmpty then nodes else nodes.setContent n (.mapping (es ++ nodes.entries n))

/-- Replace the entries that stand for others by these, here and in the mappings that they are
from. A mapping that is being worked on is taken as it is by then. -/
def takeIn : Nat → Nat → Nodes → Except Flaw Nodes
  | 0, _, nodes => .ok nodes
  | fuel + 1, n, nodes =>
    match nodes.splitMerge n with
    | (_, []) => .ok (nodes.nameValueKeys n)
    | (before, (_, value) :: after) => do
      let mapping := nodes.node n
      let source := nodes.node value
      let step (taken : List (Nat × Nat) × Nodes) (part : Nat) :
          Except Flaw (List (Nat × Nat) × Nodes) := do
        let nodes ← takeIn fuel part taken.2
        return (nodes.entries part ++ taken.1, nodes)
      let nodes := nodes.setContent n (.mapping (before ++ after))
      let (taken, nodes) ← match source.content with
        | .mapping _ => step ([], nodes) value
        | .sequence items =>
          items.foldlM (fun taken item =>
            let part := taken.2.node item
            if part.content.kind = .mapping then step taken item
            else .error (mapping.partRefusal .mapping (.badMergeItem part.content.kind) part))
            ([], nodes)
        | .scalar _ => .error (mapping.partRefusal .mapping (.badMerge .scalar) source)
      return (← takeIn fuel n nodes).putBefore n taken

/-- The mapping of a number with the entries that it takes in. Each entry that stands for others is
met once. -/
def merged (nodes : Nodes) (n : Nat) : Except Flaw Nodes :=
  let entryCount := nodes.foldl (fun count node =>
    match node.content with
    | .mapping es => count + es.length
    | _ => count) 0
  nodes.takeIn (2 * entryCount + 2) n

end Nodes

end WallPanel.Yaml
