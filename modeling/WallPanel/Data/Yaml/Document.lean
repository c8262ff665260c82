import WallPanel.Data.Yaml.Node
import WallPanel.Data.Yaml.Token

/-!
# Documents

The one document that a text holds, read from its tokens.

* `Document`: nodes, and which of them holds the others.
* `Document.ofTokens?`: the document of tokens, if there is one.
-/

namespace WallPanel.Yaml

/-- The nodes of a document, and the number of the one at its root. -/
structure Document where
  nodes : Nodes
  root : Nat

/-! ## Reading tokens -/

/-- A name for a node, and the place where that starts. -/
structure Anchor where
  name : String
  start : Mark
  node : Nat

/-- What is left of the tokens, and what is known from those before. -/
structure Remainder where
  tokens : Tokens
  /-- The addresses that handles of tags stand for. -/
  handles : List (String × String)
  anchors : List Anchor
  nodes : Nodes

/-- A step that reads tokens. -/
abbrev Reading := StateT Remainder (Except Flaw)

namespace Reading

/-- Stop with a problem at a place, met while a collection was read that starts at another. -/
def refuse {β : Type} (activity : Activity) (start : Mark) (problem : Problem) (place : Mark) :
    Reading β :=
  throw (.problem .parsing (some (activity, some start)) problem place)

/-- The next token. -/
def peek : Reading Token := do
  let r ← get
  match r.tokens.list, r.tokens.flaw with
  | t :: _, _ => return t
  | [], some flaw => throw flaw
  | [], none => throw (.problem .parsing none .unexpectedEnd .origin)

/-- Take the next token. -/
def take : Reading Token := do
  let t ← peek
  modify fun r => { r with tokens := { r.tokens with list := r.tokens.list.tail } }
  return t

/-- Whether the next token is of one of some kinds. -/
def isNext (kinds : List TokenKind) : Reading Bool := do
  return kinds.contains (← peek).kind

/-! ## Labels -/

/-- What a node is marked with, and where that starts. -/
structure Labels where
  anchor : Option String
  tag : Option (Tag × Mark)
  start : Option Mark

/-- An anchor, if it is next. -/
def anchor? : Reading (Option (String × Mark)) := do
  match (← peek).kind with
  | .anchor name => return some (name, (← take).start)
  | _ => return none

/-- A tag, if it is next. -/
def tag? : Reading (Option (Tag × Mark)) := do
  match (← peek).kind with
  | .tag tag => return some (tag, (← take).start)
  | _ => return none

/-- The labels of a node, in either order. -/
def labels : Reading Labels := do
  match ← anchor? with
  | some (name, m) => return ⟨some name, ← tag?, some m⟩
  | none =>
    match ← tag? with
    | some (tag, m) => return ⟨(← anchor?).map (·.1), some (tag, m), some m⟩
    | none => return ⟨none, none, none⟩

/-- The tag of labels, written out. -/
def Labels.address (l : Labels) (start : Mark) : Reading (Option String) := do
  match l.tag with
  | none => return none
  | some (⟨none, address⟩, _) => return some address
  | some (⟨some handle, address⟩, place) =>
    match (← get).handles.lookup handle with
    | some first => return some (first ++ address)
    | none => refuse .node start (.unknownHandle handle) place

/-! ## Nodes -/

/-- Add a node, which gets the next number. -/
def add (n : Node) : Reading Nat :=
  modifyGet fun r => (r.nodes.size, { r with nodes := r.nodes.push n })

/-- The node that an alias refers to. -/
def aliased (name : String) (place : Mark) : Reading Nat := do
  match (← get).anchors.find? (·.name = name) with
  | some a => return a.node
  | none => throw (.problem .composing none (.unknownAlias name) place)

/-- Add a node with its name, if it has one. A name is given once. -/
def addNamed (name : Option String) (n : Node) : Reading Nat := do
  match name with
  | none => add n
  | some name =>
    match (← get).anchors.find? (·.name = name) with
    | some first =>
      throw (.problem .composing (some (.anchored name, some first.start)) .secondAnchor n.start)
    | none =>
      let k ← add n
      modify fun r => { r with anchors := ⟨name, n.start, k⟩ :: r.anchors }
      return k

/-- Add a list, which may hold itself. -/
def addSequence (name tag : Option String) (start : Mark) (read : Reading (List Nat)) :
    Reading Nat := do
  let k ← addNamed name ⟨Node.collectionTag tag "seq", .sequence [], start⟩
  let items ← read
  modify fun r => { r with nodes := r.nodes.setContent k (.sequence items) }
  return k

/-- Add a mapping, which may hold itself. -/
def addMapping (name tag : Option String) (start : Mark) (read : Reading (List (Nat × Nat))) :
    Reading Nat := do
  let k ← addNamed name ⟨Node.collectionTag tag "map", .mapping [], start⟩
  let entries ← read
  modify fun r => { r with nodes := r.nodes.setContent k (.mapping entries) }
  return k

/-! ## Collections -/

/-- An item of a collection, which is absent if one of some kinds of tokens comes next. -/
def itemUnless (kinds : List TokenKind) (place : Mark) (read : Reading Nat) : Reading Nat := do
  if (← isNext kinds) then add (.absent place) else read

/-- The value of a key, which is absent without a colon. -/
def valueUnless (kinds : List TokenKind) (read : Reading Nat) : Reading Nat := do
  if (← isNext [.value]) then itemUnless kinds (← take).stop read
  else add (.absent (← peek).start)

mutual

/-- A node. Outside of brackets it may be a collection by indentation (`inBlock`), and where the
value of a key stands also a list at the column of the key (`atKey`). -/
def node : Nat → Bool → Bool → Reading Nat
  | 0, _, _ => add (.absent .origin)
  | fuel + 1, inBlock, atKey => do
    let first ← peek
    match first.kind with
    | .reference name =>
      let _ ← take
      aliased name first.start
    | _ =>
      let l ← labels
      let start := l.start.getD first.start
      let tag ← l.address start
      let t ← peek
      let list := addSequence l.anchor tag start
      let mapping := addMapping l.anchor tag start
      let scalar (codes : List Nat) (isPlain : Bool) :=
        addNamed l.anchor (.ofScalar tag codes isPlain start)
      match t.kind, inBlock, atKey with
      | .blockItem, _, true => list (itemsAtKey fuel)
      | .scalar codes isPlain, _, _ =>
        let _ ← take
        scalar codes isPlain
      | .flowListStart, _, _ => list do flowItems fuel (← take).start true
      | .flowMappingStart, _, _ => mapping do flowEntries fuel (← take).start true
      | .blockListStart, true, _ => list do blockItems fuel (← take).start
      | .blockMappingStart, true, _ => mapping do blockEntries fuel (← take).start
      | kind, _, _ =>
        if l.start.isSome then scalar [] true
        else
          let activity := if inBlock then Activity.blockNode else .flowNode
          refuse activity start (.expectedContent kind.name) t.start

/-- The items of a list by indentation. -/
def blockItems : Nat → Mark → Reading (List Nat)
  | 0, _ => return []
  | fuel + 1, start => do
    let t ← peek
    match t.kind with
    | .blockItem =>
      let _ ← take
      let item ← itemUnless [.blockItem, .blockEnd] t.stop (node fuel true false)
      return item :: (← blockItems fuel start)
    | .blockEnd =>
      let _ ← take
      return []
    | kind => refuse .blockList start (.expectedBlockEnd kind.name) t.start

/-- The items of a list at the column of its key. -/
def itemsAtKey : Nat → Reading (List Nat)
  | 0 => return []
  | fuel + 1 => do
    let t ← peek
    match t.kind with
    | .blockItem =>
      let _ ← take
      let item ← itemUnless [.blockItem, .key, .value, .blockEnd] t.stop (node fuel true false)
      return item :: (← itemsAtKey fuel)
    | _ => return []

/-- The entries of a mapping by indentation. -/
def blockEntries : Nat → Mark → Reading (List (Nat × Nat))
  | 0, _ => return []
  | fuel + 1, start => do
    let t ← peek
    match t.kind with
    | .key =>
      let _ ← take
      let ends := [TokenKind.key, .value, .blockEnd]
      let key ← itemUnless ends t.stop (node fuel true true)
      let value ← valueUnless ends (node fuel true true)
      return (key, value) :: (← blockEntries fuel start)
    | .blockEnd =>
      let _ ← take
      return []
    | kind => refuse .blockMapping start (.expectedBlockEnd kind.name) t.start

/-- The items of a list in brackets. A comma stands before each but the first. -/
def flowItems : Nat → Mark → Bool → Reading (List Nat)
  | 0, _, _ => return []
  | fuel + 1, start, isFirst => do
    if !isFirst && !(← isNext [.flowListEnd]) then
      let t ← peek
      if t.kind = .flowItem then
        let _ ← take
      else refuse .flowList start (.expectedItem ']' t.kind.name) t.start
    let t ← peek
    match t.kind with
    | .flowListEnd =>
      let _ ← take
      return []
    | .key =>
      let _ ← take
      let key ← itemUnless [.value, .flowItem, .flowListEnd] t.stop (node fuel false false)
      let value ← valueUnless [.flowItem, .flowListEnd] (node fuel false false)
      let item ← addMapping none none t.start (return [(key, value)])
      return item :: (← flowItems fuel start false)
    | _ =>
      let item ← node fuel false false
      return item :: (← flowItems fuel start false)

/-- The entries of a mapping in brackets. A comma stands before each but the first. -/
def flowEntries : Nat → Mark → Bool → Reading (List (Nat × Nat))
  | 0, _, _ => return []
  | fuel + 1, start, isFirst => do
    if !isFirst && !(← isNext [.flowMappingEnd]) then
      let t ← peek
      if t.kind = .flowItem then
        let _ ← take
      else refuse .flowMapping start (.expectedItem '\x7d' t.kind.name) t.start
    let t ← peek
    match t.kind with
    | .flowMappingEnd =>
      let _ ← take
      return []
    | .key =>
      let _ ← take
      let key ← itemUnless [.value, .flowItem, .flowMappingEnd] t.stop (node fuel false false)
      let value ← valueUnless [.flowItem, .flowMappingEnd] (node fuel false false)
      return (key, value) :: (← flowEntries fuel start false)
    | _ =>
      let key ← node fuel false false
      let value ← add (.absent (← peek).start)
      return (key, value) :: (← flowEntries fuel start false)

end

/-! ## Documents -/

/-- The handles of tags that every document has. -/
def standingHandles : List (String × String) :=
  [("!", "!"), ("!!", coreAddress)]

/-- Take the directives before a document. -/
def directives : Nat → Bool → List (String × String) → Reading Unit
  | 0, _, _ => return
  | fuel + 1, hasVersion, handles => do
    let t ← peek
    match t.kind with
    | .directive d =>
      let _ ← take
      match d with
      | .version major _ =>
        if hasVersion then throw (.problem .parsing none .duplicateVersion t.start)
        else if major ≠ 1 then throw (.problem .parsing none .unknownVersion t.start)
        else directives fuel true handles
      | .handle handle address =>
        if (handles.lookup handle).isSome then
          throw (.problem .parsing none (.duplicateHandle handle) t.start)
        else directives fuel hasVersion ((handle, address) :: handles)
      | .other => directives fuel hasVersion handles
    | _ => modify fun r => { r with handles := handles ++ standingHandles }

/-- Take the marks at the end of a document. -/
def documentEnds : Nat → Reading Unit
  | 0 => return
  | fuel + 1 => do
    if (← isNext [.documentEnd]) then
      let _ ← take
      documentEnds fuel

/-- Take the directives and the mark before a document. -/
def documentStart (fuel : Nat) : Reading Unit := do
  directives fuel false []
  let t ← peek
  if t.kind = .documentStart then
    let _ ← take
  else throw (.problem .parsing none (.expectedDocument t.kind.name) t.start)

/-- Whether a document starts with a mark of its own, or is empty. -/
def isMarked (t : Token) : Bool :=
  match t.kind with
  | .directive _ => true
  | .documentStart => true
  | .streamEnd => true
  | _ => false

/-- The content of a document after its mark. -/
def content (fuel : Nat) : Reading Nat := do
  let t ← peek
  if isMarked t || t.kind = .documentEnd then add (.absent t.start) else node fuel true false

/-- The first document. -/
def document? (fuel : Nat) : Reading (Option Nat) := do
  let t ← peek
  if t.kind = .streamEnd then return none
  else if isMarked t then
    documentStart fuel
    some <$> content fuel
  else some <$> node fuel true false

/-- The first document, after which no other may follow. -/
def onlyDocument? (fuel : Nat) : Reading (Option Document) := do
  match ← document? fuel with
  | none => return none
  | some root =>
    documentEnds fuel
    let t ← peek
    let nodes := (← get).nodes
    if t.kind = .streamEnd then return some ⟨nodes, root⟩
    else
      documentStart fuel
      let start := (nodes.node root).start
      throw (.problem .composing (some (.document, some start)) .secondDocument t.start)

end Reading

/-- The one document of a text, none if there is no document. -/
def Document.ofTokens? (tokens : Tokens) : Except Flaw (Option Document) :=
  let fuel := 2 * tokens.list.length + 2
  (Reading.onlyDocument? fuel ⟨tokens, Reading.standingHandles, [], #[]⟩).map (·.1)

end WallPanel.Yaml
