/-!
# Markup

Elements with attributes, as they are written into a drawing file: the attributes in alphabetical
order, and an element without children in its short form. The texts come from numbers, colours and
path data, none of which needs escaping.
-/

namespace WallPanel

/-- An attribute of an element. -/
structure Attribute where
  name : String
  value : String
deriving DecidableEq, Repr

namespace Attribute

def render (a : Attribute) : String :=
  " " ++ a.name ++ "=\"" ++ a.value ++ "\""

end Attribute

/-- An element without children. -/
structure Element where
  name : String
  attributes : List Attribute
deriving DecidableEq, Repr

namespace Element

/-- The opening of an element: its name and its attributes, in alphabetical order. -/
def opening (e : Element) : String :=
  "<" ++ e.name ++
    String.join ((e.attributes.mergeSort fun a b => decide (a.name ≤ b.name)).map Attribute.render)

def render (e : Element) : String :=
  e.opening ++ " />"

/-- The element around the text of its children. -/
def around (e : Element) (children : String) : String :=
  if children.isEmpty then e.render else e.opening ++ ">" ++ children ++ "</" ++ e.name ++ ">"

end Element

end WallPanel
