import WallPanel.Data.Yaml.Document
import WallPanel.Data.Yaml.Shape

/-!
# YAML

Texts in the data format as values. Of several entries of a mapping with one key the last counts,
and only those with a text for a key are kept.

* `Yaml.parse`: the value of a text.
-/

namespace WallPanel.Yaml

/-- The value of a text with what it holds down to a depth; a text without a document has the value
null. -/
def parse (depth : Nat) (text : String) : Except Flaw Datum := do
  match ← Document.ofTokens? (.ofText text) with
  | none => return .null
  | some document =>
    let shapes ← Shapes.ofNodes document.nodes document.root
    return shapes.datum depth document.root

end WallPanel.Yaml
