import WallPanel.Drawing.Layered
import WallPanel.Number.Binary64
import WallPanel.Text.Quoted

/-!
# Exchange files

Layered drawings as text in the drawing exchange format: pairs of lines, a group code and its value.
A file has a header with the units, a table of the layers, and the shapes. Texts are in the single
bytes of Western European Windows; a character without one is written by its code point.

* `Exchange.spelled`: a text as it is written.
* `Group`: a pair of lines.
* `Shape.groups`: a shape on a layer.
* `Drawing.fault?`: what keeps a drawing from being written.
* `Drawing.exchangeText`: the text of a file; `Drawing.writtenLayers`: the layers in it.
-/

namespace WallPanel

namespace Exchange

/-- The characters of the bytes from 0x80 to 0x9F, with a blank for each byte that has none. -/
def specialRow : List Char :=
  "€ ‚ƒ„…†‡ˆ‰Š‹Œ Ž  ‘’“”•–—˜™š›œ žŸ".toList

/-- Whether a code point has a single byte. -/
def hasByte (code : Nat) : Bool :=
  code < 0x80 || (0xA0 ≤ code && code < 0x100) ||
    (code.isValidChar && specialRow.contains (Char.ofNat code))

/-- The character of a byte. -/
def ofByte (byte : Nat) : Char :=
  match specialRow[byte - 0x80]? with
  | some c => if c = ' ' || byte < 0x80 then Char.ofNat byte else c
  | none => Char.ofNat byte

/-- Whether a code point stands for an octet that is no text. It is written as that byte. -/
def isStrayOctet (code : Nat) : Bool :=
  0xDC80 ≤ code && code ≤ 0xDCFF

/-- A code point as it is written. -/
def spelledCode (code : Nat) : List Char :=
  if hasByte code then [Char.ofNat code]
  else if isStrayOctet code then [ofByte (code - 0xDC00)]
  else if code < 0x100 then '\\' :: 'x' :: Quoted.hexDigits 2 code
  else if code < 0x10000 then '\\' :: 'U' :: '+' :: Quoted.hexDigits 4 code
  else '\\' :: 'U' :: '+' :: Quoted.hexDigits 8 code

/-- A name as it is written. -/
def spelled (name : LayerName) : String :=
  String.ofList (name.flatMap spelledCode)

/-- Whether a stray octet stands beside another code point without a byte, which keeps it from being
written. -/
def hasTornRun : List Nat → Bool
  | a :: b :: codes =>
    (!hasByte a && !hasByte b && isStrayOctet a != isStrayOctet b) || hasTornRun (b :: codes)
  | _ => false

/-- The line ends, which no text may have, and how they are shown. -/
def lineEnds : List (Char × String) :=
  [('\n', "\\n"), ('\r', "\\r")]

end Exchange

/-- A group code with its value. -/
structure Group where
  code : Nat
  value : String
deriving DecidableEq, Repr

namespace Group

def render (g : Group) : String :=
  toString g.code ++ "\n" ++ g.value ++ "\n"

def number (code : Nat) (x : Float) : Group :=
  ⟨code, Binary64.shortest x⟩

def integer (code n : Nat) : Group :=
  ⟨code, toString n⟩

/-- The coordinates of a point, in two groups of which the second code is ten more. -/
def point (code : Nat) (p : Point Float) : List Group :=
  [number code p.x, number (code + 10) p.y]

/-- Groups between the marks of a section. -/
def inSection (name : String) (groups : List Group) : List Group :=
  [⟨0, "SECTION"⟩, ⟨2, name⟩] ++ groups ++ [⟨0, "ENDSEC"⟩]

/-- The beginning of an entity on a layer. -/
def entity (type : String) (layer : LayerName) : List Group :=
  [⟨0, type⟩, ⟨100, "AcDbEntity"⟩, ⟨8, Exchange.spelled layer⟩]

end Group

/-- The groups of a shape on a layer. -/
def Shape.groups (layer : LayerName) : Shape Float → List Group
  | outline ps =>
    Group.entity "LWPOLYLINE" layer ++ [⟨100, "AcDbPolyline"⟩, .integer 90 ps.length,
      .integer 70 1] ++ ps.flatMap (Group.point 10)
  | line start stop =>
    Group.entity "LINE" layer ++ [⟨100, "AcDbLine"⟩] ++ Group.point 10 start ++ Group.point 11 stop
  | circle center radius =>
    Group.entity "CIRCLE" layer ++ [⟨100, "AcDbCircle"⟩] ++ Group.point 10 center ++
      [.number 40 radius]
  | arc center radius startDegrees stopDegrees =>
    Group.entity "ARC" layer ++ [⟨100, "AcDbCircle"⟩] ++ Group.point 10 center ++
      [.number 40 radius, ⟨100, "AcDbArc"⟩, .number 50 startDegrees, .number 51 stopDegrees]

/-- The groups of a layer in the table of layers. -/
def Layer.groups (l : Layer) : List Group :=
  [⟨0, "LAYER"⟩, ⟨100, "AcDbSymbolTableRecord"⟩, ⟨100, "AcDbLayerTableRecord"⟩,
    ⟨2, Exchange.spelled l.name⟩, .integer 70 0, .integer 62 l.color, ⟨6, "Continuous"⟩]

namespace Drawing

/-- The version of the format. -/
def formatVersion : String := "AC1018"

def headerGroups (d : Drawing Float) : List Group :=
  [⟨9, "$ACADVER"⟩, ⟨1, formatVersion⟩, ⟨9, "$INSUNITS"⟩, .integer 70 d.units.code]

def tableGroups (d : Drawing Float) : List Group :=
  [⟨0, "TABLE"⟩, ⟨2, "LAYER"⟩, .integer 70 d.layers.length] ++ d.layers.flatMap Layer.groups ++
    [⟨0, "ENDTAB"⟩]

/-- What keeps a layer from being written. -/
def layerFault? (l : Layer) : Option Fault :=
  match Exchange.lineEnds.find? fun e => l.name.chars.contains e.1 with
  | some (_, shown) => some (.lineEnd shown)
  | none => if Exchange.hasTornRun l.name then some .strayOctet else none

/-- What keeps a drawing from being written. -/
def fault? (d : Drawing Float) : Option Fault :=
  d.layers.findSome? layerFault?

/-- The layers that the text of a drawing has. Of several with the same name the last counts. -/
def writtenLayers (d : Drawing Float) : List Layer :=
  (d.layers.map fun l => { l with name := .ofString (Exchange.spelled l.name) }).foldl
    (fun layers l => (layers.filter fun other => !other.name.same l.name) ++ [l]) []

/-- The text of a drawing. -/
def exchangeText (d : Drawing Float) : String :=
  let groups :=
    Group.inSection "HEADER" d.headerGroups ++ Group.inSection "TABLES" d.tableGroups ++
      Group.inSection "ENTITIES" (d.shapes.flatMap fun (layer, s) => s.groups layer) ++ [⟨0, "EOF"⟩]
  String.join (groups.map Group.render)

end Drawing

end WallPanel
