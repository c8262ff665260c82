import WallPanel.CommandLine.Failure
import WallPanel.Data.Yaml
import WallPanel.Drawing.Layered
import WallPanel.Routing.Footprint

/-!
# Options

What an options file sets: the radius of the tool, the units of a drawing, and the names of its
layers. The values are checked where they are used.

* `Options.ofText`: the options of a file.
* `Options.toolRadius`, `Options.units`, `Options.layerNames`: what they set.
* `Options.drawing`: the drawing of a wall as they ask for it.
-/

namespace WallPanel

/-- The entries of an options file. -/
abbrev Options := List (String × Datum)

namespace Options

/-- How deep the values of options are looked at: down to the names of layers. -/
def depth : Nat := 2

/-- The options of a file, none if they are not a mapping. A file that says nothing sets nothing. -/
def ofText (text : String) : Except Failure (Option Options) :=
  match Yaml.parse depth text with
  | .error flaw => .error (.unreadableOptions text flaw)
  | .ok (.mapping entries) => .ok (some entries)
  | .ok d => .ok (if d.isTrue then none else some [])

/-- The value as a number. -/
def number : Datum → Except Failure Float
  | .float x => .ok x
  | .int n =>
    let x := Float.ofInt n
    if x.isFinite then .ok x else .error .integerTooLarge
  | .bool b => .ok (if b then 1.0 else 0.0)
  | .text s =>
    match Literal.float? s with
    | some x => .ok x
    | none => .error (.notANumber (s.toList.map Char.toNat))
  | .codes points => .error (.notANumber points)
  | .octets values =>
    match Literal.floatOfOctets? values with
    | some x => .ok x
    | none => .error (.noNumberOctets values)
  | d => .error (.noNumber d.typeName)

/-- The radius of the tool. -/
def toolRadius (options : Options) : Except Failure Float :=
  match options.lookup "tool_radius" with
  | some d => number d
  | none => .ok defaultToolRadius

/-- The name of the units of a drawing: the one asked for, or else the one that is set. -/
def units (asked : Option String) (options : Options) : Except Failure String :=
  match asked.filter (!·.isEmpty), options.lookup "units" with
  | some name, _ => .ok name
  | none, some (.octets values) => .ok (Quoted.renderOctets values)
  | none, some d =>
    match d.toText? with
    | some name => .ok name
    | none => .error (.noUnits d.typeName)
  | none, none => .ok "mm"

/-- The names of the layers. -/
def layerNames (options : Options) : Except Failure LayerNames :=
  match options.lookup "dxf_layers" with
  | some (.mapping names) => .ok names
  | some d => if d.isTrue then .error (.noLayerNames d.typeName) else .ok []
  | none => .ok []

/-- The drawing of a wall as options ask for it. The units count before the names of the layers. -/
def drawing (m : WallModel Float) (asked : Option String) (options : Options) :
    Except Failure (Drawing Float) := do
  let units ← options.units asked
  if (DrawingUnits.ofName? units).isNone then throw (.fault (.unknownUnits units))
  (m.drawing units (← options.layerNames)).mapError .fault

end Options

end WallPanel
