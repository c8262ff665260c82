import WallPanel.Data.Calendar

/-!
# Data

The values of data files: what a model is written as, and what options are read as.
-/

namespace WallPanel

/-- A value of a data file. The entries of a mapping keep their order. -/
inductive Datum where
  | null
  | bool (b : Bool)
  | int (n : Int)
  | float (x : Float)
  | text (s : String)
  /-- A text by its code points, one of which at least is no character. -/
  | codes (points : List Nat)
  | octets (values : List Nat)
  | date (d : Day)
  | moment (m : Moment)
  | list (items : List Datum)
  | set (items : List Datum)
  | mapping (entries : List (String × Datum))
deriving Inhabited

/-- The characters of code points. The replacement character stands for those that have none. -/
def charactersOf (codes : List Nat) : List Char :=
  codes.map fun n => if n.isValidChar then Char.ofNat n else '\ufffd'

namespace Datum

/-- The value that is present, or null. -/
def ofOption {β : Type} (f : β → Datum) : Option β → Datum
  | some b => f b
  | none => null

/-- A list of values of one kind. -/
def ofList {β : Type} (f : β → Datum) (bs : List β) : Datum :=
  list (bs.map f)

def ofNat (n : Nat) : Datum :=
  int n

/-- Whether a value says anything: nothing that is empty or zero does. -/
def isTrue : Datum → Bool
  | null => false
  | bool b => b
  | int n => n != 0
  | float x => x != 0.0
  | text s => !s.isEmpty
  | codes _ => true
  | octets values => !values.isEmpty
  | date _ => true
  | moment _ => true
  | list items => !items.isEmpty
  | set items => !items.isEmpty
  | mapping entries => !entries.isEmpty

/-- The text that a value is, by its code points. -/
def toCodes? : Datum → Option (List Nat)
  | text s => some (s.toList.map Char.toNat)
  | codes points => some points
  | _ => none

/-- The text that a value is, in characters. -/
def toText? : Datum → Option String
  | text s => some s
  | codes points => some (String.ofList (charactersOf points))
  | _ => none

/-- The name of the type of a value. -/
def typeName : Datum → String
  | null => "NoneType"
  | bool _ => "bool"
  | int _ => "int"
  | float _ => "float"
  | text _ => "str"
  | codes _ => "str"
  | octets _ => "bytes"
  | date _ => "datetime.date"
  | moment _ => "datetime.datetime"
  | list _ => "list"
  | set _ => "set"
  | mapping _ => "dict"

end Datum

end WallPanel
