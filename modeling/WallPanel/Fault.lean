/-!
# Faults

Why a document is refused or a computation stops. `Fault.message` is the wording that is shown.
-/

namespace WallPanel

/-- Why a text is not the document of a wall, or stops being one. -/
inductive Refusal where
  /-- The text is empty or blank. -/
  | emptyText
  /-- No statement gives the wall any extent. -/
  | noMembers
  /-- The wall is declared with an infinite size. -/
  | badDimensions
  /-- Every statement has been deleted. -/
  | nothingLeft
deriving DecidableEq, Repr

/-- Why a computation on a document stops. -/
inductive Fault where
  | refused (refusal : Refusal)
  /-- An infinite number where an integer is needed. -/
  | infiniteInteger
  /-- An undefined number where an integer is needed. -/
  | undefinedInteger
  /-- A coordinate of an outline leaves the signed 64-bit range. -/
  | coordinateRange
  /-- An integer is written with more digits than the limit. -/
  | integerDigits (count : Nat)
  /-- An infinite angle, which has no direction. -/
  | infiniteAngle
  /-- A number is to be written with a negative number of places. -/
  | negativePlaces
  /-- A number is to be written with more places than can be. -/
  | excessivePlaces
  /-- The number of places is itself beyond all limits. -/
  | unreadablePlaces
  /-- A position is not within a list. -/
  | noPosition
  /-- A drawing has no unit of that name. -/
  | unknownUnits (units : String)
  /-- A layer cannot have that name. -/
  | badLayerName (name : String)
  /-- A shape of some type cannot be on a layer of that name. -/
  | badShapeLayer (type name : String)
  /-- A name with a line end cannot be written. -/
  | lineEnd (shown : String)
  /-- A name with an octet that is no text cannot be written, because of what stands beside it. -/
  | strayOctet
  /-- The name of a layer is no text but of another type. -/
  | noLayerName (type : String)
  /-- A drawing cannot have that size. -/
  | badSize (size dimension : String)
  /-- A drawing cannot have a path without points. -/
  | emptyPath
deriving DecidableEq, Repr

namespace Refusal

/-- The wording of a refusal. -/
def message : Refusal → String
  | emptyText => "WUP input must be a non-empty string"
  | noMembers => "No frame members detected in the WUP file"
  | badDimensions => "Invalid wall dimensions inferred from WUP file"
  | nothingLeft => "no statements left to parse"

end Refusal

namespace Fault

/-- The most digits that an integer may be written with. -/
def digitLimit : Nat := 4300

/-- The wording of a fault. -/
def message : Fault → String
  | refused refusal => refusal.message
  | infiniteInteger => "cannot convert float infinity to integer"
  | undefinedInteger => "cannot convert float NaN to integer"
  | coordinateRange => "Python int too large to convert to C long"
  | integerDigits count =>
    "Exceeds the limit (4300 digits) for integer string conversion: value has " ++ toString count ++
      " digits; use sys.set_int_max_str_digits() to increase the limit"
  | infiniteAngle => "math domain error"
  | negativePlaces => "Format specifier missing precision"
  | excessivePlaces => "precision too big"
  | unreadablePlaces => "Too many decimal digits in format string"
  | noPosition => "list index out of range"
  | unknownUnits units => "unsupported units: " ++ units
  | badLayerName name =>
    "Invalid value " ++ name ++ " for attribute \"name\" in entity LAYER(#None)."
  | badShapeLayer type name =>
    "Invalid value " ++ name ++ " for attribute \"layer\" in entity " ++ type ++ "(#None)."
  | lineEnd shown => "line break '" ++ shown ++ "' not allowed"
  | strayOctet => "surrogates not allowed"
  | noLayerName type => "name has to be a string, got <class '" ++ type ++ "'>"
  | badSize size dimension =>
    "'" ++ size ++ "' is not a valid value for attribute '" ++ dimension ++
      "' at svg-element <svg>."
  | emptyPath => "'' is not a valid value for attribute 'd' at svg-element <path>."

/-- Whether a drawing cannot have the units or the names that are asked for. Names that are no text
and names with line ends are none of these. -/
def isOfDrawing : Fault → Bool
  | unknownUnits _ | badLayerName _ | badShapeLayer .. | strayOctet => true
  | _ => false

end Fault

end WallPanel
