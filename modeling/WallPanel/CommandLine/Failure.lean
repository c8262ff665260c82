import WallPanel.Data.Datum
import WallPanel.Data.Yaml.Flaw
import WallPanel.Text.FilePath
import WallPanel.Text.Quoted

/-!
# Failures

Why a command stops without an answer of its own. `Failure.message` is the wording that is shown.
-/

namespace WallPanel

/-- Why a command stops. A value of the options that cannot be used is named by its type. -/
inductive Failure where
  | fault (fault : Fault)
  /-- The text of the options is no document. -/
  | unreadableOptions (source : String) (flaw : Yaml.Flaw)
  /-- A text that is to be a number is none. -/
  | notANumber (codes : List Nat)
  /-- Octets that are to be a number are none. -/
  | noNumberOctets (values : List Nat)
  /-- A value that is to be a number is of another type. -/
  | noNumber (type : String)
  /-- An integer is beyond the range of numbers. -/
  | integerTooLarge
  /-- The units are no text. -/
  | noUnits (type : String)
  /-- The layer names are no mapping. -/
  | noLayerNames (type : String)
  /-- A file stands where a directory has to be made. -/
  | fileExists (path : FilePath)
  /-- A file stands where a directory has to lead on. -/
  | notADirectory (path : FilePath)
  /-- A directory stands where a file has to be written. -/
  | isADirectory (path : FilePath)
  /-- A path has too many octets, or a part of it has. -/
  | pathTooLong (path : FilePath)

namespace Failure

/-- A name within single quotes. -/
def singleQuoted (name : String) : String :=
  "'" ++ name ++ "'"

/-- The wording of a failure. -/
def message : Failure → String
  | fault f => f.message
  | unreadableOptions source flaw => flaw.message source
  | notANumber codes => "could not convert string to float: " ++ Quoted.renderCodes codes
  | noNumberOctets values => "could not convert string to float: " ++ Quoted.renderOctets values
  | noNumber type =>
    "float() argument must be a string or a real number, not " ++ singleQuoted type
  | integerTooLarge => "int too large to convert to float"
  | noUnits type => singleQuoted type ++ " object has no attribute 'lower'"
  | noLayerNames type => singleQuoted type ++ " object has no attribute 'get'"
  | fileExists path => "[Errno 17] File exists: " ++ Quoted.render path.render
  | notADirectory path => "[Errno 20] Not a directory: " ++ Quoted.render path.render
  | isADirectory path => "[Errno 21] Is a directory: " ++ Quoted.render path.render
  | pathTooLong path => "[Errno 36] File name too long: " ++ Quoted.render path.render

end Failure

end WallPanel
