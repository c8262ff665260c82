import WallPanel.Text.Quoted
import WallPanel.Text.Separated

/-!
# File paths

Paths with slashes, in their normal form: repeated slashes and the parts `.` say nothing and are
left out, two slashes at the start are kept as they are, and `..` is a part like any other.

* `FilePath.parse`, `FilePath.render`: from text to path and back.
* `FilePath.name`, `FilePath.stem`, `FilePath.suffix`: the last part, its halves at the last dot.
* `FilePath.isTooLong`: a path that no file can have.
* `FilePath.withName`, `FilePath.tryWithName`: a path with another last part.
* `modifiedName`, `tryModifiedName`: the name of the modified copy of a file.
-/

namespace WallPanel

/-- A path: the slashes it starts with (none, one or two) and its parts. -/
structure FilePath where
  slashes : Nat
  parts : List (List Char)
deriving DecidableEq, Repr

namespace FilePath

/-- The path of a text. -/
def parse (text : List Char) : FilePath :=
  let leading := (text.takeWhile (· == '/')).length
  { slashes := if leading = 2 then 2 else min leading 1
    parts := (Separated.split '/' text).filter fun part => part ≠ [] && part ≠ ['.'] }

/-- The text of a path. A path without slashes and parts is a dot. -/
def render (p : FilePath) : List Char :=
  match List.replicate p.slashes '/' ++ Separated.join '/' p.parts with
  | [] => ['.']
  | cs => cs

/-- The last part, empty for a path without parts. -/
def name (p : FilePath) : List Char :=
  p.parts.getLast?.getD []

/-- The path without its last part. -/
def parent (p : FilePath) : FilePath :=
  { p with parts := p.parts.dropLast }

/-- A name cut before its last dot: stem and suffix. A dot at either end cuts nothing. -/
def cutSuffix (name : List Char) : List Char × List Char :=
  let after := (name.reverse.takeWhile (· ≠ '.')).reverse
  let before := (name.reverse.dropWhile (· ≠ '.')).tail.reverse
  if before.isEmpty || after.isEmpty then (name, []) else (before, '.' :: after)

def stem (p : FilePath) : List Char :=
  (cutSuffix p.name).1

def suffix (p : FilePath) : List Char :=
  (cutSuffix p.name).2

/-- The most octets of a part of a path. -/
def partLimit : Nat := 255

/-- Whether a part has too many octets. -/
def isPartTooLong (part : List Char) : Bool :=
  partLimit < (String.ofList part).utf8ByteSize

/-- The most octets of a path. -/
def lengthLimit : Nat := 4095

/-- Whether a path has too many octets. -/
def isTooLong (p : FilePath) : Bool :=
  lengthLimit < (String.ofList p.render).utf8ByteSize

/-- The path with another last part. -/
def withName (p : FilePath) (name : List Char) : FilePath :=
  { p with parts := p.parts.dropLast ++ [name] }

/-- Whether a text is one part of a path. -/
def isPart (name : List Char) : Bool :=
  let p := parse name
  !name.isEmpty && name.getLast? != some '/' && p.slashes == 0 && p.parts.length == 1

/-- Why a path cannot have another last part. -/
inductive NameFault where
  /-- The path has no last part. -/
  | noName (p : FilePath)
  /-- What should become the last part is not one part of a path. -/
  | badName (name : List Char)
deriving DecidableEq, Repr

/-- The wording of a fault. -/
def NameFault.message : NameFault → String
  | noName p => "PosixPath(" ++ Quoted.render p.render ++ ") has an empty name"
  | badName name => "Invalid name " ++ Quoted.render name

/-- The path with another last part, if it has one and the other is one. -/
def tryWithName (p : FilePath) (name : List Char) : Except NameFault FilePath :=
  if p.name.isEmpty then .error (.noName p)
  else if isPart name then .ok (p.withName name)
  else .error (.badName name)

end FilePath

/-- The name of the modified copy of a file: `wall.wup` becomes `wall-modified.wup`. A name without
a suffix gets that one. -/
def modifiedName (name : String) : String :=
  if name.isEmpty then "modified.wup"
  else
    let p := FilePath.parse name.toList
    if p.suffix.isEmpty then name ++ "-modified.wup"
    else String.ofList (p.withName (p.stem ++ "-modified".toList ++ p.suffix)).render

/-- The name of the modified copy of a file, made with the checks of a new last part. They never
fail. -/
def tryModifiedName (name : String) : Except FilePath.NameFault String :=
  if name.isEmpty then .ok "modified.wup"
  else
    let p := FilePath.parse name.toList
    if p.suffix.isEmpty then .ok (name ++ "-modified.wup")
    else (p.tryWithName (p.stem ++ "-modified".toList ++ p.suffix)).map fun q =>
      String.ofList q.render

end WallPanel
