import WallPanel.CommandLine.Failure

/-!
# Folders

The files that a command works with.

* `Files`: all that a command has to know of them.
* `Place`: a place in the tree of directories around a folder.
* `Folder`: a folder as the list of its files. A directory is there if a file is in it, or if it has
  been made.
* `Folder.text?`: the text of a file, with its line ends made alike.
* `Folder.makeParents`, `Folder.openFile`: making directories, and writing a file in them.
-/

namespace WallPanel

/-- What a command has to know of the files around it. -/
structure Files where
  /-- The text of the file at a path, with its line ends made alike. -/
  text? : String → Option String
  /-- Make the directories that lead to a path. -/
  makeParents : FilePath → Except Failure Unit
  /-- Open a path to write a file there, with its directories made. -/
  openFile : FilePath → Except Failure Unit

/-! ## Places -/

/-- Where the names of a place are counted from. -/
inductive Base where
  | folder
  /-- So many levels above the folder. -/
  | above (levels : Nat)
  | root
deriving DecidableEq, Repr

/-- A place in the tree of directories around a folder: the names that lead there. -/
structure Place where
  base : Base
  names : List (List Char)
deriving DecidableEq, Repr

/-- The part of a path that leads back. -/
def parentPart : List Char := ['.', '.']

namespace Place

/-- The place that a place is in. The root is in itself. -/
def parent (p : Place) : Place :=
  match p.names, p.base with
  | _ :: _, base => ⟨base, p.names.dropLast⟩
  | [], .folder => ⟨.above 1, []⟩
  | [], .above n => ⟨.above (n + 1), []⟩
  | [], .root => p

/-- The place that a part of a path leads to. -/
def step (p : Place) (part : List Char) : Place :=
  if part = parentPart then p.parent else { p with names := p.names ++ [part] }

end Place

/-- The place that a path starts from. -/
def FilePath.base (p : FilePath) : Place :=
  ⟨if p.slashes = 0 then .folder else .root, []⟩

/-! ## Line ends -/

/-- A text with a line feed for every line end: for a carriage return as well, and for both
together. -/
def unifyLineEnds : List Char → List Char
  | [] => []
  | '\r' :: '\n' :: cs => '\n' :: unifyLineEnds cs
  | '\r' :: cs => '\n' :: unifyLineEnds cs
  | c :: cs => c :: unifyLineEnds cs

/-- A text with its line ends made alike. -/
def withLineFeeds (text : String) : String :=
  String.ofList (unifyLineEnds text.toList)

/-! ## Folders -/

/-- The files of a folder, and the directories that have been made. -/
structure Folder where
  files : List (Place × String)
  made : List Place

namespace Folder

/-- The text of the file at a place, as it is. -/
def find? (f : Folder) (place : Place) : Option String :=
  f.files.lookup place

def isFile (f : Folder) (place : Place) : Bool :=
  (f.find? place).isSome

/-- Whether a file is in a place or in a directory there. -/
def holdsFile (f : Folder) (place : Place) : Bool :=
  f.files.any fun (other, _) =>
    other.base = place.base && other ≠ place && place.names.isPrefixOf other.names

def isDirectory (f : Folder) (place : Place) : Bool :=
  place.names.isEmpty || f.made.contains place || f.holdsFile place

/-- Why a path leads to no place. -/
inductive Obstacle where
  /-- Nothing is where a directory has to lead on. -/
  | missing
  /-- A file is where a directory has to lead on. -/
  | file
  /-- The path or a part of it has too many octets. -/
  | length
deriving DecidableEq, Repr

/-- The place that parts of a path lead to from another. What they go through has to be a
directory. -/
def walkFrom (f : Folder) : Place → List (List Char) → Except Obstacle Place
  | here, [] => .ok here
  | here, part :: rest =>
    if f.isDirectory here then
      if FilePath.isPartTooLong part then .error .length else f.walkFrom (here.step part) rest
    else if f.isFile here then .error .file
    else .error .missing

/-- The place that a path leads to. -/
def walk (f : Folder) (p : FilePath) : Except Obstacle Place :=
  if p.isTooLong then .error .length else f.walkFrom p.base p.parts

/-- What an obstacle on the way along a path makes of writing there. -/
def Obstacle.toFailure (p : FilePath) : Obstacle → Failure
  | length => .pathTooLong p
  | missing | file => .notADirectory p

/-- The folder with files of these paths. -/
def ofList (files : List (String × String)) : Folder :=
  { files := files.map fun (path, text) =>
      let p := FilePath.parse path.toList
      (p.parts.foldl Place.step p.base, text)
    made := [] }

/-- The text of the file that a path leads to. -/
def text? (f : Folder) (path : String) : Option String :=
  match f.walk (.parse path.toList) with
  | .ok place => (f.find? place).map withLineFeeds
  | .error _ => none

/-! ## Writing -/

/-- Make a directory at a place that a path leads to, unless it is there. -/
def addDirectory (f : Folder) (p : FilePath) (place : Place) : Except Failure Folder :=
  if f.isDirectory place then .ok f
  else if f.isFile place then .error (.fileExists p)
  else .ok { f with made := place :: f.made }

/-- Make the directory of a path, and before it those that lead there. -/
def makeDirectory (f : Folder) (p : FilePath) : Nat → Except Failure Folder
  | 0 => .ok f
  | depth + 1 =>
    match f.walk p with
    | .ok place => f.addDirectory p place
    | .error .missing => do
      let f ← f.makeDirectory p.parent depth
      match f.walk p with
      | .ok place => f.addDirectory p place
      | .error obstacle => .error (obstacle.toFailure p)
    | .error obstacle => .error (obstacle.toFailure p)

/-- Make the directories that lead to a path. -/
def makeParents (f : Folder) (p : FilePath) : Except Failure Folder :=
  f.makeDirectory p.parent (p.parts.length + 1)

/-- The place where a file is written that a path leads to, with its directories made. -/
def openFile (f : Folder) (p : FilePath) : Except Failure Place := do
  let f ← f.makeParents p
  match f.walk p with
  | .error obstacle => .error (obstacle.toFailure p)
  | .ok place => if f.isDirectory place then .error (.isADirectory p) else .ok place

/-- The files of a folder as a command sees them. -/
def toFiles (f : Folder) : Files where
  text? := f.text?
  makeParents p := (f.makeParents p).map fun _ => ()
  openFile p := (f.openFile p).map fun _ => ()

end Folder

end WallPanel
