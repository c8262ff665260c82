import WallPanel.CommandLine.Perform
import WallPanel.Drawing.Exchange

/-!
# The command-line tool

Reads the files that are asked for, lets `commandLine` answer, and writes what the answer says.
-/

namespace WallPanel

/-- The text of a file, if it can be read. -/
def readText (path : String) : IO (Option String) := do
  try
    let text ← IO.FS.readFile path
    return some (withLineFeeds text)
  catch _ => return none

/-- The files that arguments ask for. Whether a file can be written is found out by writing it. -/
def readFiles (args : List String) : IO Files := do
  let paths := match Invocation.ofArguments? args with
    | some i => i.request.reads
    | none => []
  let texts ← paths.mapM fun path => return (path, ← readText path)
  return {
    text? := fun path => (texts.lookup path).join
    makeParents := fun _ => .ok ()
    openFile := fun _ => .ok () }

/-- The text that is written to a file. -/
def Content.toText : Content → String
  | text s => s
  | drawing d => d.exchangeText

/-- Write a file, with the directories that lead to it. -/
def writeContent (path : FilePath) (content : Content) : IO Unit := do
  IO.FS.createDirAll (String.ofList path.parent.render)
  IO.FS.writeFile (String.ofList path.render) content.toText

/-- How the tool is called. -/
def usageText : String :=
  "usage: [-v] parse|preview|export-dxf|check|translate|delete --inp FILE [options]\n"

end WallPanel

open WallPanel in
/-- Answer the command line. -/
def main (args : List String) : IO UInt32 := do
  let answer := commandLine args (← readFiles args)
  match answer.written with
  | some (path, content) => writeContent path content
  | none => pure ()
  IO.print answer.output
  IO.eprint answer.errors
  if answer.exitCode = Outcome.usageCode then IO.eprint usageText
  match answer.failure with
  | some failure => IO.eprint (failure.message ++ "\n")
  | none => pure ()
  return answer.exitCode.toUInt32
